/- TheNews/Transition/Simulation
   digest: Runs of a transition relation by their actions alone, and the rule that
   carries a run of one system over to another, action by action. -/

import TheNews.Transition.Runs

set_option autoImplicit false
set_option relaxedAutoImplicit false

namespace TheNews.Transition.Runs

universe u v w x
variable {σ : Type u} {α : Type v} {τ : Type w} {β : Type x}

/-- The relation takes the actions one after another. -/
inductive Steps (R : τ → β → τ → Prop) (start : τ) : List β → τ → Prop where
  | refl : Steps R start [] start
  | tail {actions : List β} {t t' : τ} {b : β} :
      Steps R start actions t → R t b t' → Steps R start (actions ++ [b]) t'

namespace Steps
variable {R : τ → β → τ → Prop} {t t' t'' : τ} {actions rest : List β}

theorem single {b : β} (move : R t b t') : Steps R t [b] t' :=
  have start : Steps R t [] t := .refl
  start.tail move

theorem trans (first : Steps R t actions t') (second : Steps R t' rest t'') :
    Steps R t (actions ++ rest) t'' := by
  induction second with
  | refl => simpa using first
  | tail _ move ih => simpa using ih.tail move

end Steps

theorem steps_concat_iff {R : τ → β → τ → Prop} {t t' : τ} {actions : List β} {b : β} :
    Steps R t (actions ++ [b]) t' ↔ ∃ between, Steps R t actions between ∧ R between b t' := by
  constructor
  · intro steps
    generalize split : actions ++ [b] = all at steps
    cases steps with
    | refl => simp at split
    | tail prior move =>
      obtain ⟨rfl, rfl⟩ := List.append_singleton_inj.mp split
      exact ⟨_, prior, move⟩
  · rintro ⟨between, prior, move⟩
    exact prior.tail move

theorem steps_nil_iff {R : τ → β → τ → Prop} {t t' : τ} : Steps R t [] t' ↔ t' = t := by
  constructor
  · intro steps
    generalize none_left : ([] : List β) = all at steps
    cases steps with
    | refl => rfl
    | tail prior move => simp at none_left
  · rintro rfl
    exact .refl

theorem steps_single_iff {R : τ → β → τ → Prop} {t t' : τ} {b : β} :
    Steps R t [b] t' ↔ R t b t' := by
  rw [← List.nil_append [b], steps_concat_iff]
  simp [steps_nil_iff]

/-- The moves of a step function as a relation. -/
def Moves (step : σ → α → Outcome σ) (s : σ) (a : α) (t : σ) : Prop := step s a = .next t

theorem Run.trans {step : σ → α → Outcome σ} {start s t : σ} {first second : Trace σ α}
    (before : Run step start first s) (after : Run step s second t) :
    Run step start (first ++ second) t := by
  induction after with
  | refl => simpa using before
  | tail _ move ih =>
    rw [← List.append_assoc]
    exact ih.tail move

/-- Where each move of a run is answered by moves of another system that keep the
two states related, the whole run is. -/
theorem Run.simulated {step : σ → α → Outcome σ} {start s : σ} {trace : Trace σ α}
    {R : τ → β → τ → Prop} {start' : τ} (related : σ → τ → Prop) (answer : σ → α → List β)
    (initial : related start start')
    (answered : ∀ h s a t s', Run step start h s → related s s' → step s a = .next t →
      ∃ t', Steps R s' (answer s a) t' ∧ related t t')
    (run : Run step start trace s) :
    ∃ s', Steps R start' (trace.flatMap fun x => answer x.1 x.2) s' ∧ related s s' := by
  induction run with
  | refl => exact ⟨start', .refl, initial⟩
  | tail prior move ih =>
    obtain ⟨s', steps, here⟩ := ih
    obtain ⟨t', further, there⟩ := answered _ _ _ _ _ prior here move
    exact ⟨t', by simpa using steps.trans further, there⟩

end TheNews.Transition.Runs
