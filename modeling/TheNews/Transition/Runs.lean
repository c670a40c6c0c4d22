/- TheNews/Transition/Runs
   digest: Finite runs of a partial step function, with one rule for invariants
   and one for properties that hold exactly when every step meets a condition. -/

import Mathlib.Data.List.Basic

set_option autoImplicit false
set_option relaxedAutoImplicit false

namespace TheNews.Transition.Runs

universe u v w
variable {σ : Type u} {α : Type v} {β : Type w}

/-- The answer of a step function: the environment cannot take the action in
this state, the program traps, or it moves on. -/
inductive Outcome (σ : Type u) where
  | blocked
  | trapped
  | next (state : σ)
  deriving DecidableEq, Repr

def Outcome.map {τ : Type v} (f : σ → τ) : Outcome σ → Outcome τ
  | .blocked => .blocked
  | .trapped => .trapped
  | .next s => .next (f s)

theorem Outcome.map_eq_next {τ : Type v} {f : σ → τ} {o : Outcome σ} {t : τ} :
    o.map f = .next t ↔ ∃ s, o = .next s ∧ f s = t := by
  cases o <;> simp [Outcome.map]

theorem Outcome.map_eq_trapped {τ : Type v} {f : σ → τ} {o : Outcome σ} :
    o.map f = .trapped ↔ o = .trapped := by
  cases o <;> simp [Outcome.map]

/-- The trace keeps every action together with the state it was taken in. -/
abbrev Trace (σ : Type u) (α : Type v) := List (σ × α)

/-- A blocked action is not part of any run, and a trap ends it. -/
inductive Run (step : σ → α → Outcome σ) (start : σ) : Trace σ α → σ → Prop where
  | refl : Run step start [] start
  | tail {trace : Trace σ α} {s t : σ} {a : α} :
      Run step start trace s → step s a = .next t → Run step start (trace ++ [(s, a)]) t

/-- `P` at every state the run visits, the last one included; `P` may look at
the trace up to that state. -/
def Throughout (P : Trace σ α → σ → Prop) (trace : Trace σ α) (s : σ) : Prop :=
  (∀ pre x, pre ++ [x] <+: trace → P pre x.1) ∧ P trace s

/-- `C` at every step of the trace, judged by the state before the step. -/
def EveryStep (C : Trace σ α → σ → α → Prop) (trace : Trace σ α) : Prop :=
  ∀ pre x, pre ++ [x] <+: trace → C pre x.1 x.2

/-- What the last action that sets a value has set it to. -/
def latest (sets : α → Option β) (trace : Trace σ α) : Option β :=
  (trace.filterMap fun x => sets x.2).getLast?

theorem throughout_tail {P : Trace σ α → σ → Prop} {trace : Trace σ α} {s t : σ} {a : α} :
    Throughout P (trace ++ [(s, a)]) t ↔
      Throughout P trace s ∧ P (trace ++ [(s, a)]) t := by
  constructor
  · rintro ⟨before, last⟩
    refine ⟨⟨?_, before trace (s, a) List.prefix_rfl⟩, last⟩
    intro pre x visited
    exact before pre x (visited.trans (List.prefix_append _ _))
  · rintro ⟨⟨before, here⟩, last⟩
    refine ⟨?_, last⟩
    intro pre x visited
    rcases List.prefix_concat_iff.mp visited with same | earlier
    · obtain ⟨rfl, rfl⟩ := List.append_singleton_inj.mp same
      exact here
    · exact before pre x earlier

theorem everyStep_tail {C : Trace σ α → σ → α → Prop} {trace : Trace σ α} {s : σ} {a : α} :
    EveryStep C (trace ++ [(s, a)]) ↔ EveryStep C trace ∧ C trace s a := by
  constructor
  · intro every
    refine ⟨?_, every trace (s, a) List.prefix_rfl⟩
    intro pre x taken
    exact every pre x (taken.trans (List.prefix_append _ _))
  · rintro ⟨every, last⟩ pre x taken
    rcases List.prefix_concat_iff.mp taken with same | earlier
    · obtain ⟨rfl, rfl⟩ := List.append_singleton_inj.mp same
      exact last
    · exact every pre x earlier

@[simp] theorem throughout_nil {P : Trace σ α → σ → Prop} {s : σ} :
    Throughout P [] s ↔ P [] s := by
  simp [Throughout]

@[simp] theorem everyStep_nil {C : Trace σ α → σ → α → Prop} :
    EveryStep C ([] : Trace σ α) := by
  simp [EveryStep]

theorem everyStep_iff_forall {C : σ → α → Prop} {trace : Trace σ α} :
    EveryStep (fun _ => C) trace ↔ ∀ x ∈ trace, C x.1 x.2 := by
  constructor
  · intro every x member
    obtain ⟨pre, post, split⟩ := List.append_of_mem member
    exact every pre x ⟨post, by simp [split]⟩
  · rintro all pre x ⟨post, split⟩
    exact all x (by simp [← split])

@[simp] theorem latest_tail {sets : α → Option β} {trace : Trace σ α} {s : σ} {a : α} :
    latest sets (trace ++ [(s, a)]) = (sets a).or (latest sets trace) := by
  cases told : sets a <;> simp [latest, told]

namespace Run
variable {step : σ → α → Outcome σ} {start s : σ} {trace : Trace σ α}

theorem invariant (I : Trace σ α → σ → Prop) (initial : I [] start)
    (keep : ∀ h s a t, I h s → step s a = .next t → I (h ++ [(s, a)]) t)
    (run : Run step start trace s) : I trace s := by
  induction run with
  | refl => exact initial
  | tail _ move ih => exact keep _ _ _ _ ih move

theorem state_invariant (I : σ → Prop) (initial : I start)
    (keep : ∀ s a t, I s → step s a = .next t → I t)
    (run : Run step start trace s) : I s :=
  run.invariant (fun _ => I) initial (fun _ => keep)

theorem eq_latest {sets : α → Option β} (value : σ → β)
    (keep : ∀ h s a t, Run step start h s → step s a = .next t →
      value t = (sets a).getD (value s))
    (run : Run step start trace s) : value s = (latest sets trace).getD (value start) := by
  induction run with
  | refl => rfl
  | tail prior move ih =>
    rename_i a
    rw [keep _ _ _ _ prior move, ih, latest_tail]
    cases sets a <;> rfl

theorem start_of_throughout {P : Trace σ α → σ → Prop} (run : Run step start trace s)
    (through : Throughout P trace s) : P [] start := by
  induction run with
  | refl => exact throughout_nil.mp through
  | tail _ _ ih => exact ih (throughout_tail.mp through).1

/-- If one step keeps `P` exactly when it meets `C`, a whole run keeps `P` at
every state it visits exactly when all its steps meet `C`. -/
theorem throughout_iff {P : Trace σ α → σ → Prop} {C : Trace σ α → σ → α → Prop}
    (initial : P [] start)
    (exact_step : ∀ h s a t, Run step start h s → P h s → step s a = .next t →
      (P (h ++ [(s, a)]) t ↔ C h s a))
    (run : Run step start trace s) : Throughout P trace s ↔ EveryStep C trace := by
  induction run with
  | refl => simpa using initial
  | tail prior move ih =>
    rw [throughout_tail, everyStep_tail]
    constructor
    · rintro ⟨before, last⟩
      exact ⟨ih.mp before, (exact_step _ _ _ _ prior before.2 move).mp last⟩
    · rintro ⟨before, last⟩
      have through := ih.mpr before
      exact ⟨through, (exact_step _ _ _ _ prior through.2 move).mpr last⟩

end Run

/-- Take a list of actions one after another, as long as none is refused. -/
def replay (step : σ → α → Outcome σ) (trace : Trace σ α) (s : σ) :
    List α → Option (Trace σ α × σ)
  | [] => some (trace, s)
  | a :: rest => match step s a with
    | .next t => replay step (trace ++ [(s, a)]) t rest
    | _ => none

private theorem replay_continues {step : σ → α → Outcome σ} {start s : σ} {trace : Trace σ α}
    {actions : List α} {result : Trace σ α × σ} (prior : Run step start trace s)
    (done : replay step trace s actions = some result) : Run step start result.1 result.2 := by
  induction actions generalizing trace s with
  | nil =>
    obtain rfl := Option.some.inj done
    exact prior
  | cons a rest ih =>
    cases move : step s a with
    | next t => exact ih (prior.tail move) (by simpa [replay, move] using done)
    | blocked => simp [replay, move] at done
    | trapped => simp [replay, move] at done

theorem Run.replay {step : σ → α → Outcome σ} {start : σ} {result : Trace σ α × σ}
    (actions : List α) (done : Runs.replay step [] start actions = some result) :
    Run step start result.1 result.2 :=
  replay_continues .refl done

end TheNews.Transition.Runs
