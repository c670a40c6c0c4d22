/- TheNews/Transition/Product
   digest: Two systems side by side, with the actions they share: a run of both is
   any interleaving of a run of each. -/

import Mathlib.Data.List.Induction
import TheNews.Transition.Simulation

set_option autoImplicit false
set_option relaxedAutoImplicit false

namespace TheNews.Transition.Runs

universe u v w x y
variable {σ : Type u} {α : Type v} {τ : Type w} {β : Type x} {κ : Type y}

/-- A system moves if it takes part in the action and stays otherwise. -/
def TakesPart (R : σ → α → σ → Prop) : σ → Option α → σ → Prop
  | s, some a, s' => R s a s'
  | s, none, s' => s' = s

/-- Each action of the whole is one of the left system, one of the right, or both. -/
def Together (R : σ → α → σ → Prop) (Q : τ → β → τ → Prop) (left : κ → Option α)
    (right : κ → Option β) (s : σ × τ) (k : κ) (s' : σ × τ) : Prop :=
  TakesPart R s.1 (left k) s'.1 ∧ TakesPart Q s.2 (right k) s'.2

private theorem steps_part {R : σ → α → σ → Prop} {s s' : σ} {actions : List α} {o : Option α} :
    Steps R s (actions ++ o.toList) s' ↔
      ∃ between, Steps R s actions between ∧ TakesPart R between o s' := by
  cases o with
  | none => simp [TakesPart]
  | some a => exact steps_concat_iff

private theorem filterMap_concat (f : κ → Option α) (actions : List κ) (k : κ) :
    (actions ++ [k]).filterMap f = actions.filterMap f ++ (f k).toList := by
  cases part : f k <;> simp [part]

theorem steps_together_iff {R : σ → α → σ → Prop} {Q : τ → β → τ → Prop} {left : κ → Option α}
    {right : κ → Option β} {s : σ × τ} {actions : List κ} {s' : σ × τ} :
    Steps (Together R Q left right) s actions s' ↔
      Steps R s.1 (actions.filterMap left) s'.1 ∧ Steps Q s.2 (actions.filterMap right) s'.2 := by
  induction actions using List.reverseRecOn generalizing s' with
  | nil => simp [steps_nil_iff, Prod.ext_iff]
  | append_singleton actions k ih =>
    rw [steps_concat_iff, filterMap_concat, filterMap_concat, steps_part, steps_part]
    constructor
    · rintro ⟨between, prior, one, other⟩
      obtain ⟨first, second⟩ := ih.mp prior
      exact ⟨⟨_, first, one⟩, ⟨_, second, other⟩⟩
    · rintro ⟨⟨here, first, one⟩, ⟨there, second, other⟩⟩
      exact ⟨(here, there), ih.mpr ⟨first, second⟩, one, other⟩

section View
variable {R : σ → α → σ → Prop} {Q : τ → α → τ → Prop} {view : σ → τ} {I : σ → Prop} {s s' : σ}
  {actions : List α}

private theorem steps_lift (moves : ∀ s a t, I s → (Q (view s) a t ↔ ∃ s', R s a s' ∧ view s' = t))
    (keeps : ∀ s a s', I s → R s a s' → I s') (start : I s) {t : τ}
    (steps : Steps Q (view s) actions t) : ∃ s', Steps R s actions s' ∧ I s' ∧ view s' = t := by
  induction steps with
  | refl => exact ⟨s, .refl, start, rfl⟩
  | tail _ move ih =>
    obtain ⟨between, prior, here, rfl⟩ := ih
    obtain ⟨after, move', rfl⟩ := (moves _ _ _ here).mp move
    exact ⟨after, prior.tail move', keeps _ _ _ here move', rfl⟩

/-- A view that has exactly the moves of the system, in the states that satisfy
`I`, has exactly its runs. -/
theorem steps_view_iff (injective : ∀ s s', I s → I s' → view s = view s' → s = s')
    (moves : ∀ s a t, I s → (Q (view s) a t ↔ ∃ s', R s a s' ∧ view s' = t))
    (keeps : ∀ s a s', I s → R s a s' → I s') (start : I s) :
    Steps R s actions s' ↔ I s' ∧ Steps Q (view s) actions (view s') := by
  constructor
  · intro steps
    induction steps with
    | refl => exact ⟨start, .refl⟩
    | tail _ move ih =>
      obtain ⟨held, before⟩ := ih
      exact ⟨keeps _ _ _ held move, before.tail ((moves _ _ _ held).mpr ⟨_, move, rfl⟩)⟩
  · rintro ⟨held, steps⟩
    obtain ⟨other, steps', held', same⟩ := steps_lift moves keeps start steps
    exact injective other s' held' held same ▸ steps'

end View

end TheNews.Transition.Runs
