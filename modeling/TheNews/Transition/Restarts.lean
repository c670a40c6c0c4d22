/- TheNews/Transition/Restarts
   digest: A component that some actions of the system start anew: since then it has
   run on its own, by the actions that concern it. -/

import TheNews.Transition.Runs

set_option autoImplicit false
set_option relaxedAutoImplicit false

namespace TheNews.Transition.Runs

universe u v w x
variable {σ : Type u} {α : Type v} {τ : Type w} {β : Type x}

/-- The steps of the component since it was started last. -/
def since (restarts : α → Bool) (part : σ → α → Option (τ × β)) (trace : Trace σ α) : Trace τ β :=
  trace.foldl (fun taken x => if restarts x.2 then [] else taken ++ (part x.1 x.2).toList) []

@[simp] theorem since_tail {restarts : α → Bool} {part : σ → α → Option (τ × β)}
    {trace : Trace σ α} {s : σ} {a : α} : since restarts part (trace ++ [(s, a)]) =
      if restarts a then [] else since restarts part trace ++ (part s a).toList := by
  simp [since]

/-- What a step of the system does to its component, if that is up afterwards. -/
inductive ComponentStep (restarts : α → Bool) (part : σ → α → Option (τ × β))
    (view : σ → Option τ) (started : τ → Prop) (move : τ → β → Outcome τ) (s : σ) (a : α) :
    τ → Prop where
  | restart {t : τ} (restarting : restarts a = true) (fresh : started t) :
      ComponentStep restarts part view started move s a t
  | idle {t : τ} (running : restarts a = false) (none : part s a = none)
      (before : view s = some t) :
      ComponentStep restarts part view started move s a t
  | step {t t' : τ} {b : β} (running : restarts a = false) (taken : part s a = some (t, b))
      (before : view s = some t) (moved : move t b = .next t') :
      ComponentStep restarts part view started move s a t'

/-- If every step of the system treats the component so, the component is at the end
of a run of its own from where it was started last. -/
theorem Run.since {step : σ → α → Outcome σ} {start s : σ} {trace : Trace σ α}
    {restarts : α → Bool} {part : σ → α → Option (τ × β)} {view : σ → Option τ}
    {started : τ → Prop} {move : τ → β → Outcome τ} (run : Run step start trace s)
    (first : ∀ t, view start = some t → started t)
    (steps : ∀ h s a s' t, Run step start h s → step s a = .next s' → view s' = some t →
      ComponentStep restarts part view started move s a t) {t : τ} (up : view s = some t) :
    ∃ t₀, started t₀ ∧ Run move t₀ (since restarts part trace) t := by
  induction run generalizing t with
  | refl => exact ⟨t, first t up, .refl⟩
  | tail prior moved ih =>
    rw [since_tail]
    cases steps _ _ _ _ _ prior moved up with
    | restart restarting fresh =>
      rw [if_pos restarting]
      exact ⟨t, fresh, .refl⟩
    | idle running none before =>
      obtain ⟨t₀, fresh, run⟩ := ih before
      rw [running, none]
      exact ⟨t₀, fresh, by simpa using run⟩
    | step running taken before moved =>
      obtain ⟨t₀, fresh, run⟩ := ih before
      rw [running, taken]
      exact ⟨t₀, fresh, run.tail moved⟩

end TheNews.Transition.Runs
