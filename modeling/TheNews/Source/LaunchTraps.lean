/- TheNews/Source/LaunchTraps
   digest: Whatever UserDefaults holds, the source screen can only trap when it first
   reads it, and does so exactly if a saved title has no URL. -/

import TheNews.Source.RowBounds

set_option autoImplicit false
set_option relaxedAutoImplicit false

namespace TheNews.Source.LaunchTraps

open TheNews.Transition.Runs TheNews.UserDefault UserDefaultManager
open RowBounds

/-- Every saved title has a URL, with the fallback of each column. -/
def Paired (d : UserDefaults) : Prop :=
  (getSourcesTitle d).length ≤ (getSourcesURL d).length

variable {count : String → Nat}

theorem loadSources_isSome (d : UserDefaults) :
    (∃ loaded, ({} : SourceViewModel).loadSources d = some loaded) ↔ Paired d := by
  rw [SourceViewModel.loadSources_eq, Paired]
  split <;> simp_all

theorem paired_step {s t : SourceScreen} {a : SourceAction}
    (before : Paired s.userDefaults) (move : s.step count a = .next t) :
    Paired t.userDefaults := by
  obtain ⟨told, effect⟩ := SourceScreen.step_effect move
  cases effect with
  | launch loaded load => exact before
  | quiet vc quiet same => exact before
  | save alert vc newSource shown enabled read added =>
    rw [Paired, SourceViewModel.saveSourcesInUserDefaults_eq, getSourcesTitle_saveSources,
      getSourcesURL_saveSources, List.length_map, List.length_map]
  | select row vc source newSource there copied marked => exact before
  | delete row vc there removed => exact (columns_of_absent (value_clearUserData _)).le

theorem counted_ne_trapped {s : SourceScreen} (counted : Counted s) {a : SourceAction}
    (other : a ≠ .launch) : s.step count a ≠ .trapped := by
  intro trapped
  exact other (launch_of_trapped (row_of_counted counted) (deleteRows_of_counted counted) trapped).1

/-- A launch finds no URL for a saved title, or it succeeds, and then no action of any
run after it traps, launches included. -/
theorem launched_or_trapped (count : String → Nat) (d : UserDefaults) :
    (SourceScreen.launched d = none ↔ (getSourcesURL d).length < (getSourcesTitle d).length) ∧
      ∀ (s₀ : SourceScreen), SourceScreen.launched d = some s₀ →
        ∀ (trace : Trace SourceScreen SourceAction) (s : SourceScreen),
          Run (SourceScreen.step count) s₀ trace s → ∀ a, s.step count a ≠ .trapped := by
  have loads : (∃ s₀, SourceScreen.launched d = some s₀) ↔ Paired d := by
    rw [← loadSources_isSome]
    simp [SourceScreen.launched_eq_some]
  refine ⟨?_, ?_⟩
  · rw [← not_le, ← Paired, ← loads, ← Option.isSome_iff_exists, Option.not_isSome_iff_eq_none]
  · intro s₀ launched trace s run a trapped
    have paired := loads.mp ⟨s₀, launched⟩
    obtain ⟨loaded, load, rfl⟩ := SourceScreen.launched_eq_some.mp launched
    have both := run.state_invariant (fun s => Paired s.userDefaults ∧ Counted s)
      ⟨paired, .inl rfl⟩ fun _ _ _ before move =>
        ⟨paired_step before.1 move, counted_step before.2 move⟩
    obtain ⟨-, unloaded⟩ :=
      launch_of_trapped (row_of_counted both.2) (deleteRows_of_counted both.2) trapped
    obtain ⟨again, load⟩ := (loadSources_isSome _).mpr both.1
    rw [unloaded] at load
    cases load

theorem launched_or_trapped_unpaired :
    SourceScreen.launched (saveSources (fun _ => none) ["Banki.ru", "Finam.ru"] []) = none ∧
      ∃ s₀, SourceScreen.launched (saveSources (fun _ => none) [] [getBankiURlString]) = some s₀ ∧
        ∀ (trace : Trace SourceScreen SourceAction) (s : SourceScreen),
          Run (SourceScreen.step String.length) s₀ trace s →
            ∀ a, s.step String.length a ≠ .trapped := by
  let fewer := saveSources (fun _ => none) [] [getBankiURlString]
  refine ⟨(launched_or_trapped String.length _).1.mpr (by decide), _, rfl, ?_⟩
  exact (launched_or_trapped String.length fewer).2 _ rfl

end TheNews.Source.LaunchTraps
