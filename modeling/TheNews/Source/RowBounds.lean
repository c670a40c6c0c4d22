/- TheNews/Source/RowBounds
   digest: No run of the source screen traps: the two saved arrays keep one length
   and the table knows no row that the list does not have. -/

import TheNews.Source.SourceViewController

set_option autoImplicit false
set_option relaxedAutoImplicit false

namespace TheNews.Source.RowBounds

open TheNews.Transition.Runs TheNews.UserDefault UserDefaultManager

variable {count : String → Nat}

/-- Every index the screen can use next is in bounds, and a deletion leaves as
many sources as UIKit expects rows. -/
structure InBounds (s : SourceScreen) : Prop where
  url : ∀ i < (getSourcesTitle s.userDefaults).length, i < (getSourcesURL s.userDefaults).length
  row : ∀ row < s.controller.rowCount, row < s.controller.viewModel.sources.length
  deleteRows : ∀ row < s.controller.rowCount,
    s.controller.rowCount - 1 = (s.controller.viewModel.sources.eraseIdx row).length

/-- The two arrays a launch would read have one length, although each getter has
a fallback of its own. -/
def Columns (d : UserDefaults) : Prop :=
  (getSourcesTitle d).length = (getSourcesURL d).length

/-- The table has read no row yet, or as many as there are sources. -/
def Counted (s : SourceScreen) : Prop :=
  s.controller.rowCount = 0 ∨ s.controller.rowCount = s.controller.viewModel.sources.length

theorem columns_of_absent {d : UserDefaults} (absent : d.value userSessionKey = none) :
    Columns d := by
  obtain ⟨titles, urls⟩ := getSources_of_absent absent
  rw [Columns, titles, urls]
  rfl

private theorem columns_step {s t : SourceScreen} {a : SourceAction}
    (before : Columns s.userDefaults) (move : s.step count a = .next t) :
    Columns t.userDefaults := by
  obtain ⟨told, effect⟩ := SourceScreen.step_effect move
  cases effect with
  | launch loaded load => exact before
  | quiet vc quiet same => exact before
  | save alert vc newSource shown enabled read added =>
    rw [Columns, SourceViewModel.saveSourcesInUserDefaults_eq, getSourcesTitle_saveSources,
      getSourcesURL_saveSources, List.length_map, List.length_map]
  | select row vc source newSource there copied marked => exact before
  | delete row vc there removed => exact columns_of_absent (value_clearUserData _)

theorem counted_step {s t : SourceScreen} {a : SourceAction} (before : Counted s)
    (move : s.step count a = .next t) : Counted t := by
  cases SourceScreen.step_display move with
  | fresh unread closed => exact .inl unread
  | alert only checked =>
    rw [Counted, only]
    exact before
  | still same => rwa [same]
  | reload counted alert => exact .inr counted

theorem row_of_counted {s : SourceScreen} (counted : Counted s) :
    ∀ row < s.controller.rowCount, row < s.controller.viewModel.sources.length := by
  intro row shown
  rcases counted with unread | counted <;> omega

theorem deleteRows_of_counted {s : SourceScreen} (counted : Counted s) :
    ∀ row < s.controller.rowCount,
      s.controller.rowCount - 1 = (s.controller.viewModel.sources.eraseIdx row).length := by
  intro row shown
  rcases counted with unread | counted
  · omega
  · rw [counted, List.length_eraseIdx_of_lt (counted ▸ shown)]

theorem inBounds {s : SourceScreen} (columns : Columns s.userDefaults)
    (counted : Counted s) : InBounds s where
  url := by
    intro i bound
    rwa [← columns]
  row := row_of_counted counted
  deleteRows := deleteRows_of_counted counted

private theorem loadSources_some {d : UserDefaults} (columns : Columns d) :
    ∃ loaded, ({} : SourceViewModel).loadSources d = some loaded := by
  rw [SourceViewModel.loadSources_eq, if_pos columns.le]
  exact ⟨_, rfl⟩

theorem launch_of_trapped {s : SourceScreen} {a : SourceAction}
    (rows : ∀ row < s.controller.rowCount, row < s.controller.viewModel.sources.length)
    (deleteRows : ∀ row < s.controller.rowCount,
      s.controller.rowCount - 1 = (s.controller.viewModel.sources.eraseIdx row).length)
    (trapped : s.step count a = .trapped) :
    a = .launch ∧ ({} : SourceViewModel).loadSources s.userDefaults = none := by
  cases SourceScreen.performs_of_trapped trapped with
  | launchTraps load => exact ⟨rfl, load⟩
  | cellTraps row counted past =>
    have there := rows row counted
    omega
  | selectTraps row counted past =>
    have there := rows row counted
    omega
  | deleteTraps row counted differs =>
    have left := deleteRows row counted
    exact absurd (by omega) (differs (rows row counted))

theorem step_ne_trapped {s : SourceScreen} (columns : Columns s.userDefaults)
    (bounds : InBounds s) (a : SourceAction) : s.step count a ≠ .trapped := by
  intro trapped
  obtain ⟨-, unloaded⟩ := launch_of_trapped bounds.row bounds.deleteRows trapped
  obtain ⟨loaded, load⟩ := loadSources_some columns
  rw [unloaded] at load
  cases load

/-- From a store without the key, the first launch and every run after it stay
within the bounds, and no action can trap in any state they reach. -/
theorem untrapped {d : UserDefaults} (absent : d.value userSessionKey = none) :
    ∃ s₀, SourceScreen.launched d = some s₀ ∧
      ∀ (trace : Trace SourceScreen SourceAction) (s : SourceScreen),
        Run (SourceScreen.step count) s₀ trace s →
          InBounds s ∧ ∀ a, s.step count a ≠ .trapped := by
  have columns := columns_of_absent absent
  obtain ⟨loaded, load⟩ := loadSources_some columns
  refine ⟨_, SourceScreen.launched_eq_some.mpr ⟨loaded, load, rfl⟩, fun trace s run => ?_⟩
  have both := run.state_invariant (fun s => Columns s.userDefaults ∧ Counted s)
    ⟨columns, .inl rfl⟩ fun _ _ _ before move =>
      ⟨columns_step before.1 move, counted_step before.2 move⟩
  have bounds := inBounds both.1 both.2
  exact ⟨bounds, step_ne_trapped both.1 bounds⟩

theorem untrapped_empty :
    ∃ s₀, SourceScreen.launched (fun _ => none) = some s₀ ∧
      ∀ (trace : Trace SourceScreen SourceAction) (s : SourceScreen),
        Run (SourceScreen.step String.length) s₀ trace s →
          InBounds s ∧ ∀ a, s.step String.length a ≠ .trapped :=
  untrapped rfl

end TheNews.Source.RowBounds
