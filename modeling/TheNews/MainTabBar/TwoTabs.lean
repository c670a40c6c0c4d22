/- TheNews/MainTabBar/TwoTabs
   digest: The app is its two tabs side by side: its runs are the interleavings of
   their runs, launches apart, which they take together. -/

import TheNews.MainTabBar.MainTabBarController
import TheNews.Transition.Product

set_option autoImplicit false
set_option relaxedAutoImplicit false

namespace TheNews.MainTabBar.TwoTabs

open TheNews.Transition.Runs TheNews.Extensions TheNews.NewsFeed
open TheNews.Source (SourceModel SourceViewModel SourceViewController SourceScreen SourceAction)
open TheNews.UserDefault (UserDefaults)

inductive FeedTabAction where
  | launch
  | act (a : FeedAction)
  deriving DecidableEq, Repr

inductive SourceTabAction where
  | launch
  | openSource
  | act (a : SourceAction)
  deriving DecidableEq, Repr

/-- The source tab with the store. -/
structure SourceTab where
  userDefaults : UserDefaults
  source : Option SourceViewController := none

variable (foundation : Foundation) (count : String → Nat)

/-- The feed without the source screen; the user cannot call updateSource. -/
def feedTab (s : FeedScreen) : FeedTabAction → Outcome FeedScreen
  | .launch => .next (FeedScreen.viewDidLoad foundation)
  | .act (.updateSource _) => .blocked
  | .act a => s.step foundation a

/-- The source screen without the feed. -/
def sourceTab (s : SourceTab) : SourceTabAction → Outcome SourceTab
  | .launch => .next { s with source := none }
  | .openSource => match s.source with
    | some _ => .blocked
    | none => match SourceViewController.viewDidLoad s.userDefaults with
      | some controller => .next { s with source := some controller }
      | none => .trapped
  | .act .launch => .blocked
  | .act a => match s.source with
    | some controller => (SourceScreen.step count ⟨controller, s.userDefaults⟩ a).map
        fun screen => { source := some screen.controller, userDefaults := screen.userDefaults }
    | none => .blocked

/-- What the feed tab takes part in. -/
def feedPart : AppAction → Option FeedTabAction
  | .launch => some .launch
  | .feed a => some (.act a)
  | .openSource | .source _ => none

/-- What the source tab takes part in. -/
def sourcePart : AppAction → Option SourceTabAction
  | .launch => some .launch
  | .openSource => some .openSource
  | .source a => some (.act a)
  | .feed _ => none

def tabs (s : App) : FeedScreen × SourceTab :=
  (s.feed, { userDefaults := s.userDefaults, source := s.source })

variable {foundation count}

private theorem tabs_injective {s t : App} (undelegated : s.delegate = false)
    (undelegated' : t.delegate = false) (same : tabs s = tabs t) : s = t := by
  obtain ⟨d, feed, source, delegate⟩ := s
  obtain ⟨d', feed', source', delegate'⟩ := t
  obtain ⟨rfl, tab⟩ := Prod.mk.inj same
  obtain ⟨rfl, rfl⟩ := SourceTab.mk.inj tab
  obtain rfl : delegate = false := undelegated
  obtain rfl : delegate' = false := undelegated'
  rfl

section Step
variable (s : App)

private def withTab (tab : SourceTab) : App :=
  { s with userDefaults := tab.userDefaults, source := tab.source }

theorem step_feed (a : FeedAction) : s.step foundation count (.feed a) =
    (feedTab foundation s.feed (.act a)).map fun feed => { s with feed } := by
  cases a <;> rfl

theorem step_openSource : s.step foundation count .openSource =
    (sourceTab count (tabs s).2 .openSource).map (withTab s) := by
  simp only [App.step, sourceTab, tabs]
  cases s.source with
  | some controller => rfl
  | none => cases SourceViewController.viewDidLoad s.userDefaults <;> rfl

theorem step_source (undelegated : s.delegate = false) (a : SourceAction) :
    s.step foundation count (.source a) =
      (sourceTab count (tabs s).2 (.act a)).map (withTab s) := by
  cases a with
  | launch => rfl
  | _ =>
    simp only [App.step, sourceTab, tabs, SourceScreen.step]
    cases s.source with
    | none => rfl
    | some controller =>
      simp only
      generalize SourceScreen.perform count _ _ = performed
      cases performed with
      | blocked => rfl
      | trapped => rfl
      | next result => simp [Outcome.map, App.announce, undelegated, withTab]

theorem step_source_open (undelegated : s.delegate = false) {controller : SourceViewController}
    (isOpen : s.source = some controller) {a : SourceAction} (running : a ≠ .launch) :
    s.step foundation count (.source a) =
      (SourceScreen.step count ⟨controller, s.userDefaults⟩ a).map fun screen =>
        { s with source := some screen.controller, userDefaults := screen.userDefaults } := by
  rw [step_source s undelegated]
  cases a with
  | launch => exact absurd rfl running
  | _ =>
    simp only [sourceTab, tabs, isOpen]
    cases SourceScreen.step count _ _ <;> rfl

end Step

private theorem undelegated_step {s t : App} {a : AppAction} (undelegated : s.delegate = false)
    (move : s.step foundation count a = .next t) : t.delegate = false := by
  cases a with
  | launch =>
    obtain rfl := Outcome.next.inj move
    rfl
  | openSource =>
    rw [step_openSource] at move
    obtain ⟨tab, -, rfl⟩ := Outcome.map_eq_next.mp move
    exact undelegated
  | feed a =>
    rw [step_feed] at move
    obtain ⟨feed, -, rfl⟩ := Outcome.map_eq_next.mp move
    exact undelegated
  | source a =>
    rw [step_source s undelegated] at move
    obtain ⟨tab, -, rfl⟩ := Outcome.map_eq_next.mp move
    exact undelegated

private theorem tabs_moves {s : App} {a : AppAction} {t : FeedScreen × SourceTab}
    (undelegated : s.delegate = false) :
    Together (Moves (feedTab foundation)) (Moves (sourceTab count)) feedPart sourcePart (tabs s) a t
      ↔ ∃ s', Moves (App.step foundation count) s a s' ∧ tabs s' = t := by
  obtain ⟨feed, tab⟩ := t
  cases a with
  | launch =>
    simp [Together, TakesPart, feedPart, sourcePart, Moves, feedTab, sourceTab, tabs, App.step,
      App.launched]
  | openSource =>
    simp only [Together, TakesPart, feedPart, sourcePart, Moves, step_openSource,
      Outcome.map_eq_next]
    constructor
    · rintro ⟨same, move⟩
      obtain rfl : feed = s.feed := same
      exact ⟨_, ⟨tab, move, rfl⟩, rfl⟩
    · rintro ⟨_, ⟨tab', move, rfl⟩, same⟩
      obtain ⟨rfl, rfl⟩ := Prod.mk.inj same
      exact ⟨rfl, move⟩
  | feed a =>
    simp only [Together, TakesPart, feedPart, sourcePart, Moves, step_feed, Outcome.map_eq_next]
    constructor
    · rintro ⟨move, same⟩
      obtain rfl : tab = (tabs s).2 := same
      exact ⟨_, ⟨feed, move, rfl⟩, rfl⟩
    · rintro ⟨_, ⟨feed', move, rfl⟩, same⟩
      obtain ⟨rfl, rfl⟩ := Prod.mk.inj same
      exact ⟨move, rfl⟩
  | source a =>
    simp only [Together, TakesPart, feedPart, sourcePart, Moves, step_source s undelegated,
      Outcome.map_eq_next]
    constructor
    · rintro ⟨same, move⟩
      obtain rfl : feed = s.feed := same
      exact ⟨_, ⟨tab, move, rfl⟩, rfl⟩
    · rintro ⟨_, ⟨tab', move, rfl⟩, same⟩
      obtain ⟨rfl, rfl⟩ := Prod.mk.inj same
      exact ⟨rfl, move⟩

/-- Every run of the app is a run of each tab with the actions that concern it, and
any interleaving of two such runs is a run of the app: a callback of one tab
neither enables, prevents nor changes one of the other. The interleavings are of
callbacks; the selected tab and the modality of the add alert, which keep a user from
some of them, are not modelled. -/
theorem run_iff_tabs (d : UserDefaults) (actions : List AppAction) (s : App) :
    Steps (Moves (App.step foundation count)) (App.launched foundation d) actions s ↔
      s.delegate = false ∧
        Steps (Moves (feedTab foundation)) (FeedScreen.viewDidLoad foundation)
          (actions.filterMap feedPart) s.feed ∧
        Steps (Moves (sourceTab count)) { userDefaults := d } (actions.filterMap sourcePart)
          { userDefaults := s.userDefaults, source := s.source } := by
  have view : Steps (Moves (App.step foundation count)) (App.launched foundation d) actions s ↔
      s.delegate = false ∧ Steps (Together (Moves (feedTab foundation))
        (Moves (sourceTab count)) feedPart sourcePart) (tabs (App.launched foundation d)) actions
        (tabs s) :=
    steps_view_iff (fun _ _ => tabs_injective) (fun _ _ _ => tabs_moves)
      (fun _ _ _ => undelegated_step) rfl
  rw [view, steps_together_iff]
  rfl

end TheNews.MainTabBar.TwoTabs
