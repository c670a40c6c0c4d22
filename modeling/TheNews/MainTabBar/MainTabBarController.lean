/- TheNews/MainTabBar/MainTabBarController
   models: MainTabBarController.swift
   digest: The app as the tab bar assembles it: the feed and the source screen in
   one process, over the store that outlives it, and what each action does to it. -/

import TheNews.NewsFeed.Effects
import TheNews.Source.SourceViewController

set_option autoImplicit false
set_option relaxedAutoImplicit false

namespace TheNews.MainTabBar

open TheNews.Transition.Runs TheNews.Extensions TheNews.NewsFeed
open TheNews.Source (SourceModel SourceViewModel SourceViewController SourceScreen SourceAction)
open TheNews.UserDefault (UserDefaults getBankiURlString)

/-- The state that the callbacks of the two tabs share. Which tab is selected and that
the add alert is modal are left to the system: it decides which callback comes next. -/
structure App where
  userDefaults : UserDefaults
  feed : FeedScreen
  /-- The source screen, once its tab has been opened and its view loaded. -/
  source : Option SourceViewController := none
  /-- Whether `SourceViewController.delegate` is the feed screen. -/
  delegate : Bool := false

/-- The user opens the tab of the sources, or something happens on a screen. -/
inductive AppAction where
  | launch
  | openSource
  | feed (a : FeedAction)
  | source (a : SourceAction)
  deriving DecidableEq, Repr

namespace App

variable (foundation : Foundation) (count : String → Nat)

/-- viewDidLoad creates both screens and connects neither to the other; the feed
is the selected tab and loads its view. -/
def launched (userDefaults : UserDefaults) : App :=
  { userDefaults, feed := FeedScreen.viewDidLoad foundation }

/-- `delegate?.updateSource(source:)`. -/
def announce (s : App) (told : Option SourceModel) : App :=
  match s.delegate, told with
  | true, some source =>
      { s with feed := s.feed.issue (s.feed.controller.updateSource foundation source) }
  | _, _ => s

-- Nothing sets the delegate: prepare(for:sender:) would, but there is no
-- storyboard segue. And only the source screen could call updateSource.
def step (s : App) : AppAction → Outcome App
  | .launch => .next (launched foundation s.userDefaults)
  | .openSource => match s.source with
    | some _ => .blocked
    | none => match SourceViewController.viewDidLoad s.userDefaults with
      | some controller => .next { s with source := some controller }
      | none => .trapped
  | .feed (.updateSource _) => .blocked
  | .feed a => (s.feed.step foundation a).map fun feed => { s with feed }
  | .source .launch => .blocked
  | .source a => match s.source with
    | some controller => (SourceScreen.perform count ⟨controller, s.userDefaults⟩ a).map
        fun (screen, told) => announce foundation { s with
          source := some screen.controller, userDefaults := screen.userDefaults } told
    | none => .blocked

end App

/-- What MainTabBarController sets up and nothing in the app changes. -/
structure Assembled (foundation : Foundation) (s : App) : Prop where
  coherent : Coherent foundation s.feed.controller
  banki : s.feed.controller.viewModel.currentSource.url = getBankiURlString
  undelegated : s.delegate = false

variable {foundation : Foundation} {count : String → Nat} {s t : App} {a : AppAction}

private theorem assembled_launched (d : UserDefaults) :
    Assembled foundation (App.launched foundation d) where
  coherent := Coherent.viewDidLoad
  banki := rfl
  undelegated := rfl

/-- All an action can do to an assembled app. -/
inductive Effect (foundation : Foundation) (s : App) : AppAction → App → Prop where
  | launch : Effect foundation s .launch (App.launched foundation s.userDefaults)
  | openSource (loaded : SourceViewModel)
      (load : ({} : SourceViewModel).loadSources s.userDefaults = some loaded) :
      Effect foundation s .openSource { s with source := some { viewModel := loaded.setIsCurrent } }
  | feed (a : FeedAction) (feed : FeedScreen) (coherent : Coherent foundation feed.controller)
      (same : feed.controller.viewModel.currentSource = s.feed.controller.viewModel.currentSource) :
      Effect foundation s (.feed a) { s with feed }
  | source (a : SourceAction) (controller : SourceViewController) (screen : SourceScreen)
      (told : Option SourceModel) (isOpen : s.source = some controller)
      (effect : Source.Effect ⟨controller, s.userDefaults⟩ a screen told)
      (running : a ≠ .launch) :
      Effect foundation s (.source a) { s with
        source := some screen.controller, userDefaults := screen.userDefaults }

private theorem currentSource_step {feed : FeedScreen} {a : FeedAction}
    (coherent : Coherent foundation s.feed.controller)
    (move : s.feed.step foundation a = .next feed) (user : ∀ source, a ≠ .updateSource source) :
    feed.controller.viewModel.currentSource = s.feed.controller.viewModel.currentSource := by
  cases coherent.step_effect move with
  | table cells onlyTable redrawn => rfl
  | load source loads =>
    cases a with
    | refresh => exact (Option.some.inj loads).symm
    | updateSource source => exact absurd rfl (user source)
    | _ => cases loads
  | respond load response flying => rfl
  | runCompletion op pending => rfl
  | didSelectRowAt row news there => rfl

theorem step_effect (assembled : Assembled foundation s)
    (move : s.step foundation count a = .next t) : Effect foundation s a t := by
  cases a with
  | launch =>
    obtain rfl := Outcome.next.inj move
    exact .launch
  | openSource =>
    simp only [App.step, SourceViewController.viewDidLoad] at move
    split at move
    · cases move
    · cases load : ({} : SourceViewModel).loadSources s.userDefaults with
      | none => simp [load] at move
      | some loaded =>
        simp only [load, Option.bind_eq_bind, Option.bind_some, Option.pure_def,
          Outcome.next.injEq] at move
        obtain rfl := move
        exact .openSource loaded load
  | feed a =>
    have user (source : SourceModel) : a ≠ .updateSource source := by
      rintro rfl
      cases move
    have moved : ∃ feed, s.feed.step foundation a = .next feed ∧ { s with feed } = t := by
      cases a with
      | updateSource source => cases move
      | _ => exact Outcome.map_eq_next.mp move
    obtain ⟨feed, step, rfl⟩ := moved
    exact .feed a feed (assembled.coherent.step step)
      (currentSource_step assembled.coherent step user)
  | source a =>
    have running : a ≠ .launch := by
      rintro rfl
      cases move
    have moved : ∃ controller screen told, s.source = some controller ∧
        SourceScreen.perform count ⟨controller, s.userDefaults⟩ a = .next (screen, told) ∧
        App.announce foundation { s with
          source := some screen.controller, userDefaults := screen.userDefaults } told = t := by
      cases isOpen : s.source with
      | none => cases a <;> simp [App.step, isOpen] at move
      | some controller =>
        cases a with
        | launch => cases move
        | _ =>
          simp only [App.step, isOpen] at move
          obtain ⟨⟨screen, told⟩, performed, same⟩ := Outcome.map_eq_next.mp move
          exact ⟨controller, screen, told, rfl, performed, same⟩
    obtain ⟨controller, screen, told, isOpen, performed, rfl⟩ := moved
    have effect : Effect foundation s (.source a) _ :=
      .source a controller screen told isOpen (SourceScreen.perform_effect performed) running
    simpa [App.announce, assembled.undelegated] using effect

theorem Assembled.step (assembled : Assembled foundation s)
    (move : s.step foundation count a = .next t) : Assembled foundation t := by
  cases step_effect assembled move with
  | launch => exact assembled_launched s.userDefaults
  | openSource loaded load => exact ⟨assembled.coherent, assembled.banki, assembled.undelegated⟩
  | feed a feed coherent same =>
    exact ⟨coherent, by rw [same, assembled.banki], assembled.undelegated⟩
  | source a controller screen told isOpen effect running =>
    exact ⟨assembled.coherent, assembled.banki, assembled.undelegated⟩

theorem Assembled.run {d : UserDefaults} {trace : Trace App AppAction}
    (run : Run (App.step foundation count) (App.launched foundation d) trace s) :
    Assembled foundation s :=
  run.state_invariant (Assembled foundation) (assembled_launched d)
    fun _ _ _ assembled move => assembled.step move

end TheNews.MainTabBar
