/- TheNews/MainTabBar/ScreenRuns
   digest: What holds of the runs of a screen holds in the app: each screen is at the
   end of a run of its own, and the feed has loaded and listed Banki.ru alone. -/

import TheNews.MainTabBar.TwoTabs
import TheNews.NewsFeed.History
import TheNews.Transition.Restarts

set_option autoImplicit false
set_option relaxedAutoImplicit false

namespace TheNews.MainTabBar.ScreenRuns

open TheNews.Transition.Runs TheNews.Extensions TheNews.NewsFeed TheNews.Service.NewsParse
open TheNews.Source (SourceModel SourceViewModel SourceViewController SourceScreen SourceAction)
open TheNews.UserDefault (UserDefaults getBankiURlString)
open TwoTabs

/-- What a step of the app does on the feed, which every launch creates anew. -/
def feedStep (s : App) : AppAction → Option (FeedScreen × FeedAction)
  | .feed a => some (s.feed, a)
  | .launch | .openSource | .source _ => none

def feedTrace (trace : Trace App AppAction) : FeedTrace := since (· == .launch) feedStep trace

/-- The source screen over the store, once it is up. -/
def sourceScreen (s : App) : Option SourceScreen :=
  s.source.map fun controller => ⟨controller, s.userDefaults⟩

def sourceStep (s : App) : AppAction → Option (SourceScreen × SourceAction)
  | .source a => (sourceScreen s).map (·, a)
  | .launch | .openSource | .feed _ => none

/-- A launch takes the source screen down, and opening its tab creates it anew. -/
def opens : AppAction → Bool
  | .launch | .openSource => true
  | .feed _ | .source _ => false

def sourceTrace (trace : Trace App AppAction) : Trace SourceScreen SourceAction :=
  since opens sourceStep trace

variable {foundation : Foundation} {count : String → Nat} {d : UserDefaults} {s s' : App}
  {a : AppAction} {trace : Trace App AppAction}

private def userStep (foundation : Foundation) (s : FeedScreen) (a : FeedAction) :
    Outcome FeedScreen :=
  feedTab foundation s (.act a)

private theorem userStep_eq_next {s t : FeedScreen} {a : FeedAction} :
    userStep foundation s a = .next t ↔
      (∀ source, a ≠ .updateSource source) ∧ s.step foundation a = .next t := by
  cases a <;> simp [userStep, feedTab]

private theorem run_of_userRun {trace : FeedTrace} {s₀ s : FeedScreen}
    (run : Run (userStep foundation) s₀ trace s) : Run (FeedScreen.step foundation) s₀ trace s := by
  induction run with
  | refl => exact .refl
  | tail _ move ih => exact ih.tail (userStep_eq_next.mp move).2

private theorem feed_moves (undelegated : s.delegate = false)
    (move : s.step foundation count a = .next s') {t : FeedScreen} (up : some s'.feed = some t) :
    ComponentStep (· == .launch) feedStep (fun s => some s.feed)
      (· = FeedScreen.viewDidLoad foundation) (userStep foundation) s a t := by
  obtain rfl := Option.some.inj up
  cases a with
  | launch =>
    obtain rfl := Outcome.next.inj move
    exact .restart rfl rfl
  | openSource =>
    rw [step_openSource] at move
    obtain ⟨tab, -, rfl⟩ := Outcome.map_eq_next.mp move
    exact .idle rfl rfl rfl
  | feed a =>
    rw [step_feed] at move
    obtain ⟨feed, moved, rfl⟩ := Outcome.map_eq_next.mp move
    exact .step rfl rfl rfl moved
  | source a =>
    rw [step_source s undelegated] at move
    obtain ⟨tab, -, rfl⟩ := Outcome.map_eq_next.mp move
    exact .idle rfl rfl rfl

private theorem source_moves (undelegated : s.delegate = false)
    (move : s.step foundation count a = .next s') {t : SourceScreen}
    (up : sourceScreen s' = some t) :
    ComponentStep opens sourceStep sourceScreen (fun t => ∃ d, SourceScreen.launched d = some t)
      (SourceScreen.step count) s a t := by
  cases a with
  | launch =>
    obtain rfl := Outcome.next.inj move
    cases up
  | openSource =>
    refine .restart rfl ⟨s.userDefaults, ?_⟩
    simp only [App.step] at move
    split at move
    · cases move
    · split at move
      · rename_i controller loaded
        obtain rfl := Outcome.next.inj move
        obtain rfl := Option.some.inj up
        simp [SourceScreen.launched, loaded]
      · cases move
  | feed a =>
    rw [step_feed] at move
    obtain ⟨feed, -, rfl⟩ := Outcome.map_eq_next.mp move
    exact .idle rfl rfl up
  | source a =>
    have running : a ≠ .launch := by
      intro launch
      subst launch
      cases move
    cases isOpen : s.source with
    | none => cases a <;> simp [App.step, isOpen] at move
    | some controller =>
      rw [step_source_open s undelegated isOpen running] at move
      obtain ⟨after, moved, rfl⟩ := Outcome.map_eq_next.mp move
      obtain rfl := Option.some.inj up
      have shown : sourceScreen s = some ⟨controller, s.userDefaults⟩ := by
        simp [sourceScreen, isOpen]
      exact .step rfl (by simp [sourceStep, shown]) shown moved

private structure BankiOnly (foundation : Foundation) (trace : FeedTrace) (s : FeedScreen) :
    Prop where
  coherent : Coherent foundation s.controller
  current : s.controller.viewModel.currentSource.url = getBankiURlString
  flying : ∀ load ∈ s.inFlight, load.url = getBankiURlString
  waiting : ∀ op ∈ s.mainQueue, op.load.url = getBankiURlString
  listed : ∀ x ∈ delivered trace, x.1.url = getBankiURlString

private theorem url_of_parseFeed {accepts : String → Bool} {url : String} {load : Load}
    (member : load ∈ (parseFeed accepts url).toList) : load.url = url := by
  rw [parseFeed] at member
  split at member
  · obtain rfl := List.mem_singleton.mp member
    rfl
  · cases member

private theorem bankiOnly_step {trace : FeedTrace} {s t : FeedScreen} {a : FeedAction}
    (before : BankiOnly foundation trace s) (move : userStep foundation s a = .next t) :
    BankiOnly foundation (trace ++ [(s, a)]) t := by
  obtain ⟨user, move⟩ := userStep_eq_next.mp move
  have coherent := before.coherent.step move
  cases before.coherent.step_effect move with
  | table cells onlyTable redrawn =>
    obtain ⟨delivers, -⟩ := silent_of_onlyTable (s := s) onlyTable
    exact ⟨coherent, before.current, before.flying, before.waiting, by
      simpa [delivers] using before.listed⟩
  | load source loads =>
    obtain ⟨delivers, -⟩ := silent_of_loads loads
    have same : source = s.controller.viewModel.currentSource := by
      cases a with
      | refresh => exact (Option.some.inj loads).symm
      | updateSource source => exact absurd rfl (user source)
      | _ => cases loads
    subst same
    refine ⟨coherent, before.current, fun load member => ?_, before.waiting, by
      simpa [delivers] using before.listed⟩
    rcases List.mem_append.mp member with earlier | new
    · exact before.flying load earlier
    · exact (url_of_parseFeed new).trans before.current
  | respond load response flying =>
    refine ⟨coherent, before.current, ?_, ?_, ?_⟩
    · intro other member
      exact before.flying other (List.mem_of_mem_erase member)
    · intro op member
      rcases List.mem_append.mp member with earlier | new
      · exact before.waiting op earlier
      · rw [Option.mem_toList, Option.map_eq_some_iff] at new
        obtain ⟨items, -, rfl⟩ := new
        exact before.flying load flying
    · simpa [FeedAction.delivers] using before.listed
  | runCompletion op pending =>
    refine ⟨coherent, before.current, before.flying, ?_, ?_⟩
    · intro other member
      exact before.waiting other (List.mem_of_mem_erase member)
    · intro x member
      simp only [delivered_tail, FeedAction.delivers, Option.toList_some, List.flatMap_cons,
        List.flatMap_nil, List.append_nil, List.mem_append, List.mem_map] at member
      rcases member with earlier | ⟨el, -, rfl⟩
      · exact before.listed x earlier
      · exact before.waiting op pending
  | didSelectRowAt row news there =>
    exact ⟨coherent, before.current, before.flying, before.waiting, by
      simpa [FeedAction.delivers] using before.listed⟩

private theorem bankiOnly_launched :
    BankiOnly foundation [] (FeedScreen.viewDidLoad foundation) where
  coherent := Coherent.viewDidLoad
  current := rfl
  flying := fun _ member => url_of_parseFeed member
  waiting := nofun
  listed := nofun

/-- In every run of the app, launches included, the feed is at the end of a run of the
feed screen by the actions on it since the last launch, and an open source screen at
the end of one from the loading of its view; and every article listed was delivered
by a load of Banki.ru, whatever was chosen as the source. -/
theorem run_screens (run : Run (App.step foundation count) (App.launched foundation d) trace s) :
    FeedRun foundation (feedTrace trace) s.feed ∧
      (∀ x ∈ delivered (feedTrace trace), x.1.url = getBankiURlString) ∧
      ∀ screen, sourceScreen s = some screen → ∃ d' s₀, SourceScreen.launched d' = some s₀ ∧
        Run (SourceScreen.step count) s₀ (sourceTrace trace) screen := by
  have undelegated {h : Trace App AppAction} {s : App}
      (run : Run (App.step foundation count) (App.launched foundation d) h s) :
      s.delegate = false := (Assembled.run run).undelegated
  obtain ⟨_, rfl, feed⟩ := run.since (by intro _ up; exact (Option.some.inj up).symm)
    (fun _ _ _ _ _ prior move up => feed_moves (undelegated prior) move up) rfl
  refine ⟨run_of_userRun feed, ?_, fun screen up => ?_⟩
  · have only := feed.invariant (BankiOnly foundation) bankiOnly_launched
      fun _ _ _ _ before move => bankiOnly_step before move
    exact only.listed
  · obtain ⟨s₀, ⟨d', launched⟩, source⟩ := run.since nofun
      (fun _ _ _ _ _ prior move up => source_moves (undelegated prior) move up) up
    exact ⟨d', s₀, launched, source⟩

theorem run_screens_chosen :
    ∃ trace s, Run (App.step moscow String.length) (App.launched moscow fun _ => none) trace s ∧
      trace.map Prod.snd = [.openSource, .launch, .openSource, .source .viewWillAppear,
        .feed (.respond ⟨getBankiURlString⟩ (.document (rssDocument [wednesdayNews]))),
        .source (.didSelectRowAt 1),
        .feed (.runCompletion ⟨⟨getBankiURlString⟩, [wednesdayNews]⟩)] ∧
      FeedRun moscow (feedTrace trace) s.feed ∧
      (feedTrace trace).map Prod.snd =
        [.respond ⟨getBankiURlString⟩ (.document (rssDocument [wednesdayNews])),
          .runCompletion ⟨⟨getBankiURlString⟩, [wednesdayNews]⟩] ∧
      ∀ x ∈ delivered (feedTrace trace), x.1.url = getBankiURlString := by
  have run : Run (App.step moscow String.length) (App.launched moscow fun _ => none) _ _ :=
    Run.replay [.openSource, .launch, .openSource, .source .viewWillAppear,
      .feed (.respond ⟨getBankiURlString⟩ (.document (rssDocument [wednesdayNews]))),
      .source (.didSelectRowAt 1),
      .feed (.runCompletion ⟨⟨getBankiURlString⟩, [wednesdayNews]⟩)] rfl
  obtain ⟨feed, banki, -⟩ := run_screens run
  exact ⟨_, _, run, rfl, feed, rfl, banki⟩

end TheNews.MainTabBar.ScreenRuns
