/- TheNews/NewsFeed/RefreshSpinner
   digest: The refresh control stops once all loads have settled exactly in the
   runs whose last outstanding step is a completion with an item, whenever the
   control is still on. -/

import TheNews.NewsFeed.History

set_option autoImplicit false
set_option relaxedAutoImplicit false

namespace TheNews.NewsFeed.RefreshSpinner

open TheNews.Transition.Runs TheNews.Service.NewsParse TheNews.Extensions
open TheNews.UserDefault (getBankiURlString)

/-- No load is in flight and no operation is pending. -/
def Settled (s : FeedScreen) : Prop := s.inFlight = [] ∧ s.mainQueue = []

def SpinnerOff (s : FeedScreen) : Prop := Settled s → s.controller.isRefreshing = false

/-- How an action sets the control; endRefreshing stands in the loop over the items. -/
def spins : FeedAction → Option Bool
  | .refresh | .updateSource _ => some true
  | .runCompletion op => if op.newsItem = [] then none else some false
  | _ => none

/-- A completion with an item has run since the last load was started. -/
def Stopped (trace : FeedTrace) : Prop := latest spins trace = some false

instance (trace : FeedTrace) : Decidable (Stopped trace) := inferInstanceAs (Decidable (_ = _))

/-- A step with which the feed may settle does not leave the control on: a load
is started for a URL or while another is outstanding, and the last outstanding
load or completion delivers an item, unless the control has been stopped. -/
def StopsSpinner (foundation : Foundation) (trace : FeedTrace) (s : FeedScreen) :
    FeedAction → Prop
  | .refresh => foundation.url s.controller.viewModel.currentSource.url = true ∨ ¬ Settled s
  | .updateSource source => foundation.url source.url = true ∨ ¬ Settled s
  | .respond load response => response.delivered ≠ none ∨
      ¬ (s.inFlight = [load] ∧ s.mainQueue = []) ∨ Stopped trace
  | .runCompletion op => op.newsItem ≠ [] ∨
      ¬ (s.inFlight = [] ∧ s.mainQueue = [op]) ∨ Stopped trace
  | _ => True

variable {foundation : Foundation} {trace : FeedTrace} {s t : FeedScreen} {a : FeedAction}

theorem isRefreshing_iff (run : FeedRun foundation trace s) :
    s.controller.isRefreshing = false ↔ Stopped trace := by
  have last : s.controller.isRefreshing = (latest spins trace).getD true := by
    refine run.eq_latest (fun s => s.controller.isRefreshing) fun _ s a t prior move => ?_
    cases (Coherent.run prior).step_effect move with
    | table cells onlyTable redrawn =>
      cases a with
      | viewWillAppear => rfl
      | cellForRowAt row => rfl
      | _ => cases onlyTable
    | load source loads =>
      cases a with
      | refresh => rfl
      | updateSource source => rfl
      | _ => cases loads
    | runCompletion op pending => cases items : op.newsItem <;> simp [spins, items]
    | _ => rfl
  rw [last, Stopped]
  cases latest spins trace <;> simp

private theorem spinnerOff_load_iff (controller : NewsFeedViewController) (url : String)
    (on : controller.isRefreshing = true) :
    SpinnerOff { s with
        controller
        inFlight := s.inFlight ++ (parseFeed foundation.url url).toList } ↔
      foundation.url url = true ∨ ¬ Settled s := by
  by_cases accepted : foundation.url url = true
  · simp [SpinnerOff, Settled, parseFeed, accepted]
  · simp [SpinnerOff, Settled, parseFeed, accepted, on]

private theorem spinnerOff_step_iff (prior : FeedRun foundation trace s)
    (before : SpinnerOff s) (move : s.step foundation a = .next t) :
    SpinnerOff t ↔ StopsSpinner foundation trace s a := by
  have stopped := isRefreshing_iff prior
  cases (Coherent.run prior).step_effect move with
  | table cells onlyTable redrawn =>
    cases a with
    | viewWillAppear => exact iff_of_true before trivial
    | cellForRowAt row => exact iff_of_true before trivial
    | _ => cases onlyTable
  | load source loads =>
    cases a with
    | refresh =>
      obtain rfl := Option.some.inj loads
      exact spinnerOff_load_iff _ _ rfl
    | updateSource source =>
      obtain rfl := Option.some.inj loads
      exact spinnerOff_load_iff _ _ rfl
    | _ => cases loads
  | respond load response flying =>
    have landed := erase_eq_nil_iff flying
    cases delivers : response.delivered with
    | none =>
      simp only [SpinnerOff, Settled, FeedScreen.settle, delivers, landed, Option.map_none,
        Option.toList_none, List.append_nil, StopsSpinner, ne_eq, not_true_eq_false, false_or,
        stopped]
      exact imp_iff_not_or
    | some newsItem => simp [SpinnerOff, Settled, FeedScreen.settle, delivers, StopsSpinner]
  | runCompletion op pending =>
    have drained := erase_eq_nil_iff pending
    cases items : op.newsItem with
    | nil =>
      simp only [SpinnerOff, Settled, drained, items, List.isEmpty_nil, Bool.and_true, StopsSpinner,
        ne_eq, not_true_eq_false, false_or, stopped]
      exact imp_iff_not_or
    | cons el rest => simp [SpinnerOff, StopsSpinner, items]
  | didSelectRowAt row news there => exact iff_of_true before trivial

/-- The control is off whenever the feed has settled, in exactly the runs whose
every settling step stops it, the load of the first screen included. -/
theorem spinnerOff_throughout_iff (run : FeedRun foundation trace s) :
    Throughout (fun _ => SpinnerOff) trace s ↔
      foundation.url getBankiURlString = true ∧
        EveryStep (StopsSpinner foundation) trace := by
  have initial : SpinnerOff (FeedScreen.viewDidLoad foundation) ↔
      foundation.url getBankiURlString = true := by
    have loaded : SpinnerOff (FeedScreen.viewDidLoad foundation) ↔ _ :=
      spinnerOff_load_iff (s := { controller := {} }) { isRefreshing := true } getBankiURlString rfl
    simpa [Settled] using loaded
  have exactly (banki : foundation.url getBankiURlString = true) :=
    run.throughout_iff (P := fun _ => SpinnerOff) (initial.mpr banki)
      fun _ _ _ _ prior before move => spinnerOff_step_iff prior before move
  constructor
  · intro through
    have banki := initial.mp (run.start_of_throughout through)
    exact ⟨banki, (exactly banki).mp through⟩
  · rintro ⟨banki, every⟩
    exact (exactly banki).mpr every

theorem spinnerOff_throughout_iff_delivery :
    ∃ trace s, FeedRun moscow trace s ∧ trace.map Prod.snd =
      [.respond ⟨getBankiURlString⟩ (.document (rssDocument [wednesdayNews])),
        .runCompletion ⟨⟨getBankiURlString⟩, [wednesdayNews]⟩] ∧
      Throughout (fun _ => SpinnerOff) trace s :=
  have run := (Run.refl.tail rfl).tail rfl
  ⟨_, _, run, rfl, (spinnerOff_throughout_iff run).mpr
    ⟨by decide, everyStep_tail.mpr ⟨everyStep_tail.mpr ⟨everyStep_nil, .inl (by decide)⟩,
      .inl (by decide)⟩⟩⟩

theorem not_spinnerOff :
    ¬ ∀ (trace : FeedTrace) (s : FeedScreen), FeedRun moscow trace s → SpinnerOff s := by
  intro off
  have run : FeedRun moscow _ _ := Run.replay [.respond ⟨getBankiURlString⟩ .noData] rfl
  exact absurd (off _ _ run ⟨rfl, rfl⟩) (by decide)

end TheNews.NewsFeed.RefreshSpinner
