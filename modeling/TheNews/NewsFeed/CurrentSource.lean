/- TheNews/NewsFeed/CurrentSource
   digest: The list shows the current source alone exactly in the runs that never
   leave a source with entries on the screen and never receive items of a source
   that has been left. -/

import TheNews.NewsFeed.History

set_option autoImplicit false
set_option relaxedAutoImplicit false

namespace TheNews.NewsFeed.CurrentSource

open TheNews.Transition.Runs TheNews.Service.NewsParse TheNews.Extensions
open TheNews.Source (SourceModel)
open TheNews.UserDefault (getBankiURlString getFinamURlString)

/-- The load that delivered the entry of a row. -/
def deliverer (trace : FeedTrace) (row : Nat) : Option Load := (delivered trace)[row]?.map Prod.fst

/-- Every entry came with a load for the url of the current source. -/
def ShowsCurrentSource (trace : FeedTrace) (s : FeedScreen) : Prop :=
  ∀ row < s.controller.viewModel.newsItem.length, ∃ load, deliverer trace row = some load ∧
    load.url = s.controller.viewModel.currentSource.url

/-- Another url is chosen only while the list is empty, and items arrive only
from the current one. -/
def KeepsSource (s : FeedScreen) (a : FeedAction) : Prop :=
  (∀ source ∈ a.loads s, source.url = s.controller.viewModel.currentSource.url ∨
    s.controller.viewModel.newsItem = []) ∧
  ∀ op ∈ a.delivers, op.load.url = s.controller.viewModel.currentSource.url ∨ op.newsItem = []

instance (s : FeedScreen) (a : FeedAction) : Decidable (KeepsSource s a) :=
  inferInstanceAs (Decidable (_ ∧ _))

variable {foundation : Foundation} {trace : FeedTrace} {s t : FeedScreen} {a : FeedAction}

private theorem length_eq (run : FeedRun foundation trace s) :
    s.controller.viewModel.newsItem.length = (delivered trace).length := by
  simp [(Coherent.run run).newsItem, (recorded run).objects]

private theorem showsCurrentSource_iff (run : FeedRun foundation trace s) :
    ShowsCurrentSource trace s ↔
      ∀ x ∈ delivered trace, x.1.url = s.controller.viewModel.currentSource.url := by
  rw [ShowsCurrentSource, length_eq run]
  constructor
  · intro shows x member
    obtain ⟨row, bound, rfl⟩ := List.getElem_of_mem member
    obtain ⟨load, same, url⟩ := shows row bound
    simp only [deliverer, List.getElem?_eq_getElem bound, Option.map_some,
      Option.some.injEq] at same
    rw [same, url]
  · intro all row bound
    exact ⟨(delivered trace)[row].1, by simp [deliverer, bound], all _ (List.getElem_mem bound)⟩

private theorem shows_step_iff (run : FeedRun foundation trace s)
    (before : ShowsCurrentSource trace s) (move : s.step foundation a = .next t) :
    ShowsCurrentSource (trace ++ [(s, a)]) t ↔ KeepsSource s a := by
  have before := (showsCurrentSource_iff run).mp before
  have empty : s.controller.viewModel.newsItem = [] ↔ delivered trace = [] := by
    rw [← List.length_eq_zero_iff, length_eq run, List.length_eq_zero_iff]
  rw [showsCurrentSource_iff (run.tail move)]
  cases (Coherent.run run).step_effect move with
  | table cells onlyTable redrawn =>
    obtain ⟨delivers, -, -, loads⟩ := silent_of_onlyTable (s := s) onlyTable
    exact iff_of_true (by simpa [delivers] using before) (by simp [KeepsSource, delivers, loads])
  | load source loads =>
    obtain ⟨delivers, -, -⟩ := silent_of_loads loads
    simp only [delivered_tail, delivers, Option.toList_none, List.flatMap_nil, List.append_nil,
      KeepsSource, loads, Option.mem_def, Option.some.injEq, forall_eq', reduceCtorEq,
      false_implies, implies_true, and_true, empty]
    constructor
    · intro after
      cases items : delivered trace with
      | nil => exact .inr rfl
      | cons x rest =>
        have member : x ∈ delivered trace := by simp [items]
        exact .inl ((after x member).symm.trans (before x member))
    · rintro (same | none) x member
      · exact (before x member).trans same.symm
      · simp [none] at member
  | respond load response flying =>
    refine iff_of_true ?_ ⟨by simp [FeedAction.loads], by simp [FeedAction.delivers]⟩
    simpa [FeedAction.delivers] using before
  | runCompletion op pending =>
    simp only [delivered_tail, FeedAction.delivers, Option.toList_some, List.flatMap_cons,
      List.flatMap_nil, List.append_nil, KeepsSource, FeedAction.loads, Option.mem_def,
      Option.some.injEq, forall_eq', reduceCtorEq, false_implies, implies_true, true_and]
    rw [List.forall_mem_append, and_iff_right before, List.forall_mem_map]
    cases items : op.newsItem with
    | nil => simp
    | cons el rest => simp +contextual
  | didSelectRowAt row news there =>
    refine iff_of_true ?_ ⟨by simp [FeedAction.loads], by simp [FeedAction.delivers]⟩
    simpa [FeedAction.delivers] using before

/-- In the runs that keep to their source the list shows it alone whenever no
load is in flight; and no other run keeps the list and the source in agreement
throughout. -/
theorem showsCurrentSource_throughout (run : FeedRun foundation trace s) :
    (EveryStep (fun _ => KeepsSource) trace →
      Throughout (fun pre u => u.inFlight = [] → ShowsCurrentSource pre u) trace s) ∧
    (Throughout ShowsCurrentSource trace s ↔ EveryStep (fun _ => KeepsSource) trace) := by
  have exactly : Throughout ShowsCurrentSource trace s ↔ EveryStep (fun _ => KeepsSource) trace :=
    run.throughout_iff (by simp [ShowsCurrentSource, FeedScreen.viewDidLoad, FeedScreen.issue,
        NewsFeedViewController.updateTableView])
      fun _ _ _ _ prior before move => shows_step_iff prior before move
  refine ⟨fun keeps => ?_, exactly⟩
  obtain ⟨visited, last⟩ := exactly.mpr keeps
  exact ⟨fun pre x taken _ => visited pre x taken, fun _ => last⟩

theorem showsCurrentSource_throughout_refreshed :
    ∃ trace s, FeedRun moscow trace s ∧ trace.map Prod.snd =
      [.respond ⟨getBankiURlString⟩ (.document (rssDocument [wednesdayNews])),
        .runCompletion ⟨⟨getBankiURlString⟩, [wednesdayNews]⟩, .refresh,
        .respond ⟨getBankiURlString⟩ .noData] ∧
      Throughout ShowsCurrentSource trace s :=
  have run := (((Run.refl.tail rfl).tail rfl).tail rfl).tail rfl
  ⟨_, _, run, rfl, (showsCurrentSource_throughout run).2.mpr
    (everyStep_iff_forall.mpr (by decide))⟩

theorem not_showsCurrentSource :
    ¬ ∀ (trace : FeedTrace) (s : FeedScreen), FeedRun moscow trace s →
      s.inFlight = [] → ShowsCurrentSource trace s := by
  intro shows
  have run : FeedRun moscow _ _ := Run.replay
    [.respond ⟨getBankiURlString⟩ (.document (rssDocument [wednesdayNews])),
      .runCompletion ⟨⟨getBankiURlString⟩, [wednesdayNews]⟩,
      .updateSource { title := "Finam.ru", url := getFinamURlString },
      .respond ⟨getFinamURlString⟩ (.document (rssDocument [thursdayNews])),
      .runCompletion ⟨⟨getFinamURlString⟩, [thursdayNews]⟩] rfl
  obtain ⟨load, same, url⟩ := shows _ _ run rfl 0 (by decide)
  obtain rfl : load = ⟨getBankiURlString⟩ := Option.some.inj same.symm
  exact absurd url (by decide)

end TheNews.NewsFeed.CurrentSource
