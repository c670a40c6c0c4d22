/- TheNews/NewsFeed/DeliveryOrder
   digest: Two runs that got the same responses, in any order and between any other
   actions, list the same articles once nothing waits. -/

import TheNews.NewsFeed.History

set_option autoImplicit false
set_option relaxedAutoImplicit false

namespace TheNews.NewsFeed.DeliveryOrder

open TheNews.Transition.Runs TheNews.Service.NewsParse TheNews.Extensions
open TheNews.UserDefault (getBankiURlString)

def response : FeedAction → Option (Load × Response)
  | .respond load response => some (load, response)
  | _ => none

/-- The responses of a run, in the order they came. -/
def responses (trace : FeedTrace) : List (Load × Response) :=
  trace.filterMap fun x => response x.2

/-- The articles a response brings. -/
def articles (x : Load × Response) : List (String × String × String) :=
  (x.2.delivered.getD []).map fun el => (NewsModel.ofItem el).article

variable {foundation foundation' : Foundation} {trace trace' : FeedTrace} {s s' : FeedScreen}

private theorem queued_eq (trace : FeedTrace) :
    queued trace = (responses trace).filterMap fun x =>
      x.2.delivered.map (Completion.mk x.1) := by
  rw [queued, responses, List.filterMap_filterMap]
  refine List.filterMap_congr fun x _ => ?_
  cases x.2 <;> rfl

private theorem articles_entries (recorded : Recorded trace s) :
    s.controller.objects.map NewsModel.article =
      (deliveries trace).flatMap fun op =>
        op.newsItem.map fun el => (NewsModel.ofItem el).article := by
  have same : s.controller.objects.map NewsModel.article =
      (delivered trace).map fun x => (NewsModel.ofItem x.2).article := by
    rw [recorded.objects]
    refine List.ext_getElem (by simp) fun i _ _ => ?_
    simp [entry, NewsModel.article, NewsModel.ofItem]
  rw [same, delivered, List.map_flatMap]
  simp only [List.map_map, Function.comp_def]

theorem articles_perm (run : FeedRun foundation trace s) (settled : s.mainQueue = []) :
    (s.controller.entries.map NewsModel.article).Perm ((responses trace).flatMap articles) := by
  have delivered := deliveries_perm_queued run
  rw [settled, List.append_nil, queued_eq] at delivered
  have listed := delivered.flatMap_right fun op =>
    op.newsItem.map fun el => (NewsModel.ofItem el).article
  rw [(Coherent.run run).entries_eq, articles_entries (recorded run)]
  refine listed.trans (.of_eq ?_)
  induction responses trace with
  | nil => rfl
  | cons x rest ih =>
    rw [List.flatMap_cons, ← ih, List.filterMap_cons]
    cases brought : x.2.delivered <;> simp [articles, brought]

/-- Which articles are listed does not depend on the order of the responses and of
the operations, nor on refreshes, source changes, taps and reloads in between. -/
theorem articles_perm_of_responses_perm (run : FeedRun foundation trace s)
    (run' : FeedRun foundation' trace' s') (settled : s.mainQueue = [])
    (settled' : s'.mainQueue = []) (same : (responses trace).Perm (responses trace')) :
    (s.controller.entries.map NewsModel.article).Perm
      (s'.controller.entries.map NewsModel.article) :=
  (articles_perm run settled).trans
    ((same.flatMap_right articles).trans (articles_perm run' settled').symm)

theorem articles_perm_of_responses_perm_swapped :
    ∃ trace trace' s s', FeedRun moscow trace s ∧ FeedRun moscow trace' s' ∧
      s.controller.entries ≠ s'.controller.entries ∧
      (s.controller.entries.map NewsModel.article).Perm
        (s'.controller.entries.map NewsModel.article) := by
  have run : FeedRun moscow _ _ := Run.replay
    [.refresh, .respond ⟨getBankiURlString⟩ (.document (rssDocument [wednesdayNews])),
      .respond ⟨getBankiURlString⟩ (.document (rssDocument [thursdayNews])),
      .runCompletion ⟨⟨getBankiURlString⟩, [wednesdayNews]⟩,
      .runCompletion ⟨⟨getBankiURlString⟩, [thursdayNews]⟩] rfl
  have run' : FeedRun moscow _ _ := Run.replay
    [.refresh, .respond ⟨getBankiURlString⟩ (.document (rssDocument [thursdayNews])),
      .runCompletion ⟨⟨getBankiURlString⟩, [thursdayNews]⟩, .viewWillAppear, .didSelectRowAt 0,
      .respond ⟨getBankiURlString⟩ (.document (rssDocument [wednesdayNews])),
      .runCompletion ⟨⟨getBankiURlString⟩, [wednesdayNews]⟩] rfl
  exact ⟨_, _, _, _, run, run', by decide,
    articles_perm_of_responses_perm run run' rfl rfl (List.Perm.swap _ _ _)⟩

end TheNews.NewsFeed.DeliveryOrder
