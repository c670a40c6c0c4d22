/- TheNews/NewsFeed/Chronology
   digest: The list stays newest first exactly in the runs whose batches are
   newest first and never begin with an article newer than the last row. -/

import TheNews.NewsFeed.History
import Mathlib.Data.List.Chain

set_option autoImplicit false
set_option relaxedAutoImplicit false

namespace TheNews.NewsFeed.Chronology

open TheNews.Transition.Runs TheNews.Service.NewsParse TheNews.Extensions
open TheNews.UserDefault (getBankiURlString)

variable {foundation : Foundation} {trace : FeedTrace} {s t : FeedScreen} {a : FeedAction}

/-- Both strings are dates, and the second instant is not after the first. -/
def NotOlder (foundation : Foundation) (date other : String) : Prop :=
  ∃ x y, foundation.date date = some x ∧ foundation.date other = some y ∧ y ≤ x

instance (date other : String) : Decidable (NotOlder foundation date other) :=
  decidable_of_iff
    ((foundation.date date).any fun x => (foundation.date other).any fun y => decide (y ≤ x)) (by
      cases first : foundation.date date <;> cases second : foundation.date other <;>
        simp [NotOlder, first, second])

instance : IsTrans String (NotOlder foundation) where
  trans := by
    rintro _ _ _ ⟨x, y, first, second, newer⟩ ⟨y', z, second', third, newer'⟩
    obtain rfl := Option.some.inj (second.symm.trans second')
    exact ⟨x, z, first, third, Int.le_trans newer' newer⟩

def dates (s : FeedScreen) : List String := s.controller.entries.map NewsModel.date

/-- No row is older than a row below it. -/
def NewestFirst (foundation : Foundation) (s : FeedScreen) : Prop :=
  (dates s).Pairwise (NotOlder foundation)

instance (s : FeedScreen) : Decidable (NewestFirst foundation s) :=
  inferInstanceAs (Decidable (List.Pairwise _ _))

/-- A batch is newest first itself and starts no later than the list ends. -/
def ContinuesList (foundation : Foundation) (s : FeedScreen) (a : FeedAction) : Prop :=
  ∀ op ∈ a.delivers,
    (op.newsItem.map NewsItem.pudDate).Pairwise (NotOlder foundation) ∧
    ∀ last ∈ (dates s).getLast?, ∀ first ∈ (op.newsItem.map NewsItem.pudDate).head?,
      NotOlder foundation last first

instance (s : FeedScreen) (a : FeedAction) : Decidable (ContinuesList foundation s a) :=
  inferInstanceAs (Decidable (∀ op ∈ a.delivers, _ ∧ ∀ last ∈ (dates s).getLast?, ∀ first ∈ _, _))

private theorem dates_eq (run : FeedRun foundation trace s) :
    dates s = (delivered trace).map fun x => x.2.pudDate := by
  rw [dates, (Coherent.run run).entries_eq, (recorded run).objects]
  exact List.ext_getElem (by simp) fun i _ _ => by simp [entry]

private theorem newestFirst_step_iff (run : FeedRun foundation trace s)
    (before : NewestFirst foundation s) (move : s.step foundation a = .next t) :
    NewestFirst foundation t ↔ ContinuesList foundation s a := by
  have after := dates_eq (run.tail move)
  rw [delivered_tail, List.map_append, ← dates_eq run] at after
  cases delivers : a.delivers with
  | none =>
    refine iff_of_true ?_ (by simp [ContinuesList, delivers])
    have same : dates t = dates s := by simpa [delivers] using after
    rwa [NewestFirst, same]
  | some op =>
    have joined : dates t = dates s ++ op.newsItem.map NewsItem.pudDate := by
      simpa [delivers, Function.comp_def] using after
    simp only [NewestFirst, ContinuesList, delivers, joined, Option.mem_some_iff, forall_eq']
    rw [← List.isChain_iff_pairwise, List.isChain_append, List.isChain_iff_pairwise,
      List.isChain_iff_pairwise]
    exact and_iff_right before

/-- Every new batch goes below the old entries, so the list is in order at every
moment of a run exactly when each batch happens to continue it. -/
theorem newestFirst_throughout_iff (run : FeedRun foundation trace s) :
    Throughout (fun _ => NewestFirst foundation) trace s ↔
      EveryStep (fun _ => ContinuesList foundation) trace := by
  have empty : NewestFirst foundation (FeedScreen.viewDidLoad foundation) := List.Pairwise.nil
  exact run.throughout_iff empty
    fun _ _ _ _ prior before move => newestFirst_step_iff prior before move

theorem newestFirst_throughout_iff_singleLoad :
    ∃ trace s, FeedRun moscow trace s ∧ trace.map Prod.snd =
      [.respond ⟨getBankiURlString⟩ (.document (rssDocument [thursdayNews, wednesdayNews])),
        .runCompletion ⟨⟨getBankiURlString⟩, [thursdayNews, wednesdayNews]⟩] ∧
      Throughout (fun _ => NewestFirst moscow) trace s :=
  have run := (Run.refl.tail rfl).tail rfl
  ⟨_, _, run, rfl, (newestFirst_throughout_iff run).mpr
    (everyStep_iff_forall.mpr (by decide))⟩

theorem not_newestFirst_after_refresh :
    ¬ ∀ (trace : FeedTrace) (s : FeedScreen), FeedRun moscow trace s →
      (∀ x ∈ delivered trace, (moscow.date x.2.pudDate).isSome = true) →
      (∀ op ∈ deliveries trace, (op.newsItem.map NewsItem.pudDate).Pairwise (NotOlder moscow)) →
      NewestFirst moscow s := by
  intro ordered
  have run : FeedRun moscow _ _ := Run.replay
    [.respond ⟨getBankiURlString⟩ (.document (rssDocument [wednesdayNews])),
      .runCompletion ⟨⟨getBankiURlString⟩, [wednesdayNews]⟩, .refresh,
      .respond ⟨getBankiURlString⟩ (.document (rssDocument [thursdayNews, wednesdayNews])),
      .runCompletion ⟨⟨getBankiURlString⟩, [thursdayNews, wednesdayNews]⟩] rfl
  -- Both batches are newest first, but the older one stays on top.
  exact absurd (ordered _ _ run (by decide) (by decide)) (by decide)

end TheNews.NewsFeed.Chronology
