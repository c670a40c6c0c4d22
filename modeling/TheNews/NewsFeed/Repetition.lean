/- TheNews/NewsFeed/Repetition
   digest: After n deliveries of one document every article is in the list n
   times, so only a single load, or a document without items, shows none twice. -/

import TheNews.NewsFeed.History

set_option autoImplicit false
set_option relaxedAutoImplicit false

namespace TheNews.NewsFeed.Repetition

open TheNews.Transition.Runs TheNews.Service.NewsParse TheNews.Extensions
open TheNews.UserDefault (getBankiURlString)

def articles (s : FeedScreen) : List (String × String × String) :=
  s.controller.entries.map NewsModel.article

def responses (trace : FeedTrace) : List Response :=
  trace.filterMap fun x => match x.2 with
    | .respond _ response => some response
    | _ => none

/-- Every response of the run is the document reported as `events`. -/
def Serves (events : List SaxEvent) (trace : FeedTrace) : Prop :=
  ∀ response ∈ responses trace, response = .document events

instance (events : List SaxEvent) (trace : FeedTrace) : Decidable (Serves events trace) :=
  inferInstanceAs (Decidable (∀ response ∈ responses trace, _))

variable {foundation : Foundation} {trace trace₁ : FeedTrace} {s s₁ : FeedScreen}
  {events : List SaxEvent}

private theorem newsItem_of_serves (run : FeedRun foundation trace s)
    (serves : Serves events trace) : ∀ op ∈ deliveries trace, op.newsItem = items events := by
  intro op ran
  have was_queued : op ∈ queued trace :=
    (deliveries_perm_queued run).mem_iff.mp (List.mem_append_left _ ran)
  obtain ⟨⟨pre, a⟩, member, queues⟩ := List.mem_filterMap.mp was_queued
  cases a with
  | respond load response =>
    obtain rfl := serves response (List.mem_filterMap.mpr ⟨_, member, rfl⟩)
    simp only [FeedAction.queues, Response.delivered, Option.map_some, Option.some.injEq] at queues
    rw [← queues]
  | _ => cases queues

private theorem articles_eq (run : FeedRun foundation trace s) (serves : Serves events trace) :
    articles s = (List.replicate (deliveries trace).length (items events)).flatten.map
      fun el => (NewsModel.ofItem el).article := by
  have told : articles s =
      ((delivered trace).map Prod.snd).map fun el => (NewsModel.ofItem el).article := by
    rw [articles, (Coherent.run run).entries_eq, (recorded run).objects]
    refine List.ext_getElem (by simp) fun i _ _ => ?_
    simp [entry, NewsModel.article, NewsModel.ofItem]
  have batches : (delivered trace).map Prod.snd =
      ((deliveries trace).map Completion.newsItem).flatten := by
    simp [delivered, List.flatMap_def, Function.comp_def]
  have same : (deliveries trace).map Completion.newsItem =
      List.replicate (deliveries trace).length (items events) :=
    List.eq_replicate_iff.mpr ⟨by simp, by simpa using newsItem_of_serves run serves⟩
  rw [told, batches, same]

/-- The list after n deliveries of a document has the articles of a single load,
each as often, exactly when n is one or the document has no items. -/
theorem refresh_idempotent_iff (events : List SaxEvent)
    (run : FeedRun foundation trace s) (serves : Serves events trace)
    (run₁ : FeedRun foundation trace₁ s₁) (serves₁ : Serves events trace₁)
    (single : (deliveries trace₁).length = 1) :
    (articles s).Perm (articles s₁) ↔ (deliveries trace).length = 1 ∨ items events = [] := by
  have once := articles_eq run₁ serves₁
  have repeated := articles_eq run serves
  rw [single] at once
  constructor
  · intro same
    have lengths : (deliveries trace).length * (items events).length = (items events).length := by
      simpa [once, repeated] using same.length_eq
    cases delivers : items events with
    | nil => exact .inr rfl
    | cons el rest =>
      rw [delivers, List.length_cons] at lengths
      exact .inl (Nat.eq_of_mul_eq_mul_right (Nat.succ_pos _) (lengths.trans (Nat.one_mul _).symm))
  · rintro (one | none)
    · rw [repeated, once, one]
    · rw [repeated, once, none]
      simp

private def loading (news : List NewsItem) : List FeedAction :=
  [.respond ⟨getBankiURlString⟩ (.document (rssDocument news)),
    .runCompletion ⟨⟨getBankiURlString⟩, news⟩]

theorem refresh_idempotent_iff_loading :
    (∃ trace s trace₁ s₁, FeedRun moscow trace s ∧ FeedRun moscow trace₁ s₁ ∧
      trace.map Prod.snd = loading [] ++ .refresh :: loading [] ∧
      trace₁.map Prod.snd = loading [] ∧ (articles s).Perm (articles s₁)) ∧
    ∃ trace s trace₁ s₁, FeedRun moscow trace s ∧ FeedRun moscow trace₁ s₁ ∧
      trace.map Prod.snd = .refresh :: loading [wednesdayNews] ∧
      trace₁.map Prod.snd = loading [wednesdayNews] ∧ (articles s).Perm (articles s₁) := by
  constructor
  · have run : FeedRun moscow _ _ := Run.replay (loading [] ++ .refresh :: loading []) rfl
    have run₁ : FeedRun moscow _ _ := Run.replay (loading []) rfl
    exact ⟨_, _, _, _, run, run₁, rfl, rfl,
      (refresh_idempotent_iff (rssDocument []) run (by decide) run₁ (by decide) rfl).mpr
        (.inr (by decide))⟩
  · have run : FeedRun moscow _ _ := Run.replay (.refresh :: loading [wednesdayNews]) rfl
    have run₁ : FeedRun moscow _ _ := Run.replay (loading [wednesdayNews]) rfl
    exact ⟨_, _, _, _, run, run₁, rfl, rfl,
      (refresh_idempotent_iff (rssDocument [wednesdayNews]) run (by decide) run₁ (by decide)
        rfl).mpr (.inl rfl)⟩

theorem not_refresh_idempotent :
    ¬ ∀ (events : List SaxEvent) (trace trace₁ : FeedTrace) (s s₁ : FeedScreen),
      (items events).Nodup → FeedRun moscow trace s → Serves events trace →
      FeedRun moscow trace₁ s₁ → Serves events trace₁ →
      1 ≤ (deliveries trace).length → (deliveries trace₁).length = 1 →
      (articles s).Perm (articles s₁) := by
  intro idempotent
  have run : FeedRun moscow _ _ :=
    Run.replay (loading [wednesdayNews] ++ .refresh :: loading [wednesdayNews]) rfl
  have run₁ : FeedRun moscow _ _ := Run.replay (loading [wednesdayNews]) rfl
  have same := idempotent (rssDocument [wednesdayNews]) _ _ _ _ (by decide) run (by decide)
    run₁ (by decide) (by decide) rfl
  exact absurd same.length_eq (by decide)

end TheNews.NewsFeed.Repetition
