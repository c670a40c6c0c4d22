/- TheNews/NewsFeed/ReadMarks
   digest: An opened article stays marked exactly in the runs that never deliver
   it again and never open one of two unread copies of it. -/

import TheNews.NewsFeed.History

set_option autoImplicit false
set_option relaxedAutoImplicit false

namespace TheNews.NewsFeed.ReadMarks

open TheNews.Transition.Runs TheNews.Service.NewsParse TheNews.Extensions
open TheNews.UserDefault (getBankiURlString)

/-- The articles opened by the taps of a run. -/
def opened (trace : FeedTrace) : List (String × String × String) :=
  trace.filterMap fun x =>
    x.2.taps.bind fun row => x.1.controller.entries[row]?.map NewsModel.article

/-- Every entry of an opened article is marked, and so is the cell that shows it. -/
def Marked (trace : FeedTrace) (s : FeedScreen) : Prop :=
  ∀ (row : Nat) (news : NewsModel),
    s.controller.entries[row]? = some news → news.article ∈ opened trace → news.isReading = true ∧
    ∀ cell : NewsFeedCell, s.controller.cells[row]? = some (some cell) → cell.titleColor = .reading

/-- No batch brings an opened article back, and all other entries of a tapped
article are marked already. -/
def KeepsMarks (trace : FeedTrace) (s : FeedScreen) (a : FeedAction) : Prop :=
  (∀ op ∈ a.delivers, ∀ el ∈ op.newsItem, (NewsModel.ofItem el).article ∉ opened trace) ∧
  ∀ row ∈ a.taps, ∀ news ∈ s.controller.entries[row]?, ∀ copy ∈ s.controller.entries.eraseIdx row,
    copy.article = news.article → copy.isReading = true

instance (trace : FeedTrace) (s : FeedScreen) (a : FeedAction) : Decidable (KeepsMarks trace s a) :=
  inferInstanceAs (Decidable (_ ∧ _))

variable {foundation : Foundation} {trace : FeedTrace} {s t : FeedScreen} {a : FeedAction}

private theorem marked_iff (coherent : Coherent foundation s.controller) :
    Marked trace s ↔ ∀ news ∈ s.controller.objects, news.article ∈ opened trace →
      news.isReading = true := by
  rw [Marked, coherent.entries_eq]
  constructor
  · intro marked news member read
    obtain ⟨row, there⟩ := List.mem_iff_getElem?.mp member
    exact (marked row news there read).1
  · intro all row news there read
    have mark := all news (List.mem_of_getElem? there) read
    refine ⟨mark, fun cell shown => ?_⟩
    obtain ⟨displayed, same, rfl⟩ := coherent.drawn row cell shown
    obtain rfl := Option.some.inj (there.symm.trans same)
    simp [NewsFeedCell.setViewModel, mark]

@[simp] private theorem opened_tail : opened (trace ++ [(s, a)]) = opened trace ++
    (a.taps.bind fun row => s.controller.entries[row]?.map NewsModel.article).toList := by
  cases opens : a.taps.bind fun row => s.controller.entries[row]?.map NewsModel.article <;>
    simp [opened, opens]

private theorem marked_step_iff (coherent : Coherent foundation s.controller)
    (before : Marked trace s) (move : s.step foundation a = .next t) :
    Marked (trace ++ [(s, a)]) t ↔ KeepsMarks trace s a := by
  rw [marked_iff (coherent.step move)]
  rw [marked_iff coherent] at before
  cases coherent.step_effect move with
  | table cells onlyTable redrawn =>
    obtain ⟨delivers, -, taps, -⟩ := silent_of_onlyTable (s := s) onlyTable
    exact iff_of_true (by simpa [taps] using before) (by simp [KeepsMarks, delivers, taps])
  | load source loads =>
    obtain ⟨delivers, -, taps⟩ := silent_of_loads loads
    exact iff_of_true (by simpa [taps] using before) (by simp [KeepsMarks, delivers, taps])
  | respond load response flying =>
    exact iff_of_true (by simpa [FeedAction.taps] using before)
      ⟨by simp [FeedAction.delivers], by simp [FeedAction.taps]⟩
  | runCompletion op pending =>
    simp only [opened_tail, FeedAction.taps, Option.bind_none, Option.toList_none, List.append_nil,
      KeepsMarks, FeedAction.delivers, Option.mem_def, Option.some.injEq, forall_eq', reduceCtorEq,
      false_implies, implies_true, and_true]
    rw [List.forall_mem_append, and_iff_right before, List.forall_mem_map]
    -- A fresh object is unread, so it must not be an opened article.
    exact forall₂_congr fun el _ => imp_congr_right fun _ => by simp [NewsModel.ofItem]
  | didSelectRowAt row news there =>
    have opens : opened (trace ++ [(s, .didSelectRowAt row)]) = opened trace ++ [news.article] := by
      simp [FeedAction.taps, coherent.entries_eq, there]
    simp only [opens, List.mem_append, List.mem_singleton, KeepsMarks, FeedAction.delivers,
      FeedAction.taps, Option.mem_def, reduceCtorEq, false_implies, implies_true, true_and,
      Option.some.injEq, forall_eq', coherent.entries_eq, there, List.mem_eraseIdx_iff_getElem?]
    constructor
    · rintro marked copy ⟨other, away, copied⟩ same
      refine marked copy (List.mem_of_getElem? (i := other) ?_) (.inr same)
      rw [List.getElem?_set_ne (Ne.symm away), copied]
    · intro others copy member read
      obtain ⟨other, copied⟩ := List.mem_iff_getElem?.mp member
      by_cases here : row = other
      · subst other
        obtain ⟨bound, -⟩ := List.getElem?_eq_some_iff.mp there
        rw [List.getElem?_set_self bound] at copied
        obtain rfl := Option.some.inj copied
        rfl
      · rw [List.getElem?_set_ne here] at copied
        rcases read with earlier | same
        · exact before copy (List.mem_of_getElem? copied) earlier
        · exact others copy ⟨other, Ne.symm here, copied⟩ same

/-- The marks of opened articles last exactly in the runs that bring none of
them back and tap no unread copy. -/
theorem marked_throughout_iff (run : FeedRun foundation trace s) :
    Throughout Marked trace s ↔ EveryStep KeepsMarks trace := by
  have empty : Marked [] (FeedScreen.viewDidLoad foundation) := by
    rw [marked_iff Coherent.viewDidLoad]
    intro news member
    cases member
  exact run.throughout_iff empty
    fun _ _ _ _ prior before move => marked_step_iff (Coherent.run prior) before move

theorem marked_throughout_iff_opened :
    ∃ trace s, FeedRun moscow trace s ∧ trace.map Prod.snd =
      [.respond ⟨getBankiURlString⟩ (.document (rssDocument [wednesdayNews])),
        .runCompletion ⟨⟨getBankiURlString⟩, [wednesdayNews]⟩, .viewWillAppear, .cellForRowAt 0,
        .didSelectRowAt 0, .cellForRowAt 0] ∧
      Throughout Marked trace s :=
  have run := (((((Run.refl.tail rfl).tail rfl).tail rfl).tail rfl).tail rfl).tail rfl
  ⟨_, _, run, rfl, (marked_throughout_iff run).mpr (by
    simp only [everyStep_tail, everyStep_nil]; decide)⟩

theorem not_marked_after_refresh :
    ¬ ∀ (trace : FeedTrace) (s : FeedScreen), FeedRun moscow trace s → Marked trace s := by
  intro marked
  have run : FeedRun moscow _ _ := Run.replay
    [.respond ⟨getBankiURlString⟩ (.document (rssDocument [wednesdayNews])),
      .runCompletion ⟨⟨getBankiURlString⟩, [wednesdayNews]⟩, .viewWillAppear, .cellForRowAt 0,
      .didSelectRowAt 0, .refresh,
      .respond ⟨getBankiURlString⟩ (.document (rssDocument [wednesdayNews])),
      .runCompletion ⟨⟨getBankiURlString⟩, [wednesdayNews]⟩] rfl
  exact absurd (marked _ _ run 1 (NewsModel.ofItem wednesdayNews) rfl (by decide)).1 (by decide)

end TheNews.NewsFeed.ReadMarks
