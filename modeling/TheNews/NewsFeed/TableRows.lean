/- TheNews/NewsFeed/TableRows
   digest: The table shows every delivered article once loading has settled
   exactly in the runs where something reloads it after the last items came in. -/

import TheNews.NewsFeed.RefreshSpinner

set_option autoImplicit false
set_option relaxedAutoImplicit false

namespace TheNews.NewsFeed.TableRows

open TheNews.Transition.Runs TheNews.Service.NewsParse TheNews.Extensions
open TheNews.UserDefault (getBankiURlString)
open RefreshSpinner (Settled)

/-- The screen has been shown. -/
def Appeared (trace : FeedTrace) : Prop := FeedAction.viewWillAppear ∈ trace.map Prod.snd

instance (trace : FeedTrace) : Decidable (Appeared trace) :=
  inferInstanceAs (Decidable (_ ∈ _))

/-- The row count the table last obtained is that of the list. -/
def CountsAll (s : FeedScreen) : Prop :=
  s.controller.cells.length = s.controller.viewModel.newsItem.length

instance (s : FeedScreen) : Decidable (CountsAll s) := inferInstanceAs (Decidable (_ = _))

/-- Once the screen has appeared, the settled feed is shown in full. -/
def ShowsAll (trace : FeedTrace) (s : FeedScreen) : Prop :=
  Appeared trace → Settled s → CountsAll s

/-- Does a reload count the list as the action leaves it? A completion reloads before
it appends its items. -/
def recounts : FeedAction → Option Bool
  | .viewWillAppear | .didSelectRowAt _ => some true
  | .runCompletion op => some op.newsItem.isEmpty
  | _ => none

/-- The table has been reloaded since the last completion with items. -/
def Recounted (trace : FeedTrace) : Prop := latest recounts trace ≠ some false

instance (trace : FeedTrace) : Decidable (Recounted trace) := inferInstanceAs (Decidable (_ ≠ _))

/-- The last outstanding step is no completion with items, because the table is
reloaded before they are appended; nor is it a failed load while the table has
not been reloaded since. -/
def ReloadsLast (trace : FeedTrace) (s : FeedScreen) : FeedAction → Prop
  | .respond load response => response.delivered ≠ none ∨
      ¬ (s.inFlight = [load] ∧ s.mainQueue = []) ∨ Recounted trace
  | .runCompletion op => op.newsItem = [] ∨ ¬ (s.inFlight = [] ∧ s.mainQueue = [op])
  | _ => True

variable {foundation : Foundation} {trace : FeedTrace} {s t : FeedScreen} {a : FeedAction}

private theorem appeared_tail :
    Appeared (trace ++ [(s, a)]) ↔ Appeared trace ∨ a = .viewWillAppear := by
  simp [Appeared, eq_comm]

private theorem countsAll_iff (coherent : Coherent foundation s.controller) :
    CountsAll s ↔ s.controller.cells.length = s.controller.objects.length := by
  rw [CountsAll, coherent.newsItem, List.length_range]

private theorem countsAll_shown (move : s.step foundation .viewWillAppear = .next t) :
    CountsAll t := by
  obtain rfl := Outcome.next.inj move
  simp [CountsAll, NewsFeedViewController.viewWillAppear, NewsFeedViewController.reloadData,
    NewsFeedViewController.numberOfRowsInSection, NewsFeedViewModel.numberOfRows]

private theorem drawn_same (coherent : Coherent foundation s.controller) {row : Nat}
    (move : s.step foundation (.cellForRowAt row) = .next t) :
    (Settled t ↔ Settled s) ∧ (CountsAll t ↔ CountsAll s) := by
  rw [FeedScreen.step] at move
  split at move
  · obtain ⟨news, -, drawn⟩ := coherent.cellForRowAt_eq ‹_›
    rw [drawn] at move
    obtain rfl := Outcome.next.inj move
    exact ⟨Iff.rfl, by simp [CountsAll]⟩
  · cases move

theorem countsAll_iff_recounted (run : FeedRun foundation trace s) :
    CountsAll s ↔ Recounted trace := by
  have last : decide (CountsAll s) = (latest recounts trace).getD true := by
    refine run.eq_latest (fun s => decide (CountsAll s)) fun _ s a t prior move => ?_
    have coherent := Coherent.run prior
    have after := countsAll_iff (coherent.step move)
    cases coherent.step_effect move with
    | table cells onlyTable redrawn =>
      cases a with
      | viewWillAppear => exact decide_eq_true (countsAll_shown move)
      | cellForRowAt row => exact decide_eq_decide.mpr (drawn_same coherent move).2
      | _ => cases onlyTable
    | load source loads =>
      cases a with
      | refresh => rfl
      | updateSource source => rfl
      | _ => cases loads
    | respond load response flying => rfl
    | runCompletion op pending =>
      cases items : op.newsItem <;> simp [CountsAll, recounts, items]
    | didSelectRowAt row news there => exact decide_eq_true (after.mpr (by simp))
  rw [← decide_eq_true_iff (p := CountsAll s), last, Recounted]
  cases latest recounts trace <;> simp

private theorem reloadsLast_iff (prior : FeedRun foundation trace s)
    (before : Settled s → CountsAll s) (move : s.step foundation a = .next t) :
    (Settled t → CountsAll t) ↔ ReloadsLast trace s a := by
  have counted := countsAll_iff_recounted prior
  have after := countsAll_iff_recounted (prior.tail move)
  rw [Recounted, latest_tail] at after
  cases (Coherent.run prior).step_effect move with
  | table cells onlyTable redrawn =>
    cases a with
    | viewWillAppear => exact iff_of_true (fun _ => countsAll_shown move) trivial
    | cellForRowAt row =>
      obtain ⟨settled, counts⟩ := drawn_same (Coherent.run prior) move
      refine iff_of_true ?_ trivial
      rwa [settled, counts]
    | _ => cases onlyTable
  | load source loads =>
    refine iff_of_true ?_ ?_
    · rintro ⟨landed, drained⟩
      exact before ⟨(List.append_eq_nil_iff.mp landed).1, drained⟩
    · cases a with
      | refresh => trivial
      | updateSource source => trivial
      | _ => cases loads
  | respond load response flying =>
    have landed := erase_eq_nil_iff flying
    cases delivers : response.delivered with
    | none =>
      have settled : Settled (s.settle load response) ↔
          s.inFlight = [load] ∧ s.mainQueue = [] := by
        simp [Settled, FeedScreen.settle, delivers, landed]
      rw [settled, ReloadsLast, delivers, ne_eq, eq_self, not_true_eq_false, false_or, ← counted]
      exact imp_iff_not_or
    | some newsItem =>
      simp [Settled, FeedScreen.settle, delivers, ReloadsLast]
  | runCompletion op pending =>
    have drained := erase_eq_nil_iff pending
    have counts : CountsAll _ ↔ op.newsItem = [] := after.trans (by simp [recounts])
    rw [counts]
    simp only [Settled, drained, ReloadsLast]
    exact imp_iff_or_not
  | didSelectRowAt row news there =>
    exact iff_of_true (fun _ => after.mpr (by simp [recounts])) trivial

private theorem showsAll_step_iff (prior : FeedRun foundation trace s)
    (before : ShowsAll trace s) (move : s.step foundation a = .next t) :
    ShowsAll (trace ++ [(s, a)]) t ↔ (Appeared trace → ReloadsLast trace s a) := by
  rw [ShowsAll, appeared_tail]
  constructor
  · intro shows appeared
    exact (reloadsLast_iff prior (before appeared) move).mp (shows (.inl appeared))
  · rintro reloads (appeared | rfl)
    · exact (reloadsLast_iff prior (before appeared) move).mpr (reloads appeared)
    · exact fun _ => countsAll_shown move

/-- The settled table shows the whole list at every moment after the first
appearance exactly in the runs that meet the condition from then on. -/
theorem showsAll_throughout_iff (run : FeedRun foundation trace s) :
    Throughout ShowsAll trace s ↔
      EveryStep (fun pre u a => Appeared pre → ReloadsLast pre u a) trace := by
  have unseen : ShowsAll [] (FeedScreen.viewDidLoad foundation) := by simp [ShowsAll, Appeared]
  exact run.throughout_iff unseen
    fun _ _ _ _ prior before move => showsAll_step_iff prior before move

theorem showsAll_throughout_iff_reappearance :
    ∃ trace s, FeedRun moscow trace s ∧ trace.map Prod.snd =
      [.viewWillAppear, .refresh,
        .respond ⟨getBankiURlString⟩ (.document (rssDocument [wednesdayNews])),
        .runCompletion ⟨⟨getBankiURlString⟩, [wednesdayNews]⟩, .viewWillAppear,
        .respond ⟨getBankiURlString⟩ .noData] ∧
      Throughout ShowsAll trace s :=
  have run := (((((Run.refl.tail rfl).tail rfl).tail rfl).tail rfl).tail rfl).tail rfl
  ⟨_, _, run, rfl, (showsAll_throughout_iff run).mpr (by
    simp only [everyStep_tail, everyStep_nil, ReloadsLast]; decide)⟩

theorem not_showsAll :
    ¬ ∀ (trace : FeedTrace) (s : FeedScreen), FeedRun moscow trace s → ShowsAll trace s := by
  intro shows
  have run : FeedRun moscow _ _ := Run.replay
    [.viewWillAppear, .respond ⟨getBankiURlString⟩ (.document (rssDocument [wednesdayNews])),
      .runCompletion ⟨⟨getBankiURlString⟩, [wednesdayNews]⟩] rfl
  exact absurd (shows _ _ run (by decide) ⟨rfl, rfl⟩) (by decide)

end TheNews.NewsFeed.TableRows
