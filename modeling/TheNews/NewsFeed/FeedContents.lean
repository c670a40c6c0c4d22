/- TheNews/NewsFeed/FeedContents
   digest: In every run the list is the delivered batches one after another with
   the read marks of the tapped rows, failed loads leave no trace, and no row
   access traps. -/

import TheNews.NewsFeed.History

set_option autoImplicit false
set_option relaxedAutoImplicit false

namespace TheNews.NewsFeed.FeedContents

open TheNews.Transition.Runs TheNews.Service.NewsParse TheNews.Extensions
open TheNews.UserDefault (getBankiURlString)

/-- What a user may rely on at the end of the run `trace`. -/
structure Kept (foundation : Foundation) (trace : FeedTrace) (s : FeedScreen) : Prop where
  /-- The list is the batches in the order their completions ran, each whole and
  in its own order, and an entry is read exactly when its row was tapped. -/
  entries : s.controller.entries = (delivered trace).mapIdx (entry (tapped trace))
  numberOfRows : s.controller.viewModel.newsItem.length = (delivered trace).length
  /-- The completions that ran or wait are those of the documents read to the end. -/
  batches : (deliveries trace ++ s.mainQueue).Perm (queued trace)
  /-- Without data or with XML that fails to parse a load ends and nothing else changes. -/
  failed : ∀ load response t, response.delivered = none →
    s.step foundation (.respond load response) = .next t →
      t = { s with inFlight := s.inFlight.erase load }
  /-- A URL string that is no URL starts nothing and leaves the list alone. -/
  refused : ∀ a source t, a.loads s = some source → foundation.url source.url = false →
    s.step foundation a = .next t →
      t.inFlight = s.inFlight ∧ t.controller.entries = s.controller.entries
  rows : s.controller.cells.length ≤ s.controller.viewModel.newsItem.length
  traps : ∀ a, s.step foundation a ≠ .trapped
  /-- A cell on the screen shows the present state of its own entry. -/
  displays : ∀ row cell, s.controller.cells[row]? = some (some cell) →
    ∃ news, s.controller.entries[row]? = some news ∧
      cell = NewsFeedCell.setViewModel foundation { newsItem := row } news
  /-- A tap opens the entry of its row, which is the one its cell displays. -/
  opens : ∀ row t, s.step foundation (.didSelectRowAt row) = .next t →
    ∃ news, s.controller.viewModel.newsItem[row]? = some news ∧
      t.controller.pushed = s.controller.pushed ++ [news] ∧
      ∀ cell, s.controller.cells[row]? = some (some cell) → cell.viewModel.newsItem = news

variable {foundation : Foundation} {trace : FeedTrace} {s t : FeedScreen}

private theorem failed_eq {load : Load} {response : Response}
    (coherent : Coherent foundation s.controller) (failed : response.delivered = none)
    (move : s.step foundation (.respond load response) = .next t) :
    t = { s with inFlight := s.inFlight.erase load } := by
  cases coherent.step_effect move with
  | table cells onlyTable redrawn => cases onlyTable
  | load source loads => cases loads
  | respond load response flying => simp [FeedScreen.settle, failed]

private theorem refused_eq {a : FeedAction} {source : TheNews.Source.SourceModel}
    (coherent : Coherent foundation s.controller) (loads : a.loads s = some source)
    (refused : foundation.url source.url = false) (move : s.step foundation a = .next t) :
    t.inFlight = s.inFlight ∧ t.controller.entries = s.controller.entries := by
  cases coherent.step_effect move with
  | load other loads' =>
    obtain rfl := Option.some.inj (loads.symm.trans loads')
    simp [parseFeed, refused, NewsFeedViewController.entries]
  | table cells onlyTable redrawn =>
    cases a with
    | refresh => cases onlyTable
    | updateSource source => cases onlyTable
    | _ => cases loads
  | respond load response flying => cases loads
  | runCompletion op pending => cases loads
  | didSelectRowAt row news there => cases loads

private theorem opens_displayed {row : Nat} (coherent : Coherent foundation s.controller)
    (move : s.step foundation (.didSelectRowAt row) = .next t) :
    ∃ news, s.controller.viewModel.newsItem[row]? = some news ∧
      t.controller.pushed = s.controller.pushed ++ [news] ∧
      ∀ cell, s.controller.cells[row]? = some (some cell) → cell.viewModel.newsItem = news := by
  cases coherent.step_effect move with
  | table cells onlyTable redrawn => cases onlyTable
  | load source loads => cases loads
  | didSelectRowAt row news there =>
    obtain ⟨bound, -⟩ := List.getElem?_eq_some_iff.mp there
    refine ⟨row, by simp [coherent.newsItem, bound], rfl, ?_⟩
    intro cell shown
    obtain ⟨_, -, rfl⟩ := coherent.drawn row cell shown
    rfl

/-- Nothing delivered is lost, duplicated or reordered, and no read mark is lost,
in any interleaving of loads, responses, reloads and taps. -/
theorem kept (run : FeedRun foundation trace s) : Kept foundation trace s := by
  have coherent := Coherent.run run
  have recorded := recorded run
  have same_length : s.controller.objects.length = (delivered trace).length := by
    simp [recorded.objects]
  exact
    { entries := by rw [coherent.entries_eq, recorded.objects]
      numberOfRows := by simp [coherent.newsItem, same_length]
      batches := deliveries_perm_queued run
      failed := fun _ _ _ failed move => failed_eq coherent failed move
      refused := fun _ _ _ loads refused move => refused_eq coherent loads refused move
      rows := by simpa [coherent.newsItem] using coherent.rows
      displays := by simpa [coherent.entries_eq] using coherent.drawn
      traps := fun _ => coherent.step_ne_trapped
      opens := fun _ _ move => opens_displayed coherent move }

theorem kept_readOffline :
    ∃ trace s, FeedRun moscow trace s ∧ trace.map Prod.snd =
      [.respond ⟨getBankiURlString⟩ (.document (rssDocument [wednesdayNews])),
        .runCompletion ⟨⟨getBankiURlString⟩, [wednesdayNews]⟩, .viewWillAppear, .cellForRowAt 0,
        .didSelectRowAt 0, .refresh, .respond ⟨getBankiURlString⟩ .noData] ∧
      Kept moscow trace s :=
  have run := ((((((Run.refl.tail rfl).tail rfl).tail rfl).tail rfl).tail rfl).tail rfl).tail rfl
  ⟨_, _, run, rfl, kept run⟩

end TheNews.NewsFeed.FeedContents
