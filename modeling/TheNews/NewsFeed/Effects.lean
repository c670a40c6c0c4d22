/- TheNews/NewsFeed/Effects
   digest: In every run the list holds the objects in the order they were created
   and the table counts no row beyond them, so no row access traps; what each
   action can do to such a screen. -/

import TheNews.NewsFeed.NewsFeedViewController

set_option autoImplicit false
set_option relaxedAutoImplicit false

namespace TheNews.NewsFeed

open TheNews.Transition.Runs TheNews.Service.NewsParse TheNews.Extensions
open TheNews.Source (SourceModel)

/-- The object the loop creates for an item. -/
def NewsModel.ofItem (el : NewsItem) : NewsModel :=
  { title := el.title, date := el.pudDate, desc := el.description }

/-- The screen and its table agree with the objects; a row that shows a cell
shows the present state of its own entry. -/
structure Coherent (foundation : Foundation) (vc : NewsFeedViewController) : Prop where
  newsItem : vc.viewModel.newsItem = List.range vc.objects.length
  rows : vc.cells.length ≤ vc.objects.length
  drawn : ∀ row cell, vc.cells[row]? = some (some cell) → ∃ news, vc.objects[row]? = some news ∧
    cell = NewsFeedCell.setViewModel foundation { newsItem := row } news

/-- The source an action starts a load for. -/
def FeedAction.loads (s : FeedScreen) : FeedAction → Option SourceModel
  | .refresh => some s.controller.viewModel.currentSource
  | .updateSource source => some source
  | _ => none

/-- The actions by which the table reads the screen. -/
def FeedAction.onlyTable : FeedAction → Bool
  | .viewWillAppear | .cellForRowAt _ => true
  | _ => false

variable (foundation : Foundation)

/-- All an action can do to a coherent screen. -/
inductive Effect (s : FeedScreen) : FeedAction → FeedScreen → Prop where
  | table {a : FeedAction} (cells : List (Option NewsFeedCell))
      (onlyTable : a.onlyTable = true)
      (redrawn : Coherent foundation { s.controller with cells }) :
      Effect s a { s with controller := { s.controller with cells } }
  | load {a : FeedAction} (source : SourceModel) (loads : a.loads s = some source) :
      Effect s a { s with
        controller := { s.controller with
          viewModel := { s.controller.viewModel with currentSource := source }
          isRefreshing := true }
        inFlight := s.inFlight ++ (parseFeed foundation.url source.url).toList }
  | respond (load : Load) (response : Response) (flying : load ∈ s.inFlight) :
      Effect s (.respond load response) (s.settle load response)
  | runCompletion (op : Completion) (pending : op ∈ s.mainQueue) :
      Effect s (.runCompletion op) { s with
        controller := { s.controller with
          viewModel := { s.controller.viewModel with
            newsItem := List.range (s.controller.objects.length + op.newsItem.length) }
          objects := s.controller.objects ++ op.newsItem.map NewsModel.ofItem
          cells := List.replicate s.controller.objects.length none
          isRefreshing := s.controller.isRefreshing && op.newsItem.isEmpty }
        mainQueue := s.mainQueue.erase op }
  | didSelectRowAt (row : Nat) (news : NewsModel) (there : s.controller.objects[row]? = some news) :
      Effect s (.didSelectRowAt row) { s with
        controller := { s.controller with
          objects := s.controller.objects.set row { news with isReading := true }
          cells := List.replicate s.controller.objects.length none
          pushed := s.controller.pushed ++ [row] } }

variable {foundation}

private theorem foldl_append (vc : NewsFeedViewController) (newsItem : List NewsItem)
    (ordered : vc.viewModel.newsItem = List.range vc.objects.length) :
    newsItem.foldl NewsFeedViewController.append vc = { vc with
      viewModel := { vc.viewModel with
        newsItem := List.range (vc.objects.length + newsItem.length) }
      objects := vc.objects ++ newsItem.map NewsModel.ofItem
      isRefreshing := vc.isRefreshing && newsItem.isEmpty } := by
  induction newsItem generalizing vc with
  | nil => simp [← ordered]
  | cons el rest ih =>
    have next : (vc.append el).viewModel.newsItem = List.range (vc.append el).objects.length := by
      simp [NewsFeedViewController.append, ordered, List.range_succ]
    rw [List.foldl_cons, ih _ next]
    simp [NewsFeedViewController.append, NewsModel.ofItem, Nat.add_comm, Nat.add_left_comm]

namespace Coherent
variable {vc : NewsFeedViewController} {s t : FeedScreen} {a : FeedAction}

theorem viewDidLoad : Coherent foundation (FeedScreen.viewDidLoad foundation).controller where
  newsItem := rfl
  rows := Nat.le_refl 0
  drawn := by
    simp [FeedScreen.viewDidLoad, FeedScreen.issue, NewsFeedViewController.updateTableView]

theorem entries_eq (coherent : Coherent foundation vc) : vc.entries = vc.objects := by
  rw [NewsFeedViewController.entries, coherent.newsItem]
  induction vc.objects using List.reverseRecOn with
  | nil => rfl
  | append_singleton objects news ih =>
    have earlier : (List.range objects.length).filterMap (fun i => (objects ++ [news])[i]?) =
        (List.range objects.length).filterMap (fun i => objects[i]?) := by
      refine List.filterMap_congr fun i member => ?_
      rw [List.getElem?_append_left (List.mem_range.mp member)]
    simp [List.range_succ, List.filterMap_append, earlier, ih]

theorem numberOfRows (coherent : Coherent foundation vc) :
    vc.viewModel.numberOfRows = vc.objects.length := by
  simp [NewsFeedViewModel.numberOfRows, coherent.newsItem]

theorem newsItem_getElem? (coherent : Coherent foundation vc) {row : Nat}
    (shown : row < vc.cells.length) : vc.viewModel.newsItem[row]? = some row := by
  have bound := coherent.rows
  simp [coherent.newsItem, show row < vc.objects.length by omega]

theorem cellForRowAt_eq (coherent : Coherent foundation vc) {row : Nat}
    (shown : row < vc.cells.length) :
    ∃ news, vc.objects[row]? = some news ∧ vc.cellForRowAt foundation row = some { vc with
      cells := vc.cells.set row
        (some (NewsFeedCell.setViewModel foundation { newsItem := row } news)) } := by
  have bound := coherent.rows
  have there : vc.objects[row]? = some vc.objects[row] := List.getElem?_eq_getElem (by omega)
  refine ⟨_, there, ?_⟩
  simp [NewsFeedViewController.cellForRowAt, NewsFeedViewModel.cellViewModel,
    coherent.newsItem_getElem? shown, there]

private theorem didSelectRowAt_eq (coherent : Coherent foundation vc) {row : Nat}
    (shown : row < vc.cells.length) :
    ∃ news, vc.objects[row]? = some news ∧ vc.didSelectRowAt row = some { vc with
      objects := vc.objects.set row { news with isReading := true }
      cells := List.replicate vc.objects.length none
      pushed := vc.pushed ++ [row] } := by
  have bound := coherent.rows
  have there : vc.objects[row]? = some vc.objects[row] := List.getElem?_eq_getElem (by omega)
  have marked : RealmManager.makeItRead vc.objects row true =
      vc.objects.set row { vc.objects[row] with isReading := true } := by
    rw [RealmManager.makeItRead, List.modify_eq_set_getElem?, there]
    rfl
  refine ⟨_, there, ?_⟩
  simp [NewsFeedViewController.didSelectRowAt, coherent.newsItem_getElem? shown,
    NewsFeedViewController.reloadData, NewsFeedViewController.numberOfRowsInSection,
    coherent.numberOfRows, marked]

private theorem reload (coherent : Coherent foundation vc) : Coherent foundation vc.reloadData where
  newsItem := coherent.newsItem
  rows := by
    simp [NewsFeedViewController.reloadData, NewsFeedViewController.numberOfRowsInSection,
      coherent.numberOfRows]
  drawn := by simp [NewsFeedViewController.reloadData, List.getElem?_replicate]

private theorem draw (coherent : Coherent foundation vc) {row : Nat} {news : NewsModel}
    (there : vc.objects[row]? = some news) : Coherent foundation { vc with
      cells := vc.cells.set row
        (some (NewsFeedCell.setViewModel foundation { newsItem := row } news)) } where
  newsItem := coherent.newsItem
  rows := by simpa using coherent.rows
  drawn := by
    intro other cell shown
    rw [List.getElem?_set] at shown
    split at shown
    · subst other
      split at shown
      · obtain rfl := Option.some.inj (Option.some.inj shown)
        exact ⟨news, there, rfl⟩
      · cases shown
    · exact coherent.drawn other cell shown

theorem step_ne_trapped (coherent : Coherent foundation s.controller) :
    s.step foundation a ≠ .trapped := by
  cases a with
  | cellForRowAt row =>
    rw [FeedScreen.step]
    split
    · obtain ⟨news, -, drawn⟩ := coherent.cellForRowAt_eq ‹_›
      simp [drawn]
    · simp
  | didSelectRowAt row =>
    rw [FeedScreen.step]
    split
    · obtain ⟨news, -, selected⟩ := coherent.didSelectRowAt_eq ‹_›
      simp [selected]
    · simp
  | respond load response => rw [FeedScreen.step]; split <;> simp
  | runCompletion op => rw [FeedScreen.step]; split <;> simp
  | _ => simp [FeedScreen.step]

theorem step_effect (coherent : Coherent foundation s.controller)
    (move : s.step foundation a = .next t) : Effect foundation s a t := by
  cases a with
  | viewWillAppear =>
    obtain rfl := Outcome.next.inj move
    exact .table _ rfl coherent.reload
  | refresh =>
    obtain rfl := Outcome.next.inj move
    exact .load _ rfl
  | updateSource source =>
    obtain rfl := Outcome.next.inj move
    exact .load source rfl
  | respond load response =>
    rw [FeedScreen.step] at move
    split at move
    · obtain rfl := Outcome.next.inj move
      exact .respond load response ‹_›
    · cases move
  | runCompletion op =>
    rw [FeedScreen.step] at move
    split at move
    · obtain rfl := Outcome.next.inj move
      have ran := foldl_append s.controller.reloadData op.newsItem coherent.newsItem
      have effect : Effect foundation s (.runCompletion op) _ := .runCompletion op ‹_›
      rw [NewsFeedViewController.completion, ran]
      simpa [NewsFeedViewController.reloadData, NewsFeedViewController.numberOfRowsInSection,
        coherent.numberOfRows] using effect
    · cases move
  | cellForRowAt row =>
    rw [FeedScreen.step] at move
    split at move
    · obtain ⟨news, there, drawn⟩ := coherent.cellForRowAt_eq ‹_›
      rw [drawn] at move
      obtain rfl := Outcome.next.inj move
      exact .table _ rfl (coherent.draw there)
    · cases move
  | didSelectRowAt row =>
    rw [FeedScreen.step] at move
    split at move
    · obtain ⟨news, there, selected⟩ := coherent.didSelectRowAt_eq ‹_›
      rw [selected] at move
      obtain rfl := Outcome.next.inj move
      exact .didSelectRowAt row news there
    · cases move

theorem step (coherent : Coherent foundation s.controller)
    (move : s.step foundation a = .next t) : Coherent foundation t.controller := by
  cases coherent.step_effect move with
  | table cells onlyTable redrawn => exact redrawn
  | load source loads => exact ⟨coherent.newsItem, coherent.rows, coherent.drawn⟩
  | respond load response flying => exact coherent
  | runCompletion op pending =>
    refine ⟨?_, ?_, ?_⟩
    · simp
    · simp
    · simp [List.getElem?_replicate]
  | didSelectRowAt row news there =>
    refine ⟨?_, ?_, ?_⟩
    · simpa using coherent.newsItem
    · simp
    · simp [List.getElem?_replicate]

theorem run {trace : Trace FeedScreen FeedAction}
    (run : Run (FeedScreen.step foundation) (FeedScreen.viewDidLoad foundation) trace s) :
    Coherent foundation s.controller :=
  run.state_invariant (fun s => Coherent foundation s.controller) viewDidLoad
    fun _ _ _ coherent move => coherent.step move

end Coherent

end TheNews.NewsFeed
