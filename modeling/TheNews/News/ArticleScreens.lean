/- TheNews/News/ArticleScreens
   digest: A row keeps its article and its mark for as long as the process runs, and
   an article screen shows the item of a document that has arrived, whenever its
   view is loaded. -/

import TheNews.News.MarkupRemoval
import TheNews.NewsFeed.DeliveryOrder
import TheNews.Service.FieldReader
import TheNews.Transition.Simulation

set_option autoImplicit false
set_option relaxedAutoImplicit false

namespace TheNews.News.ArticleScreens

open TheNews.Transition.Runs TheNews.Extensions TheNews.Service.NewsParse TheNews.NewsFeed
open TheNews.Text.Trimming TheNews.Service.FieldReader
open DeliveryOrder (responses)
open MarkupRemoval (MarkupGone markupGone_shown)
open NewsViewController (removeHTMLTags viewDidLoad)
open TheNews.UserDefault (getBankiURlString)

/-- The texts of the screen of an item. -/
def articleView (foundation : Foundation) (el : NewsItem) : NewsView :=
  { titleText := el.title
    dateText := formattedDate foundation el.pudDate
    descText := removeHTMLTags el.description }

variable {foundation : Foundation} {trace rest : FeedTrace} {s t : FeedScreen}

private theorem delivered_append (trace rest : FeedTrace) :
    delivered (trace ++ rest) = delivered trace ++ delivered rest := by
  simp [delivered, deliveries]

private theorem tapped_append (trace rest : FeedTrace) :
    tapped (trace ++ rest) = tapped trace ++ tapped rest := by
  simp [tapped]

private theorem objects_getElem? (recorded : Recorded trace s) (row : Nat) :
    s.controller.objects[row]? = (delivered trace)[row]?.map (entry (tapped trace) row) := by
  rw [recorded.objects, List.getElem?_mapIdx]

/-- Whatever happens later, a row keeps its place and its article, and a read
article stays read. -/
theorem rows_stable (run : FeedRun foundation trace s)
    (more : Run (FeedScreen.step foundation) s rest t) {row : Nat} {news : NewsModel}
    (there : s.controller.entries[row]? = some news) :
    ∃ later, t.controller.entries[row]? = some later ∧ later.article = news.article ∧
      (news.isReading = true → later.isReading = true) ∧
      later.isFavourite = news.isFavourite := by
  have whole := run.trans more
  rw [(Coherent.run run).entries_eq, objects_getElem? (recorded run)] at there
  obtain ⟨x, at_row, rfl⟩ := Option.map_eq_some_iff.mp there
  refine ⟨entry (tapped (trace ++ rest)) row x, ?_, rfl, ?_, rfl⟩
  · obtain ⟨bound, -⟩ := List.getElem?_eq_some_iff.mp at_row
    rw [(Coherent.run whole).entries_eq, objects_getElem? (recorded whole), delivered_append,
      List.getElem?_append_left bound, at_row]
    rfl
  · intro read
    have opened : row ∈ tapped trace := by simpa [entry] using read
    simp [entry, tapped_append, opened]

private def listedOnce : FeedScreen :=
  { controller :=
      { objects := [NewsModel.ofItem wednesdayNews]
        viewModel := { newsItem := [0] }
        cells := [none] } }

private def tappedOnce : FeedScreen :=
  { controller :=
      { objects := [{ NewsModel.ofItem wednesdayNews with isReading := true }]
        viewModel := { newsItem := [0] }
        cells := [none]
        pushed := [0] } }

private theorem listedOnce_run : ∃ trace, FeedRun moscow trace listedOnce :=
  ⟨_, ((Run.refl.tail (show FeedScreen.step moscow _ (.respond ⟨getBankiURlString⟩
      (.document (rssDocument [wednesdayNews]))) = .next _ from rfl)).tail
    (show FeedScreen.step moscow _ (.runCompletion ⟨⟨getBankiURlString⟩, [wednesdayNews]⟩) =
      .next _ from rfl)).tail (show FeedScreen.step moscow _ .viewWillAppear = .next _ from rfl)⟩

private theorem tapped_once :
    listedOnce.step moscow (.didSelectRowAt 0) = .next tappedOnce := rfl

theorem rows_stable_tapped :
    listedOnce.controller.entries ≠ tappedOnce.controller.entries ∧
      ∃ later, tappedOnce.controller.entries[0]? = some later ∧
        later.article = (NewsModel.ofItem wednesdayNews).article := by
  obtain ⟨trace, run⟩ := listedOnce_run
  obtain ⟨later, there, same, -⟩ := rows_stable run (Run.refl.tail tapped_once)
    (show listedOnce.controller.entries[0]? = some (NewsModel.ofItem wednesdayNews) from rfl)
  exact ⟨by decide, later, there, same⟩

private theorem pushed_eq (run : FeedRun foundation trace s) :
    s.controller.pushed = tapped trace := by
  induction run with
  | refl => rfl
  | tail prior move ih =>
    rename_i s t a
    cases (Coherent.run prior).step_effect move with
    | table cells onlyTable redrawn =>
      obtain ⟨-, -, taps, -⟩ := silent_of_onlyTable (s := s) onlyTable
      simpa [taps] using ih
    | load source loads =>
      obtain ⟨-, -, taps⟩ := silent_of_loads loads
      simpa [taps] using ih
    | respond load response flying => simpa [FeedAction.taps] using ih
    | runCompletion op pending => simpa [FeedAction.taps] using ih
    | didSelectRowAt row news there => simp [FeedAction.taps, ih]

private theorem arrived_of_delivered (run : FeedRun foundation trace s) {load : Load}
    {el : NewsItem} (member : (load, el) ∈ delivered trace) :
    ∃ events, (load, Response.document events) ∈ responses trace ∧ el ∈ items events := by
  obtain ⟨op, ran, carried⟩ := List.mem_flatMap.mp member
  obtain ⟨other, listed, same⟩ := List.mem_map.mp carried
  obtain ⟨rfl, rfl⟩ := Prod.mk.inj same
  have queued : op ∈ queued trace :=
    (deliveries_perm_queued run).mem_iff.mp (List.mem_append_left _ ran)
  obtain ⟨⟨before, a⟩, taken, queues⟩ := List.mem_filterMap.mp queued
  cases a with
  | respond load response =>
    obtain ⟨newsItem, delivers, rfl⟩ := Option.map_eq_some_iff.mp queues
    cases response with
    | document events =>
      obtain rfl := Option.some.inj delivers
      exact ⟨events, List.mem_filterMap.mpr ⟨_, taken, rfl⟩, listed⟩
    | _ => cases delivers
  | _ => cases queues

/-- The pushed screens are those of the tapped rows, in order. Each shows, whenever
its view is loaded, the item delivered to its row: an item of a document that has
arrived, its title and date without outer whitespace and its description without
markup. -/
theorem articleScreens (run : FeedRun foundation trace s)
    (more : Run (FeedScreen.step foundation) s rest t) :
    s.controller.pushed = tapped trace ∧ s.controller.pushed <+: t.controller.pushed ∧
      ∀ news ∈ s.controller.pushed, ∃ load el events,
        (delivered trace)[news]? = some (load, el) ∧
        (load, Response.document events) ∈ responses trace ∧ el ∈ items events ∧
        viewDidLoad foundation s.controller.objects[news]? = some (articleView foundation el) ∧
        viewDidLoad foundation t.controller.objects[news]? = some (articleView foundation el) ∧
        Trimmed whitespacesAndNewlines (articleView foundation el).titleText.toList ∧
        Trimmed whitespacesAndNewlines el.pudDate.toList ∧
        MarkupGone (articleView foundation el).descText := by
  have whole := run.trans more
  refine ⟨pushed_eq run, ?_, ?_⟩
  · rw [pushed_eq run, pushed_eq whole, tapped_append]
    exact List.prefix_append _ _
  · intro news pushed
    rw [pushed_eq run] at pushed
    have bound := (recorded run).tapped news pushed
    have at_row := List.getElem?_eq_getElem bound
    obtain ⟨events, arrived, listed⟩ := arrived_of_delivered run (List.getElem_mem bound)
    have shown : viewDidLoad foundation s.controller.objects[news]? =
        some (articleView foundation (delivered trace)[news].2) := by
      rw [objects_getElem? (recorded run), at_row]
      rfl
    have later : viewDidLoad foundation t.controller.objects[news]? =
        some (articleView foundation (delivered trace)[news].2) := by
      rw [objects_getElem? (recorded whole), delivered_append, List.getElem?_append_left bound,
        at_row]
      rfl
    exact ⟨_, _, events, at_row, arrived, listed, shown, later, items_trimmed listed .title,
      items_trimmed listed .pubDate, markupGone_shown shown⟩

theorem articleScreens_reloaded :
    ∃ rest t, Run (FeedScreen.step moscow) tappedOnce rest t ∧
      t.controller.objects.length = 2 ∧
      viewDidLoad moscow t.controller.objects[0]? = some (articleView moscow wednesdayNews) := by
  obtain ⟨trace, run⟩ := listedOnce_run
  have more : Run (FeedScreen.step moscow) tappedOnce _ _ := Run.replay
    [.refresh, .respond ⟨getBankiURlString⟩ (.document (rssDocument [thursdayNews])),
      .runCompletion ⟨⟨getBankiURlString⟩, [thursdayNews]⟩] rfl
  obtain ⟨-, -, screens⟩ := articleScreens (run.tail tapped_once) more
  obtain ⟨load, el, events, -, -, -, before, after, -⟩ := screens 0 (by decide)
  exact ⟨_, _, more, rfl, after.trans before.symm⟩

end TheNews.News.ArticleScreens
