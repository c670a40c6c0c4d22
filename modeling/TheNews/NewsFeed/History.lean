/- TheNews/NewsFeed/History
   digest: What a run of the feed screen has been told, read off its trace, and
   the list that comes of it: the delivered items in delivery order, marked at
   the rows that were tapped. -/

import TheNews.NewsFeed.Effects

set_option autoImplicit false
set_option relaxedAutoImplicit false

namespace TheNews.NewsFeed

open TheNews.Transition.Runs TheNews.Service.NewsParse TheNews.Extensions
open TheNews.UserDefault (getBankiURlString getFinamURlString)

abbrev FeedTrace := Trace FeedScreen FeedAction

abbrev FeedRun (foundation : Foundation) (trace : FeedTrace) (s : FeedScreen) : Prop :=
  Run (FeedScreen.step foundation) (FeedScreen.viewDidLoad foundation) trace s

/-- The completion an action runs. -/
def FeedAction.delivers : FeedAction → Option Completion
  | .runCompletion op => some op
  | _ => none

/-- The completion a response puts on the main queue. -/
def FeedAction.queues : FeedAction → Option Completion
  | .respond load response => response.delivered.map (Completion.mk load)
  | _ => none

def FeedAction.taps : FeedAction → Option Nat
  | .didSelectRowAt row => some row
  | _ => none

/-- The completions that ran, in the order they ran. -/
def deliveries (trace : FeedTrace) : List Completion := trace.filterMap fun x => x.2.delivers

/-- Their items, each with the load it came from. -/
def delivered (trace : FeedTrace) : List (Load × NewsItem) :=
  (deliveries trace).flatMap fun op => op.newsItem.map (Prod.mk op.load)

/-- The completions that were queued. -/
def queued (trace : FeedTrace) : List Completion := trace.filterMap fun x => x.2.queues

def tapped (trace : FeedTrace) : List Nat := trace.filterMap fun x => x.2.taps

section Tail
variable (trace : FeedTrace) (s : FeedScreen) (a : FeedAction)

@[simp] theorem deliveries_tail :
    deliveries (trace ++ [(s, a)]) = deliveries trace ++ a.delivers.toList := by
  cases delivers : a.delivers <;> simp [deliveries, delivers]

@[simp] theorem delivered_tail : delivered (trace ++ [(s, a)]) =
    delivered trace ++ a.delivers.toList.flatMap fun op => op.newsItem.map (Prod.mk op.load) := by
  simp [delivered]

@[simp] theorem queued_tail : queued (trace ++ [(s, a)]) = queued trace ++ a.queues.toList := by
  cases queues : a.queues <;> simp [queued, queues]

@[simp] theorem tapped_tail : tapped (trace ++ [(s, a)]) = tapped trace ++ a.taps.toList := by
  cases taps : a.taps <;> simp [tapped, taps]

end Tail

/-- What makes two entries the same article. -/
def NewsModel.article (news : NewsModel) : String × String × String :=
  (news.title, news.date, news.desc)

/-- The entry of row `i`, delivered as `x`, once the rows `opened` were tapped. -/
def entry (opened : List Nat) (i : Nat) (x : Load × NewsItem) : NewsModel :=
  { title := x.2.title, date := x.2.pudDate, desc := x.2.description
    isReading := decide (i ∈ opened), isFavourite := false }

variable {foundation : Foundation} {trace : FeedTrace} {s t : FeedScreen} {a : FeedAction}

theorem silent_of_onlyTable (only : a.onlyTable = true) :
    a.delivers = none ∧ a.queues = none ∧ a.taps = none ∧ a.loads s = none := by
  cases a with
  | viewWillAppear => exact ⟨rfl, rfl, rfl, rfl⟩
  | cellForRowAt row => exact ⟨rfl, rfl, rfl, rfl⟩
  | _ => cases only

theorem silent_of_loads {source : TheNews.Source.SourceModel} (loads : a.loads s = some source) :
    a.delivers = none ∧ a.queues = none ∧ a.taps = none := by
  cases a with
  | refresh => exact ⟨rfl, rfl, rfl⟩
  | updateSource source => exact ⟨rfl, rfl, rfl⟩
  | _ => cases loads

private theorem mapIdx_entry_of_fresh {opened : List Nat} {n : Nat}
    (fresh : ∀ row ∈ opened, row < n) (op : Completion) :
    (op.newsItem.map (Prod.mk op.load)).mapIdx (fun i => entry opened (i + n)) =
      op.newsItem.map NewsModel.ofItem := by
  refine List.ext_getElem (by simp) fun i bound _ => ?_
  have unread : i + n ∉ opened := fun member => by have := fresh _ member; omega
  simp [entry, NewsModel.ofItem, unread]

private theorem set_mapIdx_entry {opened : List Nat} {items : List (Load × NewsItem)} {row : Nat}
    {news : NewsModel} (there : (items.mapIdx (entry opened))[row]? = some news) :
    (items.mapIdx (entry opened)).set row { news with isReading := true } =
      items.mapIdx (entry (opened ++ [row])) := by
  simp only [List.getElem?_mapIdx, Option.map_eq_some_iff] at there
  obtain ⟨x, at_row, rfl⟩ := there
  obtain ⟨bound, rfl⟩ := List.getElem?_eq_some_iff.mp at_row
  refine List.ext_getElem (by simp) fun i here _ => ?_
  rw [List.getElem_set]
  by_cases same : row = i
  · subst i
    simp [entry]
  · simp [same, entry, Ne.symm same]

/-- The objects are the delivered items in delivery order, read where a row was
tapped; and only rows that exist were tapped. -/
structure Recorded (trace : FeedTrace) (s : FeedScreen) : Prop where
  objects : s.controller.objects = (delivered trace).mapIdx (entry (tapped trace))
  tapped : ∀ row ∈ tapped trace, row < (delivered trace).length

theorem Recorded.step (recorded : Recorded trace s) (coherent : Coherent foundation s.controller)
    (move : s.step foundation a = .next t) : Recorded (trace ++ [(s, a)]) t := by
  cases coherent.step_effect move with
  | table cells onlyTable redrawn =>
    obtain ⟨delivers, -, taps, -⟩ := silent_of_onlyTable (s := s) onlyTable
    exact ⟨by simpa [delivers, taps] using recorded.objects,
      by simpa [delivers, taps] using recorded.tapped⟩
  | load source loads =>
    obtain ⟨delivers, -, taps⟩ := silent_of_loads loads
    exact ⟨by simpa [delivers, taps] using recorded.objects,
      by simpa [delivers, taps] using recorded.tapped⟩
  | respond load response flying =>
    exact ⟨by simpa [FeedAction.delivers, FeedAction.taps] using recorded.objects,
      by simpa [FeedAction.delivers, FeedAction.taps] using recorded.tapped⟩
  | runCompletion op pending =>
    constructor
    · -- No row past the end has been tapped, so the new entries are unread.
      have fresh := mapIdx_entry_of_fresh recorded.tapped op
      simp [FeedAction.delivers, FeedAction.taps, List.mapIdx_append, recorded.objects, fresh]
    · intro row member
      have bound := recorded.tapped row (by simpa [FeedAction.taps] using member)
      simp only [delivered_tail, List.length_append]
      omega
  | didSelectRowAt row news there =>
    rw [recorded.objects] at there
    have marked := set_mapIdx_entry there
    obtain ⟨bound, -⟩ := List.getElem?_eq_some_iff.mp there
    constructor
    · simpa [FeedAction.delivers, FeedAction.taps, recorded.objects] using marked
    · intro other member
      simp only [tapped_tail, FeedAction.taps, Option.toList_some, List.mem_append,
        List.mem_singleton] at member
      simp only [delivered_tail, FeedAction.delivers, Option.toList_none, List.flatMap_nil,
        List.append_nil]
      rcases member with earlier | rfl
      · exact recorded.tapped other earlier
      · simpa using bound

theorem recorded (run : FeedRun foundation trace s) : Recorded trace s := by
  induction run with
  | refl => exact ⟨rfl, by simp [tapped]⟩
  | tail prior move ih => exact ih.step (Coherent.run prior) move

/-- Every queued completion has either run or is still pending, each as often as
it was queued. -/
theorem deliveries_perm_queued (run : FeedRun foundation trace s) :
    (deliveries trace ++ s.mainQueue).Perm (queued trace) := by
  induction run with
  | refl => simp [deliveries, queued, FeedScreen.viewDidLoad, FeedScreen.issue]
  | tail prior move ih =>
    cases (Coherent.run prior).step_effect move with
    | table cells onlyTable redrawn =>
      rename_i s a
      obtain ⟨delivers, queues, -⟩ := silent_of_onlyTable (s := s) onlyTable
      simpa [delivers, queues] using ih
    | load source loads =>
      obtain ⟨delivers, queues, -⟩ := silent_of_loads loads
      simpa [delivers, queues] using ih
    | respond load response flying =>
      simp only [deliveries_tail, queued_tail, FeedAction.delivers, FeedAction.queues,
        FeedScreen.settle, Option.toList_none, List.append_nil]
      rw [← List.append_assoc]
      exact ih.append_right _
    | runCompletion op pending =>
      simp only [deliveries_tail, queued_tail, FeedAction.delivers, FeedAction.queues,
        Option.toList_some, Option.toList_none, List.append_nil, List.append_assoc,
        List.singleton_append]
      exact ((List.perm_cons_erase pending).symm.append_left _).trans ih
    | didSelectRowAt row news there => simpa [FeedAction.delivers, FeedAction.queues] using ih

theorem erase_eq_nil_iff {α : Type} [DecidableEq α] {l : List α} {x : α} (member : x ∈ l) :
    l.erase x = [] ↔ l = [x] := by
  rw [List.erase_eq_nil_iff, or_iff_right (List.ne_nil_of_mem member)]

/-- A feed document with the given items, as XMLParser reports it. -/
def rssDocument (newsItem : List NewsItem) : List SaxEvent :=
  let element (name text : String) : List SaxEvent :=
    [.didStartElement name, .foundCharacters text, .didEndElement name]
  [.didStartElement "rss", .didStartElement "channel"] ++
    newsItem.flatMap (fun el =>
      .didStartElement "item" :: (element "title" el.title ++
        element "description" el.description ++ element "pubDate" el.pudDate) ++
      [.didEndElement "item"]) ++
    [.didEndElement "channel", .didEndElement "rss"]

def wednesdayNews : NewsItem :=
  { title := "Вклады", description := "Ставки выросли.",
    pudDate := "Wed, 11 Nov 2020 10:00:00 +0300" }

def thursdayNews : NewsItem :=
  { title := "Кредиты", description := "Ставки упали.",
    pudDate := "Thu, 12 Nov 2020 10:00:00 +0300" }

/-- A device in Moscow, asked about the built-in sources and these two articles. -/
def moscow : Foundation where
  url s := s == getBankiURlString || s == getFinamURlString
  date s :=
    if s = wednesdayNews.pudDate then some 1605078000
    else if s = thursdayNews.pudDate then some 1605164400
    else none
  string seconds := if seconds = 1605078000 then "нояб. 11, 10:00" else "нояб. 12, 10:00"

end TheNews.NewsFeed
