/- TheNews/NewsFeed/NewsFeedViewController
   models: NewsFeed/NewsFeedViewController.swift, NewsFeed/NewsFeedViewModel.swift,
           NewsFeed/NewsFeedCell, Realm/NewsModel.swift, Realm/RealmManager.swift
   digest: The feed screen with its loads in flight and the operations it has
   queued on the main queue, one step for each thing that can happen next. -/

import TheNews.Extensions.DateFormatter
import TheNews.Service.NewsParse
import TheNews.Source.SourceViewModel
import TheNews.Transition.Runs

set_option autoImplicit false
set_option relaxedAutoImplicit false

namespace TheNews.NewsFeed

open TheNews.Transition.Runs TheNews.Service.NewsParse TheNews.Extensions
open TheNews.Source (SourceModel)
open TheNews.UserDefault (getBankiURlString)

structure NewsModel where
  title : String := ""
  date : String := ""
  desc : String := ""
  isReading : Bool := false
  isFavourite : Bool := false
  deriving DecidableEq, Repr

/-- NewsModel is a class: the list, the cells and the article screens hold
references, numbered here in the order in which the objects were created. -/
abbrev Ref := Nat

structure NewsFeedViewModel where
  newsItem : List Ref := []
  currentSource : SourceModel := { title := "Новости Banki.ru", url := getBankiURlString }
  deriving DecidableEq, Repr

structure NewsFeedCellViewModel where
  newsItem : Ref
  deriving DecidableEq, Repr

namespace NewsFeedViewModel

def numberOfRows (viewModel : NewsFeedViewModel) : Nat := viewModel.newsItem.length

/-- `none` is the trap of the subscript. -/
def cellViewModel (viewModel : NewsFeedViewModel) (row : Nat) : Option NewsFeedCellViewModel := do
  let news ← viewModel.newsItem[row]?
  return { newsItem := news }

end NewsFeedViewModel

inductive TitleColor where
  | black
  | reading
  deriving DecidableEq, Repr

/-- What a cell shows: its labels are set when it is given its view model and
never again. -/
structure NewsFeedCell where
  viewModel : NewsFeedCellViewModel
  titleText : String
  dateText : String
  titleColor : TitleColor
  deriving DecidableEq, Repr

def NewsFeedCell.setViewModel (foundation : Foundation) (viewModel : NewsFeedCellViewModel)
    (news : NewsModel) : NewsFeedCell :=
  { viewModel
    titleText := news.title
    dateText := formattedDate foundation news.date
    titleColor := if news.isReading = true then .reading else .black }

def RealmManager.makeItRead (objects : List NewsModel) (editNews : Ref) (newState : Bool) :
    List NewsModel :=
  objects.modify editNews fun news => { news with isReading := newState }

/-- The screen after viewDidLoad has created its view model. -/
structure NewsFeedViewController where
  viewModel : NewsFeedViewModel := {}
  /-- Every NewsModel created so far. -/
  objects : List NewsModel := []
  /-- One entry for each row the table view last counted, with its cell once the
  table has asked for it. -/
  cells : List (Option NewsFeedCell) := []
  isRefreshing : Bool := false
  /-- The news handed to each article screen that was pushed. -/
  pushed : List Ref := []
  deriving DecidableEq, Repr

/-- An operation on the main queue: the completion handler of `load`. -/
structure Completion where
  load : Load
  newsItem : List NewsItem
  deriving DecidableEq, Repr

namespace NewsFeedViewController

def numberOfRowsInSection (vc : NewsFeedViewController) : Nat := vc.viewModel.numberOfRows

/-- UIKit counts the rows again and forgets the cells. The table has one
section, so reloadSections of section 0 does the same. -/
def reloadData (vc : NewsFeedViewController) : NewsFeedViewController :=
  { vc with cells := List.replicate vc.numberOfRowsInSection none }

def viewWillAppear (vc : NewsFeedViewController) : NewsFeedViewController := vc.reloadData

-- The spinner starts before parseFeed looks at the URL.
def updateTableView (foundation : Foundation) (vc : NewsFeedViewController) :
    NewsFeedViewController × Option Load :=
  ({ vc with isRefreshing := true }, parseFeed foundation.url vc.viewModel.currentSource.url)

def refresh (foundation : Foundation) (vc : NewsFeedViewController) :
    NewsFeedViewController × Option Load := vc.updateTableView foundation

def updateSource (foundation : Foundation) (vc : NewsFeedViewController) (source : SourceModel) :
    NewsFeedViewController × Option Load :=
  { vc with viewModel := { vc.viewModel with currentSource := source } }.updateTableView foundation

/-- The body of the loop over the delivered items. -/
def append (vc : NewsFeedViewController) (el : NewsItem) : NewsFeedViewController :=
  let realmItem : NewsModel :=
    { title := el.title, date := el.pudDate, desc := el.description,
      isReading := false, isFavourite := false }
  { vc with
    objects := vc.objects ++ [realmItem]
    viewModel := { vc.viewModel with newsItem := vc.viewModel.newsItem ++ [vc.objects.length] }
    isRefreshing := false }

/-- The operation the completion handler adds to the main queue. -/
def completion (vc : NewsFeedViewController) (newsItem : List NewsItem) :
    NewsFeedViewController := newsItem.foldl append vc.reloadData

/-- `none` is a subscript out of bounds. -/
def cellForRowAt (foundation : Foundation) (vc : NewsFeedViewController) (row : Nat) :
    Option NewsFeedViewController := do
  let cellViewModel ← vc.viewModel.cellViewModel row
  let news ← vc.objects[cellViewModel.newsItem]?
  let cell := NewsFeedCell.setViewModel foundation cellViewModel news
  return { vc with cells := vc.cells.set row (some cell) }

def didSelectRowAt (vc : NewsFeedViewController) (row : Nat) : Option NewsFeedViewController := do
  let news ← vc.viewModel.newsItem[row]?
  let vc := { vc with objects := RealmManager.makeItRead vc.objects news true }.reloadData
  return { vc with pushed := vc.pushed ++ [news] }

/-- The objects behind viewModel.newsItem. -/
def entries (vc : NewsFeedViewController) : List NewsModel :=
  vc.viewModel.newsItem.filterMap fun news => vc.objects[news]?

end NewsFeedViewController

/-- The screen with what runs outside it. -/
structure FeedScreen where
  controller : NewsFeedViewController
  inFlight : List Load := []
  mainQueue : List Completion := []
  deriving DecidableEq, Repr

/-- Loads in flight end in any order, and so do pending operations. The table
asks for cells of the rows it has counted, and reports taps on those. -/
inductive FeedAction where
  | viewWillAppear
  | refresh
  | updateSource (source : SourceModel)
  | respond (load : Load) (response : Response)
  | runCompletion (op : Completion)
  | cellForRowAt (row : Nat)
  | didSelectRowAt (row : Nat)
  deriving DecidableEq, Repr

namespace FeedScreen

variable (foundation : Foundation)

/-- Keep the load that a call has started, if it has. -/
def issue (s : FeedScreen) (started : NewsFeedViewController × Option Load) : FeedScreen :=
  { s with controller := started.1, inFlight := s.inFlight ++ started.2.toList }

/-- The completion handler runs on the session's queue and only adds an
operation to the main queue. -/
def settle (s : FeedScreen) (load : Load) (response : Response) : FeedScreen :=
  { s with
    inFlight := s.inFlight.erase load
    mainQueue := s.mainQueue ++ (response.delivered.map (Completion.mk load)).toList }

@[simp] theorem settle_controller (s : FeedScreen) (load : Load) (response : Response) :
    (s.settle load response).controller = s.controller := rfl

def viewDidLoad : FeedScreen :=
  let controller : NewsFeedViewController := {}
  ({ controller } : FeedScreen).issue (controller.updateTableView foundation)

def step (s : FeedScreen) : FeedAction → Outcome FeedScreen
  | .viewWillAppear => .next { s with controller := s.controller.viewWillAppear }
  | .refresh => .next (s.issue (s.controller.refresh foundation))
  | .updateSource source => .next (s.issue (s.controller.updateSource foundation source))
  | .respond load response =>
      if load ∈ s.inFlight then .next (s.settle load response) else .blocked
  | .runCompletion op =>
      if op ∈ s.mainQueue then
        .next { s with
          controller := s.controller.completion op.newsItem
          mainQueue := s.mainQueue.erase op }
      else .blocked
  | .cellForRowAt row =>
      if row < s.controller.cells.length then
        match s.controller.cellForRowAt foundation row with
        | some controller => .next { s with controller }
        | none => .trapped
      else .blocked
  | .didSelectRowAt row =>
      if row < s.controller.cells.length then
        match s.controller.didSelectRowAt row with
        | some controller => .next { s with controller }
        | none => .trapped
      else .blocked

end FeedScreen

end TheNews.NewsFeed
