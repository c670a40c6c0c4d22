/- TheNews/NewsFeed/FeedCells
   models: NewsFeed/NewsFeedCell/NewsFeedCell.swift, NewsFeedCellViewModel.swift and
           the data source of NewsFeed/NewsFeedViewController.swift
   digest: The cells of the feed are used again for other rows: what a row shows of
   its article never depends on what its cell showed before. -/

import TheNews.NewsFeed.History
import TheNews.TableView.TableScreen

set_option autoImplicit false
set_option relaxedAutoImplicit false

namespace TheNews.NewsFeed

open TheNews.Transition.Runs TheNews.Extensions TheNews.TableView
open TheNews.Service.NewsParse (NewsItem)
open TheNews.UserDefault (getBankiURlString)

inductive AccessoryType where
  | none
  | checkmark
  deriving DecidableEq, Repr

/-- The labels of a NewsFeedCell and what else the two screens set of it. A new
label has no text and a colour of its own. -/
structure CellLabels where
  titleText : Option String := none
  dateText : Option String := none
  titleColor : Option TitleColor := none
  accessoryType : AccessoryType := .none
  tintColor : Bool := false
  deriving DecidableEq, Repr

namespace NewsFeedCellViewModel

def title (news : NewsModel) : String := news.title

def date (foundation : Foundation) (news : NewsModel) : String := formattedDate foundation news.date

def isReading (news : NewsModel) : Bool := news.isReading

end NewsFeedCellViewModel

/-- The observer of `viewModel`; without a view model it keeps the old labels. -/
def CellLabels.willSet (foundation : Foundation) (cell : CellLabels)
    (viewModel : Option NewsModel) : CellLabels :=
  match viewModel with
  | none => cell
  | some news => { cell with
      titleText := some (NewsFeedCellViewModel.title news)
      dateText := some (NewsFeedCellViewModel.date foundation news)
      titleColor :=
        some (if NewsFeedCellViewModel.isReading news = true then .reading else .black) }

/-- What cellForRowAt does with the cell it has got; `none` is a trap. -/
def NewsFeedViewController.configureCell (foundation : Foundation) (vc : NewsFeedViewController)
    (row : Nat) : Option (CellLabels → CellLabels) := do
  let cellViewModel ← vc.viewModel.cellViewModel row
  let news ← vc.objects[cellViewModel.newsItem]?
  return fun cell => cell.willSet foundation (some news)

namespace FeedScreen

/-- What an action that leads to the screen `after` asks of the table. -/
def tableCall (foundation : Foundation) (s : FeedScreen) (a : FeedAction) (after : FeedScreen) :
    TableCall CellLabels :=
  match a with
  | .viewWillAppear | .runCompletion _ | .didSelectRowAt _ =>
      .reloadData after.controller.cells.length
  | .cellForRowAt row => match s.controller.configureCell foundation row with
    | some configure => .cellForRowAt row configure
    | none => .none
  | .refresh | .updateSource _ | .respond _ _ => .none

/-- The screen with the cells of its table view. -/
def stepCells (foundation : Foundation) :
    TableScreen FeedScreen CellLabels → TableAction FeedAction →
      Outcome (TableScreen FeedScreen CellLabels) :=
  TableScreen.step (FeedScreen.step foundation) (tableCall foundation) {}

end FeedScreen

variable {foundation : Foundation}

/-- What a row shows that was delivered as `el`. -/
def itemCell (foundation : Foundation) (el : NewsItem) (isReading : Bool) : CellLabels :=
  { titleText := some el.title
    dateText := some (formattedDate foundation el.pudDate)
    titleColor := some (if isReading = true then .reading else .black) }

private def Blank (cell : CellLabels) : Prop :=
  cell.accessoryType = .none ∧ cell.tintColor = false

private def Agrees (s : FeedScreen) (row : Nat) (cell : CellLabels) : Prop :=
  ∃ shown, s.controller.cells[row]? = some (some shown) ∧ cell =
    { titleText := some shown.titleText, dateText := some shown.dateText
      titleColor := some shown.titleColor }

private theorem configureCell_eq {vc : NewsFeedViewController} {row : Nat} {news : NewsModel}
    (coherent : Coherent foundation vc) (shown : row < vc.cells.length)
    (there : vc.objects[row]? = some news) :
    vc.configureCell foundation row = some fun cell => cell.willSet foundation (some news) := by
  simp [NewsFeedViewController.configureCell, NewsFeedViewModel.cellViewModel,
    coherent.newsItem_getElem? shown, there]

private theorem willSet_blank {cell : CellLabels} {news : NewsModel} (ref : Ref)
    (blank : Blank cell) : cell.willSet foundation (some news) =
      let shown := NewsFeedCell.setViewModel foundation { newsItem := ref } news
      { titleText := some shown.titleText, dateText := some shown.dateText
        titleColor := some shown.titleColor } := by
  obtain ⟨title, date, color, accessory, tint⟩ := cell
  obtain ⟨rfl, rfl⟩ : accessory = .none ∧ tint = false := blank
  rfl

private theorem step_answers {s t : FeedScreen} {a : FeedAction}
    (coherent : Coherent foundation s.controller) (move : s.step foundation a = .next t) :
    Answers Blank s.controller.cells.length t.controller.cells.length (Agrees s) (Agrees t)
      (s.tableCall foundation a t) := by
  cases a with
  | viewWillAppear => exact .reloadData
  | runCompletion op => exact .reloadData
  | didSelectRowAt row => exact .reloadData
  | refresh =>
    obtain rfl := Outcome.next.inj move
    exact .none rfl fun _ _ agrees => agrees
  | updateSource source =>
    obtain rfl := Outcome.next.inj move
    exact .none rfl fun _ _ agrees => agrees
  | respond load response =>
    rw [FeedScreen.step] at move
    split at move
    · obtain rfl := Outcome.next.inj move
      exact .none rfl fun _ _ agrees => agrees
    · cases move
  | cellForRowAt row =>
    rw [FeedScreen.step] at move
    split at move
    · rename_i shown
      obtain ⟨news, there, drawn⟩ := coherent.cellForRowAt_eq shown
      rw [drawn] at move
      obtain rfl := Outcome.next.inj move
      rw [FeedScreen.tableCall, configureCell_eq coherent shown there]
      refine .cellForRowAt row _ (List.length_set ..) ?_ ?_
      · -- The other rows keep their cells.
        intro i cell other agrees
        obtain ⟨labels, before, same⟩ := agrees
        exact ⟨labels, by rwa [List.getElem?_set_ne (Ne.symm other)], same⟩
      · intro cell blank
        exact ⟨blank, _, by simp [shown], willSet_blank row blank⟩
    · cases move

/-- Whatever cells the table picks, a row on the screen shows the title and the local
date of the item delivered to it, in the colour of an article that has been read
once the row was tapped. -/
theorem rows_show_delivered {s : TableScreen FeedScreen CellLabels}
    {trace : Trace (TableScreen FeedScreen CellLabels) (TableAction FeedAction)}
    (run : Run (FeedScreen.stepCells foundation) ⟨FeedScreen.viewDidLoad foundation, {}⟩ trace s) :
    FeedRun foundation (screenTrace trace) s.screen ∧
      s.table.rows.length = s.screen.controller.cells.length ∧
      ∀ row cell, s.table.rows[row]? = some (some cell) → ∃ load el,
        (delivered (screenTrace trace))[row]? = some (load, el) ∧
        cell = itemCell foundation el (decide (row ∈ tapped (screenTrace trace))) := by
  obtain ⟨whole, drawn⟩ := run_drawn (fun s => s.controller.cells.length) Agrees ⟨rfl, rfl⟩ rfl
    (fun _ _ _ _ prior move => step_answers (Coherent.run prior) move) run
  refine ⟨whole, drawn.counted, fun row cell visible => ?_⟩
  obtain ⟨shown, there, rfl⟩ := drawn.cells.shown row cell visible
  obtain ⟨news, listed, rfl⟩ := (Coherent.run whole).drawn row shown there
  rw [(recorded whole).objects, List.getElem?_mapIdx, Option.map_eq_some_iff] at listed
  obtain ⟨⟨load, el⟩, arrived, rfl⟩ := listed
  exact ⟨load, el, arrived, rfl⟩

theorem rows_show_delivered_recycled :
    ∃ trace s cell, Run (FeedScreen.stepCells moscow) ⟨FeedScreen.viewDidLoad moscow, {}⟩ trace s ∧
      s.table.rows = [none, some cell] ∧ cell = itemCell moscow thursdayNews false := by
  have run : Run (FeedScreen.stepCells moscow) ⟨FeedScreen.viewDidLoad moscow, {}⟩ _ _ := Run.replay
    [.act (.respond ⟨getBankiURlString⟩ (.document (rssDocument [wednesdayNews, thursdayNews]))) 0,
      .act (.runCompletion ⟨⟨getBankiURlString⟩, [wednesdayNews, thursdayNews]⟩) 0,
      .act .viewWillAppear 0, .act (.cellForRowAt 0) 0, .act (.cellForRowAt 1) 0,
      .act (.didSelectRowAt 0) 0, .act (.cellForRowAt 1) 0] rfl
  obtain ⟨-, -, shown⟩ := rows_show_delivered run
  obtain ⟨load, el, arrived, same⟩ := shown 1 _ rfl
  have second : el = thursdayNews := congrArg Prod.snd (Option.some.inj (arrived.symm.trans rfl))
  refine ⟨_, _, _, run, rfl, same.trans ?_⟩
  rw [second]
  rfl

end TheNews.NewsFeed
