/- TheNews/Source/SourceCells
   models: the data source of Source/SourceViewController.swift,
           NewsFeed/NewsFeedCell/NewsFeedCell.swift
   digest: The rows of the source screen through reloads, reuse and deletions: what
   is on the screen is always the list, with one checkmark at most. -/

import TheNews.NewsFeed.FeedCells
import TheNews.Source.SourceList

set_option autoImplicit false
set_option relaxedAutoImplicit false

namespace TheNews.Source

open TheNews.Transition.Runs TheNews.UserDefault TheNews.TableView
open TheNews.NewsFeed (CellLabels AccessoryType)

/-- The labels, the checkmark and its colour; the title keeps the colour it has. -/
def SourceModel.configure (source : SourceModel) (cell : CellLabels) : CellLabels :=
  { cell with
    titleText := some source.title
    dateText := some source.url
    accessoryType := if source.isCurrent then .checkmark else .none
    tintColor := true }

/-- What cellForRowAt does with the cell it has got; `none` is a trap. -/
def SourceViewController.configureCell (vc : SourceViewController) (row : Nat) :
    Option (CellLabels → CellLabels) := do
  let source ← vc.viewModel.sources[row]?
  return source.configure

namespace SourceScreen

/-- What an action that leads to the screen `after` asks of the table. A launch creates
a new one. -/
def tableCall (s : SourceScreen) (a : SourceAction) (after : SourceScreen) :
    TableCall CellLabels :=
  match a with
  | .launch => .create
  | .viewWillAppear | .save | .didSelectRowAt _ => .reloadData after.controller.rowCount
  | .cellForRowAt row => match s.controller.configureCell row with
    | some configure => .cellForRowAt row configure
    | none => .none
  | .commitDelete row => .deleteRow row
  | .createAlert | .editTitle _ | .editURL _ | .cancel => .none

/-- The screen with the cells of its table view. -/
def stepCells (count : String → Nat) :
    TableScreen SourceScreen CellLabels → TableAction SourceAction →
      Outcome (TableScreen SourceScreen CellLabels) :=
  TableScreen.step (SourceScreen.step count) tableCall {}

end SourceScreen

variable {count : String → Nat} {d : UserDefaults}

private def Uncoloured (cell : CellLabels) : Prop := cell.titleColor = none

private def ShowsSource (s : SourceScreen) (row : Nat) (cell : CellLabels) : Prop :=
  ∃ source, s.controller.viewModel.sources[row]? = some source ∧ cell = source.configure {}

private theorem configure_uncoloured (source : SourceModel) {cell : CellLabels}
    (uncoloured : Uncoloured cell) : source.configure cell = source.configure {} := by
  obtain ⟨title, date, color, accessory, tint⟩ := cell
  obtain rfl : color = none := uncoloured
  rfl

private theorem step_answers {s t : SourceScreen} {a : SourceAction}
    (move : s.step count a = .next t) :
    Answers Uncoloured s.controller.rowCount t.controller.rowCount (ShowsSource s) (ShowsSource t)
      (s.tableCall a t) := by
  obtain ⟨⟨_, told⟩, done, rfl⟩ := Outcome.map_eq_next.mp move
  cases SourceScreen.performs_of_next done with
  | launch loaded load => exact .create rfl
  | viewWillAppear => exact .reloadData
  | createAlert free => exact .none rfl fun _ _ => id
  | editTitle text alert shown => exact .none rfl fun _ _ => id
  | editURL text alert shown => exact .none rfl fun _ _ => id
  | cancel alert shown => exact .none rfl fun _ _ => id
  | save alert shown enabled => exact .reloadData
  | cellForRowAt row counted there =>
    have drawn : s.controller.configureCell row =
        some s.controller.viewModel.sources[row].configure := by
      simp [SourceViewController.configureCell, there]
    rw [SourceScreen.tableCall, drawn]
    refine .cellForRowAt row _ rfl (fun _ _ _ => id) ?_
    intro cell uncoloured
    exact ⟨uncoloured, _, List.getElem?_eq_getElem there, configure_uncoloured _ uncoloured⟩
  | didSelectRowAt row source counted there => exact .reloadData
  | commitDelete row counted there fits =>
    refine .deleteRow row counted ?_ ?_
    · rw [SourceViewController.reloadData_rowCount]
      exact Nat.eq_sub_of_add_eq fits
    · intro i cell shows
      obtain ⟨source, listed, same⟩ := shows
      refine ⟨source, ?_, same⟩
      rw [SourceViewController.reloadData_viewModel, List.getElem?_eraseIdx]
      split
      · rename_i above
        rwa [if_pos above] at listed
      · rename_i below
        rwa [if_neg below] at listed

private theorem cursor_of_checkmark {s : SourceScreen} {l : SourceList} {row : Nat}
    {cell : CellLabels} (same : Represents d s l) (shows : ShowsSource s row cell)
    (checked : cell.accessoryType = .checkmark) : l.shown.cursor = some row := by
  obtain ⟨source, listed, rfl⟩ := shows
  have current : source.isCurrent = true := by
    cases mark : source.isCurrent with
    | true => rfl
    | false => simp [SourceModel.configure, mark] at checked
  have flag : l.shown.flagged[row]? = some (source.saved, true) := by
    rw [← same.shown, List.getElem?_map, listed, Option.map_some, SourceModel.entry, current]
  exact l.shown.cursor_of_flagged flag

/-- Whatever cells the table picks, a row on the screen shows the title, the URL and the
checkmark of the source that the list has there, and nothing of another source; at
most one row has a checkmark. -/
theorem rows_show_sources {s₀ : SourceScreen} {s : TableScreen SourceScreen CellLabels}
    {trace : Trace (TableScreen SourceScreen CellLabels) (TableAction SourceAction)}
    (launched : SourceScreen.launched d = some s₀)
    (run : Run (SourceScreen.stepCells count) ⟨s₀, {}⟩ trace s) :
    Run (SourceScreen.step count) s₀ (screenTrace trace) s.screen ∧
      s.table.rows.length = s.screen.controller.rowCount ∧
      (∀ (row : Nat) (cell : CellLabels), s.table.rows[row]? = some (some cell) →
        ∃ source : SourceModel,
        s.screen.controller.viewModel.sources[row]? = some source ∧
        cell =
          { titleText := some source.title
            dateText := some source.url
            accessoryType := if source.isCurrent then .checkmark else .none
            tintColor := true : CellLabels }) ∧
      ∀ (row row' : Nat) (cell cell' : CellLabels),
        s.table.rows[row]? = some (some cell) → s.table.rows[row']? = some (some cell') →
        cell.accessoryType = .checkmark → cell'.accessoryType = .checkmark → row = row' := by
  have unread : s₀.controller.rowCount = 0 := by
    obtain ⟨loaded, load, rfl⟩ := SourceScreen.launched_eq_some.mp launched
    rfl
  have fresh : Uncoloured {} := rfl
  obtain ⟨whole, drawn⟩ := run_drawn (fun s => s.controller.rowCount) ShowsSource fresh unread
    (fun _ _ _ _ _ move => step_answers move) run
  obtain ⟨kept, -, opened⟩ := represents_launched launched
  obtain ⟨l, -, same⟩ := follows opened whole
  refine ⟨whole, drawn.counted, drawn.cells.shown, ?_⟩
  intro row row' cell cell' visible visible' checked checked'
  have here := cursor_of_checkmark same (drawn.cells.shown row cell visible) checked
  have there := cursor_of_checkmark same (drawn.cells.shown row' cell' visible') checked'
  exact Option.some.inj (here.symm.trans there)

theorem rows_show_sources_moved :
    ∃ trace s cell, Run (SourceScreen.stepCells String.length) ⟨SourceScreen.builtIn, {}⟩ trace s ∧
      s.table.rows = [some cell] ∧
      cell =
        { titleText := some "Finam.ru"
          dateText := some getFinamURlString
          accessoryType := .checkmark
          tintColor := true : CellLabels } := by
  have run : Run (SourceScreen.stepCells String.length) ⟨SourceScreen.builtIn, {}⟩ _ _ := Run.replay
    [.act .viewWillAppear 0, .act (.cellForRowAt 0) 0, .act (.cellForRowAt 1) 0,
      .act (.didSelectRowAt 1) 0, .act (.cellForRowAt 1) 0, .act (.commitDelete 0) 0] rfl
  obtain ⟨-, -, shown, -⟩ := rows_show_sources SourceScreen.launched_empty run
  obtain ⟨source, listed, same⟩ := shown 0 _ rfl
  obtain rfl := Option.some.inj (listed.symm.trans rfl)
  exact ⟨_, _, _, run, rfl, same⟩

end TheNews.Source
