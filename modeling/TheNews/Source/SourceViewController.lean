/- TheNews/Source/SourceViewController
   models: Source/SourceViewController.swift
   digest: The source screen: launches, the add alert, selection and deletion of
   rows, each with the trap it can run into. -/

import TheNews.Extensions.UIAlertController
import TheNews.Source.SourceViewModel
import TheNews.Transition.Runs

set_option autoImplicit false
set_option relaxedAutoImplicit false

namespace TheNews.Source

open TheNews.Transition.Runs TheNews.UserDefault UserDefaultManager
open TheNews.Extensions

structure SourceViewController where
  viewModel : SourceViewModel
  /-- The row count the table view last obtained. -/
  rowCount : Nat := 0
  warningIsHidden : Bool := false
  separatorIsNone : Bool := false
  alert : Option UIAlertController := none
  deriving DecidableEq, Repr

/-- The screen with the store that outlives it. -/
structure SourceScreen where
  controller : SourceViewController
  userDefaults : UserDefaults

namespace SourceViewController

def numberOfRowsInSection (vc : SourceViewController) : Nat × SourceViewController :=
  if vc.viewModel.sources.length = 0 then
    (vc.viewModel.sources.length, { vc with separatorIsNone := true, warningIsHidden := false })
  else (vc.viewModel.sources.length, { vc with warningIsHidden := true })

/-- UIKit asks for the row count and records the answer. -/
def reloadData (vc : SourceViewController) : SourceViewController :=
  { vc.numberOfRowsInSection.2 with rowCount := vc.numberOfRowsInSection.1 }

def viewDidLoad (userDefaults : UserDefaults) : Option SourceViewController := do
  let viewModel ← ({} : SourceViewModel).loadSources userDefaults
  return { viewModel := viewModel.setIsCurrent }

def viewWillAppear (vc : SourceViewController) : SourceViewController := vc.reloadData

-- createAlert disables Save before the alert is shown.
def createAlert (vc : SourceViewController) : SourceViewController :=
  { vc with alert := some { saveIsEnabled := false, isPresented := true } }

/-- The handler of Save; the source it hands to `delegate?.updateSource` is the
last component. UIKit has dismissed the alert. -/
def saveHandler (vc : SourceViewController) (alert : UIAlertController)
    (userDefaults : UserDefaults) : SourceViewController × UserDefaults × SourceModel :=
  let newSource : SourceModel :=
    { title := alert.titleText, url := alert.urlText, isCurrent := true }
  let viewModel := vc.viewModel.refreshIsCurrent
  let viewModel := { viewModel with sources := viewModel.sources ++ [newSource] }
  let vc := { vc with viewModel := viewModel }.reloadData
  let userDefaults := viewModel.saveSourcesInUserDefaults userDefaults
  let alert := { alert with
    titleText := "", urlText := "", saveIsEnabled := true, isPresented := false }
  ({ vc with alert := some alert }, userDefaults, newSource)

/-- Title, URL and checkmark of a cell. -/
def cellForRowAt (vc : SourceViewController) (row : Nat) : Option (String × String × Bool) := do
  let source ← vc.viewModel.sources[row]?
  return (source.title, source.url, source.isCurrent)

/-- The second component goes to `delegate?.updateSource`. It was copied out of
the list before the row was marked. -/
def didSelectRowAt (vc : SourceViewController) (row : Nat) :
    Option (SourceViewController × SourceModel) := do
  let cleared := vc.viewModel.sources.map fun s => { s with isCurrent := false }
  let newSource ← cleared[row]?
  let viewModel : SourceViewModel :=
    { sources := cleared.set row { newSource with isCurrent := true }
      currentSource := some newSource }
  return ({ vc with viewModel := viewModel }.reloadData, newSource)

/-- Deletion of a row. `remove(at:)` traps past the end, and deleteRows when the
row count it reads is not the recorded one less the deleted row. -/
def commitDelete (vc : SourceViewController) (row : Nat) (userDefaults : UserDefaults) :
    Option (SourceViewController × UserDefaults) :=
  let userDefaults := clearUserData userDefaults
  if row < vc.viewModel.sources.length then
    let viewModel := { vc.viewModel with sources := vc.viewModel.sources.eraseIdx row }
    let deleted := { vc with viewModel := viewModel }.reloadData
    if deleted.rowCount + 1 = vc.rowCount then some (deleted, userDefaults) else none
  else none

end SourceViewController

/-- What the user and UIKit can do. A launch replaces the process; the rest acts
on the controller it created. -/
inductive SourceAction where
  | launch
  | viewWillAppear
  | createAlert
  | editTitle (text : String)
  | editURL (text : String)
  | cancel
  | save
  | cellForRowAt (row : Nat)
  | didSelectRowAt (row : Nat)
  | commitDelete (row : Nat)
  deriving DecidableEq, Repr

variable (count : String → Nat)

namespace SourceScreen

def shownAlert (s : SourceScreen) : Option UIAlertController :=
  s.controller.alert.filter (·.isPresented)

def withAlert (s : SourceScreen) (alert : UIAlertController) : SourceScreen :=
  { s with controller := { s.controller with alert := some alert } }

/-- One action, with the source it announces to the delegate. Alerts do not
stack, a disabled action cannot be pressed, an edit fires editingChanged, and
only rows the table knows of can be shown, tapped or deleted. -/
def perform (s : SourceScreen) : SourceAction → Outcome (SourceScreen × Option SourceModel)
  | .launch => match SourceViewController.viewDidLoad s.userDefaults with
    | some vc => .next ({ s with controller := vc }, none)
    | none => .trapped
  | .viewWillAppear => .next ({ s with controller := s.controller.viewWillAppear }, none)
  | .createAlert => match s.shownAlert with
    | some _ => .blocked
    | none => .next ({ s with controller := s.controller.createAlert }, none)
  | .editTitle text => match s.shownAlert with
    | some alert =>
        .next (s.withAlert ({ alert with titleText := text }.textDidChangeAlert count), none)
    | none => .blocked
  | .editURL text => match s.shownAlert with
    | some alert =>
        .next (s.withAlert ({ alert with urlText := text }.textDidChangeAlert count), none)
    | none => .blocked
  | .cancel => match s.shownAlert with
    | some alert => .next (s.withAlert { alert with isPresented := false }, none)
    | none => .blocked
  | .save => match s.shownAlert with
    | some alert =>
        if alert.saveIsEnabled then
          let saved := s.controller.saveHandler alert s.userDefaults
          .next (⟨saved.1, saved.2.1⟩, some saved.2.2)
        else .blocked
    | none => .blocked
  | .cellForRowAt row =>
      if row < s.controller.rowCount then
        match s.controller.cellForRowAt row with
        | some _ => .next (s, none)
        | none => .trapped
      else .blocked
  | .didSelectRowAt row =>
      if row < s.controller.rowCount then
        match s.controller.didSelectRowAt row with
        | some (controller, newSource) => .next ({ s with controller }, some newSource)
        | none => .trapped
      else .blocked
  | .commitDelete row =>
      if row < s.controller.rowCount then
        match s.controller.commitDelete row s.userDefaults with
        | some (controller, userDefaults) => .next (⟨controller, userDefaults⟩, none)
        | none => .trapped
      else .blocked

/-- The screen on its own: nobody listens to the announcements. -/
def step (s : SourceScreen) (a : SourceAction) : Outcome SourceScreen :=
  (s.perform count a).map Prod.fst

/-- The screen right after the launch that loads the given store. -/
def launched (userDefaults : UserDefaults) : Option SourceScreen :=
  (SourceViewController.viewDidLoad userDefaults).map fun vc => ⟨vc, userDefaults⟩

end SourceScreen

@[simp] theorem SourceViewController.reloadData_viewModel (vc : SourceViewController) :
    vc.reloadData.viewModel = vc.viewModel := by
  simp only [SourceViewController.reloadData, SourceViewController.numberOfRowsInSection]
  split <;> rfl

@[simp] theorem SourceViewController.reloadData_rowCount (vc : SourceViewController) :
    vc.reloadData.rowCount = vc.viewModel.sources.length := by
  simp only [SourceViewController.reloadData, SourceViewController.numberOfRowsInSection]
  split <;> rfl

@[simp] theorem SourceViewController.reloadData_alert (vc : SourceViewController) :
    vc.reloadData.alert = vc.alert := by
  simp only [SourceViewController.reloadData, SourceViewController.numberOfRowsInSection]
  split <;> rfl

theorem SourceScreen.launched_eq_some {d : UserDefaults} {s : SourceScreen} :
    SourceScreen.launched d = some s ↔
      ∃ loaded, ({} : SourceViewModel).loadSources d = some loaded ∧
        s = ⟨{ viewModel := loaded.setIsCurrent }, d⟩ := by
  rw [SourceScreen.launched, SourceViewController.viewDidLoad]
  cases ({} : SourceViewModel).loadSources d with
  | none => simp
  | some loaded => simp [eq_comm]

/-- The screen of a first launch, on an empty store. -/
def SourceScreen.builtIn : SourceScreen :=
  ⟨{ viewModel := { sources :=
    [{ title := "Banki.ru", url := getBankiURlString, isCurrent := true },
      { title := "Finam.ru", url := getFinamURlString, isCurrent := false }] } }, fun _ => none⟩

theorem SourceScreen.launched_empty :
    SourceScreen.launched (fun _ => none) = some SourceScreen.builtIn := rfl

/-- The outcomes of the actions, with what each has read of the screen; that one is
blocked tells nothing. -/
inductive Performs (s : SourceScreen) :
    SourceAction → Outcome (SourceScreen × Option SourceModel) → Prop where
  | blocked (a : SourceAction) : Performs s a .blocked
  | launch (loaded : SourceViewModel)
      (load : ({} : SourceViewModel).loadSources s.userDefaults = some loaded) :
      Performs s .launch (.next (⟨{ viewModel := loaded.setIsCurrent }, s.userDefaults⟩, none))
  | launchTraps (load : ({} : SourceViewModel).loadSources s.userDefaults = none) :
      Performs s .launch .trapped
  | viewWillAppear : Performs s .viewWillAppear
      (.next ({ s with controller := s.controller.reloadData }, none))
  | createAlert (free : s.shownAlert = none) : Performs s .createAlert
      (.next (s.withAlert { saveIsEnabled := false, isPresented := true }, none))
  | editTitle (text : String) (alert : UIAlertController) (shown : s.shownAlert = some alert) :
      Performs s (.editTitle text)
        (.next (s.withAlert ({ alert with titleText := text }.textDidChangeAlert count), none))
  | editURL (text : String) (alert : UIAlertController) (shown : s.shownAlert = some alert) :
      Performs s (.editURL text)
        (.next (s.withAlert ({ alert with urlText := text }.textDidChangeAlert count), none))
  | cancel (alert : UIAlertController) (shown : s.shownAlert = some alert) :
      Performs s .cancel (.next (s.withAlert { alert with isPresented := false }, none))
  | save (alert : UIAlertController) (shown : s.shownAlert = some alert)
      (enabled : alert.saveIsEnabled = true) :
      Performs s .save (.next (⟨(s.controller.saveHandler alert s.userDefaults).1,
        (s.controller.saveHandler alert s.userDefaults).2.1⟩,
        some (s.controller.saveHandler alert s.userDefaults).2.2))
  | cellForRowAt (row : Nat) (counted : row < s.controller.rowCount)
      (there : row < s.controller.viewModel.sources.length) :
      Performs s (.cellForRowAt row) (.next (s, none))
  | cellTraps (row : Nat) (counted : row < s.controller.rowCount)
      (past : s.controller.viewModel.sources.length ≤ row) :
      Performs s (.cellForRowAt row) .trapped
  | didSelectRowAt (row : Nat) (source : SourceModel) (counted : row < s.controller.rowCount)
      (there : s.controller.viewModel.sources[row]? = some source) :
      Performs s (.didSelectRowAt row) (.next (⟨{ s.controller with viewModel :=
        { sources := s.controller.viewModel.refreshIsCurrent.sources.set row
            { source with isCurrent := true }
          currentSource := some { source with isCurrent := false } } }.reloadData,
        s.userDefaults⟩, some { source with isCurrent := false }))
  | selectTraps (row : Nat) (counted : row < s.controller.rowCount)
      (past : s.controller.viewModel.sources.length ≤ row) :
      Performs s (.didSelectRowAt row) .trapped
  | commitDelete (row : Nat) (counted : row < s.controller.rowCount)
      (there : row < s.controller.viewModel.sources.length)
      (fits : (s.controller.viewModel.sources.eraseIdx row).length + 1 = s.controller.rowCount) :
      Performs s (.commitDelete row) (.next (⟨{ s.controller with viewModel :=
        { s.controller.viewModel with
          sources := s.controller.viewModel.sources.eraseIdx row } }.reloadData,
        clearUserData s.userDefaults⟩, none))
  | deleteTraps (row : Nat) (counted : row < s.controller.rowCount)
      (differs : row < s.controller.viewModel.sources.length →
        (s.controller.viewModel.sources.eraseIdx row).length + 1 ≠ s.controller.rowCount) :
      Performs s (.commitDelete row) .trapped

section Performs
variable (s : SourceScreen)

private theorem performs_launch : Performs count s .launch (s.perform count .launch) := by
  simp only [SourceScreen.perform, SourceViewController.viewDidLoad]
  cases load : ({} : SourceViewModel).loadSources s.userDefaults with
  | none => exact .launchTraps load
  | some loaded => exact .launch loaded load

private theorem performs_select (row : Nat) :
    Performs count s (.didSelectRowAt row) (s.perform count (.didSelectRowAt row)) := by
  simp only [SourceScreen.perform, SourceViewController.didSelectRowAt, List.getElem?_map]
  split
  · rename_i counted
    cases there : s.controller.viewModel.sources[row]? with
    | none => exact .selectTraps row counted (List.getElem?_eq_none_iff.mp there)
    | some source => exact .didSelectRowAt row source counted there
  · exact .blocked _

private theorem performs_delete (row : Nat) :
    Performs count s (.commitDelete row) (s.perform count (.commitDelete row)) := by
  have recorded : ({ s.controller with viewModel := { s.controller.viewModel with
      sources := s.controller.viewModel.sources.eraseIdx row } } :
        SourceViewController).reloadData.rowCount =
      (s.controller.viewModel.sources.eraseIdx row).length := by simp
  simp only [SourceScreen.perform, SourceViewController.commitDelete, recorded]
  split
  · rename_i counted
    by_cases there : row < s.controller.viewModel.sources.length
    · by_cases fits : (s.controller.viewModel.sources.eraseIdx row).length + 1 =
          s.controller.rowCount
      · rw [if_pos there, if_pos fits]
        exact .commitDelete row counted there fits
      · rw [if_pos there, if_neg fits]
        exact .deleteTraps row counted fun _ => fits
    · rw [if_neg there]
      exact .deleteTraps row counted fun inside => absurd inside there
  · exact .blocked _

theorem SourceScreen.performs (a : SourceAction) : Performs count s a (s.perform count a) := by
  cases a with
  | launch => exact performs_launch count s
  | viewWillAppear => exact .viewWillAppear
  | createAlert =>
    simp only [SourceScreen.perform]
    split
    · exact .blocked _
    · exact .createAlert ‹_›
  | editTitle text =>
    simp only [SourceScreen.perform]
    split
    · exact .editTitle text _ ‹_›
    · exact .blocked _
  | editURL text =>
    simp only [SourceScreen.perform]
    split
    · exact .editURL text _ ‹_›
    · exact .blocked _
  | cancel =>
    simp only [SourceScreen.perform]
    split
    · exact .cancel _ ‹_›
    · exact .blocked _
  | save =>
    simp only [SourceScreen.perform]
    split
    · split
      · exact .save _ ‹_› ‹_›
      · exact .blocked _
    · exact .blocked _
  | cellForRowAt row =>
    simp only [SourceScreen.perform, SourceViewController.cellForRowAt]
    split
    · rename_i counted
      cases there : s.controller.viewModel.sources[row]? with
      | none => exact .cellTraps row counted (List.getElem?_eq_none_iff.mp there)
      | some source =>
        exact .cellForRowAt row counted (List.getElem?_eq_some_iff.mp there).1
    · exact .blocked _
  | didSelectRowAt row => exact performs_select count s row
  | commitDelete row => exact performs_delete count s row

end Performs

/-- The actions that leave the list, the store and the delegate alone. -/
def SourceAction.quiet : SourceAction → Bool
  | .viewWillAppear | .createAlert | .editTitle _ | .editURL _ | .cancel | .cellForRowAt _ => true
  | _ => false

/-- All an action can do to the alert and the recorded row count: a launch starts
without either, Save and the alert's own actions change the alert, and every
change of the list ends in a reload. -/
inductive Display (s t : SourceScreen) : Prop where
  | fresh (unread : t.controller.rowCount = 0) (closed : t.controller.alert = none)
  | alert (only : t.controller = { s.controller with alert := t.controller.alert })
      (checked : ∀ alert, t.shownAlert = some alert → alert.saveIsEnabled = true →
        isValidURL count alert.urlText = true ∧ isValidTitle count alert.titleText = true)
  | still (same : t = s)
  | reload (counted : t.controller.rowCount = t.controller.viewModel.sources.length)
      (alert : t.controller.alert = s.controller.alert ∨ t.shownAlert = none)

/-- All an action can do to the list, the store and the delegate. -/
inductive Effect (s : SourceScreen) : SourceAction → SourceScreen → Option SourceModel → Prop where
  | launch (loaded : SourceViewModel)
      (load : ({} : SourceViewModel).loadSources s.userDefaults = some loaded) :
      Effect s .launch ⟨{ viewModel := loaded.setIsCurrent }, s.userDefaults⟩ none
  | quiet {a : SourceAction} (vc : SourceViewController) (quiet : a.quiet = true)
      (same : vc.viewModel = s.controller.viewModel) : Effect s a ⟨vc, s.userDefaults⟩ none
  | save (alert : UIAlertController) (vc : SourceViewController) (newSource : SourceModel)
      (shown : s.shownAlert = some alert) (enabled : alert.saveIsEnabled = true)
      (read : newSource = { title := alert.titleText, url := alert.urlText, isCurrent := true })
      (added : vc.viewModel = { s.controller.viewModel with
        sources := s.controller.viewModel.refreshIsCurrent.sources ++ [newSource] }) :
      Effect s .save ⟨vc, vc.viewModel.saveSourcesInUserDefaults s.userDefaults⟩ (some newSource)
  | select (row : Nat) (vc : SourceViewController) (source newSource : SourceModel)
      (there : s.controller.viewModel.sources[row]? = some source)
      (copied : newSource = { source with isCurrent := false })
      (marked : vc.viewModel =
        { sources := s.controller.viewModel.refreshIsCurrent.sources.set row
            { newSource with isCurrent := true }
          currentSource := some newSource }) :
      Effect s (.didSelectRowAt row) ⟨vc, s.userDefaults⟩ (some newSource)
  | delete (row : Nat) (vc : SourceViewController)
      (there : row < s.controller.viewModel.sources.length)
      (removed : vc.viewModel = { s.controller.viewModel with
        sources := s.controller.viewModel.sources.eraseIdx row }) :
      Effect s (.commitDelete row) ⟨vc, clearUserData s.userDefaults⟩ none

variable {count}

theorem SourceScreen.performs_of_next {s t : SourceScreen} {a : SourceAction}
    {told : Option SourceModel} (done : s.perform count a = .next (t, told)) :
    Performs count s a (.next (t, told)) :=
  done ▸ s.performs count a

theorem SourceScreen.performs_of_trapped {s : SourceScreen} {a : SourceAction}
    (trapped : s.step count a = .trapped) : Performs count s a .trapped :=
  Outcome.map_eq_trapped.mp trapped ▸ s.performs count a

theorem SourceScreen.perform_effect {s t : SourceScreen} {a : SourceAction}
    {told : Option SourceModel} (done : s.perform count a = .next (t, told)) :
    Effect s a t told := by
  cases SourceScreen.performs_of_next done with
  | launch loaded load => exact .launch loaded load
  | viewWillAppear => exact .quiet _ rfl (by simp)
  | createAlert free => exact .quiet _ rfl rfl
  | editTitle text alert shown => exact .quiet _ rfl rfl
  | editURL text alert shown => exact .quiet _ rfl rfl
  | cancel alert shown => exact .quiet _ rfl rfl
  | save alert shown enabled =>
    have effect := Effect.save alert (s.controller.saveHandler alert s.userDefaults).1
      _ shown enabled rfl (by simp [SourceViewController.saveHandler,
        SourceViewModel.refreshIsCurrent])
    simpa [SourceViewController.saveHandler] using effect
  | cellForRowAt row counted there => exact .quiet _ rfl rfl
  | didSelectRowAt row source counted there =>
    exact .select row _ source _ there rfl (by simp)
  | commitDelete row counted there fits => exact .delete row _ there (by simp)

private theorem withAlert_display {s : SourceScreen} (alert : UIAlertController)
    (checked : alert.isPresented = true → alert.saveIsEnabled = true →
      isValidURL count alert.urlText = true ∧ isValidTitle count alert.titleText = true) :
    Display count s (s.withAlert alert) := by
  refine .alert rfl fun shown isShown enabled => ?_
  obtain ⟨held, presented⟩ := Option.filter_eq_some_iff.mp isShown
  obtain rfl := Option.some.inj held
  exact checked presented enabled

private theorem edited_display {s : SourceScreen} (alert : UIAlertController) :
    Display count s (s.withAlert (alert.textDidChangeAlert count)) :=
  withAlert_display _ fun _ enabled => Bool.and_eq_true_iff.mp enabled

theorem SourceScreen.step_display {s t : SourceScreen} {a : SourceAction}
    (move : s.step count a = .next t) : Display count s t := by
  obtain ⟨⟨_, told⟩, done, rfl⟩ := Outcome.map_eq_next.mp move
  cases SourceScreen.performs_of_next done with
  | launch loaded load => exact .fresh rfl rfl
  | viewWillAppear => exact .reload (by simp) (.inl (by simp))
  | createAlert free => exact withAlert_display _ (by simp)
  | editTitle text alert shown => exact edited_display _
  | editURL text alert shown => exact edited_display _
  | cancel alert shown => exact withAlert_display _ (by simp)
  | save alert shown enabled =>
    exact .reload (by simp [SourceViewController.saveHandler])
      (.inr (by simp [SourceScreen.shownAlert, SourceViewController.saveHandler]))
  | cellForRowAt row counted there => exact .still rfl
  | didSelectRowAt row source counted there => exact .reload (by simp) (.inl (by simp))
  | commitDelete row counted there fits => exact .reload (by simp) (.inl (by simp))

theorem SourceScreen.step_effect {s t : SourceScreen} {a : SourceAction}
    (done : s.step count a = .next t) : ∃ told, Effect s a t told := by
  obtain ⟨⟨t, told⟩, performed, rfl⟩ := Outcome.map_eq_next.mp done
  exact ⟨told, SourceScreen.perform_effect performed⟩

end TheNews.Source
