/- TheNews/Source/ScreenHistory
   digest: What the source screen shows beside its rows, read off the run: the alert
   with the texts typed so far, the warning and the separators. -/

import TheNews.Source.SourceList

set_option autoImplicit false
set_option relaxedAutoImplicit false

namespace TheNews.Source

open TheNews.Transition.Runs TheNews.UserDefault TheNews.Extensions

/-- The title and the URL in the shown alert, after an action. -/
def typing (texts : Option (String × String)) : SourceAction → Option (String × String)
  | .createAlert => some ("", "")
  | .editTitle text => texts.map fun (_, url) => (text, url)
  | .editURL text => texts.map fun (title, _) => (title, text)
  | .launch | .cancel | .save => none
  | .viewWillAppear | .cellForRowAt _ | .didSelectRowAt _ | .commitDelete _ => texts

def typed (trace : SourceTrace) : Option (String × String) :=
  trace.foldl (fun texts x => typing texts x.2) none

/-- The row counts that the table has obtained, after an action in the state `s`. -/
def counting (counts : List Nat) (s : SourceScreen) : SourceAction → List Nat
  | .launch => []
  | .viewWillAppear | .didSelectRowAt _ => counts ++ [s.controller.viewModel.sources.length]
  | .save => counts ++ [s.controller.viewModel.sources.length + 1]
  | .commitDelete _ => counts ++ [s.controller.viewModel.sources.length - 1]
  | .createAlert | .editTitle _ | .editURL _ | .cancel | .cellForRowAt _ => counts

/-- The row counts since the last launch. -/
def counts (trace : SourceTrace) : List Nat :=
  trace.foldl (fun counts x => counting counts x.1 x.2) []

/-- The alert with these texts lets them be saved if they pass the checks. -/
def alertOver (count : String → Nat) (texts : String × String) : UIAlertController :=
  { titleText := texts.1
    urlText := texts.2
    saveIsEnabled := isValidURL count texts.2 && isValidTitle count texts.1
    isPresented := true }

/-- The screen shows the alert with these texts and has obtained these row counts: the
warning is up while the last count is none, and the separators are gone for good
after the first such count. -/
structure Presents (count : String → Nat) (texts : Option (String × String)) (counts : List Nat)
    (s : SourceScreen) : Prop where
  alert : s.shownAlert = texts.map (alertOver count)
  rowCount : s.controller.rowCount = counts.getLast?.getD 0
  warning : s.controller.warningIsHidden = true ↔ s.controller.rowCount ≠ 0
  separator : s.controller.separatorIsNone = true ↔ 0 ∈ counts

variable {count : String → Nat} {texts : Option (String × String)} {read : List Nat}
  {s t : SourceScreen} {a : SourceAction}

private theorem alertOver_empty : alertOver count ("", "") =
    { saveIsEnabled := false, isPresented := true } := by
  have rejected : urlPattern.accepts [] = false := by decide
  simp [alertOver, isValidURL, rejected]

private theorem reloadData_eq (vc : SourceViewController) : vc.reloadData = { vc with
    rowCount := vc.viewModel.sources.length
    warningIsHidden := vc.viewModel.sources.length != 0
    separatorIsNone := vc.separatorIsNone || vc.viewModel.sources.length == 0 } := by
  simp only [SourceViewController.reloadData, SourceViewController.numberOfRowsInSection]
  split
  · rename_i empty
    simp [empty]
  · rename_i filled
    simp [filled]

private theorem Presents.reload (before : Presents count texts read s)
    (vc : SourceViewController) (d : UserDefaults) {n : Nat}
    (length : vc.viewModel.sources.length = n)
    (separator : vc.separatorIsNone = s.controller.separatorIsNone)
    (alert : (SourceScreen.mk vc d).shownAlert = s.shownAlert) :
    Presents count texts (read ++ [n]) ⟨vc.reloadData, d⟩ := by
  rw [reloadData_eq]
  refine ⟨alert.trans before.alert, by simp [length], by simp, ?_⟩
  rw [Bool.or_eq_true, separator, before.separator, length, beq_iff_eq, List.mem_append,
    List.mem_singleton, eq_comm (a := n)]

private theorem withAlert_presents {texts' : String × String} (before : Presents count texts read s)
    {alert : UIAlertController} (same : alert = alertOver count texts') :
    Presents count (some texts') read (s.withAlert alert) :=
  ⟨by rw [same]; rfl, before.rowCount, before.warning, before.separator⟩

private theorem dismissed_presents (before : Presents count texts read s)
    {alert : UIAlertController} (dismissed : alert.isPresented = false) :
    Presents count none read (s.withAlert alert) := by
  refine ⟨?_, before.rowCount, before.warning, before.separator⟩
  simp [SourceScreen.shownAlert, SourceScreen.withAlert, dismissed]

private theorem Presents.texts_of_shown (before : Presents count texts read s)
    {alert : UIAlertController} (shown : s.shownAlert = some alert) :
    ∃ typed, texts = some typed ∧ alert = alertOver count typed := by
  rw [before.alert] at shown
  obtain ⟨typed, there, same⟩ := Option.map_eq_some_iff.mp shown
  exact ⟨typed, there, same.symm⟩

private theorem save_presents (before : Presents count texts read s) (alert : UIAlertController) :
    Presents count none (read ++ [s.controller.viewModel.sources.length + 1])
      ⟨(s.controller.saveHandler alert s.userDefaults).1,
        (s.controller.saveHandler alert s.userDefaults).2.1⟩ := by
  let sources := s.controller.viewModel.refreshIsCurrent.sources ++
    [{ title := alert.titleText, url := alert.urlText, isCurrent := true }]
  let longer : SourceViewController :=
    { s.controller with viewModel := { s.controller.viewModel with sources } }
  have length : longer.viewModel.sources.length = s.controller.viewModel.sources.length + 1 := by
    simp [longer, sources, SourceViewModel.refreshIsCurrent]
  have saved := before.reload longer
    (longer.viewModel.saveSourcesInUserDefaults s.userDefaults) length rfl rfl
  exact dismissed_presents saved rfl

private theorem step_presents (before : Presents count texts read s)
    (move : s.step count a = .next t) :
    Presents count (typing texts a) (counting read s a) t := by
  obtain ⟨⟨_, told⟩, done, rfl⟩ := Outcome.map_eq_next.mp move
  cases SourceScreen.performs_of_next done with
  | launch loaded load => exact ⟨rfl, rfl, by simp, by simp [counting]⟩
  | viewWillAppear => exact before.reload _ _ rfl rfl rfl
  | createAlert free => exact withAlert_presents before alertOver_empty.symm
  | editTitle text alert shown =>
    obtain ⟨typed, rfl, rfl⟩ := before.texts_of_shown shown
    exact withAlert_presents before rfl
  | editURL text alert shown =>
    obtain ⟨typed, rfl, rfl⟩ := before.texts_of_shown shown
    exact withAlert_presents before rfl
  | cancel alert shown => exact dismissed_presents before rfl
  | save alert shown enabled => exact save_presents before alert
  | cellForRowAt row counted there => exact before
  | didSelectRowAt row source counted there =>
    exact before.reload _ _ (by simp [SourceViewModel.refreshIsCurrent]) rfl rfl
  | commitDelete row counted there fits =>
    exact before.reload _ _ (List.length_eraseIdx_of_lt there) rfl rfl

/-- After any run from a launch the alert holds the texts typed last and lets them be
saved if they pass the checks, the warning is up exactly while the table counts no
row, and the separators are gone exactly if it has counted none since the launch. -/
theorem run_presents {d : UserDefaults} {s₀ : SourceScreen} {trace : SourceTrace}
    (launched : SourceScreen.launched d = some s₀)
    (run : Run (SourceScreen.step count) s₀ trace s) :
    Presents count (typed trace) (counts trace) s := by
  obtain ⟨loaded, load, rfl⟩ := SourceScreen.launched_eq_some.mp launched
  refine run.invariant (fun trace => Presents count (typed trace) (counts trace)) ?_ ?_
  · exact ⟨rfl, rfl, by simp, by simp [counts]⟩
  · intro trace s a t before move
    rw [typed, counts, List.foldl_append, List.foldl_append]
    exact step_presents before move

theorem run_presents_refilled :
    ∃ trace s, Run (SourceScreen.step String.length) SourceScreen.builtIn trace s ∧
      s.controller.viewModel.sources.length = 1 ∧
      s.shownAlert = some (alertOver String.length ("", "")) ∧
      s.controller.warningIsHidden = true ∧ s.controller.separatorIsNone = true := by
  have run : Run (SourceScreen.step String.length) SourceScreen.builtIn _ _ := Run.replay
    [.viewWillAppear, .commitDelete 0, .commitDelete 0, .createAlert, .editTitle "News",
      .editURL "https://a.b/c", .save, .createAlert] rfl
  have shows := run_presents SourceScreen.launched_empty run
  exact ⟨_, _, run, rfl, shows.alert, shows.warning.mpr (by decide),
    shows.separator.mpr (by decide)⟩

end TheNews.Source
