/- TheNews/MainTabBar/CurrentRecords
   digest: The feed never learns of a choice, so the mark of the list, the copy in
   its view model and the source of the feed agree exactly in the runs that only
   ever mark a source with the first screen's url. -/

import TheNews.MainTabBar.MainTabBarController
import TheNews.NewsFeed.History
import TheNews.Source.CurrentMark

set_option autoImplicit false
set_option relaxedAutoImplicit false

namespace TheNews.MainTabBar.CurrentRecords

open TheNews.Transition.Runs TheNews.Extensions TheNews.NewsFeed
open TheNews.Source (SourceModel SourceViewModel SourceViewController SourceScreen SourceAction)
open TheNews.UserDefault (UserDefaults getBankiURlString)

/-- The marked source, the source of the feed and the source last chosen agree,
the last up to `equal`, whenever the screen shows a list. -/
def RecordsAgree (equal : SourceModel → SourceModel → Prop) (s : App) : Prop :=
  ∀ controller ∈ s.source, controller.viewModel.sources ≠ [] →
    ∃ current, controller.viewModel.marked = [current] ∧
      current.url = s.feed.controller.viewModel.currentSource.url ∧
      ∀ chosen ∈ controller.viewModel.currentSource, equal chosen current

/-- Only sources with the url of the first screen get the mark, the chosen source
is a copy of the marked one, and the mark is deleted with the last row only. -/
def KeepsRecords (equal : SourceModel → SourceModel → Prop) (s : App) : AppAction → Prop
  | .openSource => ∀ loaded ∈ ({} : SourceViewModel).loadSources s.userDefaults,
      ∀ first ∈ loaded.sources.head?, first.url = getBankiURlString
  | .source .save => ∀ controller ∈ s.source, ∀ alert ∈ controller.alert,
      alert.urlText = getBankiURlString ∧
      ∀ chosen ∈ controller.viewModel.currentSource,
        equal chosen { title := alert.titleText, url := alert.urlText, isCurrent := true }
  | .source (.didSelectRowAt row) => ∀ controller ∈ s.source,
      ∀ source ∈ controller.viewModel.sources[row]?, source.url = getBankiURlString ∧
        equal { source with isCurrent := false } { source with isCurrent := true }
  | .source (.commitDelete row) => ∀ controller ∈ s.source,
      ∀ source ∈ controller.viewModel.sources[row]?,
        source.isCurrent = false ∨ controller.viewModel.sources.length = 1
  | _ => True

variable {foundation : Foundation} {count : String → Nat} {s t : App} {a : AppAction}
  {equal : SourceModel → SourceModel → Prop}

private def Agreeing (equal : SourceModel → SourceModel → Prop) (viewModel : SourceViewModel) :
    Prop :=
  viewModel.sources ≠ [] → ∃ current, viewModel.marked = [current] ∧
    current.url = getBankiURlString ∧ ∀ chosen ∈ viewModel.currentSource, equal chosen current

private theorem recordsAgree_iff {controller : SourceViewController}
    (assembled : Assembled foundation s) (isOpen : s.source = some controller) :
    RecordsAgree equal s ↔ Agreeing equal controller.viewModel := by
  simp [RecordsAgree, Agreeing, isOpen, assembled.banki]

private theorem agreeing_iff_of_marked {viewModel : SourceViewModel} {source : SourceModel}
    (shown : viewModel.sources ≠ []) (one : viewModel.marked = [source]) :
    Agreeing equal viewModel ↔ source.url = getBankiURlString ∧
      ∀ chosen ∈ viewModel.currentSource, equal chosen source := by
  simp [Agreeing, shown, one]

private theorem agreeing_loaded_iff {loaded : SourceViewModel} {d : UserDefaults}
    (load : ({} : SourceViewModel).loadSources d = some loaded) :
    Agreeing equal loaded.setIsCurrent ↔
      ∀ first ∈ loaded.sources.head?, first.url = getBankiURlString := by
  have one := SourceViewModel.marked_setIsCurrent (SourceViewModel.marked_loadSources load)
  have unchosen : loaded.currentSource = none := by
    rw [SourceViewModel.loadSources_eq] at load
    split at load
    · exact congrArg SourceViewModel.currentSource (Option.some.inj load).symm
    · cases load
  cases split : loaded.sources with
  | nil => simp [Agreeing, SourceViewModel.setIsCurrent, split]
  | cons first rest =>
    rw [split] at one
    have shown : loaded.setIsCurrent.sources ≠ [] := by simp [SourceViewModel.setIsCurrent, split]
    have same : loaded.setIsCurrent.currentSource = none := by
      simp [SourceViewModel.setIsCurrent, split, unchosen]
    rw [agreeing_iff_of_marked shown one]
    simp [same]

private theorem agreeing_deleted_iff {viewModel after : SourceViewModel} {row : Nat}
    {source : SourceModel} (before : Agreeing equal viewModel)
    (there : viewModel.sources[row]? = some source)
    (removed : after = { viewModel with sources := viewModel.sources.eraseIdx row }) :
    Agreeing equal after ↔ source.isCurrent = false ∨ viewModel.sources.length = 1 := by
  obtain ⟨bound, -⟩ := List.getElem?_eq_some_iff.mp there
  obtain ⟨current, one, url, chosen⟩ := before (List.ne_nil_of_length_pos (by omega))
  have left := SourceViewModel.filter_eraseIdx_marked one there
  have emptied : after.sources = [] ↔ viewModel.sources.length = 1 := by
    rw [removed, ← List.length_eq_zero_iff, List.length_eraseIdx_of_lt bound]
    omega
  have remaining : after.marked = if source.isCurrent then [] else [current] := by
    rw [removed]
    exact left
  cases mark : source.isCurrent with
  | true => simp [Agreeing, remaining, mark, emptied]
  | false =>
    refine iff_of_true (fun _ => ⟨current, by simp [remaining, mark], url, ?_⟩) (.inl rfl)
    rw [removed]
    exact chosen

private theorem records_step_iff (assembled : Assembled foundation s)
    (before : RecordsAgree equal s) (move : s.step foundation count a = .next t) :
    RecordsAgree equal t ↔ KeepsRecords equal s a := by
  have after := assembled.step move
  cases step_effect assembled move with
  | launch => exact iff_of_true (by simp [RecordsAgree, App.launched]) trivial
  | openSource loaded load =>
    rw [recordsAgree_iff after rfl, agreeing_loaded_iff load]
    simp [KeepsRecords, load]
  | feed a feed coherent same =>
    exact iff_of_true (by simpa [RecordsAgree, same] using before) trivial
  | source a controller screen told isOpen effect running =>
    rw [recordsAgree_iff after rfl]
    rw [recordsAgree_iff assembled isOpen] at before
    cases effect with
    | launch loaded load => exact absurd rfl running
    | quiet vc quiet same =>
      refine iff_of_true (by rwa [same]) ?_
      cases a with
      | save => cases quiet
      | didSelectRowAt row => cases quiet
      | commitDelete row => cases quiet
      | _ => trivial
    | save alert vc newSource shown enabled read added =>
      have one : vc.viewModel.marked = [newSource] := by
        rw [added]
        exact SourceViewModel.filter_append_marked
          (SourceViewModel.marked_refreshIsCurrent controller.viewModel) (by rw [read])
      have alerted : controller.alert = some alert := (Option.filter_eq_some_iff.mp shown).1
      rw [agreeing_iff_of_marked (by simp [added]) one, added]
      simp [KeepsRecords, isOpen, alerted, read]
    | select row vc source newSource there copied marked =>
      have bound : row < controller.viewModel.refreshIsCurrent.sources.length := by
        simpa [SourceViewModel.refreshIsCurrent] using (List.getElem?_eq_some_iff.mp there).1
      have one : vc.viewModel.marked = [{ source with isCurrent := true }] := by
        rw [marked, copied]
        exact SourceViewModel.filter_set_marked
          (SourceViewModel.marked_refreshIsCurrent controller.viewModel) bound rfl
      have listed : vc.viewModel.sources ≠ [] := by
        rw [marked, ← List.length_pos_iff, List.length_set]
        exact Nat.zero_lt_of_lt bound
      rw [agreeing_iff_of_marked listed one, marked]
      simp [KeepsRecords, isOpen, there, copied]
    | delete row vc there removed =>
      have at_row := List.getElem?_eq_getElem there
      rw [agreeing_deleted_iff before at_row removed]
      simp [KeepsRecords, isOpen, at_row]

/-- Whatever counts as equal sources, the records agree at every moment of a run
exactly when all its steps keep them so. -/
theorem recordsAgree_throughout_iff (equal : SourceModel → SourceModel → Prop) {d : UserDefaults}
    {trace : Trace App AppAction}
    (run : Run (App.step foundation count) (App.launched foundation d) trace s) :
    Throughout (fun _ => RecordsAgree equal) trace s ↔
      EveryStep (fun _ => KeepsRecords equal) trace := by
  have unopened : RecordsAgree equal (App.launched foundation d) := by
    simp [RecordsAgree, App.launched]
  exact run.throughout_iff unopened
    fun _ _ _ _ prior before move => records_step_iff (Assembled.run prior) before move

theorem recordsAgree_throughout_iff_firstRow :
    ∃ trace s, Run (App.step moscow String.length) (App.launched moscow fun _ => none) trace s ∧
      trace.map Prod.snd = [.openSource, .source .viewWillAppear, .source (.didSelectRowAt 0)] ∧
      Throughout (fun _ => RecordsAgree fun a b => a.saved = b.saved) trace s :=
  have run := ((Run.refl.tail rfl).tail rfl).tail rfl
  ⟨_, _, run, rfl, (recordsAgree_throughout_iff _ run).mpr (by
    simp only [everyStep_tail, everyStep_nil, KeepsRecords]; decide)⟩

theorem not_recordsAgree :
    ¬ ∀ (trace : Trace App AppAction) (s : App),
      Run (App.step moscow String.length) (App.launched moscow fun _ => none) trace s →
      RecordsAgree (fun a b => a.saved = b.saved) s := by
  intro agree
  have run : Run (App.step moscow String.length) (App.launched moscow fun _ => none) _ _ :=
    Run.replay [.openSource, .source .viewWillAppear, .source (.didSelectRowAt 1)] rfl
  -- The feed does not hear of the choice.
  obtain ⟨current, one, url, -⟩ := agree _ _ run _ rfl (by decide)
  obtain rfl := (List.cons.inj one).1
  exact absurd url (by decide)

end TheNews.MainTabBar.CurrentRecords
