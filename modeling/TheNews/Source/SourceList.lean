/- TheNews/Source/SourceList
   models: Source/SourceViewController.swift, Source/ViewModels/SourceViewModel.swift,
           UserDefault/UserDefaultManager.swift
   digest: What the source screen is for, a list with one source chosen and the list
   that the next launch will show; the runs of the screen are those of this list. -/

import TheNews.Source.CurrentMark
import TheNews.Source.PersistedSources
import TheNews.Source.ValidatedSources
import TheNews.Storage.CursorList
import TheNews.Transition.Simulation

set_option autoImplicit false
set_option relaxedAutoImplicit false

namespace TheNews.Source

open TheNews.Transition.Runs TheNews.UserDefault TheNews.Extensions TheNews.Storage
open UserDefaultManager (userSessionKey clearUserData)
open SourceViewModel (defaultSaved unmarked)
open PersistedSources (relaunchList relaunchList_saveSources relaunchList_cleared)
open ValidatedSources (Valid SaveGuarded saveGuarded_step)

/-- The sources by title and URL, with the chosen one, and the sources that the next
launch will show. -/
structure SourceList where
  shown : CursorList (String × String)
  kept : List (String × String)
  deriving DecidableEq, Repr

inductive ListCommand where
  | launch
  | add (source : String × String)
  | select (row : Nat)
  | delete (row : Nat)
  deriving DecidableEq, Repr

namespace SourceList

/-- A launch shows what was kept and chooses the first source. -/
def opened (kept : List (String × String)) : SourceList := ⟨.ofList kept, kept⟩

/-- A new source is chosen and keeps the whole list; a deletion keeps nothing, not even
what it leaves. -/
def step (l : SourceList) : ListCommand → Outcome SourceList
  | .launch => .next (opened l.kept)
  | .add source => .next ⟨l.shown.push source, l.shown.items ++ [source]⟩
  | .select row =>
      if bound : row < l.shown.items.length then
        .next { l with shown := l.shown.select row bound }
      else .blocked
  | .delete row =>
      if row < l.shown.items.length then .next ⟨l.shown.erase row, defaultSaved⟩ else .blocked

end SourceList

/-- Title and URL of a source, with its mark. -/
def SourceModel.entry (source : SourceModel) : (String × String) × Bool :=
  (source.saved, source.isCurrent)

/-- What an action means for the list. -/
def SourceAction.commands (s : SourceScreen) : SourceAction → List ListCommand
  | .launch => [.launch]
  | .save => s.shownAlert.toList.map fun alert => .add (alert.titleText, alert.urlText)
  | .didSelectRowAt row => [.select row]
  | .commitDelete row => [.delete row]
  | _ => []

abbrev SourceTrace := Trace SourceScreen SourceAction

def commands (trace : SourceTrace) : List ListCommand :=
  trace.flatMap fun x => x.2.commands x.1

/-- The screen shows the list with its choice and keeps what the list keeps; no other
key of UserDefaults has changed since `d`. -/
structure Represents (d : UserDefaults) (s : SourceScreen) (l : SourceList) : Prop where
  shown : s.controller.viewModel.sources.map SourceModel.entry = l.shown.flagged
  kept : relaunchList s.userDefaults = some l.kept
  others : ∀ key, key ≠ userSessionKey → s.userDefaults.value key = d.value key

variable {count : String → Nat} {d : UserDefaults} {s t : SourceScreen} {l : SourceList}

private theorem Represents.saved (same : Represents d s l) :
    s.controller.viewModel.sources.map SourceModel.saved = l.shown.items := by
  have entries := congrArg (List.map Prod.fst) same.shown
  rw [CursorList.map_fst_flagged, List.map_map] at entries
  exact entries

private theorem Represents.length (same : Represents d s l) :
    s.controller.viewModel.sources.length = l.shown.items.length := by
  rw [← same.saved, List.length_map]

private theorem entries_refreshIsCurrent (same : Represents d s l) :
    s.controller.viewModel.refreshIsCurrent.sources.map SourceModel.entry =
      l.shown.items.map (·, false) := by
  rw [← same.saved]
  simp [SourceViewModel.refreshIsCurrent, SourceModel.entry, SourceModel.saved]

private theorem represents_loaded {loaded : SourceViewModel}
    (load : ({} : SourceViewModel).loadSources s.userDefaults = some loaded)
    {kept : List (String × String)} (keeps : relaunchList s.userDefaults = some kept)
    (others : ∀ key, key ≠ userSessionKey → s.userDefaults.value key = d.value key) :
    Represents d ⟨{ viewModel := loaded.setIsCurrent }, s.userDefaults⟩ (.opened kept) := by
  refine ⟨?_, keeps, others⟩
  rw [relaunchList, load, Option.map_some, Option.some.injEq] at keeps
  subst kept
  have unmarked : ∀ source ∈ loaded.sources, source.isCurrent = false := by
    simpa [SourceViewModel.marked] using SourceViewModel.marked_loadSources load
  cases split : loaded.sources with
  | nil => simp [SourceViewModel.setIsCurrent, split, SourceList.opened]
  | cons first rest =>
    have behind : rest.map SourceModel.entry = rest.map fun source => (source.saved, false) := by
      refine List.map_congr_left fun source member => ?_
      rw [SourceModel.entry, unmarked source (by simp [split, member])]
    simp [SourceViewModel.setIsCurrent, split, SourceList.opened, behind, SourceModel.entry,
      SourceModel.saved, Function.comp_def]

private theorem value_saved (viewModel : SourceViewModel) (d : UserDefaults) {key : String}
    (other : key ≠ userSessionKey) :
    (viewModel.saveSourcesInUserDefaults d).value key = d.value key := by
  rw [SourceViewModel.saveSourcesInUserDefaults_eq]
  simp [UserDefaultManager.saveSources, UserDefaults.set, UserDefaults.value, other]

private theorem value_cleared (d : UserDefaults) {key : String}
    (other : key ≠ userSessionKey) : (clearUserData d).value key = d.value key := by
  simp [clearUserData, UserDefaults.removeObject, UserDefaults.value, other]

private theorem commands_quiet {a : SourceAction} (quiet : a.quiet = true) :
    a.commands s = [] := by
  cases a with
  | launch => cases quiet
  | save => cases quiet
  | didSelectRowAt row => cases quiet
  | commitDelete row => cases quiet
  | _ => rfl

private theorem step_represents {a : SourceAction} (same : Represents d s l)
    (move : s.step count a = .next t) :
    ∃ l', Steps (Moves SourceList.step) l (a.commands s) l' ∧ Represents d t l' := by
  obtain ⟨told, effect⟩ := SourceScreen.step_effect move
  cases effect with
  | launch loaded load =>
    exact ⟨.opened l.kept, .single rfl, represents_loaded load same.kept same.others⟩
  | quiet vc quiet unchanged =>
    rw [commands_quiet quiet]
    exact ⟨l, .refl, by rw [unchanged]; exact same.shown, same.kept, same.others⟩
  | save alert vc newSource shown enabled read added =>
    have saved : vc.viewModel.sources.map SourceModel.saved =
        l.shown.items ++ [(alert.titleText, alert.urlText)] := by
      rw [added, List.map_append, SourceViewModel.refreshIsCurrent_saved, same.saved, read]
      rfl
    let source := (alert.titleText, alert.urlText)
    refine ⟨⟨l.shown.push source, l.shown.items ++ [source]⟩, ?_, ?_, ?_, ?_⟩
    · rw [SourceAction.commands, shown]
      exact .single rfl
    · rw [CursorList.flagged_push, added, List.map_append, entries_refreshIsCurrent same, read]
      rfl
    · rw [relaunchList_saveSources, saved]
    · intro key other
      rw [value_saved _ _ other, same.others key other]
  | select row vc source newSource there copied marked =>
    have bound : row < l.shown.items.length := by
      rw [← same.length]
      exact (List.getElem?_eq_some_iff.mp there).1
    have title : l.shown.items[row] = source.saved := by
      have here : (s.controller.viewModel.sources.map SourceModel.saved)[row]? =
          some source.saved := by simp [there]
      rw [same.saved, List.getElem?_eq_getElem bound] at here
      exact Option.some.inj here
    refine ⟨{ l with shown := l.shown.select row bound }, .single ?_, ?_, same.kept, same.others⟩
    · simp [Moves, SourceList.step, bound]
    · rw [CursorList.flagged_select, marked, List.map_set, entries_refreshIsCurrent same, title,
        copied]
      rfl
  | delete row vc there removed =>
    have bound : row < l.shown.items.length := same.length ▸ there
    refine ⟨⟨l.shown.erase row, defaultSaved⟩, .single ?_, ?_, relaunchList_cleared _, ?_⟩
    · simp [Moves, SourceList.step, bound]
    · rw [CursorList.flagged_erase, removed, ← same.shown, List.eraseIdx_map]
    · intro key other
      rw [value_cleared _ other, same.others key other]

theorem represents_launched (launched : SourceScreen.launched d = some s) :
    ∃ kept, relaunchList d = some kept ∧ Represents d s (.opened kept) := by
  obtain ⟨loaded, load, rfl⟩ := SourceScreen.launched_eq_some.mp launched
  have keeps : relaunchList d = some (loaded.sources.map SourceModel.saved) := by
    rw [relaunchList, load, Option.map_some]
  exact ⟨_, keeps, represents_loaded (s := ⟨{ viewModel := loaded.setIsCurrent }, d⟩) load keeps
    fun _ _ => rfl⟩

theorem follows {trace : SourceTrace} {l₀ : SourceList} (same : Represents d s l₀)
    (run : Run (SourceScreen.step count) s trace t) :
    ∃ l, Steps (Moves SourceList.step) l₀ (commands trace) l ∧ Represents d t l :=
  run.simulated (Represents d) (fun s a => a.commands s) same
    fun _ _ _ _ _ _ here move => step_represents here move

private theorem valid_of_add {a : SourceAction} {source : String × String}
    (guarded : SaveGuarded count s) (move : s.step count a = .next t)
    (adds : .add source ∈ a.commands s) : Valid count source.1 source.2 := by
  obtain ⟨told, effect⟩ := SourceScreen.step_effect move
  cases effect with
  | launch loaded load => simp [SourceAction.commands] at adds
  | quiet vc quiet same => simp [commands_quiet quiet] at adds
  | save alert vc newSource shown enabled read added =>
    obtain rfl : source = (alert.titleText, alert.urlText) := by
      simpa [SourceAction.commands, shown] using adds
    exact guarded alert shown enabled
  | select row vc source newSource there copied marked => simp [SourceAction.commands] at adds
  | delete row vc there removed => simp [SourceAction.commands] at adds

private theorem adds_valid {trace : SourceTrace} (guarded : SaveGuarded count s)
    (run : Run (SourceScreen.step count) s trace t) :
    ∀ source, .add source ∈ commands trace → Valid count source.1 source.2 := by
  have both := run.invariant (fun h s => SaveGuarded count s ∧
      ∀ source, .add source ∈ commands h → Valid count source.1 source.2)
    ⟨guarded, by simp [commands]⟩ ?_
  · exact both.2
  · rintro h s a t ⟨here, earlier⟩ move
    refine ⟨saveGuarded_step here move, fun source member => ?_⟩
    rw [commands, List.flatMap_append] at member
    rcases List.mem_append.mp member with before | now
    · exact earlier source before
    · exact valid_of_add here move (by simpa using now)

/-- After any run from a launch the screen shows and keeps what the list does after the
commands of the run; only valid sources were added and no other key was touched. -/
theorem run_represents {s₀ : SourceScreen} {trace : SourceTrace}
    (launched : SourceScreen.launched d = some s₀)
    (run : Run (SourceScreen.step count) s₀ trace s) :
    ∃ kept l, relaunchList d = some kept ∧
      Steps (Moves SourceList.step) (.opened kept) (commands trace) l ∧ Represents d s l ∧
      ∀ source, .add source ∈ commands trace → Valid count source.1 source.2 := by
  obtain ⟨kept, keeps, same⟩ := represents_launched launched
  obtain ⟨l, steps, shows⟩ := follows same run
  have unopened : SaveGuarded count s₀ := by
    obtain ⟨loaded, load, rfl⟩ := SourceScreen.launched_eq_some.mp launched
    simp [SaveGuarded, SourceScreen.shownAlert]
  exact ⟨kept, l, keeps, steps, shows, adds_valid unopened run⟩

theorem run_represents_relaunched :
    ∃ trace s, Run (SourceScreen.step String.length) SourceScreen.builtIn trace s ∧
      trace.map Prod.snd = [.viewWillAppear, .didSelectRowAt 1, .commitDelete 0, .launch] ∧
      ∃ l, Represents (fun _ => none) s l ∧
        Steps (Moves SourceList.step) (.opened defaultSaved) [.select 1, .delete 0, .launch] l := by
  have run : Run (SourceScreen.step String.length) SourceScreen.builtIn _ _ := Run.replay
    [.viewWillAppear, .didSelectRowAt 1, .commitDelete 0, .launch] rfl
  obtain ⟨kept, l, keeps, steps, shows, -⟩ := run_represents SourceScreen.launched_empty run
  obtain rfl : kept = defaultSaved := Option.some.inj (keeps.symm.trans rfl)
  exact ⟨_, _, run, rfl, l, shows, steps⟩

/-! Every command can be given -/

private theorem run_launch (same : Represents d s l) :
    ∃ trace t, Run (SourceScreen.step count) s trace t ∧ commands trace = [.launch] := by
  obtain ⟨loaded, load, -⟩ := Option.map_eq_some_iff.mp same.kept
  have launched : s.step count .launch =
      .next ⟨{ viewModel := loaded.setIsCurrent }, s.userDefaults⟩ := by
    simp [SourceScreen.step, SourceScreen.perform, SourceViewController.viewDidLoad, load,
      Outcome.map]
  exact ⟨_, _, Run.refl.tail launched, rfl⟩

private theorem shownAlert_withAlert {alert : UIAlertController}
    (presented : alert.isPresented = true) : (s.withAlert alert).shownAlert = some alert := by
  simp [SourceScreen.shownAlert, SourceScreen.withAlert, presented]

private theorem run_fill {alert : UIAlertController} {source : String × String}
    (shown : s.shownAlert = some alert) (valid : Valid count source.1 source.2) :
    ∃ trace t, Run (SourceScreen.step count) s trace t ∧ commands trace = [.add source] := by
  have presented : alert.isPresented = true := (Option.filter_eq_some_iff.mp shown).2
  let titled := { alert with titleText := source.1 }.textDidChangeAlert count
  let filled := { titled with urlText := source.2 }.textDidChangeAlert count
  have first : s.step count (.editTitle source.1) = .next (s.withAlert titled) := by
    simp [SourceScreen.step, SourceScreen.perform, shown, Outcome.map, titled]
  have again : (s.withAlert titled).shownAlert = some titled := shownAlert_withAlert presented
  have second : (s.withAlert titled).step count (.editURL source.2) =
      .next ((s.withAlert titled).withAlert filled) := by
    simp [SourceScreen.step, SourceScreen.perform, again, Outcome.map, filled]
  have last : ((s.withAlert titled).withAlert filled).shownAlert = some filled :=
    shownAlert_withAlert presented
  have enabled : filled.saveIsEnabled = true := by
    simp [filled, titled, UIAlertController.textDidChangeAlert, valid.1, valid.2]
  obtain ⟨t, third⟩ : ∃ t, ((s.withAlert titled).withAlert filled).step count .save = .next t := by
    simp [SourceScreen.step, SourceScreen.perform, last, enabled, Outcome.map]
  refine ⟨_, t, ((Run.refl.tail first).tail second).tail third, ?_⟩
  simp [commands, SourceAction.commands, last]
  rfl

private theorem run_add {source : String × String} (valid : Valid count source.1 source.2) :
    ∃ trace t, Run (SourceScreen.step count) s trace t ∧ commands trace = [.add source] := by
  cases shown : s.shownAlert with
  | some alert => exact run_fill shown valid
  | none =>
    let alert : UIAlertController := { saveIsEnabled := false, isPresented := true }
    have opened : s.step count .createAlert = .next (s.withAlert alert) := by
      simp [SourceScreen.step, SourceScreen.perform, shown, Outcome.map, SourceScreen.withAlert,
        SourceViewController.createAlert, alert]
    have empty : (s.withAlert alert).shownAlert = some alert := shownAlert_withAlert rfl
    obtain ⟨trace, t, run, adds⟩ := run_fill empty valid
    exact ⟨_, t, (Run.refl.tail opened).trans run, adds⟩

private theorem run_row {a : SourceAction} {c : ListCommand}
    (means : ∀ s : SourceScreen, a.commands s = [c])
    (acts : ∃ t, SourceScreen.step count ⟨s.controller.viewWillAppear, s.userDefaults⟩ a =
      .next t) :
    ∃ trace t, Run (SourceScreen.step count) s trace t ∧ commands trace = [c] := by
  have appeared : s.step count .viewWillAppear =
    .next ⟨s.controller.viewWillAppear, s.userDefaults⟩ := rfl
  obtain ⟨t, acted⟩ := acts
  refine ⟨_, t, (Run.refl.tail appeared).tail acted, ?_⟩
  have quiet : SourceAction.viewWillAppear.commands s = [] := rfl
  simp [commands, means, quiet]

private theorem run_select {row : Nat} (bound : row < s.controller.viewModel.sources.length) :
    ∃ trace t, Run (SourceScreen.step count) s trace t ∧ commands trace = [.select row] := by
  refine run_row (a := .didSelectRowAt row) (fun _ => rfl) ?_
  simp [SourceScreen.step, SourceScreen.perform, SourceViewController.viewWillAppear,
    SourceViewController.didSelectRowAt, bound, Outcome.map]

private theorem run_delete {row : Nat} (bound : row < s.controller.viewModel.sources.length) :
    ∃ trace t, Run (SourceScreen.step count) s trace t ∧ commands trace = [.delete row] := by
  refine run_row (a := .commitDelete row) (fun _ => rfl) ?_
  have fewer : (s.controller.viewModel.sources.eraseIdx row).length + 1 =
      s.controller.viewModel.sources.length := by
    rw [List.length_eraseIdx_of_lt bound]
    omega
  simp [SourceScreen.step, SourceScreen.perform, SourceViewController.viewWillAppear,
    SourceViewController.commitDelete, bound, fewer, Outcome.map]

private theorem run_command {c : ListCommand} {l' : SourceList} (same : Represents d s l)
    (move : l.step c = .next l')
    (valid : ∀ source, c = .add source → Valid count source.1 source.2) :
    ∃ trace t, Run (SourceScreen.step count) s trace t ∧ commands trace = [c] ∧
      Represents d t l' := by
  obtain ⟨trace, t, run, means⟩ : ∃ trace t, Run (SourceScreen.step count) s trace t ∧
      commands trace = [c] := by
    cases c with
    | launch => exact run_launch same
    | add source => exact run_add (valid source rfl)
    | select row =>
      rw [SourceList.step] at move
      split at move
      · exact run_select (by rwa [same.length])
      · cases move
    | delete row =>
      rw [SourceList.step] at move
      split at move
      · exact run_delete (by rwa [same.length])
      · cases move
  -- The list has no other way to follow this command.
  obtain ⟨other, steps, shows⟩ := follows same run
  rw [means, steps_single_iff] at steps
  obtain rfl := Outcome.next.inj (move.symm.trans steps)
  exact ⟨trace, t, run, means, shows⟩

/-- Whatever the list can do by adding valid sources, selecting, deleting and launching,
some run of the screen does. -/
theorem steps_realised {s₀ : SourceScreen} {kept : List (String × String)}
    {cs : List ListCommand} (launched : SourceScreen.launched d = some s₀)
    (keeps : relaunchList d = some kept)
    (steps : Steps (Moves SourceList.step) (.opened kept) cs l)
    (valid : ∀ source, .add source ∈ cs → Valid count source.1 source.2) :
    ∃ trace s, Run (SourceScreen.step count) s₀ trace s ∧ commands trace = cs ∧
      Represents d s l := by
  obtain ⟨kept', keeps', same⟩ := represents_launched launched
  obtain rfl := Option.some.inj (keeps.symm.trans keeps')
  induction steps with
  | refl => exact ⟨[], s₀, .refl, rfl, same⟩
  | tail prior move ih =>
    obtain ⟨trace, s, run, means, here⟩ :=
      ih fun source member => valid source (List.mem_append_left _ member)
    obtain ⟨more, t, further, means', there⟩ :=
      run_command here move fun source adds => valid source (by simp [adds])
    refine ⟨trace ++ more, t, run.trans further, ?_, there⟩
    rw [commands, List.flatMap_append]
    exact congr (congrArg _ means) means'

theorem steps_realised_added :
    ∃ trace s, Run (SourceScreen.step String.length) SourceScreen.builtIn trace s ∧
      commands trace = [.add ("News", "https://a.b/c"), .delete 0, .delete 0] ∧
      s.controller.viewModel.sources.map SourceModel.entry =
        [(("News", "https://a.b/c"), true)] := by
  have steps := ((Steps.refl (R := Moves SourceList.step).tail
    (show SourceList.step (.opened defaultSaved) (.add ("News", "https://a.b/c")) = .next _
      from rfl)).tail
    (show SourceList.step _ (.delete 0) = .next _ from rfl)).tail
    (show SourceList.step _ (.delete 0) = .next _ from rfl)
  obtain ⟨trace, s, run, means, shows⟩ :=
    @steps_realised String.length _ _ _ _ _ SourceScreen.launched_empty rfl steps (by
      intro source member
      obtain rfl : source = ("News", "https://a.b/c") := by simpa using member
      exact ⟨rfl, by decide +kernel⟩)
  exact ⟨trace, s, run, means, shows.shown⟩

end TheNews.Source
