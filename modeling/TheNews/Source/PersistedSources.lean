/- TheNews/Source/PersistedSources
   digest: The store holds what the screen shows exactly in the runs whose
   deletions all end in the built-in list. -/

import TheNews.Source.SourceViewController

set_option autoImplicit false
set_option relaxedAutoImplicit false

namespace TheNews.Source.PersistedSources

open TheNews.Transition.Runs TheNews.UserDefault UserDefaultManager
open SourceViewModel (defaultSaved)

variable {count : String → Nat}

/-- The titles and URLs a relaunch would load. -/
def relaunchList (userDefaults : UserDefaults) : Option (List (String × String)) :=
  (({} : SourceViewModel).loadSources userDefaults).map
    fun loaded => loaded.sources.map SourceModel.saved

/-- A relaunch would show the list that is in memory now. -/
def Persisted (s : SourceScreen) : Prop :=
  relaunchList s.userDefaults = some (s.controller.viewModel.sources.map SourceModel.saved)

instance (s : SourceScreen) : Decidable (Persisted s) := inferInstanceAs (Decidable (_ = _))

/-- A deletion leaves the list a launch falls back to. -/
def DeletesToDefaults (s : SourceScreen) (a : SourceAction) : Prop :=
  ∀ row, a = .commitDelete row →
    (s.controller.viewModel.sources.eraseIdx row).map SourceModel.saved = defaultSaved

theorem relaunchList_saveSources (saver : SourceViewModel) (d : UserDefaults) :
    relaunchList (saver.saveSourcesInUserDefaults d) =
      some (saver.sources.map SourceModel.saved) := by
  obtain ⟨loaded, load, same⟩ := SourceViewModel.loadSources_saveSources {} saver d
  rw [relaunchList, load, Option.map_some, same]

theorem relaunchList_cleared (d : UserDefaults) :
    relaunchList (clearUserData d) = some defaultSaved := by
  obtain ⟨loaded, load, same⟩ :=
    SourceViewModel.loadSources_of_absent {} (value_clearUserData d)
  rw [relaunchList, load, Option.map_some, same]

private theorem persisted_loaded {d : UserDefaults} {loaded : SourceViewModel}
    (load : ({} : SourceViewModel).loadSources d = some loaded) :
    Persisted ⟨{ viewModel := loaded.setIsCurrent }, d⟩ := by
  simp [Persisted, relaunchList, load]

theorem persisted_launched {d : UserDefaults} {s : SourceScreen}
    (launched : SourceScreen.launched d = some s) : Persisted s := by
  obtain ⟨loaded, load, rfl⟩ := SourceScreen.launched_eq_some.mp launched
  exact persisted_loaded load

/-- Only a deletion can part the store from the list: it drops the whole key and
does not save again. -/
theorem persisted_step_iff {s t : SourceScreen} {a : SourceAction} (before : Persisted s)
    (move : s.step count a = .next t) : Persisted t ↔ DeletesToDefaults s a := by
  obtain ⟨told, effect⟩ := SourceScreen.step_effect move
  cases effect with
  | launch loaded load => simpa [DeletesToDefaults] using persisted_loaded load
  | quiet vc quiet same =>
    have no_delete : DeletesToDefaults s a := by
      rintro row rfl
      cases quiet
    refine iff_of_true ?_ no_delete
    simpa [Persisted, same] using before
  | save alert vc newSource shown enabled read added =>
    refine iff_of_true ?_ (by simp [DeletesToDefaults])
    exact relaunchList_saveSources vc.viewModel s.userDefaults
  | select row vc source newSource there copied marked =>
    refine iff_of_true ?_ (by simp [DeletesToDefaults])
    obtain ⟨bound, rfl⟩ := List.getElem?_eq_some_iff.mp there
    have same : vc.viewModel.sources.map SourceModel.saved =
        s.controller.viewModel.sources.map SourceModel.saved := by
      rw [marked, List.map_set, SourceViewModel.refreshIsCurrent_saved, copied]
      change (s.controller.viewModel.sources.map SourceModel.saved).set row
        s.controller.viewModel.sources[row].saved = _
      rw [← List.map_set, List.set_getElem_self]
    simpa [Persisted, same] using before
  | delete row vc there removed =>
    simp only [Persisted, relaunchList_cleared, removed, Option.some.injEq, DeletesToDefaults,
      SourceAction.commitDelete.injEq, forall_eq']
    exact eq_comm

/-- After the first launch, a relaunch would show the list in memory at every
moment of a run exactly when every deletion of the run ends in the built-in list. -/
theorem persisted_throughout_iff {d : UserDefaults} {s₀ s : SourceScreen}
    {trace : Trace SourceScreen SourceAction} (launched : SourceScreen.launched d = some s₀)
    (run : Run (SourceScreen.step count) s₀ trace s) :
    Throughout (fun _ => Persisted) trace s ↔ EveryStep (fun _ => DeletesToDefaults) trace :=
  run.throughout_iff (persisted_launched launched)
    (fun _ _ _ _ _ before move => persisted_step_iff before move)

theorem persisted_throughout_iff_deleted :
    ∃ trace s, Run (SourceScreen.step String.length) SourceScreen.builtIn trace s ∧
      trace.map Prod.snd = [.viewWillAppear, .createAlert, .editTitle "News",
        .editURL "https://a.b/c", .save, .didSelectRowAt 2, .commitDelete 2] ∧
      Throughout (fun _ => Persisted) trace s := by
  have run : Run (SourceScreen.step String.length) SourceScreen.builtIn _ _ := Run.replay
    [.viewWillAppear, .createAlert, .editTitle "News", .editURL "https://a.b/c", .save,
      .didSelectRowAt 2, .commitDelete 2] rfl
  refine ⟨_, _, run, rfl, (persisted_throughout_iff SourceScreen.launched_empty run).mpr ?_⟩
  refine everyStep_iff_forall.mpr ?_
  rintro ⟨s, a⟩ member row rfl
  simp only [List.nil_append, List.cons_append, List.mem_cons, List.not_mem_nil, Prod.mk.injEq,
    reduceCtorEq, and_false, or_false, false_or, SourceAction.commitDelete.injEq] at member
  obtain ⟨rfl, rfl⟩ := member
  rfl

theorem not_persisted_after_delete :
    ¬ ∀ (d : UserDefaults) (s₀ s : SourceScreen) (trace : Trace SourceScreen SourceAction),
      SourceScreen.launched d = some s₀ → Run (SourceScreen.step String.length) s₀ trace s →
        Persisted s := by
  intro persisted
  have run : Run (SourceScreen.step String.length) SourceScreen.builtIn _ _ :=
    Run.replay [.viewWillAppear, .commitDelete 0] rfl
  exact absurd (persisted (fun _ => none) _ _ _ rfl run) (by decide)

end TheNews.Source.PersistedSources
