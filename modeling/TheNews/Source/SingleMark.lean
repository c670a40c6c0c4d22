/- TheNews/Source/SingleMark
   digest: A list with sources shows exactly one of them as current precisely in
   the runs that never delete the marked row while others remain. -/

import TheNews.Source.CurrentMark
import TheNews.Source.SourceViewController

set_option autoImplicit false
set_option relaxedAutoImplicit false

namespace TheNews.Source.SingleMark

open TheNews.Transition.Runs TheNews.UserDefault

variable {count : String → Nat}

/-- The list is empty or exactly one of its sources is current. -/
def OneMarked (s : SourceScreen) : Prop :=
  s.controller.viewModel.sources = [] ∨ s.controller.viewModel.marked.length = 1

instance (s : SourceScreen) : Decidable (OneMarked s) := inferInstanceAs (Decidable (_ ∨ _))

/-- A deletion takes an unmarked source or the last one left. -/
def SparesMark (s : SourceScreen) : SourceAction → Prop
  | .commitDelete row => ∀ source ∈ s.controller.viewModel.sources[row]?,
      source.isCurrent = false ∨ s.controller.viewModel.sources.length = 1
  | _ => True

private theorem oneMarked_loaded {loaded : SourceViewModel} {d : UserDefaults}
    (load : ({} : SourceViewModel).loadSources d = some loaded) :
    OneMarked ⟨{ viewModel := loaded.setIsCurrent }, d⟩ := by
  have first := SourceViewModel.marked_setIsCurrent (SourceViewModel.marked_loadSources load)
  cases split : loaded.sources with
  | nil => exact .inl (by simp [SourceViewModel.setIsCurrent, split])
  | cons source rest => exact .inr (by simp [first, split])

private theorem oneMarked_deleted_iff {s t : SourceScreen} {row : Nat} (before : OneMarked s)
    (there : row < s.controller.viewModel.sources.length)
    (removed : t.controller.viewModel.sources =
      s.controller.viewModel.sources.eraseIdx row) :
    OneMarked t ↔ SparesMark s (.commitDelete row) := by
  have emptied : t.controller.viewModel.sources = [] ↔
      s.controller.viewModel.sources.length = 1 := by
    rw [removed, ← List.length_eq_zero_iff, List.length_eraseIdx_of_lt there]
    omega
  have one : s.controller.viewModel.marked.length = 1 :=
    before.resolve_left (List.ne_nil_of_length_pos (by omega))
  obtain ⟨current, one⟩ := List.length_eq_one_iff.mp one
  have at_row := List.getElem?_eq_getElem there
  have remaining := SourceViewModel.filter_eraseIdx_marked one at_row
  rw [OneMarked, emptied, SourceViewModel.marked, removed, remaining, SparesMark, at_row]
  cases mark : s.controller.viewModel.sources[row].isCurrent with
  | true => simp [mark]
  | false => simp [mark]

theorem oneMarked_step_iff {s t : SourceScreen} {a : SourceAction} (before : OneMarked s)
    (move : s.step count a = .next t) : OneMarked t ↔ SparesMark s a := by
  obtain ⟨told, effect⟩ := SourceScreen.step_effect move
  cases effect with
  | launch loaded load => exact iff_of_true (oneMarked_loaded load) trivial
  | quiet vc quiet same =>
    refine iff_of_true (by simpa [OneMarked, same] using before) ?_
    cases a with
    | commitDelete row => cases quiet
    | _ => trivial
  | save alert vc newSource shown enabled read added =>
    refine iff_of_true (.inr ?_) trivial
    have one : vc.viewModel.marked = [newSource] := by
      rw [added]
      exact SourceViewModel.filter_append_marked
        (SourceViewModel.marked_refreshIsCurrent s.controller.viewModel) (by rw [read])
    rw [one, List.length_singleton]
  | select row vc source newSource there copied marked =>
    refine iff_of_true (.inr ?_) trivial
    have bound : row < s.controller.viewModel.refreshIsCurrent.sources.length := by
      simpa [SourceViewModel.refreshIsCurrent] using (List.getElem?_eq_some_iff.mp there).1
    have one : vc.viewModel.marked = [{ newSource with isCurrent := true }] := by
      rw [marked]
      exact SourceViewModel.filter_set_marked
        (SourceViewModel.marked_refreshIsCurrent s.controller.viewModel) bound rfl
    rw [one, List.length_singleton]
  | delete row vc there removed => exact oneMarked_deleted_iff before there (by rw [removed])

/-- After any launch, one source is marked at every moment of a run exactly when
every deletion of the run spares the mark. -/
theorem oneMarked_throughout_iff {d : UserDefaults} {s₀ s : SourceScreen}
    {trace : Trace SourceScreen SourceAction} (launched : SourceScreen.launched d = some s₀)
    (run : Run (SourceScreen.step count) s₀ trace s) :
    Throughout (fun _ => OneMarked) trace s ↔ EveryStep (fun _ => SparesMark) trace := by
  obtain ⟨loaded, load, rfl⟩ := SourceScreen.launched_eq_some.mp launched
  exact run.throughout_iff (oneMarked_loaded load)
    fun _ _ _ _ _ before move => oneMarked_step_iff before move

theorem oneMarked_throughout_iff_emptied :
    ∃ trace s, Run (SourceScreen.step String.length) SourceScreen.builtIn trace s ∧
      trace.map Prod.snd = [.viewWillAppear, .didSelectRowAt 1, .commitDelete 0, .commitDelete 0] ∧
      Throughout (fun _ => OneMarked) trace s :=
  have run := (((Run.refl.tail rfl).tail rfl).tail rfl).tail rfl
  ⟨_, _, run, rfl, (oneMarked_throughout_iff SourceScreen.launched_empty run).mpr (by
    simp only [everyStep_tail, everyStep_nil, SparesMark]; decide)⟩

theorem not_oneMarked :
    ¬ ∀ (d : UserDefaults) (s₀ s : SourceScreen) (trace : Trace SourceScreen SourceAction),
      SourceScreen.launched d = some s₀ → Run (SourceScreen.step String.length) s₀ trace s →
        OneMarked s := by
  intro marks
  have run : Run (SourceScreen.step String.length) SourceScreen.builtIn _ _ :=
    Run.replay [.viewWillAppear, .commitDelete 0] rfl
  exact absurd (marks _ _ _ _ SourceScreen.launched_empty run) (by decide)

end TheNews.Source.SingleMark
