/- TheNews/Source/CurrentMark
   digest: The marked sources of a list, and how loading, adding, selecting and
   deleting change them. -/

import TheNews.Source.SourceViewModel

set_option autoImplicit false
set_option relaxedAutoImplicit false

namespace TheNews.Source

open TheNews.UserDefault

namespace SourceViewModel

/-- The sources the list shows as current. -/
def marked (viewModel : SourceViewModel) : List SourceModel :=
  viewModel.sources.filter SourceModel.isCurrent

theorem marked_loadSources {viewModel loaded : SourceViewModel} {d : UserDefaults}
    (load : viewModel.loadSources d = some loaded) : loaded.marked = [] := by
  rw [loadSources_eq] at load
  split at load
  · obtain rfl := Option.some.inj load
    have none (titles urls : List String) :
        (List.zipWith unmarked titles urls).filter SourceModel.isCurrent = [] := by
      induction titles generalizing urls with
      | nil => rfl
      | cons title titles ih =>
        cases urls with
        | nil => rfl
        | cons url urls => simp [unmarked, ih]
    exact none _ _
  · cases load

theorem marked_setIsCurrent {viewModel : SourceViewModel} (none : viewModel.marked = []) :
    viewModel.setIsCurrent.marked =
      (viewModel.sources.head?.map fun first => { first with isCurrent := true }).toList := by
  cases split : viewModel.sources with
  | nil => simp [setIsCurrent, split, marked]
  | cons first rest =>
    rw [marked, split, List.filter_eq_nil_iff, List.forall_mem_cons] at none
    have others : rest.filter SourceModel.isCurrent = [] := List.filter_eq_nil_iff.mpr none.2
    simp [setIsCurrent, split, marked, others]

@[simp] theorem marked_refreshIsCurrent (viewModel : SourceViewModel) :
    viewModel.refreshIsCurrent.marked = [] := by
  simp [marked, refreshIsCurrent, List.filter_map]

theorem filter_append_marked {sources : List SourceModel} {source : SourceModel}
    (none : sources.filter SourceModel.isCurrent = []) (current : source.isCurrent = true) :
    (sources ++ [source]).filter SourceModel.isCurrent = [source] := by
  simp [List.filter_append, none, current]

theorem filter_set_marked {sources : List SourceModel} {row : Nat} {source : SourceModel}
    (none : sources.filter SourceModel.isCurrent = []) (there : row < sources.length)
    (current : source.isCurrent = true) :
    (sources.set row source).filter SourceModel.isCurrent = [source] := by
  have others (l : List SourceModel) (sub : l ⊆ sources) : l.filter SourceModel.isCurrent = [] :=
    List.filter_eq_nil_iff.mpr fun x member => List.filter_eq_nil_iff.mp none x (sub member)
  rw [List.set_eq_take_append_cons_drop, if_pos there, List.filter_append, List.filter_cons,
    others _ (List.take_subset _ _), others _ (List.drop_subset _ _), if_pos current]
  rfl

theorem filter_eraseIdx_marked {sources : List SourceModel} {row : Nat}
    {source current : SourceModel} (one : sources.filter SourceModel.isCurrent = [current])
    (there : sources[row]? = some source) :
    (sources.eraseIdx row).filter SourceModel.isCurrent =
      if source.isCurrent then [] else [current] := by
  obtain ⟨bound, at_row⟩ := List.getElem?_eq_some_iff.mp there
  have split : sources = sources.take row ++ source :: sources.drop (row + 1) := by
    rw [← at_row, ← List.drop_eq_getElem_cons, List.take_append_drop]
  rw [split, List.filter_append, List.filter_cons] at one
  rw [List.eraseIdx_eq_take_drop_succ, List.filter_append]
  cases mark : source.isCurrent with
  | true =>
    rw [if_pos mark] at one
    rcases List.append_eq_singleton_iff.mp one with ⟨before, after⟩ | ⟨-, after⟩
    · rw [before, (List.cons.inj after).2]
      rfl
    · cases after
  | false => simpa [mark] using one

end SourceViewModel

end TheNews.Source
