/- TheNews/Storage/SwapRemove
   models: core/realm/table.hpp
   digest: Rows removed by moving the last one into the gap, and where a pointer
   into the rows has to point afterwards. -/

import Mathlib.Data.List.Induction
import Mathlib.Data.List.Perm.Basic

set_option autoImplicit false
set_option relaxedAutoImplicit false

namespace TheNews.Storage.SwapRemove

universe u v
variable {ρ : Type u} {τ : Type v}

/-- Remove the row at `i` by moving the last row into its place. -/
def moveLastOver (rows : List ρ) (i : Nat) : List ρ :=
  match rows.getLast? with
  | none => []
  | some last => (rows.set i last).dropLast

/-- Where a pointer at `j` points once the row at `i` of `n` rows is removed.
Pointers at the removed row are detached, also when it is the last one. -/
def relocate (n i j : Nat) : Option Nat :=
  if j = i then none else if j + 1 = n then some i else some j

theorem map_moveLastOver (f : ρ → τ) (rows : List ρ) (i : Nat) :
    (moveLastOver rows i).map f = moveLastOver (rows.map f) i := by
  cases last : rows.getLast? with
  | none => simp [moveLastOver, last, List.getLast?_map]
  | some x => simp [moveLastOver, last, List.getLast?_map, List.map_dropLast, List.map_set]

@[simp] theorem length_moveLastOver (rows : List ρ) (i : Nat) :
    (moveLastOver rows i).length = rows.length - 1 := by
  cases last : rows.getLast? with
  | none => simp [moveLastOver, List.getLast?_eq_none_iff.mp last]
  | some x => simp [moveLastOver, last]

theorem getElem?_moveLastOver {rows : List ρ} {i k : Nat} (below : k + 1 < rows.length) :
    (moveLastOver rows i)[k]? = if k = i then rows[rows.length - 1]? else rows[k]? := by
  have last : rows.getLast? = some rows[rows.length - 1] := by
    rw [List.getLast?_eq_getElem?, List.getElem?_eq_getElem]
  have kept : k < ((rows.set i rows[rows.length - 1]).dropLast).length := by simp; omega
  rw [moveLastOver, last]
  simp only
  rw [List.getElem?_eq_getElem kept, List.getElem_dropLast, List.getElem_set]
  by_cases here : k = i
  · subst k
    simp
  · have other : ¬ i = k := fun same => here same.symm
    simp [here, other, show k < rows.length by omega]

theorem relocate_eq_none {n i j : Nat} : relocate n i j = none ↔ j = i := by
  unfold relocate
  split <;> [simp_all; split <;> simp_all]

theorem relocate_lt {n i j k : Nat} (moved : relocate n i j = some k) (inside : i < n)
    (below : j < n) : k + 1 < n := by
  unfold relocate at moved
  split at moved
  · cases moved
  · rename_i other
    split at moved
    · obtain rfl := Option.some.inj moved
      exact Nat.lt_of_le_of_ne inside (by omega)
    · obtain rfl := Option.some.inj moved
      omega

/-- A pointer that survives keeps the row it points to. -/
theorem getElem?_relocate {rows : List ρ} {i j k : Nat} (inside : i < rows.length)
    (below : j < rows.length) (moved : relocate rows.length i j = some k) :
    (moveLastOver rows i)[k]? = rows[j]? := by
  rw [getElem?_moveLastOver (relocate_lt moved inside below)]
  unfold relocate at moved
  split at moved
  · cases moved
  · split at moved
    · rename_i last
      obtain rfl := Option.some.inj moved
      rw [if_pos rfl, ← last, Nat.add_sub_cancel]
    · rename_i other _
      obtain rfl := Option.some.inj moved
      rw [if_neg other]

theorem cons_moveLastOver_perm {rows : List ρ} {i : Nat} {row : ρ} (there : rows[i]? = some row) :
    (row :: moveLastOver rows i).Perm rows := by
  induction rows using List.reverseRecOn with
  | nil => cases there
  | append_singleton init last _ =>
    have moved : moveLastOver (init ++ [last]) i = ((init ++ [last]).set i last).dropLast := by
      simp [moveLastOver]
    rw [moved]
    rcases Nat.lt_or_ge i init.length with inside | past
    · rw [List.set_append_left _ _ inside, List.dropLast_concat]
      rw [List.getElem?_append_left inside] at there
      have gap : (init.set i last).Perm (last :: init.eraseIdx i) :=
        List.set_perm_cons_eraseIdx inside last
      have split : (row :: init.eraseIdx i).Perm init := by
        obtain ⟨bound, rfl⟩ := List.getElem?_eq_some_iff.mp there
        exact List.getElem_cons_eraseIdx_perm bound
      calc (row :: init.set i last).Perm (row :: last :: init.eraseIdx i) := gap.cons row
        _ |>.Perm (last :: row :: init.eraseIdx i) := List.Perm.swap _ _ _
        _ |>.Perm (last :: init) := split.cons last
        _ |>.Perm (init ++ [last]) := List.perm_append_singleton last init |>.symm
    · obtain ⟨bound, -⟩ := List.getElem?_eq_some_iff.mp there
      have here : i = init.length := by simp at bound; omega
      subst i
      obtain rfl : last = row := by simpa using there
      simpa using (List.perm_append_singleton last init).symm

end TheNews.Storage.SwapRemove
