/- TheNews/Storage/CursorList
   digest: A list with at most one entry singled out, by a cursor that lies in the
   list, and the same list as flags on its entries. -/

import Mathlib.Data.List.Basic

set_option autoImplicit false
set_option relaxedAutoImplicit false

namespace TheNews.Storage

universe u
variable {α : Type u}

structure CursorList (α : Type u) where
  items : List α := []
  cursor : Option Nat := none
  inside : ∀ i ∈ cursor, i < items.length := by simp
  deriving DecidableEq, Repr

namespace CursorList

/-- The cursor is on the first entry, if there is one. -/
def ofList (items : List α) : CursorList α where
  items := items
  cursor := if items = [] then none else some 0
  inside := by
    intro i member
    split at member
    · cases member
    · obtain rfl := Option.some.inj member
      exact List.length_pos_of_ne_nil ‹_›

/-- A new entry takes the cursor. -/
def push (l : CursorList α) (x : α) : CursorList α where
  items := l.items ++ [x]
  cursor := some l.items.length
  inside := by
    intro i member
    obtain rfl := Option.some.inj member
    simp

def select (l : CursorList α) (i : Nat) (bound : i < l.items.length) : CursorList α where
  items := l.items
  cursor := some i
  inside := by
    intro j member
    obtain rfl := Option.some.inj member
    exact bound

/-- The entries behind the erased one move up; the cursor is lost with its entry. -/
def erase (l : CursorList α) (i : Nat) : CursorList α where
  items := l.items.eraseIdx i
  cursor := l.cursor.bind fun c =>
    if c < i then some c else if c = i then none else some (c - 1)
  inside := by
    intro j member
    obtain ⟨c, there, moved⟩ := Option.bind_eq_some_iff.mp member
    have bound := l.inside c there
    rw [List.length_eraseIdx]
    split at moved
    · obtain rfl := Option.some.inj moved
      split <;> omega
    · split at moved
      · cases moved
      · obtain rfl := Option.some.inj moved
        split <;> omega

/-- Every entry with a flag that tells whether the cursor is on it. -/
def flagged (l : CursorList α) : List (α × Bool) :=
  l.items.mapIdx fun i x => (x, decide (l.cursor = some i))

variable (l : CursorList α) {x : α} {i : Nat}

@[simp] theorem getElem?_flagged :
    l.flagged[i]? = l.items[i]?.map fun x => (x, decide (l.cursor = some i)) := by
  simp [flagged]

@[simp] theorem map_fst_flagged : l.flagged.map Prod.fst = l.items := by
  refine List.ext_getElem? fun i => ?_
  simp [Function.comp_def]

theorem cursor_of_flagged (flag : l.flagged[i]? = some (x, true)) : l.cursor = some i := by
  rw [getElem?_flagged, Option.map_eq_some_iff] at flag
  obtain ⟨y, -, same⟩ := flag
  exact of_decide_eq_true (congrArg Prod.snd same)

@[simp] theorem flagged_ofList_nil : (ofList ([] : List α)).flagged = [] := rfl

@[simp] theorem flagged_ofList_cons {items : List α} :
    (ofList (x :: items)).flagged = (x, true) :: items.map (·, false) := by
  refine List.ext_getElem? fun i => ?_
  rw [getElem?_flagged]
  cases i <;> simp [ofList]

@[simp] theorem flagged_erase : (l.erase i).flagged = l.flagged.eraseIdx i := by
  refine List.ext_getElem? fun j => ?_
  have flag : (l.erase i).cursor = some j ↔ l.cursor = some (if j < i then j else j + 1) := by
    cases here : l.cursor with
    | none => simp [erase, here]
    | some c =>
      simp only [erase, here, Option.bind_some, Option.some.injEq]
      split
      · rw [Option.some.injEq]
        split <;> omega
      · split
        · rw [iff_false_left (by simp)]
          split <;> omega
        · rw [Option.some.injEq]
          split <;> omega
  rw [List.getElem?_eraseIdx]
  simp only [getElem?_flagged, flag]
  split
  · rename_i earlier
    simp [erase, List.getElem?_eraseIdx, earlier]
  · rename_i later
    simp [erase, List.getElem?_eraseIdx, later]

@[simp] theorem flagged_push : (l.push x).flagged = l.items.map (·, false) ++ [(x, true)] := by
  refine List.ext_getElem? fun j => ?_
  rw [getElem?_flagged]
  rcases Nat.lt_trichotomy j l.items.length with earlier | here | later
  · have other : l.items.length ≠ j := by omega
    simp [push, List.getElem?_append, earlier, other]
  · simp [push, here]
  · have beyond : ¬ j < l.items.length := by omega
    have outside : j - l.items.length ≠ 0 := by omega
    simp [push, List.getElem?_append, beyond, outside]

@[simp] theorem flagged_select (bound : i < l.items.length) :
    (l.select i bound).flagged = (l.items.map (·, false)).set i (l.items[i], true) := by
  refine List.ext_getElem? fun j => ?_
  rw [List.getElem?_set, getElem?_flagged]
  by_cases here : i = j
  · subst i
    simp [select, bound]
  · simp [select, here]

end CursorList

end TheNews.Storage
