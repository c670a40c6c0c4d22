/- TheNews/TableView/ReusePool
   digest: A table whose rows share a stock of cells: cells that leave the screen
   wait with their old contents until some row takes them. -/

import Mathlib.Data.List.Basic

set_option autoImplicit false
set_option relaxedAutoImplicit false

namespace TheNews.TableView

universe u
variable {κ : Type u}

/-- The cells on the screen, an entry for each counted row, and the cells that wait
to be used again. -/
structure ReusePool (κ : Type u) where
  rows : List (Option κ) := []
  queue : List κ := []
  deriving DecidableEq, Repr

namespace ReusePool

/-- The rows are counted again, and every cell may be used again. -/
def reloadData (t : ReusePool κ) (count : Nat) : ReusePool κ :=
  { rows := List.replicate count none, queue := t.queue ++ t.rows.filterMap id }

/-- A cell that waits, whichever the table picks, or a new one. -/
def dequeue (t : ReusePool κ) (fresh : κ) (pick : Nat) : κ × ReusePool κ :=
  match t.queue[pick]? with
  | some cell => (cell, { t with queue := t.queue.eraseIdx pick })
  | none => (fresh, t)

/-- The cell of a row leaves the screen. -/
def didEndDisplaying (t : ReusePool κ) (row : Nat) : ReusePool κ :=
  { rows := t.rows.set row none, queue := t.queue ++ (t.rows[row]?.join).toList }

/-- A row gets a cell, which is set up there. -/
def display (t : ReusePool κ) (fresh : κ) (pick row : Nat) (configure : κ → κ) : ReusePool κ :=
  let (cell, taken) := (t.didEndDisplaying row).dequeue fresh pick
  { taken with rows := taken.rows.set row (some (configure cell)) }

/-- The rows below a deleted one move up with their cells. -/
def deleteRow (t : ReusePool κ) (row : Nat) : ReusePool κ :=
  { rows := t.rows.eraseIdx row, queue := t.queue ++ (t.rows[row]?.join).toList }

section Length
variable (t : ReusePool κ) (fresh : κ) (pick row count : Nat) (configure : κ → κ)

@[simp] theorem length_reloadData : (t.reloadData count).rows.length = count := by
  simp [reloadData]

@[simp] theorem length_didEndDisplaying :
    (t.didEndDisplaying row).rows.length = t.rows.length := by
  simp [didEndDisplaying]

private theorem rows_dequeue : (t.dequeue fresh pick).2.rows = t.rows := by
  unfold dequeue
  split <;> rfl

@[simp] theorem length_display :
    (t.display fresh pick row configure).rows.length = t.rows.length := by
  simp [display, rows_dequeue]

theorem length_deleteRow (bound : row < t.rows.length) :
    (t.deleteRow row).rows.length = t.rows.length - 1 :=
  List.length_eraseIdx_of_lt bound

end Length

/-- Every cell there is satisfies `clean`, and the cell of each row shows it. -/
structure Shows (clean : κ → Prop) (shows : Nat → κ → Prop) (t : ReusePool κ) : Prop where
  queued : ∀ cell ∈ t.queue, clean cell
  displayed : ∀ cell, some cell ∈ t.rows → clean cell
  shown : ∀ row cell, t.rows[row]? = some (some cell) → shows row cell

namespace Shows
variable {clean : κ → Prop} {shows shows' : Nat → κ → Prop} {t : ReusePool κ} {fresh : κ}
  {configure : κ → κ} {row pick count : Nat}

theorem empty : Shows clean shows {} := ⟨by simp, by simp, by simp⟩

theorem imp (same : Shows clean shows t)
    (weaker : ∀ row cell, t.rows[row]? = some (some cell) → shows row cell → shows' row cell) :
    Shows clean shows' t :=
  ⟨same.queued, same.displayed,
    fun row cell there => weaker row cell there (same.shown row cell there)⟩

private theorem clean_join (before : Shows clean shows t) {cell : κ}
    (member : cell ∈ (t.rows[row]?.join).toList) : clean cell := by
  have there : t.rows[row]? = some (some cell) := by
    cases found : t.rows[row]? with
    | none => simp [found] at member
    | some o =>
      rw [found, Option.join_some, Option.mem_toList] at member
      rw [member]
  exact before.displayed cell (List.mem_of_getElem? there)

private theorem clean_queue (before : Shows clean shows t) {cell : κ}
    (member : cell ∈ t.queue ++ (t.rows[row]?.join).toList) : clean cell := by
  rcases List.mem_append.mp member with waiting | leaving
  · exact before.queued cell waiting
  · exact clean_join before leaving

theorem reloadData (before : Shows clean shows t) : Shows clean shows' (t.reloadData count) := by
  refine ⟨?_, ?_, ?_⟩
  · intro cell member
    rcases List.mem_append.mp member with waiting | leaving
    · exact before.queued cell waiting
    · obtain ⟨o, there, rfl⟩ := List.mem_filterMap.mp leaving
      exact before.displayed cell there
  · intro cell member
    cases List.eq_of_mem_replicate member
  · intro row cell there
    cases List.eq_of_mem_replicate (List.mem_of_getElem? there)

theorem didEndDisplaying (before : Shows clean shows t) :
    Shows clean shows (t.didEndDisplaying row) := by
  refine ⟨fun cell => clean_queue before, ?_, ?_⟩
  · intro cell member
    rcases List.mem_or_eq_of_mem_set member with there | gone
    · exact before.displayed cell there
    · cases gone
  · intro i cell there
    rw [ReusePool.didEndDisplaying, List.getElem?_set] at there
    split at there
    · split at there <;> cases there
    · exact before.shown i cell there

private theorem dequeue (before : Shows clean shows t) (pick : Nat) (new : clean fresh) :
    clean (t.dequeue fresh pick).1 ∧ Shows clean shows (t.dequeue fresh pick).2 := by
  unfold ReusePool.dequeue
  split
  · rename_i cell waiting
    refine ⟨before.queued cell (List.mem_of_getElem? waiting), ?_, before.displayed, before.shown⟩
    intro other member
    exact before.queued other (List.mem_of_mem_eraseIdx member)
  · exact ⟨new, before⟩

theorem display (before : Shows clean shows t) (new : clean fresh)
    (others : ∀ i cell, i ≠ row → shows i cell → shows' i cell)
    (configured : ∀ cell, clean cell → clean (configure cell) ∧ shows' row (configure cell)) :
    Shows clean shows' (t.display fresh pick row configure) := by
  have freed : Shows clean shows (t.didEndDisplaying row) := before.didEndDisplaying
  obtain ⟨taken, left⟩ := freed.dequeue pick new
  obtain ⟨kept, right⟩ := configured _ taken
  refine ⟨left.queued, ?_, ?_⟩
  · intro cell member
    rcases List.mem_or_eq_of_mem_set member with there | here
    · exact left.displayed cell there
    · obtain rfl := Option.some.inj here
      exact kept
  · intro i cell there
    rw [ReusePool.display, List.getElem?_set] at there
    split at there
    · subst i
      split at there
      · obtain rfl := Option.some.inj (Option.some.inj there)
        exact right
      · cases there
    · rename_i other
      exact others i cell (Ne.symm other) (left.shown i cell there)

theorem deleteRow (before : Shows clean shows t)
    (moved : ∀ i cell, shows (if i < row then i else i + 1) cell → shows' i cell) :
    Shows clean shows' (t.deleteRow row) := by
  refine ⟨fun cell => clean_queue before, ?_, ?_⟩
  · intro cell member
    exact before.displayed cell (List.mem_of_mem_eraseIdx member)
  · intro i cell there
    rw [ReusePool.deleteRow, List.getElem?_eraseIdx] at there
    refine moved i cell (before.shown _ cell ?_)
    split at there
    · rename_i above
      rwa [if_pos above]
    · rename_i below
      rwa [if_neg below]

end Shows

end ReusePool

end TheNews.TableView
