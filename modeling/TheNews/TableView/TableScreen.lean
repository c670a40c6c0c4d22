/- TheNews/TableView/TableScreen
   digest: A screen whose actions call its table view. Where every call answers for the
   rows it touches, each cell on the screen shows its row in every run. -/

import TheNews.TableView.ReusePool
import TheNews.Transition.Runs

set_option autoImplicit false
set_option relaxedAutoImplicit false

namespace TheNews.TableView

open TheNews.Transition.Runs

universe u v w
variable {σ : Type u} {α : Type v} {κ : Type w}

/-- What an action asks of the table. -/
inductive TableCall (κ : Type w) where
  | none
  | create
  | reloadData (count : Nat)
  | cellForRowAt (row : Nat) (configure : κ → κ)
  | deleteRow (row : Nat)

def ReusePool.answer (t : ReusePool κ) (fresh : κ) (pick : Nat) : TableCall κ → ReusePool κ
  | .none => t
  | .create => {}
  | .reloadData count => t.reloadData count
  | .cellForRowAt row configure => t.display fresh pick row configure
  | .deleteRow row => t.deleteRow row

/-- A screen with the cells of its table view. -/
structure TableScreen (σ : Type u) (κ : Type w) where
  screen : σ
  table : ReusePool κ := {}
  deriving DecidableEq, Repr

/-- An action of the screen, with the waiting cell that the table would pick, or a
cell that scrolls away. -/
inductive TableAction (α : Type v) where
  | act (a : α) (pick : Nat)
  | didEndDisplaying (row : Nat)
  deriving DecidableEq, Repr

def TableScreen.step (step : σ → α → Outcome σ) (call : σ → α → σ → TableCall κ) (fresh : κ)
    (s : TableScreen σ κ) : TableAction α → Outcome (TableScreen σ κ)
  | .act a pick => (step s.screen a).map fun screen =>
      { screen, table := s.table.answer fresh pick (call s.screen a screen) }
  | .didEndDisplaying row => .next { s with table := s.table.didEndDisplaying row }

/-- The part of a trace that the screen has seen. -/
def screenTrace (trace : Trace (TableScreen σ κ) (TableAction α)) : Trace σ α :=
  trace.filterMap fun x => match x.2 with
    | .act a _ => some (x.1.screen, a)
    | .didEndDisplaying _ => none

/-- A call by which a screen with `count` rows that show `shows` becomes one with
`count'` rows that show `shows'`, as long as cells stay `clean`. -/
inductive Answers (clean : κ → Prop) (count count' : Nat) (shows shows' : Nat → κ → Prop) :
    TableCall κ → Prop where
  | none (counted : count' = count) (same : ∀ row cell, shows row cell → shows' row cell) :
      Answers clean count count' shows shows' .none
  | create (counted : count' = 0) : Answers clean count count' shows shows' .create
  | reloadData : Answers clean count count' shows shows' (.reloadData count')
  | cellForRowAt (row : Nat) (configure : κ → κ) (counted : count' = count)
      (others : ∀ i cell, i ≠ row → shows i cell → shows' i cell)
      (configured : ∀ cell, clean cell → clean (configure cell) ∧ shows' row (configure cell)) :
      Answers clean count count' shows shows' (.cellForRowAt row configure)
  | deleteRow (row : Nat) (bound : row < count) (counted : count' = count - 1)
      (moved : ∀ i cell, shows (if i < row then i else i + 1) cell → shows' i cell) :
      Answers clean count count' shows shows' (.deleteRow row)

/-- Every cell is clean and shows its row, and the table has an entry for every row. -/
structure Drawn (clean : κ → Prop) (count : Nat) (shows : Nat → κ → Prop) (t : ReusePool κ) :
    Prop where
  counted : t.rows.length = count
  cells : t.Shows clean shows

variable {clean : κ → Prop} {count count' : Nat} {shows shows' : Nat → κ → Prop} {fresh : κ}

theorem Drawn.answer {t : ReusePool κ} {call : TableCall κ} (before : Drawn clean count shows t)
    (new : clean fresh) (answers : Answers clean count count' shows shows' call) (pick : Nat) :
    Drawn clean count' shows' (t.answer fresh pick call) := by
  cases answers with
  | none counted same =>
    exact ⟨counted ▸ before.counted, before.cells.imp fun row cell _ => same row cell⟩
  | create counted => exact ⟨counted.symm, .empty⟩
  | reloadData => exact ⟨ReusePool.length_reloadData .., before.cells.reloadData⟩
  | cellForRowAt row configure counted others configured =>
    refine ⟨?_, before.cells.display new others configured⟩
    rw [ReusePool.answer, ReusePool.length_display, before.counted, counted]
  | deleteRow row bound counted moved =>
    refine ⟨?_, before.cells.deleteRow moved⟩
    rw [ReusePool.answer, ReusePool.length_deleteRow _ _ (before.counted ▸ bound), before.counted,
      counted]

/-- If every action of a run answers for the rows its call touches, the screen with
its cells runs as the screen alone does and every cell shows its row. -/
theorem run_drawn {step : σ → α → Outcome σ} {call : σ → α → σ → TableCall κ} {start : σ}
    (rows : σ → Nat) (shows : σ → Nat → κ → Prop) (new : clean fresh) (unread : rows start = 0)
    (answers : ∀ h s a t, Run step start h s → step s a = .next t →
      Answers clean (rows s) (rows t) (shows s) (shows t) (call s a t))
    {trace : Trace (TableScreen σ κ) (TableAction α)} {s : TableScreen σ κ}
    (run : Run (TableScreen.step step call fresh) ⟨start, {}⟩ trace s) :
    Run step start (screenTrace trace) s.screen ∧
      Drawn clean (rows s.screen) (shows s.screen) s.table := by
  induction run with
  | refl => exact ⟨.refl, unread.symm, .empty⟩
  | tail prior move ih =>
    rename_i a
    obtain ⟨whole, drawn⟩ := ih
    cases a with
    | act a pick =>
      obtain ⟨screen, moved, rfl⟩ := Outcome.map_eq_next.mp move
      exact ⟨by simpa [screenTrace] using whole.tail moved,
        drawn.answer new (answers _ _ _ _ whole moved) pick⟩
    | didEndDisplaying row =>
      obtain rfl := Outcome.next.inj move
      refine ⟨by simpa [screenTrace] using whole, ?_, drawn.cells.didEndDisplaying⟩
      rw [ReusePool.length_didEndDisplaying, drawn.counted]

end TheNews.TableView
