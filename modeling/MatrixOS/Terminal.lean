import Mathlib.Data.Nat.Basic
import Mathlib.Logic.Function.Basic
import Mathlib.Tactic.Ring

/-!
# Terminals and windows

A terminal writes on a sheet of fixed width without a last row.  A grid has a
fixed number of rows, one after another, and scrolls when its cursor leaves the
last one.  The grid shows the last rows of the sheet.
-/

/-- What a terminal is told to do. -/
inductive TerminalAction (α : Type) where
  | put (item : α)
  | newline
  | carriageReturn

/-- A sheet, by row and column, and the place of the cursor. -/
structure Terminal (α : Type) where
  sheet : Nat → Nat → α
  row : Nat
  column : Nat

namespace Terminal

variable {α : Type}

/-- An empty sheet with the cursor at its beginning. -/
def fresh (blank : α) : Terminal α where
  sheet := fun _ _ => blank
  row := 0
  column := 0

/-- An item is written at the cursor, which moves on to the next place. -/
def put (width : Nat) (item : α) (terminal : Terminal α) : Terminal α where
  sheet := Function.update terminal.sheet terminal.row
    (Function.update (terminal.sheet terminal.row) terminal.column item)
  row :=
    if terminal.column + 1 = width then terminal.row + 1 else terminal.row
  column := if terminal.column + 1 = width then 0 else terminal.column + 1

def step (width : Nat) (terminal : Terminal α) :
    TerminalAction α → Terminal α
  | .put item => terminal.put width item
  | .newline => { terminal with row := terminal.row + 1, column := 0 }
  | .carriageReturn => { terminal with column := 0 }

/-- The terminal after a sequence of actions on an empty sheet. -/
def after (width : Nat) (blank : α) (actions : List (TerminalAction α)) :
    Terminal α :=
  actions.foldl (step width) (fresh blank)

/-- The first of the last `height` rows. -/
def top (height : Nat) (terminal : Terminal α) : Nat :=
  terminal.row + 1 - height

/-- The last `height` rows. -/
def window (height : Nat) (terminal : Terminal α) : Nat → Nat → α :=
  fun row column => terminal.sheet (terminal.top height + row) column

/-- The cursor is on the sheet, and nothing is written behind its row. -/
structure Sound (width : Nat) (blank : α) (terminal : Terminal α) : Prop where
  column : terminal.column < width
  below : ∀ row, terminal.row < row → ∀ column,
    terminal.sheet row column = blank

section Sound

variable {width : Nat} {blank : α} {terminal : Terminal α}

theorem fresh_sound (positive : 0 < width) :
    (fresh blank).Sound width blank :=
  ⟨positive, fun _ _ _ => rfl⟩

theorem Sound.step
    (sound : terminal.Sound width blank)
    (action : TerminalAction α) :
    (terminal.step width action).Sound width blank := by
  have inside := sound.column
  cases action with
  | put item =>
      refine ⟨?_, fun row behind column => ?_⟩
      · simp only [Terminal.step, put]
        split <;> omega
      · simp only [Terminal.step, put] at behind ⊢
        have later : terminal.row < row := by
          split at behind <;> omega
        rw [Function.update_of_ne later.ne']
        exact sound.below row later column
  | newline =>
      refine ⟨Nat.zero_lt_of_lt inside, fun row behind column => ?_⟩
      exact sound.below row (Nat.lt_of_succ_lt behind) column
  | carriageReturn =>
      exact ⟨Nat.zero_lt_of_lt inside, sound.below⟩

/-- The cursor goes on to the beginning of the next row at most. -/
theorem Sound.step_row
    (sound : terminal.Sound width blank)
    (action : TerminalAction α) :
    (terminal.step width action).row = terminal.row ∨
    ((terminal.step width action).row = terminal.row + 1 ∧
      (terminal.step width action).column = 0 ∧
      ∀ column, (terminal.step width action).sheet (terminal.row + 1) column =
        blank) := by
  have next := sound.below (terminal.row + 1) (Nat.lt_succ_self _)
  cases action with
  | put item =>
      simp only [Terminal.step, put]
      split
      · refine Or.inr ⟨rfl, rfl, fun column => ?_⟩
        rw [Function.update_of_ne (Nat.succ_ne_self _)]
        exact next column
      · exact Or.inl rfl
  | newline => exact Or.inr ⟨rfl, rfl, next⟩
  | carriageReturn => exact Or.inl rfl

end Sound

end Terminal

/-- The places of a grid, one row after another, and its cursor. -/
@[ext]
structure TerminalGrid (α : Type) where
  cells : Nat → α
  cursor : Nat

namespace TerminalGrid

variable {α : Type}

/-- What an action does before the grid scrolls. -/
def act (width : Nat) (grid : TerminalGrid α) :
    TerminalAction α → TerminalGrid α
  | .put item =>
      { cells := Function.update grid.cells grid.cursor item
        cursor := grid.cursor + 1 }
  | .newline => { grid with cursor := (grid.cursor + width) / width * width }
  | .carriageReturn => { grid with cursor := grid.cursor / width * width }

/-- All rows move up by one, and the last one is cleared. -/
def scrolled
    (width height : Nat) (blank : α) (cells : Nat → α) : Nat → α :=
  fun place =>
    if place < (height - 1) * width then cells (place + width)
    else if place < height * width then blank
    else cells place

/-- The grid scrolls when its cursor is behind the last row. -/
def scroll
    (width height : Nat) (blank : α) (grid : TerminalGrid α) :
    TerminalGrid α :=
  if height * width ≤ grid.cursor then
    { cells := scrolled width height blank grid.cells
      cursor := (height - 1) * width }
  else
    grid

def step
    (width height : Nat) (blank : α) (grid : TerminalGrid α)
    (action : TerminalAction α) : TerminalGrid α :=
  (grid.act width action).scroll width height blank

/-- The grid shows a terminal from one of its rows on. -/
structure ShowsFrom
    (width height top : Nat) (terminal : Terminal α) (grid : TerminalGrid α) :
    Prop where
  cells : ∀ row < height, ∀ column < width,
    grid.cells (row * width + column) = terminal.sheet (top + row) column
  cursor : ∃ rows, terminal.row = top + rows ∧
    grid.cursor = rows * width + terminal.column

/-- The grid shows the last rows of a terminal. -/
def Shows
    (width height : Nat) (terminal : Terminal α) (grid : TerminalGrid α) :
    Prop :=
  grid.ShowsFrom width height (terminal.top height) terminal

section Shows

variable {width height top : Nat} {blank : α}
variable {terminal : Terminal α} {grid : TerminalGrid α}

theorem place_inj
    {row other column otherColumn : Nat}
    (inside : column < width)
    (otherInside : otherColumn < width)
    (same : row * width + column = other * width + otherColumn) :
    row = other ∧ column = otherColumn := by
  have rows : row = other := by
    have quotient := congrArg (· / width) same
    have positive := Nat.zero_lt_of_lt inside
    simpa only [Nat.mul_comm _ width, Nat.mul_add_div positive,
      Nat.div_eq_of_lt inside, Nat.div_eq_of_lt otherInside,
      Nat.add_zero] using quotient
  subst rows
  exact ⟨rfl, Nat.add_left_cancel same⟩

theorem place_div
    {row column : Nat}
    (inside : column < width) :
    (row * width + column) / width = row := by
  rw [Nat.mul_comm, Nat.mul_add_div (Nat.zero_lt_of_lt inside),
    Nat.div_eq_of_lt inside, Nat.add_zero]

/-- Before it scrolls the grid follows the terminal. -/
theorem ShowsFrom.act
    (shown : grid.ShowsFrom width height top terminal)
    (sound : terminal.Sound width blank)
    (action : TerminalAction α) :
    (grid.act width action).ShowsFrom width height top
      (terminal.step width action) := by
  obtain ⟨rows, isRow, isCursor⟩ := shown.cursor
  have inside := sound.column
  cases action with
  | put item =>
      constructor
      · intro row _ column columnInside
        simp only [TerminalGrid.act, Terminal.step, Terminal.put, isCursor]
        by_cases here : row = rows ∧ column = terminal.column
        · obtain ⟨rfl, rfl⟩ := here
          rw [Function.update_self, ← isRow, Function.update_self,
            Function.update_self]
        · have elsewhere : row * width + column ≠
              rows * width + terminal.column :=
            fun same => here (place_inj columnInside inside same)
          rw [Function.update_of_ne elsewhere, shown.cells row ‹_› column
            columnInside]
          by_cases sameRow : row = rows
          · have otherColumn : column ≠ terminal.column :=
              fun same => here ⟨sameRow, same⟩
            rw [sameRow, ← isRow, Function.update_self,
              Function.update_of_ne otherColumn]
          · rw [Function.update_of_ne (by omega)]
      · simp only [TerminalGrid.act, Terminal.step, Terminal.put, isCursor]
        split
        · refine ⟨rows + 1, by omega, ?_⟩
          rw [Nat.succ_mul]
          omega
        · exact ⟨rows, isRow, by omega⟩
  | newline =>
      refine ⟨shown.cells, rows + 1, ?_, ?_⟩
      · exact congrArg (· + 1) isRow
      · have moved : rows * width + terminal.column + width =
            (rows + 1) * width + terminal.column := by
          ring
        simp only [TerminalGrid.act, Terminal.step, isCursor, moved,
          place_div inside, Nat.add_zero]
  | carriageReturn =>
      refine ⟨shown.cells, rows, isRow, ?_⟩
      simp only [TerminalGrid.act, Terminal.step, isCursor, place_div inside,
        Nat.add_zero]

/-- Scrolling goes on to the next row of the terminal. -/
theorem ShowsFrom.scrolled
    (shown : grid.ShowsFrom width height top terminal)
    (positive : 0 < height)
    (behind : terminal.row = top + height)
    (first : terminal.column = 0)
    (empty : ∀ column, terminal.sheet terminal.row column = blank) :
    (TerminalGrid.mk (TerminalGrid.scrolled width height blank grid.cells)
      ((height - 1) * width)).ShowsFrom width height (top + 1) terminal := by
  obtain ⟨rows, rfl⟩ := Nat.exists_eq_succ_of_ne_zero positive.ne'
  refine ⟨fun row inRows column inside => ?_, rows, by omega, ?_⟩
  · simp only [TerminalGrid.scrolled, Nat.succ_sub_one]
    have inGrid : row * width + column < (rows + 1) * width := by
      have := Nat.mul_le_mul_right width (Nat.le_of_lt_succ inRows)
      rw [Nat.succ_mul]
      omega
    by_cases last : row = rows
    · have noRow : ¬ row * width + column < rows * width := by
        rw [last]
        omega
      have isRow : terminal.row = top + 1 + rows := by omega
      rw [if_neg noRow, if_pos inGrid, last, ← isRow, empty]
    · have earlier : row * width + column < rows * width := by
        have := Nat.mul_le_mul_right width (show row + 1 ≤ rows by omega)
        rw [Nat.succ_mul] at this
        omega
      have next : row * width + column + width = (row + 1) * width + column := by
        ring
      rw [if_pos earlier, next, shown.cells (row + 1) (by omega) column inside]
      congr 1
      omega
  · rw [first, Nat.succ_sub_one, Nat.add_zero]

/-- A grid that shows the last rows of a terminal still does so. -/
theorem Shows.step
    (shown : grid.Shows width height terminal)
    (sound : terminal.Sound width blank)
    (positive : 0 < height)
    (action : TerminalAction α) :
    (grid.step width height blank action).Shows width height
      (terminal.step width action) := by
  have acted := ShowsFrom.act shown sound action
  have next := sound.step action
  obtain ⟨rows, isRow, isCursor⟩ := acted.cursor
  have inside := next.column
  rw [TerminalGrid.step, TerminalGrid.scroll, Shows]
  rw [Terminal.top] at isRow acted
  by_cases behind : height ≤ rows
  · obtain moved | ⟨moved, first, empty⟩ := sound.step_row action
    · omega
    have isLast : rows = height := by omega
    have left : height * width ≤ (grid.act width action).cursor := by
      rw [isCursor, isLast]
      exact Nat.le_add_right _ _
    have isTop : (terminal.step width action).top height =
        terminal.row + 1 - height + 1 := by
      rw [Terminal.top]
      omega
    rw [if_pos left, isTop]
    rw [← moved] at empty
    exact acted.scrolled positive (by omega) first empty
  · have moved := sound.step_row action
    have within : ¬ height * width ≤ (grid.act width action).cursor := by
      have := Nat.mul_le_mul_right width (Nat.lt_of_not_le behind)
      rw [Nat.succ_mul] at this
      omega
    have isTop : (terminal.step width action).top height =
        terminal.row + 1 - height := by
      rw [Terminal.top]
      omega
    rw [if_neg within, isTop]
    exact acted

theorem shows_fresh
    (positive : 0 < height)
    (clear : ∀ place < height * width, grid.cells place = blank)
    (atStart : grid.cursor = 0) :
    grid.Shows width height (Terminal.fresh blank) := by
  have isTop : (Terminal.fresh blank).top height = 0 := by
    change 0 + 1 - height = 0
    omega
  rw [Shows, isTop]
  refine ⟨fun row inRows column inside => clear _ ?_, 0, rfl, ?_⟩
  · have := Nat.mul_le_mul_right width (Nat.succ_le_of_lt inRows)
    rw [Nat.succ_mul] at this
    omega
  · rw [atStart, Nat.zero_mul]
    rfl

/-- The cursor is in the grid. -/
theorem Shows.cursor_lt
    (shown : grid.Shows width height terminal)
    (sound : terminal.Sound width blank) :
    grid.cursor < height * width := by
  obtain ⟨rows, isRow, isCursor⟩ := shown.cursor
  have inside := sound.column
  rw [Terminal.top] at isRow
  have inRows := Nat.mul_le_mul_right width (show rows + 1 ≤ height by omega)
  rw [Nat.succ_mul] at inRows
  omega

end Shows

end TerminalGrid
