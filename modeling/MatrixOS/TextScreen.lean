import MatrixOS.Console
import MatrixOS.Terminal

namespace MatrixOS

/-!
# The screen as a window

The cells of the screen and its cursor are a grid of 25 rows.  Without tabs and
backspaces it shows the last rows of a terminal on a sheet of 80 columns.
-/

/-! ## Cells -/

/-- The second byte of a cell. -/
def attributeByte (fg bg : UInt8) : UInt8 :=
  ((fg &&& 0x0F) <<< 4) ||| (bg &&& 0x0F)

namespace Screen

variable (screen : Screen)

/-- A cell is a character and its colours. -/
def cell (pos : Nat) : UInt8 × UInt8 :=
  (screen.fb (pos * 2), screen.fb (pos * 2 + 1))

/-- A character in the current colours. -/
def coloured (c : UInt8) : UInt8 × UInt8 :=
  (c, attributeByte screen.currentFg screen.currentBg)

def grid : TerminalGrid (UInt8 × UInt8) where
  cells := screen.cell
  cursor := screen.cursorPos

/-- Two screens differ in their cells at most. -/
structure OnlyCells (before after : Screen) : Prop where
  cursorPos : after.cursorPos = before.cursorPos
  currentFg : after.currentFg = before.currentFg
  currentBg : after.currentBg = before.currentBg
  hardwareCursor : after.hardwareCursor = before.hardwareCursor

namespace OnlyCells

variable {screen} {next last : Screen}

theorem refl (screen : Screen) : OnlyCells screen screen :=
  ⟨rfl, rfl, rfl, rfl⟩

theorem trans
    (first : OnlyCells screen next)
    (second : OnlyCells next last) :
    OnlyCells screen last where
  cursorPos := second.cursorPos.trans first.cursorPos
  currentFg := second.currentFg.trans first.currentFg
  currentBg := second.currentBg.trans first.currentBg
  hardwareCursor := second.hardwareCursor.trans first.hardwareCursor

theorem coloured
    (same : OnlyCells screen next)
    (c : UInt8) :
    next.coloured c = screen.coloured c := by
  rw [Screen.coloured, same.currentFg, same.currentBg]
  rfl

end OnlyCells

end Screen

section Cells

variable {screen : Screen}

theorem fbWriteCell_onlyCells (pos : Nat) (c fg bg : UInt8) :
    screen.OnlyCells (fbWriteCell pos c fg bg screen) := by
  rw [fbWriteCell]
  split
  · exact ⟨rfl, rfl, rfl, rfl⟩
  · exact .refl screen

theorem fbWriteCell_cell (pos : Nat) (c fg bg : UInt8) :
    (fbWriteCell pos c fg bg screen).cell =
      if pos < 80 * 25 then
        Function.update screen.cell pos (c, attributeByte fg bg)
      else screen.cell := by
  rw [fbWriteCell]
  split
  · funext other
    by_cases same : other = pos
    · rw [same, Function.update_self]
      simp [Screen.cell, attributeByte]
    · have even : other * 2 ≠ pos * 2 := by omega
      have odd : other * 2 + 1 ≠ pos * 2 := by omega
      have next : other * 2 ≠ pos * 2 + 1 := by omega
      simp [Screen.cell, same, odd, next]
  · rfl

theorem fbClearCells_onlyCells (start count : Nat) :
    screen.OnlyCells (fbClearCells start count screen) := by
  induction count with
  | zero =>
      exact .refl screen
  | succ count inductionHypothesis =>
      exact inductionHypothesis.trans (fbWriteCell_onlyCells _ _ _ _)

theorem fbClearCells_cell
    {start count : Nat}
    (inScreen : start + count ≤ 80 * 25)
    (pos : Nat) :
    (fbClearCells start count screen).cell pos =
      if start ≤ pos ∧ pos < start + count then screen.coloured 32
      else screen.cell pos := by
  induction count with
  | zero =>
      rw [if_neg (by omega)]
      rfl
  | succ count inductionHypothesis =>
      have kept := @fbClearCells_onlyCells screen start count
      rw [fbClearCells, fbWriteCell_cell, if_pos (by omega)]
      by_cases last : pos = start + count
      · rw [last, Function.update_self, if_pos (by omega)]
        exact kept.coloured 32
      · rw [Function.update_of_ne last, inductionHypothesis (by omega)]
        simp only [show pos < start + (count + 1) ↔ pos < start + count by omega]

theorem fbMoveCells_onlyCells (count : Nat) :
    screen.OnlyCells (fbMoveCells count screen) := by
  induction count with
  | zero =>
      exact .refl screen
  | succ count inductionHypothesis =>
      exact inductionHypothesis.trans ⟨rfl, rfl, rfl, rfl⟩

/-- The cells that have been moved are not read again. -/
theorem fbMoveCells_cell (count pos : Nat) :
    (fbMoveCells count screen).cell pos =
      if pos < count then screen.cell (pos + 80) else screen.cell pos := by
  induction count generalizing pos with
  | zero =>
      rfl
  | succ count inductionHypothesis =>
      have source := inductionHypothesis (80 + count)
      rw [if_neg (by omega)] at source
      by_cases last : pos = count
      · have next : count + 80 = 80 + count := Nat.add_comm count 80
        have odd : (80 + count) * 2 + 1 ≠ count * 2 := by omega
        rw [last, if_pos (by omega), next, ← source]
        simp [fbMoveCells, Screen.cell, odd]
      · have unchanged : (fbMoveCells (count + 1) screen).cell pos =
            (fbMoveCells count screen).cell pos := by
          have even : pos * 2 ≠ count * 2 + 1 := by omega
          have odd : pos * 2 + 1 ≠ count * 2 := by omega
          simp [fbMoveCells, Screen.cell, last, even, odd]
        rw [unchanged, inductionHypothesis]
        simp only [show pos < count + 1 ↔ pos < count by omega]

theorem fbScroll_onlyCells : screen.OnlyCells (fbScroll screen) :=
  (fbMoveCells_onlyCells _).trans (fbClearCells_onlyCells _ _)

/-- `fb_scroll` moves the rows up and clears the last one. -/
theorem fbScroll_cell :
    (fbScroll screen).cell =
      TerminalGrid.scrolled 80 25 (screen.coloured 32) screen.cell := by
  have kept := @fbMoveCells_onlyCells screen (80 * 25 - 80)
  funext pos
  rw [fbScroll, fbClearLine, if_pos (by decide),
    fbClearCells_cell (by decide), kept.coloured, fbMoveCells_cell,
    TerminalGrid.scrolled]
  by_cases moved : pos < 80 * 25 - 80
  · rw [if_neg (by omega), if_pos moved, if_pos (by omega)]
  · rw [if_neg moved, if_neg (show ¬ pos < (25 - 1) * 80 by omega)]
    simp only [show (24 * 80 ≤ pos ∧ pos < 24 * 80 + 80) ↔ pos < 25 * 80 by
      omega]

end Cells

/-! ## Writing -/

section Write

variable {screen : Screen}

/-- The colours of a screen have not been changed. -/
structure SameColours (before after : Screen) : Prop where
  currentFg : after.currentFg = before.currentFg
  currentBg : after.currentBg = before.currentBg

theorem SameColours.trans
    {before next after : Screen}
    (first : SameColours before next)
    (second : SameColours next after) :
    SameColours before after :=
  ⟨second.currentFg.trans first.currentFg,
    second.currentBg.trans first.currentBg⟩

theorem SameColours.coloured
    {next : Screen}
    (same : SameColours screen next)
    (c : UInt8) :
    next.coloured c = screen.coloured c := by
  rw [Screen.coloured, same.currentFg, same.currentBg]
  rfl

theorem fbWriteAtCursor_sameColours (c : UInt8) (screen : Screen) :
    SameColours screen (fbWriteAtCursor c screen) := by
  have cells := @fbWriteCell_onlyCells screen screen.cursorPos c
    screen.currentFg screen.currentBg
  exact ⟨cells.currentFg, cells.currentBg⟩

theorem fbWriteByte_sameColours (c : UInt8) (screen : Screen) :
    SameColours screen (fbWriteByte c screen) := by
  have same : SameColours screen screen := ⟨rfl, rfl⟩
  have written := fbWriteAtCursor_sameColours
  rw [fbWriteByte]
  split
  · exact ⟨rfl, rfl⟩
  · split
    · exact (((written 32 _).trans (written 32 _)).trans (written 32 _)).trans
        (written 32 _)
    · split
      · exact ⟨rfl, rfl⟩
      · split
        · split
          · have cells := @fbWriteCell_onlyCells
              { screen with cursorPos := screen.cursorPos - 1 }
              (screen.cursorPos - 1) 32 screen.currentFg screen.currentBg
            exact ⟨cells.currentFg, cells.currentBg⟩
          · exact same
        · exact written c screen

/-- The round scrolls, or ends with the byte. -/
theorem fbWriteRound_sameColours (screen : Screen) (c : UInt8) :
    SameColours screen (fbWriteRound screen c) := by
  have byte := fbWriteByte_sameColours c screen
  have cells := @fbScroll_onlyCells (fbWriteByte c screen)
  rw [fbWriteRound]
  generalize fbScroll (fbWriteByte c screen) = scrolled at cells ⊢
  split
  · exact byte.trans ⟨cells.currentFg, cells.currentBg⟩
  · exact byte

theorem fbWriteAtCursor_grid
    (inside : screen.cursorPos < 80 * 25)
    (c : UInt8) :
    (fbWriteAtCursor c screen).grid =
      screen.grid.act 80 (.put (screen.coloured c)) := by
  have cells := @fbWriteCell_cell screen screen.cursorPos c screen.currentFg
    screen.currentBg
  rw [if_pos inside] at cells
  rw [fbWriteAtCursor]
  generalize fbWriteCell screen.cursorPos c screen.currentFg screen.currentBg
    screen = written at cells ⊢
  exact TerminalGrid.ext cells rfl

/-- What a terminal does for a byte that is neither a tab nor a backspace. -/
def terminalAction (screen : Screen) (c : UInt8) :
    TerminalAction (UInt8 × UInt8) :=
  if c = 10 then .newline
  else if c = 13 then .carriageReturn
  else .put (screen.coloured c)

theorem fbWriteByte_grid
    (inside : screen.cursorPos < 80 * 25)
    {c : UInt8}
    (noTab : c ≠ 9)
    (noBackspace : c ≠ 8) :
    (fbWriteByte c screen).grid =
      screen.grid.act 80 (terminalAction screen c) := by
  simp only [fbWriteByte, terminalAction, if_neg noTab, if_neg noBackspace]
  split
  · rfl
  · split
    · rfl
    · exact fbWriteAtCursor_grid inside c

/-- A round of `fb_write` is a step of the grid. -/
theorem fbWriteRound_grid
    (inside : screen.cursorPos < 80 * 25)
    {c : UInt8}
    (noTab : c ≠ 9)
    (noBackspace : c ≠ 8) :
    (fbWriteRound screen c).grid =
      screen.grid.step 80 25 (screen.coloured 32) (terminalAction screen c) := by
  have byte := fbWriteByte_grid inside noTab noBackspace
  have colours := (fbWriteByte_sameColours c screen).coloured 32
  rw [TerminalGrid.step, ← byte, TerminalGrid.scroll, fbWriteRound]
  generalize fbWriteByte c screen = next at colours ⊢
  by_cases left : 80 * 25 ≤ next.cursorPos
  · have behind : 25 * 80 ≤ next.grid.cursor := left
    have cells := @fbScroll_cell next
    rw [if_pos left, if_pos behind, ← colours]
    generalize fbScroll next = scrolled at cells ⊢
    exact TerminalGrid.ext cells rfl
  · have within : ¬ 25 * 80 ≤ next.grid.cursor := left
    rw [if_neg left, if_neg within]

/-- The screen after a sequence of calls of `fb_write`. -/
def fbWrites (calls : List (List UInt8)) (screen : Screen) : Screen :=
  calls.foldl (fun screen buf => fbWrite buf screen) screen

/-- The hardware cursor is the only thing that `fb_write` does at its end. -/
theorem fbWrite_eq (buf : List UInt8) (screen : Screen) :
    ∃ hardwareCursor, fbWrite buf screen =
      { buf.foldl fbWriteRound screen with
        hardwareCursor := hardwareCursor } := by
  rw [fbWrite]
  split
  · rename_i empty
    rw [empty]
    exact ⟨screen.hardwareCursor, rfl⟩
  · exact ⟨_, rfl⟩

/-- The end of `fb_clear`. -/
theorem fbSetCursor_grid
    {clear : Screen}
    (cells : screen.OnlyCells clear)
    (cleared : ∀ place < 25 * 80, clear.cell place = screen.coloured 32) :
    (∀ place < 25 * 80,
      (fbSetCursor 0 { clear with cursorPos := 0 }).grid.cells place =
        screen.coloured 32) ∧
    (fbSetCursor 0 { clear with cursorPos := 0 }).grid.cursor = 0 ∧
    SameColours screen (fbSetCursor 0 { clear with cursorPos := 0 }) :=
  ⟨cleared, rfl, cells.currentFg, cells.currentBg⟩

theorem fbClear_grid (screen : Screen) :
    (∀ place < 25 * 80, (fbClear screen).grid.cells place =
      screen.coloured 32) ∧
    (fbClear screen).grid.cursor = 0 ∧ SameColours screen (fbClear screen) := by
  rw [fbClear]
  refine fbSetCursor_grid (fbClearCells_onlyCells _ _) fun place below => ?_
  rw [fbClearCells_cell (by decide), if_pos (by omega)]

end Write

/-! ## The window -/

/-- The terminal that is written to instead of a screen. -/
def referenceTerminal (screen : Screen) (bytes : List UInt8) :
    Terminal (UInt8 × UInt8) :=
  Terminal.after 80 (screen.coloured 32) (bytes.map (terminalAction screen))

/-- The screen shows the last 25 rows of a terminal, and its cursor. -/
structure IsWindow
    (terminal : Terminal (UInt8 × UInt8)) (screen : Screen) : Prop where
  cells : ∀ row < 25, ∀ column < 80,
    screen.cell (row * 80 + column) = terminal.window 25 row column
  cursorPos : screen.cursorPos =
    (terminal.row - terminal.top 25) * 80 + terminal.column

/-- A screen follows the terminal of the bytes written so far. -/
structure Follows
    (initial : Screen) (bytes : List UInt8) (screen : Screen) : Prop where
  colours : SameColours initial screen
  sound : (referenceTerminal initial bytes).Sound 80 (initial.coloured 32)
  shown : screen.grid.Shows 80 25 (referenceTerminal initial bytes)

section Window

variable {initial screen : Screen} {bytes : List UInt8}

theorem Follows.inside (follows : Follows initial bytes screen) :
    screen.cursorPos < 80 * 25 :=
  follows.shown.cursor_lt follows.sound

theorem Follows.isWindow (follows : Follows initial bytes screen) :
    IsWindow (referenceTerminal initial bytes) screen := by
  refine ⟨follows.shown.cells, ?_⟩
  obtain ⟨rows, isRow, isCursor⟩ := follows.shown.cursor
  have same : (referenceTerminal initial bytes).row -
      (referenceTerminal initial bytes).top 25 = rows := by
    omega
  rw [same]
  exact isCursor

theorem follows_fbClear (screen : Screen) :
    Follows screen [] (fbClear screen) := by
  obtain ⟨clear, atStart, colours⟩ := fbClear_grid screen
  have empty : referenceTerminal screen [] =
      Terminal.fresh (screen.coloured 32) := rfl
  refine ⟨colours, ?_, ?_⟩
  · rw [empty]
    exact Terminal.fresh_sound (by decide)
  · rw [empty]
    exact TerminalGrid.shows_fresh (by decide) clear atStart

/-- One byte on the screen is one step of the terminal. -/
theorem Follows.round
    (follows : Follows initial bytes screen)
    {c : UInt8}
    (ordinary : c ≠ 9 ∧ c ≠ 8) :
    Follows initial (bytes ++ [c]) (fbWriteRound screen c) := by
  have round := fbWriteRound_grid follows.inside ordinary.1 ordinary.2
  have action : terminalAction screen c = terminalAction initial c := by
    rw [terminalAction, follows.colours.coloured, terminalAction]
  have next : referenceTerminal initial (bytes ++ [c]) =
      (referenceTerminal initial bytes).step 80 (terminalAction initial c) := by
    simp [referenceTerminal, Terminal.after]
  rw [action, follows.colours.coloured] at round
  refine ⟨follows.colours.trans (fbWriteRound_sameColours screen c), ?_, ?_⟩
  · rw [next]
    exact follows.sound.step _
  · rw [next, round]
    exact follows.shown.step follows.sound (by decide) _

theorem Follows.rounds
    (follows : Follows initial bytes screen)
    {buf : List UInt8}
    (ordinary : ∀ c ∈ buf, c ≠ 9 ∧ c ≠ 8) :
    Follows initial (bytes ++ buf) (buf.foldl fbWriteRound screen) := by
  induction buf generalizing bytes screen with
  | nil =>
      rwa [List.append_nil]
  | cons c buf inductionHypothesis =>
      have first := follows.round (ordinary c (by simp))
      have rest := inductionHypothesis first fun other member =>
        ordinary other (by simp [member])
      rwa [List.append_assoc] at rest

/-- A call of `fb_write` ends with the hardware cursor. -/
theorem Follows.fbWrite
    (follows : Follows initial bytes screen)
    {buf : List UInt8}
    (ordinary : ∀ c ∈ buf, c ≠ 9 ∧ c ≠ 8) :
    Follows initial (bytes ++ buf) (fbWrite buf screen) := by
  have rounds := follows.rounds ordinary
  obtain ⟨hardwareCursor, result⟩ := fbWrite_eq buf screen
  rw [result]
  exact ⟨⟨rounds.colours.currentFg, rounds.colours.currentBg⟩, rounds.sound,
    rounds.shown⟩

theorem Follows.fbWrites
    (follows : Follows initial bytes screen)
    {calls : List (List UInt8)}
    (ordinary : ∀ c ∈ calls.flatten, c ≠ 9 ∧ c ≠ 8) :
    Follows initial (bytes ++ calls.flatten) (fbWrites calls screen) := by
  induction calls generalizing bytes screen with
  | nil =>
      rwa [List.flatten_nil, List.append_nil]
  | cons buf calls inductionHypothesis =>
      rw [List.flatten_cons] at ordinary ⊢
      have first := follows.fbWrite fun c member =>
        ordinary c (List.mem_append_left _ member)
      have rest := inductionHypothesis first fun c member =>
        ordinary c (List.mem_append_right _ member)
      rwa [List.append_assoc] at rest

end Window

/--
A text without tabs and backspaces is written on a cleared screen by any calls
of `fb_write`: the screen is the window of a terminal, also when only a part of
the last buffer has been written.
-/
theorem textScreen
    (screen : Screen)
    (calls : List (List UInt8))
    (part : List UInt8)
    (ordinary : ∀ c ∈ calls.flatten ++ part, c ≠ 9 ∧ c ≠ 8) :
    IsWindow (referenceTerminal screen (calls.flatten ++ part))
        (part.foldl fbWriteRound (fbWrites calls (fbClear screen))) ∧
      (part.foldl fbWriteRound (fbWrites calls (fbClear screen))).cursorPos <
        80 * 25 := by
  have written := (follows_fbClear screen).fbWrites fun c member =>
    ordinary c (List.mem_append_left part member)
  have follows := written.rounds fun c member =>
    ordinary c (List.mem_append_right calls.flatten member)
  exact ⟨follows.isWindow, follows.inside⟩

/-- Two calls, the second one in the middle of a row. -/
theorem textScreen_two :
    ∃ screen : Screen,
      IsWindow (referenceTerminal screen [0x61, 0x0A, 0x62, 0x63])
        (fbWrites [[0x61, 0x0A, 0x62], [0x63]] (fbClear screen)) := by
  have ordinary : ∀ c ∈ [[0x61, 0x0A, 0x62], [0x63]].flatten ++ ([] : List UInt8),
      c ≠ 9 ∧ c ≠ 8 := by
    intro c member
    simp only [List.flatten_cons, List.flatten_nil, List.append_nil,
      List.cons_append, List.nil_append, List.mem_cons, List.not_mem_nil,
      or_false] at member
    rcases member with rfl | rfl | rfl | rfl
    all_goals exact ⟨by decide, by decide⟩
  exact ⟨_, (textScreen ⟨fun _ => 0, 0, 7, 0, 0⟩ _ [] ordinary).1⟩

end MatrixOS
