import MatrixOS.TextScreen
import MatrixOS.VfsAccess

namespace MatrixOS

/-!
# Tabs and strings

A tab scrolls after its four cells and not after each of them, and `fb_puts`
writes the end of its string as well.
-/

/-- The cells and the cursor are the same. -/
structure SameText (left right : Screen) : Prop where
  fb : left.fb = right.fb
  cursorPos : left.cursorPos = right.cursorPos

/-! ## The hardware cursor -/

namespace Screen

def withHardwareCursor (hardwareCursor : Nat) (screen : Screen) : Screen :=
  { screen with hardwareCursor := hardwareCursor }

end Screen

section HardwareCursor

variable {hardwareCursor : Nat} {screen : Screen}

theorem fbWriteCell_withHardwareCursor (pos : Nat) (c fg bg : UInt8) :
    fbWriteCell pos c fg bg (screen.withHardwareCursor hardwareCursor) =
      (fbWriteCell pos c fg bg screen).withHardwareCursor hardwareCursor := by
  rw [fbWriteCell, fbWriteCell]
  split <;> rfl

theorem fbClearCells_withHardwareCursor (start count : Nat) :
    fbClearCells start count (screen.withHardwareCursor hardwareCursor) =
      (fbClearCells start count screen).withHardwareCursor hardwareCursor := by
  induction count with
  | zero =>
      rfl
  | succ count inductionHypothesis =>
      rw [fbClearCells, inductionHypothesis, fbWriteCell_withHardwareCursor]
      rfl

theorem fbMoveCells_withHardwareCursor (count : Nat) :
    fbMoveCells count (screen.withHardwareCursor hardwareCursor) =
      (fbMoveCells count screen).withHardwareCursor hardwareCursor := by
  induction count with
  | zero =>
      rfl
  | succ count inductionHypothesis =>
      rw [fbMoveCells, inductionHypothesis]
      rfl

theorem fbScroll_withHardwareCursor :
    fbScroll (screen.withHardwareCursor hardwareCursor) =
      (fbScroll screen).withHardwareCursor hardwareCursor := by
  rw [fbScroll, fbMoveCells_withHardwareCursor, fbClearLine,
    if_pos (by decide), fbClearCells_withHardwareCursor, fbScroll, fbClearLine,
    if_pos (by decide)]

theorem fbWriteAtCursor_withHardwareCursor (c : UInt8) :
    fbWriteAtCursor c (screen.withHardwareCursor hardwareCursor) =
      (fbWriteAtCursor c screen).withHardwareCursor hardwareCursor := by
  rw [fbWriteAtCursor, fbWriteCell_withHardwareCursor]
  rfl

theorem fbWriteByte_withHardwareCursor (c : UInt8) :
    fbWriteByte c (screen.withHardwareCursor hardwareCursor) =
      (fbWriteByte c screen).withHardwareCursor hardwareCursor := by
  rw [fbWriteByte, fbWriteByte]
  split
  · rfl
  · split
    · simp only [fbWriteAtCursor_withHardwareCursor]
    · split
      · rfl
      · split
        · by_cases behind : 0 < screen.cursorPos
          · have also :
                0 < (screen.withHardwareCursor hardwareCursor).cursorPos :=
              behind
            rw [if_pos behind, if_pos also]
            exact @fbWriteCell_withHardwareCursor hardwareCursor
              { screen with cursorPos := screen.cursorPos - 1 } _ _ _ _
          · have also :
                ¬ 0 < (screen.withHardwareCursor hardwareCursor).cursorPos :=
              behind
            rw [if_neg behind, if_neg also]
        · exact fbWriteAtCursor_withHardwareCursor c

/-- What is written does not depend on the hardware cursor. -/
theorem fbWriteRound_withHardwareCursor (c : UInt8) :
    fbWriteRound (screen.withHardwareCursor hardwareCursor) c =
      (fbWriteRound screen c).withHardwareCursor hardwareCursor := by
  rw [fbWriteRound, fbWriteByte_withHardwareCursor,
    fbScroll_withHardwareCursor, fbWriteRound]
  generalize fbScroll (fbWriteByte c screen) = scrolled
  split
  · rename_i left
    have before : 80 * 25 ≤ (fbWriteByte c screen).cursorPos := left
    rw [if_pos before]
    rfl
  · rename_i within
    have before : ¬ 80 * 25 ≤ (fbWriteByte c screen).cursorPos := within
    rw [if_neg before]

/-- Characters that are put one at a time. -/
theorem foldl_fbPutchar (str : List UInt8) (screen : Screen) :
    ∃ hardwareCursor, str.foldl (fun screen c => fbPutchar c screen) screen =
      (str.foldl fbWriteRound screen).withHardwareCursor hardwareCursor := by
  induction str using List.reverseRecOn with
  | nil =>
      exact ⟨screen.hardwareCursor, rfl⟩
  | append_singleton str c inductionHypothesis =>
      obtain ⟨hardwareCursor, written⟩ := inductionHypothesis
      rw [List.foldl_append, List.foldl_append, written]
      obtain ⟨last, result⟩ := fbWrite_eq [c]
        ((str.foldl fbWriteRound screen).withHardwareCursor hardwareCursor)
      refine ⟨last, ?_⟩
      rw [List.foldl_cons, List.foldl_nil, fbPutchar, result, List.foldl_cons,
        List.foldl_nil, fbWriteRound_withHardwareCursor]
      rfl

end HardwareCursor

/-! ## Tabs -/

section Tab

variable {screen : Screen}

/-- Scrolling at the end of a round. -/
def scrollPast (screen : Screen) : Screen :=
  if 80 * 25 ≤ screen.cursorPos then
    { fbScroll screen with cursorPos := 80 * 24 }
  else
    screen

theorem fbWriteRound_space :
    fbWriteRound screen 32 = scrollPast (fbWriteAtCursor 32 screen) :=
  rfl

theorem fbWriteRound_tab :
    fbWriteRound screen 9 =
      scrollPast (fbWriteAtCursor 32 (fbWriteAtCursor 32
        (fbWriteAtCursor 32 (fbWriteAtCursor 32 screen)))) :=
  rfl

theorem fbWriteAtCursor_cursorPos (c : UInt8) :
    (fbWriteAtCursor c screen).cursorPos = screen.cursorPos + 1 :=
  rfl

theorem scrollPast_cursorPos :
    (scrollPast screen).cursorPos =
      if 80 * 25 ≤ screen.cursorPos then 80 * 24 else screen.cursorPos := by
  rw [scrollPast]
  split <;> rfl

/-- Where the cursor is after an item at the cursor. -/
def nextCursor (cursorPos : Nat) : Nat :=
  if 80 * 25 ≤ cursorPos + 1 then 80 * 24 else cursorPos + 1

theorem fbWriteRound_space_cursorPos :
    (fbWriteRound screen 32).cursorPos = nextCursor screen.cursorPos := by
  rw [fbWriteRound_space, scrollPast_cursorPos, fbWriteAtCursor_cursorPos]
  rfl

/-- A space with another cell behind it. -/
theorem fbWriteRound_space_of_lt
    (room : screen.cursorPos + 1 < 80 * 25) :
    fbWriteRound screen 32 = fbWriteAtCursor 32 screen := by
  rw [fbWriteRound_space, scrollPast, fbWriteAtCursor_cursorPos,
    if_neg (Nat.not_le.mpr room)]

theorem fbWriteRound_tab_cursorPos :
    (fbWriteRound screen 9).cursorPos =
      if 80 * 25 ≤ screen.cursorPos + 4 then 80 * 24
      else screen.cursorPos + 4 := by
  rw [fbWriteRound_tab, scrollPast_cursorPos]
  rfl

/-- A tab with its four cells on the screen. -/
theorem tab_eq_spaces
    (fits : screen.cursorPos + 4 ≤ 80 * 25) :
    SameText (fbWrite [9] screen) (fbWrite [32, 32, 32, 32] screen) := by
  obtain ⟨_, tab⟩ := fbWrite_eq [9] screen
  obtain ⟨_, spaces⟩ := fbWrite_eq [32, 32, 32, 32] screen
  have first := @fbWriteRound_space_of_lt screen (by omega)
  have second := @fbWriteRound_space_of_lt (fbWriteAtCursor 32 screen) (by
    rw [fbWriteAtCursor_cursorPos]
    omega)
  have third := @fbWriteRound_space_of_lt
    (fbWriteAtCursor 32 (fbWriteAtCursor 32 screen)) (by
      rw [fbWriteAtCursor_cursorPos, fbWriteAtCursor_cursorPos]
      omega)
  rw [tab, spaces]
  simp only [List.foldl_cons, List.foldl_nil]
  rw [first, second, third, fbWriteRound_space, fbWriteRound_tab]
  exact ⟨rfl, rfl⟩

/-- A tab at the end of the screen scrolls before its last cells. -/
theorem tab_ne_spaces
    (inside : screen.cursorPos < 80 * 25)
    (outside : ¬ screen.cursorPos + 4 ≤ 80 * 25) :
    ¬ SameText (fbWrite [9] screen) (fbWrite [32, 32, 32, 32] screen) := by
  intro same
  obtain ⟨_, tab⟩ := fbWrite_eq [9] screen
  obtain ⟨_, spaces⟩ := fbWrite_eq [32, 32, 32, 32] screen
  have cursors := same.cursorPos
  rw [tab, spaces] at cursors
  simp only [List.foldl_cons, List.foldl_nil, fbWriteRound_tab_cursorPos,
    fbWriteRound_space_cursorPos] at cursors
  have near : screen.cursorPos = 1997 ∨ screen.cursorPos = 1998 ∨
      screen.cursorPos = 1999 := by
    omega
  rcases near with here | here | here <;>
    rw [here] at cursors <;>
    exact absurd cursors (by decide)

/-- A tab is four spaces exactly when its four cells are on the screen. -/
theorem tab_eq_spaces_iff
    (inside : screen.cursorPos < 80 * 25) :
    SameText (fbWrite [9] screen) (fbWrite [32, 32, 32, 32] screen) ↔
      screen.cursorPos + 4 ≤ 80 * 25 := by
  constructor
  · intro same
    by_contra outside
    exact tab_ne_spaces inside outside same
  · exact tab_eq_spaces

/-- At the beginning of the screen. -/
theorem tab_eq_spaces_zero :
    ∃ screen : Screen, screen.cursorPos = 0 ∧
      SameText (fbWrite [9] screen) (fbWrite [32, 32, 32, 32] screen) := by
  have iff := @tab_eq_spaces_iff ⟨fun _ => 0, 0, 7, 0, 0⟩ (by decide)
  exact ⟨_, rfl, iff.mpr (by decide)⟩

/-- Three cells before the end of the screen the tab loses a cell. -/
theorem not_tab_eq_spaces :
    ¬ SameText (fbWrite [9] ⟨fun _ => 0, 1997, 7, 0, 0⟩)
      (fbWrite [32, 32, 32, 32] ⟨fun _ => 0, 1997, 7, 0, 0⟩) :=
  tab_ne_spaces (by decide) (by decide)

end Tab

/-! ## Strings -/

section Strings

variable {str rest : List UInt8} {screen : Screen}

theorem fbStrlen_eq
    (noNul : 0 ∉ str)
    (rest : List UInt8) :
    fbStrlen (str ++ 0 :: rest) = str.length := by
  induction str with
  | nil =>
      rfl
  | cons c str inductionHypothesis =>
      rw [List.mem_cons, not_or] at noNul
      rw [List.cons_append, fbStrlen, if_neg (Ne.symm noNul.1),
        inductionHypothesis noNul.2, List.length_cons]

/-- `fb_puts` writes the string and its end. -/
theorem fbPuts_eq
    (noNul : 0 ∉ str)
    (rest : List UInt8)
    (screen : Screen) :
    fbPuts (some (str ++ 0 :: rest)) screen = fbWrite (str ++ [0]) screen := by
  have taken : (str ++ 0 :: rest).take (str.length + 1) = str ++ [0] := by
    rw [List.take_append]
    simp
  rw [fbPuts, fbStrlen_eq noNul, taken]

/-- The cursor moves for the end of the string. -/
theorem fbWriteRound_nul_cursorPos (screen : Screen) :
    (fbWriteRound screen 0).cursorPos ≠ screen.cursorPos := by
  have moved : (fbWriteRound screen 0).cursorPos = nextCursor screen.cursorPos := by
    change (scrollPast (fbWriteAtCursor 0 screen)).cursorPos = _
    rw [scrollPast_cursorPos, fbWriteAtCursor_cursorPos]
    rfl
  rw [moved, nextCursor]
  split <;> omega

/-- The cursor is not where the characters of the string leave it. -/
theorem fbPuts_cursorPos_ne
    (noNul : 0 ∉ str)
    (rest : List UInt8)
    (screen : Screen) :
    (fbPuts (some (str ++ 0 :: rest)) screen).cursorPos ≠
      (str.foldl (fun screen c => fbPutchar c screen) screen).cursorPos := by
  obtain ⟨_, put⟩ := foldl_fbPutchar str screen
  obtain ⟨_, puts⟩ := fbWrite_eq (str ++ [0]) screen
  rw [fbPuts_eq noNul, puts, put, List.foldl_append]
  exact fbWriteRound_nul_cursorPos _

/-- What `vfs_write` to the standard output leaves on the screen. -/
theorem vfsWrite_stdout
    {state : VfsState}
    (isOpen : (state.openFiles 1).refCount ≠ 0)
    (writable : (state.openFiles 1).flags &&& oWronly ≠ 0)
    (buf count : Nat) :
    (vfsWrite 1 buf count state).2.screen =
      (bufferBytes state.mem buf count).foldl
        (fun screen c => fbPutchar c screen) state.screen := by
  have good : ¬ BadFd 1 state := by
    simp [BadFd, maxOpenFiles, isOpen]
  have allowed : ¬ ((state.openFiles (1 : Int).toNat).flags &&& oWronly = 0 ∧
      (state.openFiles (1 : Int).toNat).flags &&& oRdwr = 0) :=
    fun refused => writable refused.1
  simp only [vfsWrite, if_neg good, if_neg allowed]
  rfl

/--
`fb_puts` never leaves the same text as `fb_putchar` for each character, which
is what `vfs_write` to the standard output does.
-/
theorem fbPuts_ne_fbPutchar
    (noNul : 0 ∉ str)
    (rest : List UInt8)
    (screen : Screen) :
    ¬ SameText (fbPuts (some (str ++ 0 :: rest)) screen)
        (str.foldl (fun screen c => fbPutchar c screen) screen) ∧
      ∀ (state : VfsState) (buf : Nat),
        state.screen = screen →
        bufferBytes state.mem buf str.length = str →
        (state.openFiles 1).refCount ≠ 0 →
        (state.openFiles 1).flags &&& oWronly ≠ 0 →
          (vfsWrite 1 buf str.length state).2.screen =
            str.foldl (fun screen c => fbPutchar c screen) screen := by
  constructor
  · intro same
    exact fbPuts_cursorPos_ne noNul rest screen same.cursorPos
  · intro state buf isScreen isBuffer isOpen writable
    rw [vfsWrite_stdout isOpen writable, isBuffer, isScreen]

/-- The empty string moves the cursor. -/
theorem fbPuts_ne_fbPutchar_nil :
    ∃ screen : Screen, ¬ SameText (fbPuts (some (cstr "" ++ 0 :: [])) screen)
      screen := by
  have noNul : 0 ∉ cstr "" := by decide
  exact ⟨_, (fbPuts_ne_fbPutchar noNul [] ⟨fun _ => 0, 0, 7, 0, 0⟩).1⟩

/-- After two characters the cursor is at the third place and not at the second. -/
theorem not_fbPuts_eq_fbPutchar :
    ¬ SameText (fbPuts (some (cstr "hi" ++ [0])) ⟨fun _ => 0, 0, 7, 0, 0⟩)
      (fbPutchar 0x69 (fbPutchar 0x68 ⟨fun _ => 0, 0, 7, 0, 0⟩)) := by
  have noNul : 0 ∉ cstr "hi" := by decide
  exact fun same => fbPuts_cursorPos_ne noNul [] _ same.cursorPos

end Strings

end MatrixOS
