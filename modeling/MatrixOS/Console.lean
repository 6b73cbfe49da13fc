import MatrixOS.RingBuffer
import MatrixOS.StringLib

namespace MatrixOS

/-!
# The console

The text screen of `drivers/fb.c` and the keyboard of `interrupts/keyboard.c`.
The messages on the serial port and the acknowledgement of the interrupt are
left out.
-/

/-! ## The screen -/

/-- The cells at `fb`, by byte, and the static variables of `fb.c`. -/
structure Screen where
  fb : Nat → UInt8
  cursorPos : Nat
  currentFg : UInt8
  currentBg : UInt8
  hardwareCursor : Nat

def fbWriteCell
    (pos : Nat) (c fg bg : UInt8) (screen : Screen) : Screen :=
  if pos < 80 * 25 then
    let index := pos * 2
    let colour := ((fg &&& 0x0F) <<< 4) ||| (bg &&& 0x0F)
    { screen with
      fb := Function.update (Function.update screen.fb index c)
        (index + 1) colour }
  else
    screen

/-- `fb_set_cursor` on the ports of the display controller. -/
def fbSetCursor (position : Nat) (screen : Screen) : Screen :=
  { screen with
    hardwareCursor := if 80 * 25 ≤ position then 80 * 25 - 1 else position }

/-- `count` cells from `start` on are cleared. -/
def fbClearCells (start : Nat) : (count : Nat) → Screen → Screen
  | 0, screen => screen
  | i + 1, screen =>
      let screen := fbClearCells start i screen
      fbWriteCell (start + i) 32 screen.currentFg screen.currentBg screen

def fbClear (screen : Screen) : Screen :=
  fbSetCursor 0 { fbClearCells 0 (80 * 25) screen with cursorPos := 0 }

def fbClearLine (line : Nat) (screen : Screen) : Screen :=
  if line < 25 then
    fbClearCells (line * 80) 80 screen
  else
    screen

/-- The loop of `fb_scroll`, by the number of cells moved so far. -/
def fbMoveCells : (count : Nat) → Screen → Screen
  | 0, screen => screen
  | i + 1, screen =>
      let screen := fbMoveCells i screen
      let srcIndex := (80 + i) * 2
      let dstIndex := i * 2
      let fb := Function.update screen.fb dstIndex (screen.fb srcIndex)
      { screen with
        fb := Function.update fb (dstIndex + 1) (fb (srcIndex + 1)) }

def fbScroll (screen : Screen) : Screen :=
  fbClearLine 24 (fbMoveCells (80 * 25 - 80) screen)

/-- A character at the cursor, which then moves on. -/
def fbWriteAtCursor (c : UInt8) (screen : Screen) : Screen :=
  { fbWriteCell screen.cursorPos c screen.currentFg screen.currentBg screen with
    cursorPos := screen.cursorPos + 1 }

/-- What a character of the buffer does before the screen scrolls. -/
def fbWriteByte (c : UInt8) (screen : Screen) : Screen :=
  if c = 10 then
    { screen with cursorPos := (screen.cursorPos + 80) / 80 * 80 }
  else if c = 9 then
    fbWriteAtCursor 32 (fbWriteAtCursor 32
      (fbWriteAtCursor 32 (fbWriteAtCursor 32 screen)))
  else if c = 13 then
    { screen with cursorPos := screen.cursorPos / 80 * 80 }
  else if c = 8 then
    if 0 < screen.cursorPos then
      let screen := { screen with cursorPos := screen.cursorPos - 1 }
      fbWriteCell screen.cursorPos 32 screen.currentFg screen.currentBg screen
    else
      screen
  else
    fbWriteAtCursor c screen

/-- One round of the loop of `fb_write`. -/
def fbWriteRound (screen : Screen) (c : UInt8) : Screen :=
  let screen := fbWriteByte c screen
  if 80 * 25 ≤ screen.cursorPos then
    { fbScroll screen with cursorPos := 80 * 24 }
  else
    screen

/-- `fb_write`, on the bytes of its buffer. -/
def fbWrite (buf : List UInt8) (screen : Screen) : Screen :=
  if buf = [] then
    screen
  else
    let screen := buf.foldl fbWriteRound screen
    fbSetCursor screen.cursorPos screen

def fbPutchar (c : UInt8) (screen : Screen) : Screen :=
  fbWrite [c] screen

/-- `fb_strlen`, on the bytes from a pointer on. -/
def fbStrlen : List UInt8 → Nat
  | [] => 0
  | c :: str => if c = 0 then 0 else fbStrlen str + 1

/-- `fb_puts`; the null pointer is `none`. -/
def fbPuts (str : Option (List UInt8)) (screen : Screen) : Screen :=
  match str with
  | none => screen
  | some str =>
      let len := fbStrlen str
      let len := len + 1
      fbWrite (str.take len) screen

/-! ## The keyboard -/

/-- `KBUF_SIZE`. -/
def kbufSize : Nat := 256

structure Keyboard where
  kbuf : Nat → UInt8
  khead : Nat
  ktail : Nat

/-- `normal_map`; what follows the entry of the space bar is 0. -/
def normalMap : List UInt8 :=
  [0, 0] ++ cstr "1234567890-=\x08" ++
  cstr "\tqwertyuiop[]\n" ++
  [0] ++ cstr "asdfghjkl;'`" ++ [0] ++
  cstr "\\zxcvbnm,./" ++ [0] ++ cstr "*" ++ [0] ++ cstr " "

def scancodeToChar (sc : UInt8) : UInt8 :=
  if sc &&& 0x80 ≠ 0 then
    0
  else if sc = 0x0E then
    8
  else if sc = 0x1C then
    10
  else
    normalMap.getD sc.toNat 0

def keyboardInputHandler (sc : UInt8) (keyboard : Keyboard) : Keyboard :=
  if sc = 0xFA ∨ sc = 0xAA ∨ sc = 0x00 ∨ sc = 0xFF then
    keyboard
  else
    let c := scancodeToChar sc
    if c ≠ 0 then
      { keyboard with
        kbuf := Function.update keyboard.kbuf keyboard.khead c
        khead := (keyboard.khead + 1) % kbufSize }
    else
      keyboard

/-- `keyboard_get_char`: a character, or 0 when there is none. -/
def keyboardGetChar (keyboard : Keyboard) : UInt8 × Keyboard :=
  if keyboard.khead = keyboard.ktail then
    (0, keyboard)
  else
    (keyboard.kbuf keyboard.ktail,
      { keyboard with ktail := (keyboard.ktail + 1) % kbufSize })

/-! ### The ring buffer -/

namespace Keyboard

/-- The number of characters that have not been taken. -/
def waiting (keyboard : Keyboard) : Nat :=
  (keyboard.khead + kbufSize - keyboard.ktail) % kbufSize

/-- No character in the ring buffer is the 0 that stands for none. -/
structure Sound (keyboard : Keyboard) : Prop where
  head : keyboard.khead < kbufSize
  tail : keyboard.ktail < kbufSize
  chars : ∀ offset < keyboard.waiting,
    keyboard.kbuf ((keyboard.ktail + offset) % kbufSize) ≠ 0

variable {keyboard : Keyboard}

theorem sound_iff :
    keyboard.Sound ↔ keyboard.khead < kbufSize ∧ keyboard.ktail < kbufSize ∧
      0 ∉ RingBuffer.contents kbufSize keyboard.kbuf keyboard.khead
        keyboard.ktail := by
  have noNul :
      0 ∉ RingBuffer.contents kbufSize keyboard.kbuf keyboard.khead
          keyboard.ktail ↔
        ∀ offset < keyboard.waiting,
          keyboard.kbuf ((keyboard.ktail + offset) % kbufSize) ≠ 0 := by
    rw [RingBuffer.mem_contents]
    exact ⟨fun none offset inside isZero => none ⟨offset, inside, isZero⟩,
      fun chars ⟨offset, inside, isZero⟩ => chars offset inside isZero⟩
  rw [noNul]
  exact ⟨fun sound => ⟨sound.head, sound.tail, sound.chars⟩,
    fun ⟨head, tail, chars⟩ => ⟨head, tail, chars⟩⟩

theorem Sound.keyboardInputHandler
    (sound : keyboard.Sound)
    (sc : UInt8) :
    (keyboardInputHandler sc keyboard).Sound := by
  simp only [MatrixOS.keyboardInputHandler]
  split
  · exact sound
  split
  · rename_i isChar
    obtain ⟨head, tail, noNul⟩ := sound_iff.mp sound
    refine sound_iff.mpr ⟨Nat.mod_lt _ (by decide), tail, ?_⟩
    by_cases room :
        RingBuffer.size kbufSize keyboard.khead keyboard.ktail + 1 < kbufSize
    · rw [RingBuffer.contents_push head tail room]
      simpa [noNul] using Ne.symm isChar
    · have below :
          RingBuffer.size kbufSize keyboard.khead keyboard.ktail < kbufSize :=
        Nat.mod_lt _ (by decide)
      rw [RingBuffer.contents_push_full head tail (by omega)]
      exact List.not_mem_nil
  · exact sound

/-- There is no character, or the first one is taken. -/
theorem Sound.getChar_cases (sound : keyboard.Sound) :
    (keyboardGetChar keyboard = (0, keyboard)) ∨
    ∃ c next, keyboardGetChar keyboard = (c, next) ∧ c ≠ 0 ∧ next.Sound ∧
      next.waiting + 1 = keyboard.waiting := by
  rw [keyboardGetChar]
  split
  · exact Or.inl rfl
  · rename_i notEmpty
    obtain ⟨head, tail, noNul⟩ := sound_iff.mp sound
    rw [RingBuffer.contents_pop head tail notEmpty, List.mem_cons, not_or]
      at noNul
    exact Or.inr ⟨_, _, rfl, Ne.symm noNul.1,
      sound_iff.mpr ⟨head, Nat.mod_lt _ (by decide), noNul.2⟩,
      RingBuffer.size_pop head tail notEmpty⟩

end Keyboard

end MatrixOS
