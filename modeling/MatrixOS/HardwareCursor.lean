import MatrixOS.PortPrograms
import MatrixOS.SystemRuns

namespace MatrixOS

open PortProgram

/-!
# The hardware cursor

`fb_set_cursor` with its accesses to the display controller, and the place of
the cursor in every run of the system.
-/

/-! ## The display controller -/

namespace DisplayController

/-- `fb_set_cursor`, by its accesses to ports. -/
def fbSetCursor (position : Nat) : PortProgram UInt16 UInt8 Unit := do
  let position := if 80 * 25 ≤ position then 80 * 25 - 1 else position
  outb 0x3D4 0x0F
  outb 0x3D5 (UInt8.ofNat (position &&& 0xFF))
  outb 0x3D4 0x0E
  outb 0x3D5 (UInt8.ofNat ((position >>> 8) &&& 0xFF))

/-- A 6845: the register that is selected, and the registers. -/
structure Crtc where
  index : UInt8
  registers : UInt8 → UInt8

namespace Crtc

def write (port : UInt16) (byte : UInt8) (crtc : Crtc) : Crtc :=
  if port = 0x3D4 then
    { crtc with index := byte }
  else if port = 0x3D5 then
    { crtc with registers := Function.update crtc.registers crtc.index byte }
  else
    crtc

/-- Only the second port can be read. -/
def read (port : UInt16) (crtc : Crtc) : Option UInt8 :=
  if port = 0x3D5 then some (crtc.registers crtc.index) else none

/-- The cell of the cursor. -/
def cursorLocation (crtc : Crtc) : Nat :=
  (crtc.registers 0x0E).toNat * 256 + (crtc.registers 0x0F).toNat

end Crtc

/-- The cursor has been moved, and the rest is as it was. -/
structure CursorMoved (before after : Crtc) (position : Nat) : Prop where
  cursorLocation : after.cursorLocation = position
  others : ∀ index, index ≠ 0x0E → index ≠ 0x0F →
    after.registers index = before.registers index

/-- Two bytes hold the number of a cell. -/
theorem bytes_of_cell
    {position : Nat}
    (inside : position < 80 * 25) :
    (UInt8.ofNat ((position >>> 8) &&& 0xFF)).toNat * 256 +
      (UInt8.ofNat (position &&& 0xFF)).toNat = position := by
  have low : position &&& 0xFF = position % 256 :=
    Nat.and_two_pow_sub_one_eq_mod _ 8
  have high : (position >>> 8) &&& 0xFF = position / 256 % 256 := by
    rw [Nat.shiftRight_eq_div_pow]
    exact Nat.and_two_pow_sub_one_eq_mod _ 8
  rw [low, high, UInt8.toNat_ofNat', UInt8.toNat_ofNat']
  omega

/-- The accesses do what the model of the screen has for them. -/
theorem fbSetCursor_exec (position : Nat) (screen : Screen) (crtc : Crtc) :
    ∃ after, (fbSetCursor position).exec Crtc.write Crtc.read crtc =
        some ((), after) ∧
      CursorMoved crtc after
        (MatrixOS.fbSetCursor position screen).hardwareCursor := by
  refine ⟨_, rfl, ?_, fun index notHigh notLow => ?_⟩
  · have inside : (MatrixOS.fbSetCursor position screen).hardwareCursor <
        80 * 25 := by
      simp only [MatrixOS.fbSetCursor]
      split <;> omega
    exact bytes_of_cell inside
  · change Function.update (Function.update crtc.registers 0x0F _) 0x0E _
      index = _
    rw [Function.update_of_ne notHigh, Function.update_of_ne notLow]

end DisplayController

/-! ## What writing and clearing keep -/

/--
What `fb_write` and `fb_clear` keep, all code keeps that prints through them.
-/
structure KeptByPrinting (Kept : Screen → Prop) : Prop where
  write : ∀ buf screen, Kept screen → Kept (fbWrite buf screen)
  clear : ∀ screen, Kept screen → Kept (fbClear screen)

namespace KeptByPrinting

variable {Kept : Screen → Prop} {screen : Screen} {vfs : VfsState}

theorem writes
    (printing : KeptByPrinting Kept)
    (kept : Kept screen)
    (calls : List (List UInt8)) :
    Kept (fbWrites calls screen) := by
  induction calls generalizing screen with
  | nil =>
      exact kept
  | cons buf calls inductionHypothesis =>
      exact inductionHypothesis (printing.write buf screen kept)

theorem puts
    (printing : KeptByPrinting Kept)
    (kept : Kept screen)
    (str : Option (List UInt8)) :
    Kept (fbPuts str screen) := by
  cases str with
  | none => exact kept
  | some str => exact printing.write _ _ kept

theorem putBuffer
    (printing : KeptByPrinting Kept)
    (kept : Kept vfs.screen)
    (buf count : Nat) :
    Kept (MatrixOS.putBuffer buf count vfs).screen := by
  have written := printing.writes kept
    ((bufferBytes vfs.mem buf count).map fun c => [c])
  rw [fbWrites, List.foldl_map] at written
  exact written

theorem vfsWrite
    (printing : KeptByPrinting Kept)
    (kept : Kept vfs.screen)
    (fd : Int) (buf count : Nat) :
    Kept (MatrixOS.vfsWrite fd buf count vfs).2.screen := by
  simp only [MatrixOS.vfsWrite]
  split
  · exact kept
  · split
    · exact kept
    · split
      · exact printing.putBuffer kept buf count
      · split
        · exact kept
        · simp only [advance_screen, FileOperations.write_screen]
          split
          · exact printing.putBuffer kept buf count
          · exact kept

theorem vfsIoctl
    (printing : KeptByPrinting Kept)
    (kept : Kept vfs.screen)
    (fd request : Int) (argp : Nat) :
    Kept (MatrixOS.vfsIoctl fd request argp vfs).2.screen := by
  simp only [MatrixOS.vfsIoctl]
  split
  · exact kept
  · split
    · exact kept
    · rw [FileOperations.ioctl_screen]
      split
      · exact printing.clear _ kept
      · exact kept

theorem perform
    (printing : KeptByPrinting Kept)
    (kept : Kept vfs.screen)
    (request : VfsCall) :
    Kept (request.perform vfs).2.screen := by
  cases request with
  | «open» path flags =>
      rw [VfsCall.perform, (vfsOpen_leavesDevices path flags vfs).1.screen]
      exact kept
  | close fd =>
      rw [VfsCall.perform, (vfsClose_leavesDevices fd vfs).1.screen]
      exact kept
  | read fd buf count =>
      rw [VfsCall.perform, (vfsRead_effect fd buf count vfs).1]
      exact kept
  | write fd buf count => exact printing.vfsWrite kept fd buf count
  | seek fd offset whence =>
      rw [VfsCall.perform,
        (vfsSeek_leavesDevices fd offset whence vfs).1.screen]
      exact kept
  | ioctl fd request argp => exact printing.vfsIoctl kept fd request argp
  | stat path target =>
      rw [VfsCall.perform, (vfsStat_leavesDevices path target vfs).1.screen]
      exact kept

theorem serve
    (printing : KeptByPrinting Kept)
    {state : SyscallState}
    (kept : Kept state.vfs.screen)
    (r : Regs) (request : SyscallRequest) :
    Kept (request.serve r state).2.vfs.screen := by
  cases request with
  | puts str =>
      have user := printing.puts kept (some (cstr "[USER] " ++ [0]))
      have text := printing.puts user (some (str ++ [0]))
      exact printing.puts text (some (cstr "\n" ++ [0]))
  | putchar c => exact printing.write [c] _ kept
  | call request => exact printing.perform kept request
  | _ => exact kept

/-- It holds of the screen in every run. -/
theorem reachable
    (printing : KeptByPrinting Kept)
    {initial : SyscallState} {run : SystemRun}
    (kept : Kept initial.vfs.screen)
    (reached : SystemReachable initial run) :
    Kept run.state.vfs.screen := by
  induction reached with
  | start => exact kept
  | @syscall run r last next request _ _ asked handled inductionHypothesis =>
      have serves := SyscallState.syscallHandler_serves asked handled
      have later := printing.serve inductionHypothesis r request
      rw [serves] at later
      exact later
  | key _ _ inductionHypothesis => exact inductionHypothesis
  | store _ _ _ _ inductionHypothesis => exact inductionHypothesis
  | switch _ _ inductionHypothesis => exact inductionHypothesis

end KeptByPrinting

/-! ## The place of the cursor -/

/-- The hardware shows the cursor where the next character will be. -/
structure CursorShown (screen : Screen) : Prop where
  inside : screen.cursorPos < 80 * 25
  same : screen.hardwareCursor = screen.cursorPos

section Cursor

variable {screen : Screen}

/-- After each character the cursor is on the screen. -/
theorem fbWriteRound_inside (screen : Screen) (c : UInt8) :
    (fbWriteRound screen c).cursorPos < 80 * 25 := by
  simp only [fbWriteRound]
  split
  · exact show 80 * 24 < 80 * 25 by decide
  · rename_i inside
    exact Nat.lt_of_not_le inside

theorem cursorShown_fbSetCursor
    (inside : screen.cursorPos < 80 * 25) :
    CursorShown (fbSetCursor screen.cursorPos screen) :=
  ⟨inside, if_neg (Nat.not_le.mpr inside)⟩

theorem cursorShown_printing : KeptByPrinting CursorShown where
  write buf screen shown := by
    rw [fbWrite]
    split
    · exact shown
    · rename_i notEmpty
      obtain ⟨text, c, rfl⟩ :=
        (List.eq_nil_or_concat' buf).resolve_left notEmpty
      rw [List.foldl_append]
      exact cursorShown_fbSetCursor (fbWriteRound_inside _ c)
  clear _ _ := ⟨show 0 < 80 * 25 by decide, rfl⟩

end Cursor

end MatrixOS
