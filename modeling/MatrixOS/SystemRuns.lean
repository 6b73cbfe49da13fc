import MatrixOS.SyscallEffects
import MatrixOS.TextScreen

namespace MatrixOS

open ByteMemory X86

/-!
# Runs of the system

Processes make system calls with any registers, keys are pressed in between,
and user code writes to memory of its own.  A run remembers what has been
printed, which characters the keyboard has accepted and which the processes
have received, and the places that the kernel was given to write to.
-/

/-- Where the half of the address space begins that belongs to the kernel. -/
def virtOffset : Nat := 0xC0000000

namespace SyscallRequest

/-- What a request prints. -/
def prints (state : VfsState) : SyscallRequest → List Printed
  | puts str =>
      [.text (cstr "[USER] " ++ [0]), .text (str ++ [0]),
        .text (cstr "\n" ++ [0])]
  | putchar c => [.text [c]]
  | call request => request.prints state
  | _ => []

/-- The characters a process finds in `eax` or in its buffer. -/
def receives (state : VfsState) (last : Regs) (next : SyscallState) :
    SyscallRequest → List UInt8
  | getc =>
      if last.eax = 0 then [] else [UInt8.ofBitVec (last.eax.setWidth 8)]
  | call request => request.receives state (last.eax.toInt, next.vfs)
  | _ => []

/-- The place and the length of what a request may write to. -/
def buffer : SyscallRequest → Nat × Nat
  | call request => request.buffer
  | _ => (0, 0)

end SyscallRequest

/-- The text that a pointer leads to ends in the half of the processes. -/
def SyscallState.TextBelow (state : SyscallState) (str : Nat) : Prop :=
  ∀ text, state.userString str = some text →
    str + text.length + 1 ≤ virtOffset

/--
The pointers of a call lead to memory of processes.  The handler does not look:
a process that names memory of the kernel has the kernel read and write it.
-/
def SyscallState.UserPointers (r : Regs) (state : SyscallState) : Prop :=
  match r.eax.toNat with
  | 2 | 10 => state.TextBelow r.ebx.toNat
  | 12 | 13 => r.ecx.toNat + r.edx.toNat ≤ virtOffset
  | 15 => r.edx.toNat + 4 ≤ virtOffset
  | 16 => state.TextBelow r.ebx.toNat ∧ r.ecx.toNat + 16 ≤ virtOffset
  | _ => True

/-- The state with the history of a run. -/
structure SystemRun where
  state : SyscallState
  printed : List Printed
  accepted : List UInt8
  received : List UInt8
  /-- A key was pressed when the queue of the keyboard was full. -/
  overrun : Bool
  written : List (Nat × Nat)

namespace SystemRun

/-- Nothing has happened. -/
def start (initial : SyscallState) : SystemRun where
  state := initial
  printed := []
  accepted := []
  received := []
  overrun := false
  written := []

/-- A request has been served. -/
def served
    (run : SystemRun) (request : SyscallRequest) (last : Regs)
    (next : SyscallState) :
    SystemRun where
  state := next
  printed := run.printed ++ request.prints run.state.vfs
  accepted := run.accepted
  received := run.received ++ request.receives run.state.vfs last next
  overrun := run.overrun
  written := run.written ++ [request.buffer]

/-- A key has been pressed. -/
def pressed (run : SystemRun) (sc : UInt8) : SystemRun :=
  let vfs := run.state.vfs
  { run with
    state := run.state.withVfs
      (vfs.withKeyboard (keyboardInputHandler sc vfs.keyboard))
    accepted := run.accepted ++ (acceptedChar sc).toList
    overrun := run.overrun ||
      (acceptedChar sc).isSome && vfs.keyboard.waiting == kbufSize - 1 }

/-- User code has written a byte. -/
def stored (run : SystemRun) (address : Nat) (byte : UInt8) : SystemRun :=
  let vfs := run.state.vfs
  { run with
    state := run.state.withVfs
      (vfs.withMem (Function.update vfs.mem address byte))
    written := run.written ++ [(address, 1)] }

/-- Another process is running. -/
def switched (run : SystemRun) (pid : Nat) : SystemRun :=
  { run with state := { run.state with pid := pid } }

end SystemRun

inductive SystemReachable (initial : SyscallState) : SystemRun → Prop where
  | start : SystemReachable initial (.start initial)
  | syscall {run : SystemRun} {r last : Regs} {next : SyscallState}
      {request : SyscallRequest} :
      SystemReachable initial run →
        run.state.UserPointers r →
        run.state.request r = some request →
        run.state.syscallHandler r = some (last, next) →
        SystemReachable initial (run.served request last next)
  | key (sc : UInt8) {run : SystemRun} :
      SystemReachable initial run → SystemReachable initial (run.pressed sc)
  | store (address : Nat) (byte : UInt8) {run : SystemRun} :
      SystemReachable initial run →
        address < virtOffset →
        SystemReachable initial (run.stored address byte)
  | switch (pid : Nat) {run : SystemRun} :
      SystemReachable initial run → SystemReachable initial (run.switched pid)

/-! ## One request -/

section Request

variable {state : SyscallState} {r : Regs}

/-- A character is found in the register that it was put in. -/
theorem setWidth_charValue (c : UInt8) :
    UInt8.ofBitVec ((BitVec.ofInt 32 (charValue c)).setWidth 8) = c := by
  rw [ofInt_charValue]
  have same : (c.toBitVec.signExtend 32).setWidth 8 = c.toBitVec := by
    ext i below
    simp only [BitVec.getElem_setWidth, BitVec.getLsbD_signExtend]
    simp [below, show i < 32 by omega]
  rw [same]

theorem ofInt_charValue_eq_zero_iff (c : UInt8) :
    BitVec.ofInt 32 (charValue c) = 0 ↔ c = 0 := by
  constructor
  · intro isZero
    have byte := setWidth_charValue c
    rw [isZero] at byte
    exact byte.symm
  · rintro rfl
    rfl

/-- A value that an `int` has room for. -/
def IsInt (value : Int) : Prop :=
  -2 ^ 31 ≤ value ∧ value < 2 ^ 31

instance (value : Int) : Decidable (IsInt value) :=
  inferInstanceAs (Decidable (_ ∧ _))

theorem FileOperations.read_isInt
    (ops : FileOperations) (handle : Int) (buf count : Nat) (vfs : VfsState) :
    IsInt (ops.read handle buf count vfs).1 := by
  have noFile : IsInt ebadf := by decide
  have noDevice : IsInt eio := by decide
  have nothing : IsInt 0 := by decide
  cases ops with
  | ramfsOps =>
      simp only [FileOperations.read, ramfsRead]
      split
      · exact noFile
      · split
        · exact nothing
        · exact toInt_range _
  | devfsOps =>
      simp only [FileOperations.read, devfsRead]
      split
      · exact noFile
      · split
        · exact toInt_range _
        · split
          · exact nothing
          · split
            · exact toInt_range _
            · exact noDevice

/-- The result of a read is an `int`. -/
theorem vfsRead_isInt (fd : Int) (buf count : Nat) (vfs : VfsState) :
    IsInt (vfsRead fd buf count vfs).1 := by
  have notOpen : IsInt ebadf := by decide
  have refused : IsInt eacces := by decide
  have noFs : IsInt eio := by decide
  simp only [vfsRead]
  split
  · exact notOpen
  · split
    · exact refused
    · split
      · exact noFs
      · exact FileOperations.read_isInt _ _ _ _ _

/-- The process sees in `eax` what the call has returned. -/
theorem VfsCall.receives_eax (request : VfsCall) (vfs : VfsState) :
    request.receives vfs
        ((BitVec.ofInt 32 (request.perform vfs).1).toInt,
          (request.perform vfs).2) =
      request.receives vfs (request.perform vfs) := by
  cases request with
  | read fd buf count =>
      obtain ⟨low, high⟩ := vfsRead_isInt fd buf count vfs
      have same : (BitVec.ofInt 32 (vfsRead fd buf count vfs).1).toInt =
          (vfsRead fd buf count vfs).1 :=
        BitVec.toInt_ofInt_eq_self (by decide) low high
      simp only [VfsCall.perform, VfsCall.receives, same]
  | _ => rfl

variable {last : Regs} {next : SyscallState} {request : SyscallRequest}

/-- What the handler does is to serve the request. -/
theorem SyscallState.syscallHandler_serves
    (asked : state.request r = some request)
    (handled : state.syscallHandler r = some (last, next)) :
    request.serve r state = (last, next) := by
  rw [syscallHandler_eq, asked] at handled
  exact Option.some.inj handled

/-- A request writes where its registers say. -/
theorem SyscallState.request_buffer
    (asked : state.request r = some request) :
    request.buffer.2 < 2 ^ 32 ∧
      (state.UserPointers r →
        request.buffer.1 + request.buffer.2 ≤ virtOffset) := by
  have none : (0, 0).2 < 2 ^ 32 ∧
      (state.UserPointers r → (0, 0).1 + (0, 0).2 ≤ virtOffset) :=
    ⟨by decide, fun _ => by decide⟩
  unfold SyscallState.request at asked
  unfold UserPointers at none ⊢
  dsimp only at asked
  split at asked
  all_goals rename_i number
  all_goals simp only [number] at none ⊢
  case h_2 | h_6 =>
    split at asked
    · obtain ⟨str, _, rfl⟩ := Option.map_eq_some_iff.mp asked
      exact none
    · cases asked
      exact none
  case h_8 =>
    split at asked
    · cases asked
      exact ⟨Nat.two_pow_pos 32, fun _ => Nat.zero_le _⟩
    · cases asked
      exact ⟨r.edx.isLt, id⟩
  case h_9 =>
    split at asked
    · cases asked
      exact ⟨Nat.two_pow_pos 32, fun _ => Nat.zero_le _⟩
    · cases asked
      exact ⟨Nat.two_pow_pos 32, fun _ => Nat.zero_le _⟩
  case h_11 =>
    cases asked
    exact ⟨show 4 < 2 ^ 32 by decide, id⟩
  case h_12 =>
    split at asked
    · cases asked
      exact ⟨Nat.two_pow_pos 32, fun _ => Nat.zero_le _⟩
    · obtain ⟨str, _, rfl⟩ := Option.map_eq_some_iff.mp asked
      exact ⟨show 16 < 2 ^ 32 by decide, fun right => right.2⟩
  all_goals
    cases asked
    exact none

/-- A string ends at its first terminator. -/
theorem stringAt_noNul
    {mem : Memory} {fuel str : Nat} {text : List UInt8}
    (found : stringAt mem fuel str = some text) :
    0 ∉ text := by
  induction fuel generalizing str text with
  | zero =>
      cases found
  | succ fuel inductionHypothesis =>
      simp only [stringAt] at found
      split at found
      · cases found
        exact List.not_mem_nil
      · rename_i notEnd
        obtain ⟨rest, isRest, rfl⟩ := Option.map_eq_some_iff.mp found
        exact List.not_mem_cons_of_ne_of_not_mem (Ne.symm notEnd)
          (inductionHypothesis isRest)

theorem SyscallState.request_noNul
    {str : List UInt8}
    (asked : state.request r = some (.puts str)) :
    0 ∉ str := by
  unfold SyscallState.request at asked
  dsimp only at asked
  split at asked
  case h_2 =>
    split at asked
    · obtain ⟨text, found, same⟩ := Option.map_eq_some_iff.mp asked
      cases same
      exact stringAt_noNul found
    · cases asked
  case h_6 =>
    split at asked
    · obtain ⟨text, _, same⟩ := Option.map_eq_some_iff.mp asked
      cases same
    · cases asked
  case h_12 =>
    split at asked
    · cases asked
    · obtain ⟨text, _, same⟩ := Option.map_eq_some_iff.mp asked
      cases same
  case h_8 | h_9 => split at asked <;> cases asked
  all_goals cases asked

/-! ### What a request does -/

variable {initial : Screen} {printed : List Printed}

theorem Displays.putsUser
    {screen : Screen}
    (displays : Displays initial printed screen)
    {str : List UInt8}
    (noNul : 0 ∉ str) :
    Displays initial
      (printed ++ [.text (cstr "[USER] " ++ [0]), .text (str ++ [0]),
        .text (cstr "\n" ++ [0])])
      (MatrixOS.putsUser str screen) := by
  have user := displays.text (fbWrite_written (cstr "[USER] " ++ [0]) screen)
  have text := user.text (fbWrite_written (str ++ [0]) _)
  have newline := text.text (fbWrite_written (cstr "\n" ++ [0]) _)
  have name : 0 ∉ cstr "[USER] " := by decide
  have line : 0 ∉ cstr "\n" := by decide
  rw [MatrixOS.putsUser, fbPuts_eq name, fbPuts_eq noNul, fbPuts_eq line]
  rwa [List.append_assoc, List.append_assoc] at newline

/-- A request has its text on the screen behind what was there. -/
theorem Displays.serve
    (displays : Displays initial printed state.vfs.screen)
    (asked : state.request r = some request) :
    Displays initial (printed ++ request.prints state.vfs)
      (request.serve r state).2.vfs.screen := by
  have silent : Displays initial (printed ++ []) state.vfs.screen := by
    rwa [List.append_nil]
  cases request with
  | puts str => exact displays.putsUser (state.request_noNul asked)
  | putchar c => exact displays.text (fbWrite_written [c] _)
  | call request => exact displays.perform request
  | _ => exact silent

/-- The queue of the keyboard loses what the process receives. -/
theorem SyscallRequest.serve_received
    (sound : state.vfs.keyboard.Sound)
    (fits : request.buffer.2 < 2 ^ 32) :
    request.receives state.vfs (request.serve r state).1
          (request.serve r state).2 ++
        (request.serve r state).2.vfs.keyboard.unread =
      state.vfs.keyboard.unread ∧
      (request.serve r state).2.vfs.keyboard.Sound := by
  cases request with
  | getc =>
      refine ⟨?_, sound.getChar⟩
      simp only [receives, serve, answer, ofInt_charValue_eq_zero_iff,
        setWidth_charValue]
      cases queue : state.vfs.keyboard.unread with
      | nil =>
          rw [sound.inRange.getChar_of_nil queue, if_pos rfl]
          exact queue
      | cons c rest =>
          obtain ⟨next, taken, left⟩ := sound.inRange.getChar_of_cons queue
          have isChar : c ≠ 0 := sound.unread_ne_zero (by simp [queue])
          rw [taken, if_neg isChar]
          exact congrArg (c :: ·) left
  | call request =>
      have received := request.perform_received sound fits
      rw [← request.receives_eax] at received
      exact received
  | _ => exact ⟨rfl, sound⟩

/-- A request writes to its buffer only. -/
theorem SyscallRequest.serve_writesBuffer (request : SyscallRequest) :
    WritesBuffer state.vfs.mem (request.serve r state).2.vfs.mem
      request.buffer.1 request.buffer.2 := by
  cases request with
  | call request => exact request.perform_writesBuffer state.vfs
  | _ => exact .refl _ _ _

theorem SyscallRequest.serve_invariant
    (invariant : VfsInvariant state.vfs)
    (request : SyscallRequest) :
    VfsInvariant (request.serve r state).2.vfs := by
  cases request with
  | call request => exact invariant.perform request
  | puts str =>
      exact invariant.of_sameFiles ⟨rfl, rfl⟩
        ((SameTables.withScreen state.vfs _).agree invariant.tables)
  | putchar c =>
      exact invariant.of_sameFiles ⟨rfl, rfl⟩
        ((SameTables.withScreen state.vfs _).agree invariant.tables)
  | getc =>
      exact invariant.of_sameFiles ⟨rfl, rfl⟩
        ((SameTables.withKeyboard state.vfs _).agree invariant.tables)
  | _ => exact invariant

end Request

/-! ## Every run -/

/-- What holds of every run. -/
structure SystemInvariant (initial : SyscallState) (run : SystemRun) : Prop where
  vfs : VfsInvariant run.state.vfs
  keyboard : run.state.vfs.keyboard.Sound
  screen : Displays initial.vfs.screen run.printed run.state.vfs.screen
  input : run.overrun = false →
    run.received ++ run.state.vfs.keyboard.unread = run.accepted
  below : ∀ range ∈ run.written, range.1 + range.2 ≤ virtOffset
  memory : ∀ address < 2 ^ 32,
    (∀ range ∈ run.written,
      ¬ (range.1 ≤ address ∧ address < range.1 + range.2)) →
    run.state.vfs.mem address = initial.vfs.mem address

section Runs

variable {initial : SyscallState} {run : SystemRun}

theorem SystemInvariant.start
    (vfs : VfsInvariant initial.vfs)
    (keyboard : initial.vfs.keyboard.Sound)
    (empty : initial.vfs.keyboard.unread = []) :
    SystemInvariant initial (.start initial) where
  vfs := vfs
  keyboard := keyboard
  screen := .start _
  input := fun _ => empty
  below := fun _ member => absurd member List.not_mem_nil
  memory := fun _ _ _ => rfl

theorem SystemInvariant.served
    (invariant : SystemInvariant initial run)
    {r last : Regs} {next : SyscallState} {request : SyscallRequest}
    (pointers : run.state.UserPointers r)
    (asked : run.state.request r = some request)
    (handled : run.state.syscallHandler r = some (last, next)) :
    SystemInvariant initial (run.served request last next) := by
  have serves := SyscallState.syscallHandler_serves asked handled
  obtain ⟨fits, inside⟩ := SyscallState.request_buffer asked
  obtain ⟨received, sound⟩ :=
    @SyscallRequest.serve_received run.state r request invariant.keyboard fits
  have vfs := @SyscallRequest.serve_invariant run.state r invariant.vfs request
  have screen := invariant.screen.serve asked
  have writes := @SyscallRequest.serve_writesBuffer run.state r request
  rw [serves] at received sound vfs screen writes
  refine ⟨vfs, sound, screen, fun noOverrun => ?_, ?_, ?_⟩
  · have before := invariant.input noOverrun
    rw [← received, ← List.append_assoc] at before
    exact before
  · intro range member
    rcases List.mem_append.mp member with old | new
    · exact invariant.below range old
    · rw [List.mem_singleton.mp new]
      exact inside pointers
  · intro address inSpace outside
    have apart := outside request.buffer (List.mem_append_right _ (by simp))
    have before := invariant.memory address inSpace fun range member =>
      outside range (List.mem_append_left _ member)
    rw [← before]
    refine writes address inSpace fun i below same => apart ?_
    have noWrap : wrap32 (request.buffer.1 + i) = request.buffer.1 + i := by
      have low := inside pointers
      simp only [virtOffset] at low
      exact wrap32_of_lt (by omega)
    omega

theorem SystemInvariant.pressed
    (invariant : SystemInvariant initial run)
    (sc : UInt8) :
    SystemInvariant initial (run.pressed sc) where
  vfs := invariant.vfs.of_sameFiles ⟨rfl, rfl⟩
    ((SameTables.withKeyboard run.state.vfs _).agree invariant.vfs.tables)
  keyboard := invariant.keyboard.keyboardInputHandler sc
  screen := invariant.screen
  below := invariant.below
  memory := invariant.memory
  input := by
    intro noOverrun
    simp only [SystemRun.pressed, Bool.or_eq_false_iff] at noOverrun
    obtain ⟨before, room⟩ := noOverrun
    have queue := invariant.input before
    have inRange := invariant.keyboard.inRange
    simp only [SystemRun.pressed]
    cases accepted : acceptedChar sc with
    | none =>
        simp only [SyscallState.withVfs, VfsState.withKeyboard,
          Keyboard.input_of_none accepted, Option.toList_none, List.append_nil]
        exact queue
    | some c =>
        have few : run.state.vfs.keyboard.waiting < kbufSize :=
          Nat.mod_lt _ (by decide)
        simp only [accepted, Option.isSome_some, Bool.true_and,
          beq_eq_false_iff_ne] at room
        have fits : run.state.vfs.keyboard.unread.length + 1 < kbufSize := by
          rw [Keyboard.length_unread]
          omega
        simp only [SyscallState.withVfs, VfsState.withKeyboard,
          Keyboard.input_of_some accepted, Option.toList_some]
        rw [inRange.unread_put fits, ← List.append_assoc, queue]

theorem SystemInvariant.stored
    (invariant : SystemInvariant initial run)
    {address : Nat}
    (user : address < virtOffset)
    (byte : UInt8) :
    SystemInvariant initial (run.stored address byte) where
  vfs := invariant.vfs.of_sameFiles ⟨rfl, rfl⟩
    ((SameTables.withMem run.state.vfs _).agree invariant.vfs.tables)
  keyboard := invariant.keyboard
  screen := invariant.screen
  input := invariant.input
  below := by
    intro range member
    rcases List.mem_append.mp member with old | new
    · exact invariant.below range old
    · rw [List.mem_singleton.mp new]
      exact user
  memory := by
    intro other inSpace outside
    have apart := outside (address, 1) (List.mem_append_right _ (by simp))
    have before := invariant.memory other inSpace fun range member =>
      outside range (List.mem_append_left _ member)
    have different : other ≠ address := by
      rintro rfl
      exact apart ⟨Nat.le_refl _, Nat.lt_succ_self _⟩
    exact (Function.update_of_ne different _ _).trans before

theorem SystemReachable.invariant
    (reached : SystemReachable initial run)
    (vfs : VfsInvariant initial.vfs)
    (keyboard : initial.vfs.keyboard.Sound)
    (empty : initial.vfs.keyboard.unread = []) :
    SystemInvariant initial run := by
  induction reached with
  | start => exact .start vfs keyboard empty
  | syscall _ pointers asked handled inductionHypothesis =>
      exact inductionHypothesis.served pointers asked handled
  | key sc _ inductionHypothesis => exact inductionHypothesis.pressed sc
  | store address byte _ user inductionHypothesis =>
      exact inductionHypothesis.stored user byte
  | switch pid _ inductionHypothesis =>
      exact ⟨inductionHypothesis.vfs, inductionHypothesis.keyboard,
        inductionHypothesis.screen, inductionHypothesis.input,
        inductionHypothesis.below, inductionHypothesis.memory⟩

end Runs

/-! ## From boot on -/

/-- The screen of a machine that starts: any cells, light gray on black. -/
def bootScreen (fb : Nat → UInt8) (hardwareCursor : Nat) : Screen where
  fb := fb
  cursorPos := 0
  currentFg := 7
  currentBg := 0
  hardwareCursor := hardwareCursor

def fbInit (screen : Screen) : Screen :=
  { fbClear screen with cursorPos := 0, currentFg := 7, currentBg := 0 }

/--
The system when the first process starts: the kernel has cleared the screen and
written its messages, and no key has been pressed.
-/
def bootSystem
    (fb : Nat → UInt8) (hardwareCursor : Nat) (messages : List (List UInt8))
    (modules : List ModuleInfo) (ramfsNode devfsNode : Nat)
    (before : VfsState) :
    SyscallState where
  vfs := ((bootVfsInit modules ramfsNode devfsNode before).withKeyboard
    .bss).withScreen (fbWrites messages (fbInit (bootScreen fb hardwareCursor)))
  pid := 0

/-- The text that has been printed since the screen was last cleared. -/
def sinceClear : List Printed → List UInt8 :=
  List.foldl (fun text printed =>
    match printed with
    | .text str => text ++ str
    | .clear => []) []

section Boot

theorem sinceClear_text (printed : List Printed) (str : List UInt8) :
    sinceClear (printed ++ [.text str]) = sinceClear printed ++ str :=
  List.foldl_append

theorem sinceClear_clear (printed : List Printed) :
    sinceClear (printed ++ [.clear]) = [] :=
  List.foldl_append

variable {initial : Screen}

theorem printedOn_text (printed : List Printed) (str : List UInt8) :
    printedOn initial (printed ++ [.text str]) =
      str.foldl fbWriteRound (printedOn initial printed) :=
  List.foldl_append

theorem printedOn_clear (printed : List Printed) :
    printedOn initial (printed ++ [.clear]) =
      fbClear (printedOn initial printed) :=
  List.foldl_append

/-- Nothing that is printed changes the colours. -/
theorem printedOn_sameColours (printed : List Printed) :
    SameColours initial (printedOn initial printed) := by
  induction printed using List.reverseRecOn with
  | nil =>
      exact ⟨rfl, rfl⟩
  | append_singleton printed last inductionHypothesis =>
      cases last with
      | text str =>
          rw [printedOn_text]
          generalize printedOn initial printed = screen at inductionHypothesis
          induction str generalizing screen with
          | nil =>
              exact inductionHypothesis
          | cons c str rest =>
              exact rest (fbWriteRound screen c)
                (inductionHypothesis.trans (fbWriteRound_sameColours screen c))
      | clear =>
          rw [printedOn_clear]
          exact inductionHypothesis.trans (fbClear_grid _).2.2

/-- A cleared screen follows the terminal of any screen with its colours. -/
theorem Follows.cleared
    {screen : Screen}
    (colours : SameColours initial screen) :
    Follows initial [] (fbClear screen) := by
  have follows := follows_fbClear screen
  have same : referenceTerminal screen [] = referenceTerminal initial [] := by
    rw [referenceTerminal, referenceTerminal, colours.coloured]
    rfl
  refine ⟨colours.trans follows.colours, ?_, ?_⟩
  · have sound := follows.sound
    rwa [same, colours.coloured] at sound
  · rw [← same]
    exact follows.shown

/-- A text without tabs and backspaces since the last time it was cleared. -/
theorem follows_printedOn
    {printed : List Printed}
    (ordinary : ∀ c ∈ sinceClear printed, c ≠ 9 ∧ c ≠ 8) :
    Follows initial (sinceClear printed)
      (printedOn (fbClear initial) printed) := by
  induction printed using List.reverseRecOn with
  | nil =>
      exact follows_fbClear initial
  | append_singleton printed last inductionHypothesis =>
      cases last with
      | text str =>
          rw [sinceClear_text] at ordinary ⊢
          rw [printedOn_text]
          exact (inductionHypothesis fun c member =>
            ordinary c (List.mem_append_left str member)).rounds
              fun c member => ordinary c (List.mem_append_right _ member)
      | clear =>
          rw [sinceClear_clear, printedOn_clear]
          exact .cleared ((fbClear_grid initial).2.2.trans
            (printedOn_sameColours printed))

theorem fbInit_bootScreen (fb : Nat → UInt8) (hardwareCursor : Nat) :
    fbInit (bootScreen fb hardwareCursor) =
      fbClear (bootScreen fb hardwareCursor) := by
  have cells := @fbClearCells_onlyCells (bootScreen fb hardwareCursor) 0
    (80 * 25)
  rw [fbInit, fbClear]
  generalize fbClearCells 0 (80 * 25) (bootScreen fb hardwareCursor) = cleared
    at cells
  obtain ⟨fb, cursorPos, currentFg, currentBg, hardwareCursor⟩ := cleared
  obtain rfl : currentFg = 7 := cells.currentFg
  obtain rfl : currentBg = 0 := cells.currentBg
  rfl

/-- Messages of the kernel. -/
theorem Displays.fbWrites
    {printed : List Printed} {screen : Screen}
    (displays : Displays initial printed screen)
    (messages : List (List UInt8)) :
    Displays initial (printed ++ messages.map .text)
      (fbWrites messages screen) := by
  induction messages generalizing printed screen with
  | nil =>
      rwa [List.map_nil, List.append_nil]
  | cons str messages inductionHypothesis =>
      have first := displays.text (fbWrite_written str screen)
      have rest := inductionHypothesis first
      rwa [List.append_assoc] at rest

theorem Displays.printedOn
    {before : List Printed} {screen : Screen}
    (displays : Displays initial before screen)
    (after : List Printed) :
    Displays initial (before ++ after) (printedOn screen after) := by
  induction after using List.reverseRecOn with
  | nil =>
      rwa [List.append_nil]
  | append_singleton after last inductionHypothesis =>
      rw [← List.append_assoc]
      cases last with
      | text str =>
          rw [printedOn_text]
          exact inductionHypothesis.text
            ⟨_, (withHardwareCursor_self _).symm⟩
      | clear =>
          rw [printedOn_clear]
          exact inductionHypothesis.clear

theorem Displays.trans
    {middle last : Screen} {before after : List Printed}
    (first : Displays initial before middle)
    (second : Displays middle after last) :
    Displays initial (before ++ after) last := by
  obtain ⟨_, rfl⟩ := second
  obtain ⟨_, shown⟩ := first.printedOn after
  exact ⟨_, by rw [shown]; rfl⟩

variable {modules : List ModuleInfo} {ramfsNode devfsNode : Nat}
variable {before : VfsState} {messages : List (List UInt8)}
variable {fb : Nat → UInt8} {hardwareCursor : Nat} {run : SystemRun}

theorem reachable_systemInvariant
    (reached : SystemReachable
      (bootSystem fb hardwareCursor messages modules ramfsNode devfsNode before)
      run) :
    SystemInvariant
      (bootSystem fb hardwareCursor messages modules ramfsNode devfsNode before)
      run := by
  have boot := vfsInvariant_bootVfsInit modules ramfsNode devfsNode before
  have vfs : VfsInvariant (bootSystem fb hardwareCursor messages modules
      ramfsNode devfsNode before).vfs :=
    boot.of_sameFiles ⟨rfl, rfl⟩ (((SameTables.withKeyboard _ _).trans
      (SameTables.withScreen _ _)).agree boot.tables)
  exact reached.invariant vfs Keyboard.bss_sound
    (show Keyboard.bss.unread = [] by decide)

theorem reachable_displays
    (reached : SystemReachable
      (bootSystem fb hardwareCursor messages modules ramfsNode devfsNode before)
      run) :
    Displays (fbInit (bootScreen fb hardwareCursor))
      (messages.map .text ++ run.printed) run.state.vfs.screen := by
  have start := (Displays.start
    (fbInit (bootScreen fb hardwareCursor))).fbWrites messages
  exact start.trans (reachable_systemInvariant reached).screen

theorem Displays.window
    {printed : List Printed} {screen : Screen}
    (displays : Displays (fbInit (bootScreen fb hardwareCursor)) printed screen)
    (ordinary : ∀ c ∈ sinceClear printed, c ≠ 9 ∧ c ≠ 8) :
    IsWindow
        (referenceTerminal (bootScreen fb hardwareCursor) (sinceClear printed))
        screen ∧
      screen.cursorPos < 80 * 25 := by
  have follows : Follows (bootScreen fb hardwareCursor) _ _ :=
    follows_printedOn ordinary
  rw [← fbInit_bootScreen] at follows
  obtain ⟨_, shown⟩ := displays
  rw [shown]
  exact ⟨⟨follows.isWindow.cells, follows.isWindow.cursorPos⟩, follows.inside⟩

/-- A process takes a key and puts its character on the screen. -/
def echoRegs (number char : Nat) : Regs where
  gs := 0x23
  fs := 0x23
  es := 0x23
  ds := 0x23
  edi := 0
  esi := 0
  ebp := 0
  esp := 0
  ebx := BitVec.ofNat 32 char
  edx := 0
  ecx := 0
  eax := BitVec.ofNat 32 number
  intNo := 0x80
  errCode := 0
  eip := 0x08000000
  cs := 0x1B
  eflags := 0x202
  useresp := 0xB0000000
  ss := 0x23

def echoBoot : SyscallState :=
  bootSystem (fun _ => 0) 0 [cstr "Ready\n"] [] 16 32 .cleared

def echoRun : SystemRun :=
  let run := (SystemRun.start echoBoot).pressed 0x1E
  let served := SyscallRequest.getc.serve (echoRegs 3 0) run.state
  let run := run.served .getc served.1 served.2
  let served := (SyscallRequest.putchar 97).serve (echoRegs 4 97) run.state
  run.served (.putchar 97) served.1 served.2

theorem echoRun_reachable : SystemReachable echoBoot echoRun := by
  have boots : SystemReachable echoBoot _ := .start
  have pressed := boots.key 0x1E
  have taken := pressed.syscall (r := echoRegs 3 0) trivial rfl rfl
  exact taken.syscall (r := echoRegs 4 97) trivial rfl rfl

/--
Whatever the processes call, the screen is that of a terminal to which the
kernel has written its messages and the calls their texts, in the order in
which they were made.
-/
theorem systemRun_screen
    (reached : SystemReachable
      (bootSystem fb hardwareCursor messages modules ramfsNode devfsNode before)
      run) :
    let printed := messages.map .text ++ run.printed
    Displays (fbInit (bootScreen fb hardwareCursor)) printed
        run.state.vfs.screen ∧
      ((∀ c ∈ sinceClear printed, c ≠ 9 ∧ c ≠ 8) →
        IsWindow
            (referenceTerminal (bootScreen fb hardwareCursor)
              (sinceClear printed))
            run.state.vfs.screen ∧
          run.state.vfs.screen.cursorPos < 80 * 25) := by
  have displays := reachable_displays reached
  exact ⟨displays, displays.window⟩

/-- The text of a process behind a message of the kernel. -/
theorem systemRun_screen_echoRun :
    sinceClear ([Printed.text (cstr "Ready\n")] ++ echoRun.printed) =
        cstr "Ready\na" ∧
      IsWindow
        (referenceTerminal (bootScreen (fun _ => 0) 0)
          (sinceClear ([.text (cstr "Ready\n")] ++ echoRun.printed)))
        echoRun.state.vfs.screen := by
  have text : sinceClear ([Printed.text (cstr "Ready\n")] ++ echoRun.printed) =
      cstr "Ready\na" := by decide
  have ordinary : (cstr "Ready\na").all fun c => c != 9 && c != 8 := by decide
  refine ⟨text, ((systemRun_screen echoRun_reachable).2 fun c member => ?_).1⟩
  rw [show [cstr "Ready\n"].map Printed.text = [.text (cstr "Ready\n")] from rfl,
    text] at member
  simpa using List.all_eq_true.mp ordinary c member

end Boot

end MatrixOS
