import MatrixOS.ConsoleReads
import MatrixOS.SyscallHandler
import MatrixOS.TextOutput

namespace MatrixOS

open ByteMemory LinePrefix

/-!
# What a system call does outside of the kernel

A call prints on the screen, takes characters from the keyboard and writes to
memory.  Each of the three is said of the request alone and of the state that
it finds, and nothing else happens to them.
-/

/-! ## What is printed -/

/-- What a call has on the screen: a text, or that it is cleared. -/
inductive Printed where
  | text (str : List UInt8)
  | clear

/-- The screen behind, but for the hardware cursor. -/
def Printed.on (screen : Screen) : Printed → Screen
  | text str => str.foldl fbWriteRound screen
  | clear => fbClear screen

/-- What has been printed from an initial screen on, in its order. -/
def printedOn (initial : Screen) (printed : List Printed) : Screen :=
  printed.foldl Printed.on initial

/-- The screen shows what has been printed, wherever the hardware cursor is. -/
def Displays (initial : Screen) (printed : List Printed) (screen : Screen) :
    Prop :=
  ∃ hardwareCursor,
    screen = (printedOn initial printed).withHardwareCursor hardwareCursor

/-- The console is behind a descriptor. -/
def VfsState.onConsole (state : VfsState) (fd : Int) : Bool :=
  match (state.openFiles fd.toNat).fs with
  | none => false
  | some fs =>
      decide (fs.ops = .devfsOps ∧
        devfsDeviceOf (state.openFiles fd.toNat).privateData state =
          deviceConsole)

namespace VfsCall

/-- What a call of the file systems prints in a state. -/
def prints (state : VfsState) : VfsCall → List Printed
  | .write fd buf count =>
      let flags := (state.openFiles fd.toNat).flags
      if ¬ BadFd fd state ∧ ¬ (flags &&& oWronly = 0 ∧ flags &&& oRdwr = 0) ∧
          ((fd = 1 ∨ fd = 2) ∨ state.onConsole fd) then
        [.text (bufferBytes state.mem buf count)]
      else
        []
  | .ioctl fd request _ =>
      if ¬ BadFd fd state ∧ state.onConsole fd ∧ request = 1 then [.clear]
      else []
  | _ => []

/-- The characters of the keyboard that a call with this outcome has taken. -/
def receives (state : VfsState) (outcome : Int × VfsState) :
    VfsCall → List UInt8
  | .read fd buf _ =>
      let flags := (state.openFiles fd.toNat).flags
      if ¬ BadFd fd state ∧ ¬ (flags &&& oRdonly = 0 ∧ flags &&& oRdwr = 0) ∧
          state.onConsole fd then
        bufferBytes outcome.2.mem buf outcome.1.toNat
      else
        []
  | _ => []

/-- The place and the length of what a call may write to. -/
def buffer : VfsCall → Nat × Nat
  | .read _ buf count => (buf, count)
  | .ioctl _ _ argp => (argp, 4)
  | .stat _ target => (target, 16)
  | _ => (0, 0)

end VfsCall

/-! ## The screen -/

section Screen

variable {initial screen : Screen} {printed : List Printed}

theorem printedOn_append (more : List Printed) :
    printedOn initial (printed ++ more) =
      printedOn (printedOn initial printed) more :=
  List.foldl_append

theorem foldl_fbWriteRound_withHardwareCursor
    (str : List UInt8) (hardwareCursor : Nat) (screen : Screen) :
    str.foldl fbWriteRound (screen.withHardwareCursor hardwareCursor) =
      (str.foldl fbWriteRound screen).withHardwareCursor hardwareCursor := by
  induction str generalizing screen with
  | nil =>
      rfl
  | cons c str inductionHypothesis =>
      rw [List.foldl_cons, fbWriteRound_withHardwareCursor,
        inductionHypothesis, List.foldl_cons]

theorem fbClear_withHardwareCursor (hardwareCursor : Nat) (screen : Screen) :
    fbClear (screen.withHardwareCursor hardwareCursor) = fbClear screen := by
  rw [fbClear, fbClear, fbClearCells_withHardwareCursor]
  generalize fbClearCells 0 (80 * 25) screen = cleared
  rfl

theorem withHardwareCursor_self (screen : Screen) :
    screen.withHardwareCursor screen.hardwareCursor = screen :=
  rfl

theorem Displays.start (screen : Screen) : Displays screen [] screen :=
  ⟨screen.hardwareCursor, (withHardwareCursor_self screen).symm⟩

/-- A text is written wherever the hardware cursor is. -/
theorem Displays.text
    (displays : Displays initial printed screen)
    {str : List UInt8} {next : Screen}
    (written : ∃ hardwareCursor,
      next = (str.foldl fbWriteRound screen).withHardwareCursor hardwareCursor) :
    Displays initial (printed ++ [.text str]) next := by
  obtain ⟨old, rfl⟩ := displays
  obtain ⟨new, rfl⟩ := written
  rw [foldl_fbWriteRound_withHardwareCursor]
  exact ⟨new, by rw [printedOn_append]; rfl⟩

theorem Displays.clear (displays : Displays initial printed screen) :
    Displays initial (printed ++ [.clear]) (fbClear screen) := by
  obtain ⟨old, rfl⟩ := displays
  rw [fbClear_withHardwareCursor]
  have cleared : printedOn initial (printed ++ [.clear]) =
      fbClear (printedOn initial printed) := printedOn_append _
  refine ⟨(fbClear (printedOn initial printed)).hardwareCursor, ?_⟩
  rw [cleared, withHardwareCursor_self]

/-- `fb_write` of a text. -/
theorem fbWrite_written (str : List UInt8) (screen : Screen) :
    ∃ hardwareCursor, fbWrite str screen =
      (str.foldl fbWriteRound screen).withHardwareCursor hardwareCursor :=
  fbWrite_eq str screen

end Screen

/-! ## The calls of the file systems -/

section Calls

variable {state : VfsState}

/-- A file system other than that of the devices prints nothing. -/
theorem FileOperations.write_screen
    (ops : FileOperations) (handle : Int) (buf count : Nat) :
    (ops.write handle buf count state).2.screen =
      if ops = .devfsOps ∧ devfsDeviceOf handle state = deviceConsole then
        (putBuffer buf count state).screen
      else
        state.screen := by
  cases ops with
  | ramfsOps =>
      rfl
  | devfsOps =>
      simp only [FileOperations.write, devfsWrite, true_and]
      split
      · rename_i noDevice
        rw [if_neg (by rw [noDevice]; decide)]
      · split
        · rfl
        · split
          · rfl
          · split <;> rfl

theorem FileOperations.ioctl_screen
    (ops : FileOperations) (handle request : Int) (argp : Nat) :
    (ops.ioctl handle request argp state).2.screen =
      if (ops = .devfsOps ∧ devfsDeviceOf handle state = deviceConsole) ∧
          request = 1 then
        fbClear state.screen
      else
        state.screen := by
  cases ops with
  | ramfsOps =>
      rfl
  | devfsOps =>
      have device : (0 : Int) ≠ deviceConsole := by decide
      simp only [FileOperations.ioctl, devfsIoctl, true_and]
      by_cases noDevice : devfsDeviceOf handle state = 0
      · rw [if_pos noDevice, noDevice, if_neg fun console => device console.1]
      · rw [if_neg noDevice]
        by_cases clears : devfsDeviceOf handle state = deviceConsole ∧ request = 1
        · rw [if_pos clears, if_pos clears]
          rfl
        · rw [if_neg clears, if_neg clears]
          split <;> rfl

theorem advance_screen (fd : Nat) (result : Int) (state : VfsState) :
    (advance fd result state).screen = state.screen := by
  rw [advance]
  split <;> rfl

/-- What opening, closing and asking for a file leave alone. -/
structure LeavesDevices (before after : VfsState) : Prop where
  screen : after.screen = before.screen
  keyboard : after.keyboard = before.keyboard

theorem vfsOpen_leavesDevices
    (path : Option (List UInt8)) (flags : Nat) (state : VfsState) :
    LeavesDevices state (vfsOpen path flags state).2 ∧
      (vfsOpen path flags state).2.mem = state.mem := by
  rcases vfsOpen_cases path flags state with
    ⟨_, unchanged⟩ | ⟨name, fs, fd, _, _, _, _, result⟩
  · rw [unchanged]
    exact ⟨⟨rfl, rfl⟩, rfl⟩
  · rw [result]
    rcases fs.ops.open_effect state name flags with
      same | ⟨_, _, _, _, same⟩ | ⟨_, _, _, _, same⟩
    all_goals
      rw [same]
      exact ⟨⟨rfl, rfl⟩, rfl⟩

theorem vfsClose_leavesDevices (fd : Int) (state : VfsState) :
    LeavesDevices state (vfsClose fd state).2 ∧
      (vfsClose fd state).2.mem = state.mem := by
  simp only [vfsClose]
  split
  · exact ⟨⟨rfl, rfl⟩, rfl⟩
  · split
    · exact ⟨⟨rfl, rfl⟩, rfl⟩
    · cases (state.openFiles fd.toNat).fs with
      | none =>
          exact ⟨⟨rfl, rfl⟩, rfl⟩
      | some fs =>
          simp only [FileOperations.close_withOpenFile]
          rcases fs.ops.close_effect state
            (state.openFiles fd.toNat).privateData with
            same | ⟨_, _, same⟩ | ⟨_, same⟩
          all_goals
            rw [same]
            exact ⟨⟨rfl, rfl⟩, rfl⟩

theorem vfsSeek_leavesDevices (fd offset whence : Int) (state : VfsState) :
    LeavesDevices state (vfsSeek fd offset whence state).2 ∧
      (vfsSeek fd offset whence state).2.mem = state.mem := by
  simp only [vfsSeek]
  split
  · exact ⟨⟨rfl, rfl⟩, rfl⟩
  · cases (state.openFiles fd.toNat).fs with
    | none =>
        exact ⟨⟨rfl, rfl⟩, rfl⟩
    | some fs =>
        rcases fs.ops.seek_effect state (state.openFiles fd.toNat).privateData
          offset whence with same | ⟨_, _, _, same⟩
        all_goals
          change LeavesDevices state (fs.ops.seek _ _ _ state).2 ∧
            (fs.ops.seek _ _ _ state).2.mem = state.mem
          rw [same]
          exact ⟨⟨rfl, rfl⟩, rfl⟩

theorem vfsStat_leavesDevices
    (path : Option (List UInt8)) (target : Nat) (state : VfsState) :
    LeavesDevices state (vfsStat path target state).2 ∧
      WritesBuffer state.mem (vfsStat path target state).2.mem target 16 := by
  cases path with
  | none =>
      exact ⟨⟨rfl, rfl⟩, .refl _ _ _⟩
  | some path =>
      simp only [vfsStat]
      split
      · exact ⟨⟨rfl, rfl⟩, .refl _ _ _⟩
      · cases vfsResolveFs path state with
        | none =>
            exact ⟨⟨rfl, rfl⟩, .refl _ _ _⟩
        | some fs =>
            obtain ⟨mem, writes, same⟩ := fs.ops.stat_effect state path target
            simp only [same]
            exact ⟨⟨rfl, rfl⟩, writes⟩

/-- A read moves characters and a file position. -/
theorem vfsRead_effect (fd : Int) (buf count : Nat) (state : VfsState) :
    (vfsRead fd buf count state).2.screen = state.screen ∧
      WritesBuffer state.mem (vfsRead fd buf count state).2.mem buf count := by
  simp only [vfsRead]
  split
  · exact ⟨rfl, .refl _ _ _⟩
  · split
    · exact ⟨rfl, .refl _ _ _⟩
    · cases (state.openFiles fd.toNat).fs with
      | none =>
          exact ⟨rfl, .refl _ _ _⟩
      | some fs =>
          obtain ⟨mem, writes, same⟩ := fs.ops.read_effect state
            (state.openFiles fd.toNat).privateData buf count
          simp only [advance_screen, advance_mem]
          rcases same with ⟨_, same⟩ | ⟨_, _, _, same⟩
          all_goals
            rw [same]
            exact ⟨rfl, writes⟩

/-- A write changes the screen. -/
theorem vfsWrite_effect (fd : Int) (buf count : Nat) (state : VfsState) :
    (vfsWrite fd buf count state).2.keyboard = state.keyboard ∧
      (vfsWrite fd buf count state).2.mem = state.mem := by
  simp only [vfsWrite]
  split
  · exact ⟨rfl, rfl⟩
  · split
    · exact ⟨rfl, rfl⟩
    · split
      · exact ⟨rfl, rfl⟩
      · cases (state.openFiles fd.toNat).fs with
        | none =>
            exact ⟨rfl, rfl⟩
        | some fs =>
            obtain ⟨screen, same⟩ := fs.ops.write_effect state
              (state.openFiles fd.toNat).privateData buf count
            simp only [advance_keyboard, advance_mem, same]
            exact ⟨rfl, rfl⟩

theorem vfsIoctl_effect (fd request : Int) (argp : Nat) (state : VfsState) :
    (vfsIoctl fd request argp state).2.keyboard = state.keyboard ∧
      WritesBuffer state.mem (vfsIoctl fd request argp state).2.mem argp 4 := by
  simp only [vfsIoctl]
  split
  · exact ⟨rfl, .refl _ _ _⟩
  · cases (state.openFiles fd.toNat).fs with
    | none =>
        exact ⟨rfl, .refl _ _ _⟩
    | some fs =>
        obtain ⟨screen, mem, writes, same⟩ := fs.ops.ioctl_effect state
          (state.openFiles fd.toNat).privateData request argp
        simp only [same]
        exact ⟨rfl, writes⟩

/-- A call writes to its buffer only. -/
theorem VfsCall.perform_writesBuffer (request : VfsCall) (state : VfsState) :
    WritesBuffer state.mem (request.perform state).2.mem
      request.buffer.1 request.buffer.2 := by
  cases request with
  | «open» path flags =>
      rw [perform, (vfsOpen_leavesDevices path flags state).2]
      exact .refl _ _ _
  | close fd =>
      rw [perform, (vfsClose_leavesDevices fd state).2]
      exact .refl _ _ _
  | read fd buf count => exact (vfsRead_effect fd buf count state).2
  | write fd buf count =>
      rw [perform, (vfsWrite_effect fd buf count state).2]
      exact .refl _ _ _
  | seek fd offset whence =>
      rw [perform, (vfsSeek_leavesDevices fd offset whence state).2]
      exact .refl _ _ _
  | ioctl fd request argp => exact (vfsIoctl_effect fd request argp state).2
  | stat path target => exact (vfsStat_leavesDevices path target state).2

/-! ### The screen -/

variable {initial : Screen} {printed : List Printed} {fd : Int}

theorem VfsState.onConsole_of_none
    (isFs : (state.openFiles fd.toNat).fs = none) :
    state.onConsole fd = false := by
  rw [VfsState.onConsole, isFs]

theorem VfsState.onConsole_of_some
    {fs : Filesystem}
    (isFs : (state.openFiles fd.toNat).fs = some fs) :
    state.onConsole fd = true ↔ fs.ops = .devfsOps ∧
      devfsDeviceOf (state.openFiles fd.toNat).privateData state =
        deviceConsole := by
  rw [VfsState.onConsole, isFs]
  exact decide_eq_true_iff

theorem Displays.putBuffer
    (displays : Displays initial printed state.screen)
    (buf count : Nat) :
    Displays initial (printed ++ [.text (bufferBytes state.mem buf count)])
      (putBuffer buf count state).screen :=
  displays.text (foldl_fbPutchar _ _)

theorem Displays.vfsWrite
    (displays : Displays initial printed state.screen)
    (fd : Int) (buf count : Nat) :
    Displays initial (printed ++ (VfsCall.write fd buf count).prints state)
      (vfsWrite fd buf count state).2.screen := by
  have silent : Displays initial (printed ++ []) state.screen := by
    rwa [List.append_nil]
  simp only [VfsCall.prints, MatrixOS.vfsWrite]
  by_cases bad : BadFd fd state
  · rw [if_neg fun right => right.1 bad, if_pos bad]
    exact silent
  rw [if_neg bad]
  by_cases refused : (state.openFiles fd.toNat).flags &&& oWronly = 0 ∧
      (state.openFiles fd.toNat).flags &&& oRdwr = 0
  · rw [if_neg fun right => right.2.1 refused, if_pos refused]
    exact silent
  rw [if_neg refused]
  by_cases standard : fd = 1 ∨ fd = 2
  · rw [if_pos ⟨bad, refused, Or.inl standard⟩, if_pos standard]
    exact displays.putBuffer buf count
  rw [if_neg standard]
  cases isFs : (state.openFiles fd.toNat).fs with
  | none =>
      rw [if_neg (by simp [standard, VfsState.onConsole_of_none isFs])]
      exact silent
  | some fs =>
      simp only [advance_screen, FileOperations.write_screen,
        VfsState.onConsole_of_some isFs]
      by_cases isConsole : fs.ops = .devfsOps ∧
          devfsDeviceOf (state.openFiles fd.toNat).privateData state =
            deviceConsole
      · rw [if_pos ⟨bad, refused, Or.inr isConsole⟩, if_pos isConsole]
        exact displays.putBuffer buf count
      · rw [if_neg fun right => right.2.2.elim standard isConsole,
          if_neg isConsole]
        exact silent

theorem Displays.vfsIoctl
    (displays : Displays initial printed state.screen)
    (fd request : Int) (argp : Nat) :
    Displays initial (printed ++ (VfsCall.ioctl fd request argp).prints state)
      (vfsIoctl fd request argp state).2.screen := by
  have silent : Displays initial (printed ++ []) state.screen := by
    rwa [List.append_nil]
  simp only [VfsCall.prints, MatrixOS.vfsIoctl]
  by_cases bad : BadFd fd state
  · rw [if_neg fun right => right.1 bad, if_pos bad]
    exact silent
  rw [if_neg bad]
  cases isFs : (state.openFiles fd.toNat).fs with
  | none =>
      rw [if_neg (by simp [VfsState.onConsole_of_none isFs])]
      exact silent
  | some fs =>
      simp only [FileOperations.ioctl_screen,
        VfsState.onConsole_of_some isFs]
      by_cases clears : (fs.ops = .devfsOps ∧
          devfsDeviceOf (state.openFiles fd.toNat).privateData state =
            deviceConsole) ∧ request = 1
      · rw [if_pos ⟨bad, clears⟩, if_pos clears]
        exact displays.clear
      · rw [if_neg fun right => clears right.2, if_neg clears]
        exact silent

/-- A call has its text on the screen behind what was there. -/
theorem Displays.perform
    (displays : Displays initial printed state.screen)
    (request : VfsCall) :
    Displays initial (printed ++ request.prints state)
      (request.perform state).2.screen := by
  have silent : Displays initial (printed ++ []) state.screen := by
    rwa [List.append_nil]
  cases request with
  | «open» path flags =>
      rw [VfsCall.perform, (vfsOpen_leavesDevices path flags state).1.screen]
      exact silent
  | close fd =>
      rw [VfsCall.perform, (vfsClose_leavesDevices fd state).1.screen]
      exact silent
  | read fd buf count =>
      rw [VfsCall.perform, (vfsRead_effect fd buf count state).1]
      exact silent
  | write fd buf count => exact displays.vfsWrite fd buf count
  | seek fd offset whence =>
      rw [VfsCall.perform, (vfsSeek_leavesDevices fd offset whence state).1.screen]
      exact silent
  | ioctl fd request argp => exact displays.vfsIoctl fd request argp
  | stat path target =>
      rw [VfsCall.perform, (vfsStat_leavesDevices path target state).1.screen]
      exact silent

/-! ### The keyboard -/

/-- A read takes keys only from the console. -/
theorem FileOperations.read_cases
    (ops : FileOperations) (handle : Int) (buf count : Nat) (state : VfsState) :
    ((ops = .devfsOps ∧ devfsDeviceOf handle state = deviceConsole) ∧
      ops.read handle buf count state =
        (toInt (consoleRead buf count 0 state).1,
          (consoleRead buf count 0 state).2)) ∨
    (¬ (ops = .devfsOps ∧ devfsDeviceOf handle state = deviceConsole) ∧
      (ops.read handle buf count state).2.keyboard = state.keyboard) := by
  cases ops with
  | ramfsOps =>
      refine Or.inr ⟨fun console => (nomatch console.1), ?_⟩
      simp only [FileOperations.read, ramfsRead]
      split
      · rfl
      · split <;> rfl
  | devfsOps =>
      by_cases console : devfsDeviceOf handle state = deviceConsole
      · refine Or.inl ⟨⟨rfl, console⟩, ?_⟩
        simp only [FileOperations.read, devfsRead, console]
        rfl
      · refine Or.inr ⟨fun right => console right.2, ?_⟩
        simp only [FileOperations.read, devfsRead, if_neg console]
        split
        · rfl
        · split
          · rfl
          · split <;> rfl

/-- What a read returns and what it leaves make up the queue. -/
theorem vfsRead_received
    (sound : state.keyboard.Sound)
    (fd : Int) (buf : Nat)
    {count : Nat}
    (fits : count < 2 ^ 32) :
    (VfsCall.read fd buf count).receives state (vfsRead fd buf count state) ++
        (vfsRead fd buf count state).2.keyboard.unread =
      state.keyboard.unread ∧ (vfsRead fd buf count state).2.keyboard.Sound := by
  simp only [VfsCall.receives, vfsRead]
  by_cases bad : BadFd fd state
  · rw [if_neg fun right => right.1 bad, if_pos bad]
    exact ⟨rfl, sound⟩
  rw [if_neg bad]
  by_cases refused : (state.openFiles fd.toNat).flags &&& oRdonly = 0 ∧
      (state.openFiles fd.toNat).flags &&& oRdwr = 0
  · rw [if_neg fun right => right.2.1 refused, if_pos refused]
    exact ⟨rfl, sound⟩
  rw [if_neg refused]
  cases isFs : (state.openFiles fd.toNat).fs with
  | none =>
      rw [if_neg (by simp [VfsState.onConsole_of_none isFs])]
      exact ⟨rfl, sound⟩
  | some fs =>
      simp only [advance_keyboard, advance_mem,
        VfsState.onConsole_of_some isFs]
      rcases fs.ops.read_cases (state.openFiles fd.toNat).privateData buf count
        state with ⟨isConsole, read⟩ | ⟨notConsole, keyboard⟩
      · rw [if_pos ⟨bad, refused, isConsole⟩, read]
        obtain ⟨result, delivered⟩ :=
          @consoleRead_delivered state buf sound count fits 0
        have bytes := delivered.bytes
        have rest := delivered.rest
        have few : state.keyboard.unread.length < kbufSize := by
          rw [Keyboard.length_unread]
          exact Nat.mod_lt _ (by decide)
        rw [rest, List.length_append] at few
        simp only [kbufSize] at few
        rw [Nat.zero_add] at result
        rw [result, toInt_of_lt (by omega), Int.toNat_natCast]
        exact ⟨(congrArg (· ++ _) bytes).trans rest.symm, delivered.sound⟩
      · rw [if_neg fun right => notConsole right.2.2, keyboard]
        exact ⟨rfl, sound⟩

/-- The queue of the keyboard loses what a call returns, and nothing else. -/
theorem VfsCall.perform_received
    (sound : state.keyboard.Sound)
    {request : VfsCall}
    (fits : request.buffer.2 < 2 ^ 32) :
    request.receives state (request.perform state) ++
        (request.perform state).2.keyboard.unread = state.keyboard.unread ∧
      (request.perform state).2.keyboard.Sound := by
  cases request with
  | «open» path flags =>
      rw [perform, (vfsOpen_leavesDevices path flags state).1.keyboard]
      exact ⟨rfl, sound⟩
  | close fd =>
      rw [perform, (vfsClose_leavesDevices fd state).1.keyboard]
      exact ⟨rfl, sound⟩
  | read fd buf count => exact vfsRead_received sound fd buf fits
  | write fd buf count =>
      rw [perform, (vfsWrite_effect fd buf count state).1]
      exact ⟨rfl, sound⟩
  | seek fd offset whence =>
      rw [perform, (vfsSeek_leavesDevices fd offset whence state).1.keyboard]
      exact ⟨rfl, sound⟩
  | ioctl fd request argp =>
      rw [perform, (vfsIoctl_effect fd request argp state).1]
      exact ⟨rfl, sound⟩
  | stat path target =>
      rw [perform, (vfsStat_leavesDevices path target state).1.keyboard]
      exact ⟨rfl, sound⟩

end Calls

end MatrixOS
