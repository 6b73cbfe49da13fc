import MatrixOS.SyscallEntry
import MatrixOS.VfsRuns

namespace MatrixOS

open ByteMemory X86

/-!
# `kernel/syscall/syscall.c`

The handler with the functions it calls: the file systems, the screen and the
keyboard.  Of the process manager it sees the `pid` of the running process;
what `process_exit_current` releases is described with the processes.  The
messages on the serial port are left out.
-/

/-- The string at a pointer, if a terminator is found. -/
def stringAt (mem : Memory) : (fuel str : Nat) → Option (List UInt8)
  | 0, _ => none
  | fuel + 1, str =>
      let c := mem str
      if c = 0 then some []
      else (stringAt mem fuel (wrap32 (str + 1))).map (c :: ·)

/-- What system calls work on; a `pid` of 0 is that of no process. -/
structure SyscallState where
  vfs : VfsState
  pid : Nat

namespace SyscallState

variable (state : SyscallState)

def withVfs (vfs : VfsState) : SyscallState :=
  { state with vfs := vfs }

def withScreen (screen : Screen) : SyscallState :=
  state.withVfs (state.vfs.withScreen screen)

/-- A string of user code; without a terminator its readers do not return. -/
def userString (str : Nat) : Option (List UInt8) :=
  stringAt state.vfs.mem (2 ^ 32) str

end SyscallState

/-- The three calls of `fb_puts` for `SYSCALL_PUTS`. -/
def putsUser (str : List UInt8) (screen : Screen) : Screen :=
  let screen := fbPuts (some (cstr "[USER] " ++ [0])) screen
  let screen := fbPuts (some (str ++ [0])) screen
  fbPuts (some (cstr "\n" ++ [0])) screen

/-- A call of the file systems whose result goes to `eax`. -/
def answer (r : Regs) (state : SyscallState) (result : Int × VfsState) :
    Regs × SyscallState :=
  ({ r with eax := BitVec.ofInt 32 result.1 }, state.withVfs result.2)

/-- `r->eax = EINVAL`. -/
def refuse (r : Regs) (state : SyscallState) : Regs × SyscallState :=
  answer r state (einval, state.vfs)

/-- `syscall_handler`; no result when a string does not end. -/
def SyscallState.syscallHandler (r : Regs) (state : SyscallState) :
    Option (Regs × SyscallState) :=
  let vfs := state.vfs
  let arg1 := r.ebx.toNat
  let arg2 := r.ecx.toNat
  let arg3 := r.edx.toNat
  match r.eax.toNat with
  | 1 => some (r, { state with pid := 0 })
  | 2 =>
      if arg1 ≠ 0 then do
        let str ← state.userString arg1
        some (r, state.withScreen (putsUser str vfs.screen))
      else
        some (r, state)
  | 4 => some (r, state.withScreen (fbPutchar (UInt8.ofNat arg1) vfs.screen))
  | 3 =>
      let (c, keyboard) := keyboardGetChar vfs.keyboard
      some (answer r state (charValue c, vfs.withKeyboard keyboard))
  | 5 => some ({ r with eax := BitVec.ofNat 32 state.pid }, state)
  | 10 =>
      if arg1 ≠ 0 then do
        let filename ← state.userString arg1
        some (answer r state (vfsOpen (some filename) arg2 vfs))
      else
        some (refuse r state)
  | 11 => some (answer r state (vfsClose r.ebx.toInt vfs))
  | 12 =>
      if arg2 = 0 then some (refuse r state)
      else some (answer r state (vfsRead r.ebx.toInt arg2 arg3 vfs))
  | 13 =>
      if arg2 = 0 then some (refuse r state)
      else some (answer r state (vfsWrite r.ebx.toInt arg2 arg3 vfs))
  | 14 =>
      some (answer r state
        (vfsSeek r.ebx.toInt r.ecx.toInt r.edx.toInt vfs))
  | 15 =>
      some (answer r state (vfsIoctl r.ebx.toInt r.ecx.toInt arg3 vfs))
  | 16 =>
      if arg1 = 0 ∨ arg2 = 0 then
        some (refuse r state)
      else do
        let path ← state.userString arg1
        some (answer r state (vfsStat (some path) arg2 vfs))
  | _ => some ({ r with eax := BitVec.ofInt 32 (-1) }, state)

/-! ## What is asked for -/

/-- What the registers of a system call ask for. -/
inductive SyscallRequest where
  | exit
  | puts (str : List UInt8)
  | putchar (c : UInt8)
  | getc
  | getpid
  | call (call : VfsCall)
  | nothing
  | fail (error : Int)

/-- The request in the registers; none when its string does not end. -/
def SyscallState.request (r : Regs) (state : SyscallState) :
    Option SyscallRequest :=
  let arg1 := r.ebx.toNat
  let arg2 := r.ecx.toNat
  let arg3 := r.edx.toNat
  match r.eax.toNat with
  | 1 => some .exit
  | 2 =>
      if arg1 ≠ 0 then (state.userString arg1).map .puts else some .nothing
  | 4 => some (.putchar (UInt8.ofNat arg1))
  | 3 => some .getc
  | 5 => some .getpid
  | 10 =>
      if arg1 ≠ 0 then
        (state.userString arg1).map fun filename =>
          .call (.open (some filename) arg2)
      else
        some (.fail einval)
  | 11 => some (.call (.close r.ebx.toInt))
  | 12 =>
      if arg2 = 0 then some (.fail einval)
      else some (.call (.read r.ebx.toInt arg2 arg3))
  | 13 =>
      if arg2 = 0 then some (.fail einval)
      else some (.call (.write r.ebx.toInt arg2 arg3))
  | 14 => some (.call (.seek r.ebx.toInt r.ecx.toInt r.edx.toInt))
  | 15 => some (.call (.ioctl r.ebx.toInt r.ecx.toInt arg3))
  | 16 =>
      if arg1 = 0 ∨ arg2 = 0 then some (.fail einval)
      else (state.userString arg1).map fun path =>
        .call (.stat (some path) arg2)
  | _ => some (.fail (-1))

/-- The registers and the state behind a request. -/
def SyscallRequest.serve (r : Regs) (state : SyscallState) :
    SyscallRequest → Regs × SyscallState
  | exit => (r, { state with pid := 0 })
  | puts str => (r, state.withScreen (putsUser str state.vfs.screen))
  | putchar c => (r, state.withScreen (fbPutchar c state.vfs.screen))
  | getc =>
      answer r state (charValue (keyboardGetChar state.vfs.keyboard).1,
        state.vfs.withKeyboard (keyboardGetChar state.vfs.keyboard).2)
  | getpid => ({ r with eax := BitVec.ofNat 32 state.pid }, state)
  | call request => answer r state (request.perform state.vfs)
  | nothing => (r, state)
  | fail error => answer r state (error, state.vfs)

/-- The handler serves the request in the registers. -/
theorem SyscallState.syscallHandler_eq (r : Regs) (state : SyscallState) :
    state.syscallHandler r =
      (state.request r).map fun request => request.serve r state := by
  unfold syscallHandler request
  dsimp only
  split
  all_goals try rfl
  all_goals
    -- a null pointer is refused, a string is looked for
    split
    all_goals try rfl
    all_goals cases state.userString r.ebx.toNat <;> rfl

/-! ## The registers of the handler -/

/-- What the called functions return in a state. -/
def SyscallState.services (state : SyscallState) : Services where
  pid := BitVec.ofNat 32 state.pid
  keyboardGetChar := (keyboardGetChar state.vfs.keyboard).1.toBitVec
  vfsOpen path flags :=
    BitVec.ofInt 32
      (MatrixOS.vfsOpen (state.userString path.toNat) flags.toNat state.vfs).1
  vfsClose fd := BitVec.ofInt 32 (MatrixOS.vfsClose fd.toInt state.vfs).1
  vfsRead fd buf count :=
    BitVec.ofInt 32 (MatrixOS.vfsRead fd.toInt buf.toNat count.toNat state.vfs).1
  vfsWrite fd buf count :=
    BitVec.ofInt 32 (MatrixOS.vfsWrite fd.toInt buf.toNat count.toNat state.vfs).1
  vfsSeek fd offset whence :=
    BitVec.ofInt 32
      (MatrixOS.vfsSeek fd.toInt offset.toInt whence.toInt state.vfs).1
  vfsIoctl fd request argp :=
    BitVec.ofInt 32
      (MatrixOS.vfsIoctl fd.toInt request.toInt argp.toNat state.vfs).1
  vfsStat path stat :=
    BitVec.ofInt 32
      (MatrixOS.vfsStat (state.userString path.toNat) stat.toNat state.vfs).1

section Registers

variable {r last : Regs} {state next : SyscallState}

theorem toNat_eq_zero_iff {word : Word} : word.toNat = 0 ↔ word = 0 :=
  BitVec.toNat_inj (y := 0#32)

/-- The value of a `char` in a register. -/
theorem ofInt_charValue (c : UInt8) :
    BitVec.ofInt 32 (charValue c) = c.toBitVec.signExtend 32 := by
  rw [BitVec.signExtend]
  congr 1
  have below : c < 128 ↔ 2 * c.toBitVec.toNat < 2 ^ 8 := by
    rw [UInt8.lt_iff_toNat_lt, UInt8.toNat_toBitVec]
    exact ⟨fun small => by have : c.toNat < 128 := small; omega,
      fun small => by show c.toNat < 128; omega⟩
  simp only [charValue, BitVec.toInt_eq_toNat_cond, below]
  rfl

/-- The handler stores in the registers what its functions return. -/
theorem SyscallState.syscallHandler_regs
    (handled : state.syscallHandler r = some (last, next)) :
    last = syscallHandlerRegs state.services r := by
  have first : ∀ {found : Regs × SyscallState},
      some found = some (last, next) → last = found.1 := by
    intro found same
    rw [Option.some.inj same]
  unfold syscallHandler at handled
  unfold syscallHandlerRegs
  dsimp only at handled
  simp only [ne_eq, toNat_eq_zero_iff] at handled
  split at handled
  all_goals rename_i number
  -- `split` may have taken the goal along, which is the same `match`
  all_goals try simp only [number]
  case h_2 =>
    by_cases null : r.ebx = 0
    · rw [if_neg (not_not.mpr null)] at handled
      exact first handled
    · rw [if_pos null] at handled
      cases text : state.userString r.ebx.toNat with
      | none => simp [text] at handled
      | some str =>
          simp only [text] at handled
          exact first handled
  case h_6 =>
    by_cases null : r.ebx = 0
    · rw [if_neg (not_not.mpr null)] at handled
      simp only [if_neg (not_not.mpr null)]
      exact first handled
    · rw [if_pos null] at handled
      simp only [if_pos null]
      cases text : state.userString r.ebx.toNat with
      | none => simp [text] at handled
      | some str =>
          simp only [text] at handled
          simp only [services, text]
          exact first handled
  case h_4 =>
    have result := first handled
    rwa [answer, ofInt_charValue] at result
  case h_8 | h_9 =>
    by_cases null : r.ecx = 0
    · rw [if_pos null] at handled
      simp only [if_neg (not_not.mpr null)]
      exact first handled
    · rw [if_neg null] at handled
      simp only [if_pos null]
      exact first handled
  case h_12 =>
    by_cases null : r.ebx = 0 ∨ r.ecx = 0
    · rw [if_pos null] at handled
      simp only [if_pos null]
      exact first handled
    · rw [if_neg null] at handled
      simp only [if_neg null]
      cases text : state.userString r.ebx.toNat with
      | none => simp [text] at handled
      | some str =>
          simp only [text] at handled
          simp only [services, text]
          exact first handled
  all_goals exact first handled

/-! ## The call as its process sees it -/

/-- The registers of user code, where the handler looks for its arguments. -/
def contextRegs (context : Context) : Regs where
  gs := (context.seg .gs).setWidth 32
  fs := (context.seg .fs).setWidth 32
  es := (context.seg .es).setWidth 32
  ds := (context.seg .ds).setWidth 32
  edi := context.gpr .edi
  esi := context.gpr .esi
  ebp := context.gpr .ebp
  esp := context.esp
  ebx := context.gpr .ebx
  edx := context.gpr .edx
  ecx := context.gpr .ecx
  eax := context.gpr .eax
  intNo := 0x80
  errCode := 0
  eip := context.eip
  cs := context.cs.setWidth 32
  eflags := context.eflags
  useresp := context.esp
  ss := context.ss.setWidth 32

/-- The same number and the same arguments. -/
structure SameArguments (r q : Regs) : Prop where
  eax : r.eax = q.eax
  ebx : r.ebx = q.ebx
  ecx : r.ecx = q.ecx
  edx : r.edx = q.edx

variable {q : Regs} {context : Context}

theorem SavedFieldsRight.sameArguments
    (saved : SavedFieldsRight context r) :
    SameArguments r (contextRegs context) :=
  ⟨saved.eax, saved.ebx, saved.ecx, saved.edx⟩

theorem SameArguments.request (same : SameArguments r q) :
    state.request r = state.request q := by
  unfold SyscallState.request
  rw [same.eax, same.ebx, same.ecx, same.edx]

/-- A request is served for its arguments, whatever the other registers are. -/
theorem SameArguments.serve
    (same : SameArguments r q)
    (request : SyscallRequest) :
    (request.serve r state).1.eax = (request.serve q state).1.eax ∧
      (request.serve r state).2 = (request.serve q state).2 := by
  cases request
  all_goals first
    | exact ⟨same.eax, rfl⟩
    | exact ⟨rfl, rfl⟩

variable {stack kernelStack : Nat → Word} {kernelEsp : Word}
variable {called returned final : Cpu} {request : SyscallRequest}

/-- The record behind the call is the one that the handler leaves. -/
theorem SyscallRun.returned_eax
    {services : Services} {entered : Cpu}
    (syscall : SyscallRun services entered called returned final) :
    (regsAt returned.stack).eax =
      (syscallHandlerRegs services (regsAt called.stack)).eax := by
  have word := syscall.returns.stack 12 (by decide)
  simp only [storeResult, Function.update_self] at word
  exact word

end Registers

end MatrixOS
