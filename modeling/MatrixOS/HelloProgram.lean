import MatrixOS.StringRoutines
import MatrixOS.SystemRuns

namespace MatrixOS

open ByteMemory X86

/-!
# A program in user mode

`user/programs/hello.asm`, instruction by instruction, while keys are pressed
in between.  It loads `eax` once for many system calls, and so relies on the
handler to leave `eax` alone when it prints.
-/

/-! ## Programs without jumps -/

/-- The instructions of the program, with their immediate operands. -/
inductive UserInstr where
  | movAx (value : Selector)
  | movDsAx
  | movEsAx
  | movEax (value : Word)
  | movEbx (value : Word)
  /-- `int 0x80` -/
  | int80
  deriving Repr, DecidableEq

/-- The registers behind an instruction that is not a system call. -/
def UserInstr.moves (r : Regs) : UserInstr → Regs
  | movAx value => { r with eax := r.eax.extractLsb' 16 16 ++ value }
  | movDsAx => { r with ds := (r.eax.setWidth 16).setWidth 32 }
  | movEsAx => { r with es := (r.eax.setWidth 16).setWidth 32 }
  | movEax value => { r with eax := value }
  | movEbx value => { r with ebx := value }
  | int80 => r

/--
The instructions that are left, and the registers as a system call finds them.
A program whose instructions have run out jumps to itself.
-/
structure ProgramState where
  code : List UserInstr
  regs : Regs
  run : SystemRun

namespace ProgramState

/-- The next instruction; none when the handler does not return. -/
def exec (state : ProgramState) : Option ProgramState :=
  match state.code with
  | [] => some state
  | .int80 :: rest => do
      let request ← state.run.state.request state.regs
      let (last, next) ← state.run.state.syscallHandler state.regs
      some ⟨rest, last, state.run.served request last next⟩
  | instr :: rest =>
      some { state with code := rest, regs := instr.moves state.regs }

/-- A key is pressed, or the program goes on. -/
def step (state : ProgramState) : Option UInt8 → Option ProgramState
  | some sc => some { state with run := state.run.pressed sc }
  | none => state.exec

def runAll (state : ProgramState) (events : List (Option UInt8)) :
    Option ProgramState :=
  events.foldlM step state

end ProgramState

/-! ## What a program is about to print -/

/-- What `SYSCALL_PUTS` prints, call of `fb_puts` by call. -/
def putsTexts (str : List UInt8) : List (List UInt8) :=
  [cstr "[USER] " ++ [0], str ++ [0], cstr "\n" ++ [0]]

/-- The instructions print these texts and do nothing else. -/
inductive Promises (mem : Memory) :
    Regs → List UserInstr → List (List UInt8) → Prop where
  | done (r : Regs) : Promises mem r [] []
  | moves {r : Regs} {instr : UserInstr} {rest : List UserInstr}
      {texts : List (List UInt8)} :
      instr ≠ .int80 →
        Promises mem (instr.moves r) rest texts →
        Promises mem r (instr :: rest) texts
  | puts {r : Regs} {rest : List UserInstr} {str : List UInt8}
      {texts : List (List UInt8)} :
      r.eax = 2 →
        r.ebx ≠ 0 →
        stringAt mem (2 ^ 32) r.ebx.toNat = some str →
        r.ebx.toNat + str.length + 1 ≤ virtOffset →
        Promises mem r rest texts →
        Promises mem r (.int80 :: rest) (putsTexts str ++ texts)
  | putchar {r : Regs} {rest : List UserInstr}
      {texts : List (List UInt8)} :
      r.eax = 4 →
        Promises mem r rest texts →
        Promises mem r (.int80 :: rest)
          ([UInt8.ofNat r.ebx.toNat] :: texts)
  | exit {r : Regs} {rest : List UserInstr}
      {texts : List (List UInt8)} :
      r.eax = 1 →
        Promises mem r rest texts →
        Promises mem r (.int80 :: rest) texts

/-- The characters that keys have brought in. -/
def typedChars (events : List (Option UInt8)) : List UInt8 :=
  events.reduceOption.flatMap fun sc => (acceptedChar sc).toList

section Programs

variable {initial : SyscallState} {start : SystemRun}
variable {texts : List (List UInt8)} {state : ProgramState}

/-- A program on its way, after some keys. -/
structure OnItsWay
    (initial : SyscallState) (start : SystemRun) (texts : List (List UInt8))
    (keys : List UInt8) (state : ProgramState) : Prop where
  reached : SystemReachable initial state.run
  memory : state.run.state.vfs.mem = start.state.vfs.mem
  received : state.run.received = start.received
  accepted : state.run.accepted = start.accepted ++ keys
  promised : ∃ left,
    Promises start.state.vfs.mem state.regs state.code left ∧
      state.run.printed ++ left.map .text = start.printed ++ texts.map .text

/-! ### The three calls -/

section Calls

variable {r : Regs} {system : SyscallState} {str : List UInt8}

theorem SyscallState.request_puts
    (number : r.eax = 2)
    (notNull : r.ebx ≠ 0)
    (found : stringAt system.vfs.mem (2 ^ 32) r.ebx.toNat = some str) :
    system.request r = some (.puts str) := by
  have pointer : r.ebx.toNat ≠ 0 := fun zero =>
    notNull (toNat_eq_zero_iff.mp zero)
  simp only [SyscallState.request, number]
  change (if _ then _ else _) = _
  rw [if_pos pointer, SyscallState.userString, found]
  rfl

theorem SyscallState.request_putchar (number : r.eax = 4) :
    system.request r = some (.putchar (UInt8.ofNat r.ebx.toNat)) := by
  simp only [SyscallState.request, number]
  rfl

theorem SyscallState.request_exit (number : r.eax = 1) :
    system.request r = some .exit := by
  simp only [SyscallState.request, number]
  rfl

theorem SyscallState.userPointers_puts
    (number : r.eax = 2)
    (found : stringAt system.vfs.mem (2 ^ 32) r.ebx.toNat = some str)
    (below : r.ebx.toNat + str.length + 1 ≤ virtOffset) :
    system.UserPointers r := by
  simp only [SyscallState.UserPointers, number]
  change system.TextBelow r.ebx.toNat
  intro text isText
  obtain rfl := Option.some.inj (found.symm.trans isText)
  exact below

theorem SyscallState.userPointers_putchar (number : r.eax = 4) :
    system.UserPointers r := by
  simp only [SyscallState.UserPointers, number]
  trivial

theorem SyscallState.userPointers_exit (number : r.eax = 1) :
    system.UserPointers r := by
  simp only [SyscallState.UserPointers, number]
  trivial

end Calls

/-- A call that prints keeps the program on its way. -/
theorem OnItsWay.call
    {keys : List UInt8} {rest : List UserInstr} {request : SyscallRequest}
    {next : SyscallState} {now left : List (List UInt8)}
    (onItsWay : OnItsWay initial start texts keys state)
    (code : state.code = .int80 :: rest)
    (pointers : state.run.state.UserPointers state.regs)
    (asked : state.run.state.request state.regs = some request)
    (serves : request.serve state.regs state.run.state = (state.regs, next))
    (sameMem : next.vfs.mem = state.run.state.vfs.mem)
    (takesNothing :
      request.receives state.run.state.vfs state.regs next = [])
    (prints : request.prints state.run.state.vfs = now.map .text)
    (promised : Promises start.state.vfs.mem state.regs rest left)
    (printed : state.run.printed ++ (now ++ left).map .text =
      start.printed ++ texts.map .text) :
    ∃ later, state.exec = some later ∧
      OnItsWay initial start texts keys later ∧ later.code = rest := by
  have handled := SyscallState.syscallHandler_eq state.regs state.run.state
  rw [asked, Option.map_some, serves] at handled
  refine ⟨⟨rest, state.regs, state.run.served request state.regs next⟩,
    by rw [ProgramState.exec, code, asked, handled]; rfl, ?_, rfl⟩
  refine ⟨onItsWay.reached.syscall pointers asked handled,
    sameMem.trans onItsWay.memory, ?_, onItsWay.accepted, left, promised, ?_⟩
  · simp only [SystemRun.served, takesNothing, List.append_nil]
    exact onItsWay.received
  · simp only [SystemRun.served, prints, List.append_assoc, ← List.map_append]
    exact printed

/-- The program goes on; it never gets stuck. -/
theorem OnItsWay.exec
    {keys : List UInt8}
    (onItsWay : OnItsWay initial start texts keys state) :
    ∃ next, state.exec = some next ∧
      OnItsWay initial start texts keys next ∧
      next.code = state.code.drop 1 := by
  obtain ⟨left, promised, printed⟩ := onItsWay.promised
  have memory := onItsWay.memory
  obtain ⟨code, regs, run⟩ := state
  cases promised with
  | done =>
      exact ⟨_, rfl, onItsWay, rfl⟩
  | @moves _ instr rest _ notCall later =>
      refine ⟨⟨rest, instr.moves regs, run⟩, ?_,
        ⟨onItsWay.reached, memory, onItsWay.received, onItsWay.accepted,
          left, later, printed⟩, rfl⟩
      cases instr with
      | int80 => exact absurd rfl notCall
      | _ => rfl
  | puts number notNull found below later =>
      rw [← memory] at found
      exact onItsWay.call rfl
        (SyscallState.userPointers_puts number found below)
        (SyscallState.request_puts number notNull found) rfl rfl rfl rfl
        later printed
  | putchar number later =>
      exact onItsWay.call rfl (SyscallState.userPointers_putchar number)
        (SyscallState.request_putchar number) rfl rfl rfl
        (show _ = [_].map Printed.text from rfl) later printed
  | exit number later =>
      exact onItsWay.call rfl (SyscallState.userPointers_exit number)
        (SyscallState.request_exit number) rfl rfl rfl
        (show _ = [].map Printed.text from rfl) later printed

theorem OnItsWay.key
    {keys : List UInt8}
    (onItsWay : OnItsWay initial start texts keys state)
    (sc : UInt8) :
    OnItsWay initial start texts (keys ++ (acceptedChar sc).toList)
      { state with run := state.run.pressed sc } where
  reached := onItsWay.reached.key sc
  memory := onItsWay.memory
  received := onItsWay.received
  accepted := by
    rw [← List.append_assoc, ← onItsWay.accepted]
    rfl
  promised := onItsWay.promised

/-- Whatever keys are pressed between its instructions, the program goes on. -/
theorem OnItsWay.runAll
    {keys : List UInt8}
    (onItsWay : OnItsWay initial start texts keys state)
    (events : List (Option UInt8)) :
    ∃ final, state.runAll events = some final ∧
      OnItsWay initial start texts (keys ++ typedChars events) final ∧
      final.code = state.code.drop (events.count none) := by
  induction events generalizing state keys with
  | nil =>
      refine ⟨state, rfl, ?_, rfl⟩
      rwa [show typedChars [] = [] from rfl, List.append_nil]
  | cons event events inductionHypothesis =>
      cases event with
      | none =>
          obtain ⟨next, goesOn, keeps, shorter⟩ := onItsWay.exec
          obtain ⟨final, ends, right, code⟩ := inductionHypothesis keeps
          refine ⟨final, ?_, right, ?_⟩
          · rw [ProgramState.runAll, List.foldlM_cons, ProgramState.step, goesOn]
            exact ends
          · rw [code, shorter, List.drop_drop, List.count_cons_self,
              Nat.add_comm]
      | some sc =>
          obtain ⟨final, ends, right, code⟩ :=
            inductionHypothesis (onItsWay.key sc)
          refine ⟨final, ends, ?_, ?_⟩
          · rw [List.append_assoc] at right
            exact right
          · rw [code, List.count_cons_of_ne (by simp)]

/-- What is left to print is nothing when no instruction is left. -/
theorem OnItsWay.printed_of_done
    {keys : List UInt8}
    (onItsWay : OnItsWay initial start texts keys state)
    (done : state.code = []) :
    state.run.printed = start.printed ++ texts.map .text := by
  obtain ⟨left, promised, printed⟩ := onItsWay.promised
  rw [done] at promised
  cases promised
  simpa using printed

end Programs

/-! ## The program -/

/-- A system call for each character, with the number in `eax` already. -/
def putChars (text : List UInt8) : List UserInstr :=
  text.flatMap fun c => [.movEbx (BitVec.ofNat 32 c.toNat), .int80]

/-- `hello.asm` from `_start` to `.hang`, with the addresses of its strings. -/
def hello (welcomeMsg infoMsg : Word) : List UserInstr :=
  [.movAx 0x23, .movDsAx, .movEsAx,
    .movEax 2, .movEbx welcomeMsg, .int80,
    .movEax 4] ++ putChars (cstr "==> User Mode\n") ++
  [.movEax 2, .movEbx infoMsg, .int80,
    .movEax 1, .int80]

def helloTexts : List (List UInt8) :=
  putsTexts (cstr "MatrixOS User Program Started") ++
    (cstr "==> User Mode\n").map ([·]) ++
    putsTexts (cstr "System calls working correctly!")

theorem promises_putChars
    {mem : Memory} {rest : List UserInstr} {texts : List (List UInt8)}
    {r : Regs}
    (text : List UInt8)
    (number : r.eax = 4)
    (later : ∀ r : Regs, Promises mem r rest texts) :
    Promises mem r (putChars text ++ rest) (text.map ([·]) ++ texts) := by
  induction text generalizing r with
  | nil =>
      exact later r
  | cons c text inductionHypothesis =>
      have byte : UInt8.ofNat (BitVec.ofNat 32 c.toNat).toNat = c := by
        have small := c.toNat_lt
        rw [BitVec.toNat_ofNat, Nat.mod_eq_of_lt (by omega), UInt8.ofNat_toNat]
      have printed :
          Promises mem { r with ebx := BitVec.ofNat 32 c.toNat }
            (.int80 :: (putChars text ++ rest)) _ :=
        .putchar number (inductionHypothesis number)
      rw [byte] at printed
      exact .moves (by simp) printed

section Hello

variable {mem : Memory} {welcomeMsg infoMsg : Word}

/-- The handler finds a string that lies in memory. -/
theorem CString.stringAt_eq
    {str fuel : Nat} {text : List UInt8}
    (string : CString mem str text)
    (enough : text.length < fuel) :
    stringAt mem fuel str = some text := by
  induction text generalizing str fuel with
  | nil =>
      obtain ⟨fuel, rfl⟩ : ∃ less, fuel = less + 1 := ⟨fuel - 1, by omega⟩
      rw [stringAt, if_pos string.ends]
  | cons c text inductionHypothesis =>
      obtain ⟨fuel, rfl⟩ : ∃ less, fuel = less + 1 := ⟨fuel - 1, by omega⟩
      obtain ⟨byte, nonzero, noWrap, tail⟩ := string.head
      rw [List.length_cons] at enough
      rw [stringAt, byte, if_neg nonzero, noWrap,
        inductionHypothesis tail (by omega)]
      rfl

/-- The strings of the program are in memory, in the half of the processes. -/
structure HelloLoaded (mem : Memory) (welcomeMsg infoMsg : Word) : Prop where
  welcome : CString mem welcomeMsg.toNat (cstr "MatrixOS User Program Started")
  info : CString mem infoMsg.toNat (cstr "System calls working correctly!")
  welcomeBelow : welcomeMsg ≠ 0 ∧ welcomeMsg.toNat + 30 ≤ virtOffset
  infoBelow : infoMsg ≠ 0 ∧ infoMsg.toNat + 32 ≤ virtOffset

/-- What the program has to say, whatever the registers hold at its start. -/
theorem HelloLoaded.promises
    (loaded : HelloLoaded mem welcomeMsg infoMsg)
    (r : Regs) :
    Promises mem r (hello welcomeMsg infoMsg) helloTexts := by
  have welcome : stringAt mem (2 ^ 32) welcomeMsg.toNat = _ :=
    loaded.welcome.stringAt_eq (by decide)
  have info : stringAt mem (2 ^ 32) infoMsg.toNat = _ :=
    loaded.info.stringAt_eq (by decide)
  have ending (r : Regs) :
      Promises mem r
        [.movEax 2, .movEbx infoMsg, .int80, .movEax 1, .int80]
        (putsTexts (cstr "System calls working correctly!")) := by
    rw [← List.append_nil (putsTexts _)]
    refine .moves (by simp) (.moves (by simp) ?_)
    refine .puts rfl loaded.infoBelow.1 info loaded.infoBelow.2 ?_
    exact .moves (by simp) (.exit rfl (.done _))
  rw [hello, helloTexts, List.append_assoc, List.append_assoc]
  refine .moves (by simp) (.moves (by simp) (.moves (by simp)
    (.moves (by simp) (.moves (by simp) ?_))))
  refine .puts rfl loaded.welcomeBelow.1 welcome loaded.welcomeBelow.2 ?_
  exact .moves (by simp) (promises_putChars _ rfl ending)

end Hello

/-! ## From boot on -/

section Boot

variable {modules : List ModuleInfo} {ramfsNode devfsNode : Nat}
variable {before : VfsState} {messages : List (List UInt8)}
variable {fb : Nat → UInt8} {hardwareCursor : Nat}
variable {welcomeMsg infoMsg : Word}

theorem sinceClear_texts (texts : List (List UInt8)) :
    sinceClear (texts.map .text) = texts.flatten := by
  induction texts using List.reverseRecOn with
  | nil =>
      rfl
  | append_singleton texts last inductionHypothesis =>
      rw [List.map_append, List.map_singleton, sinceClear_text,
        inductionHypothesis, List.flatten_append, List.flatten_singleton]

/-- No tabs and no backspaces. -/
theorem ordinary_of_all
    {text : List UInt8}
    (checked : text.all fun c => c != 9 && c != 8) :
    ∀ c ∈ text, c ≠ 9 ∧ c ≠ 8 := by
  intro c member
  simpa using List.all_eq_true.mp checked c member

theorem helloTexts_all :
    helloTexts.flatten.all fun c => c != 9 && c != 8 := by
  decide

theorem bootVfsInit_mem :
    (bootVfsInit modules ramfsNode devfsNode before).mem = before.mem := by
  obtain ⟨fsList, boot⟩ := bootVfsInit_tables modules ramfsNode devfsNode before
  rw [boot]
  rfl

/-- The program `hello` after some events, on a system that has booted. -/
structure HelloRan
    (boot : SyscallState) (terminal : Terminal (UInt8 × UInt8))
    (program : List UserInstr) (events : List (Option UInt8))
    (final : ProgramState) : Prop where
  reached : SystemReachable boot final.run
  memory : final.run.state.vfs.mem = boot.vfs.mem
  keys : final.run.overrun = false →
    final.run.state.vfs.keyboard.unread = typedChars events
  code : final.code = program.drop (events.count none)
  inOrder : final.run.printed <+: helloTexts.map .text
  shown : final.code = [] → IsWindow terminal final.run.state.vfs.screen

/-- Memory with the two strings of the program. -/
def helloMemory : Memory :=
  ByteStrings.place
    (ByteStrings.place (fun _ => 0) 0x100
      (cstr "MatrixOS User Program Started" ++ [0]))
    0x140 (cstr "System calls working correctly!" ++ [0])

theorem helloMemory_loaded : HelloLoaded helloMemory 0x100 0x140 := by
  have welcome := stringAt_place
    (show 0 ∉ cstr "MatrixOS User Program Started" by decide) (fun _ => 0) 0x100
  have welcomeLength : (cstr "MatrixOS User Program Started").length = 29 := by
    decide
  refine ⟨⟨⟨welcome.noNul, fun offset inside => ?_, ?_⟩, by decide⟩,
    ⟨stringAt_place (by decide) _ 0x140, by decide⟩, by decide, by decide⟩
  · change helloMemory (0x100 + offset) = _
    rw [helloMemory, ByteStrings.place_of_outside (by omega)]
    exact welcome.bytes offset inside
  · change helloMemory (0x100 + _) = 0
    rw [helloMemory, ByteStrings.place_of_outside (by omega)]
    exact welcome.ends

end Boot

end MatrixOS
