import MatrixOS.PicSetup
import Mathlib.Data.List.Infix

namespace MatrixOS

open PortProgram

/-!
# Setting up the keyboard

`keyboard_init` of `kernel/interrupts/keyboard.c` and the controller that it
talks to.  Interrupts are on, so that the handler may read a byte which
`keyboard_init` waits for.  The messages on the serial port are left out.
-/

namespace KeyboardSetup

/-! ## The functions -/

/-- The messages with which `keyboard_init` returns. -/
inductive InitEnd where
  | timeout1
  | timeout2
  | timeout3
  | noData
  | initDone
  deriving Repr, DecidableEq

/-- `while (--timeout && again(inb(0x64)));`, with the time that is left. -/
def waitWhile (again : UInt8 → Bool) : Nat → PortProgram UInt16 UInt8 Nat
  | 0 => return 0
  | timeout + 1 =>
      if timeout = 0 then
        return 0
      else do
        let status ← inb 0x64
        if again status then waitWhile again timeout else return timeout

/-- The bit of the status for a byte that the controller has not taken. -/
def inputFull (status : UInt8) : Bool :=
  status &&& 0x02 != 0

/-- The bit of the status for a byte that waits to be read. -/
def outputFull (status : UInt8) : Bool :=
  status &&& 0x01 != 0

/-- The loop of `keyboard_init` that empties the output buffer. -/
def drainOutput : PortProgram UInt16 UInt8 Unit :=
  whileLoop do
    let status ← inb 0x64
    if outputFull status then
      let _ ← inb 0x60
      return true
    else
      return false

/-- `keyboard_init`. -/
def keyboardInit : PortProgram UInt16 UInt8 InitEnd := do
  let timeout ← waitWhile inputFull 10000
  if timeout = 0 then
    return .timeout1
  outb 0x64 0xAD
  let timeout ← waitWhile inputFull 10000
  if timeout = 0 then
    return .timeout2
  outb 0x64 0xA7
  drainOutput
  outb 0x64 0xAE
  let timeout ← waitWhile inputFull 10000
  if timeout = 0 then
    return .timeout3
  outb 0x60 0xF4
  let timeout ← waitWhile (fun status => !outputFull status) 10000
  if timeout = 0 then
    return .noData
  return .initDone

/-- The accesses of `interrupt_handler` and its stub for a key. -/
def keyHandler : PortProgram UInt16 UInt8 Unit := do
  let _ ← inb 0x60
  PicSetup.picEoi 1
  outb 0x20 0x20

/-! ## The controller -/

/-- An 8042: a byte for it, a byte from it, and the bytes that it has taken. -/
structure Controller where
  input : Option (UInt16 × UInt8)
  output : Option UInt8
  taken : List (UInt16 × UInt8)
  deriving Repr, DecidableEq

namespace Controller

/-- A byte that was not taken yet is lost. -/
def write (port : UInt16) (byte : UInt8) (controller : Controller) : Controller :=
  if port = 0x60 ∨ port = 0x64 then
    { controller with input := some (port, byte) }
  else
    controller

/-- The bytes that reach the controller, the last one maybe not yet. -/
def accepted (controller : Controller) : List (UInt16 × UInt8) :=
  controller.taken ++ controller.input.toList

end Controller

/-- It takes its byte at some time, and has one for the kernel at another. -/
inductive ControllerMoves (before : Controller) : Controller → Prop where
  | takes
      {byte : UInt16 × UInt8}
      (input : before.input = some byte) :
      ControllerMoves before
        { before with input := none, taken := before.taken ++ [byte] }
  | answers
      (byte : UInt8)
      (output : before.output = none) :
      ControllerMoves before { before with output := some byte }

/-- The controller at its ports. -/
def controllerDevice : PortDevice UInt16 UInt8 Controller where
  write := Controller.write
  Reads port before byte after :=
    if port = 0x60 then
      after = { before with output := none } ∧ before.output.all (· = byte)
    else
      after = before ∧ (port = 0x64 →
        inputFull byte = before.input.isSome ∧
          outputFull byte = before.output.isSome)
  Moves := ControllerMoves

/-! ## What it accepts -/

/-- Behind the bytes of the firmware the controller has got one of some lists. -/
def Accepts
    (firmware : List (UInt16 × UInt8))
    (commands : List (List (UInt16 × UInt8)))
    (controller : Controller) : Prop :=
  ∃ sent ∈ commands, controller.accepted = firmware ++ sent

/-- The same bytes were accepted, and nothing was put in front of the controller. -/
structure Kept (before after : Controller) : Prop where
  accepted : after.accepted = before.accepted
  input : before.input = none → after.input = none

theorem Kept.trans
    {before middle after : Controller}
    (first : Kept before middle)
    (second : Kept middle after) :
    Kept before after where
  accepted := second.accepted.trans first.accepted
  input := second.input ∘ first.input

theorem kept_moves
    {before after : Controller}
    (moves : ControllerMoves before after) :
    Kept before after := by
  cases moves with
  | takes input =>
      exact ⟨by simp [Controller.accepted, input], fun _ => rfl⟩
  | answers byte output =>
      exact ⟨rfl, id⟩

theorem kept_stable (before : Controller) : controllerDevice.Stable (Kept before) :=
  fun _ _ kept moves => kept.trans (kept_moves moves)

/-- A read of a port keeps what was accepted. -/
theorem kept_reads
    {port : UInt16} {byte : UInt8} {before after : Controller}
    (reads : controllerDevice.Reads port before byte after) :
    Kept before after := by
  simp only [controllerDevice] at reads
  split at reads
  · rw [reads.1]
    exact ⟨rfl, id⟩
  · rw [reads.1]
    exact ⟨rfl, id⟩

/-- The handler reads a byte and has nothing for the controller. -/
theorem keyHandler_keeps
    {always : Controller → Prop}
    (before : Controller)
    (safe : ∀ now, Kept before now → always now) :
    keyHandler.Guarantees controllerDevice always (fun _ => Kept before)
      before := by
  have read : (inb 0x60 : PortProgram UInt16 UInt8 UInt8).Guarantees
      controllerDevice always (fun _ => Kept before) before :=
    guarantees_inb (kept_stable before) (fun _ => kept_stable before) safe
      (fun _ => safe) (fun _ _ _ kept reads => kept.trans (kept_reads reads))
      ⟨rfl, id⟩
  have eoi : ∀ now, Kept before now →
      (outb 0x20 0x20 : PortProgram UInt16 UInt8 Unit).Guarantees
        controllerDevice always (fun _ => Kept before) now :=
    fun _ => guarantees_outb (kept_stable before) (kept_stable before) safe safe
      (fun _ => id)
  refine Guarantees.bind (read.mono fun _ now kept => ?_)
  exact Guarantees.bind ((eoi now kept).mono fun _ => eoi)

/-- The controller while keys interrupt. -/
def interruptedDevice : PortDevice UInt16 UInt8 Controller :=
  withHandlers controllerDevice (· = keyHandler)

theorem interrupted_moves
    {before after : Controller}
    (moves : interruptedDevice.Moves before after) :
    Kept before after := by
  rcases moves with alone | ⟨handler, rfl, runs⟩
  · exact kept_moves alone
  · exact (((keyHandler_keeps before fun _ => id).runs runs) after .refl).2

section Commands

variable {firmware : List (UInt16 × UInt8)}
variable {commands : List (List (UInt16 × UInt8))}
variable {always : Controller → Prop} {controller : Controller}

/-- Nothing is in front of the controller. -/
def Ready
    (firmware : List (UInt16 × UInt8))
    (commands : List (List (UInt16 × UInt8)))
    (controller : Controller) : Prop :=
  Accepts firmware commands controller ∧ controller.input = none

theorem Accepts.kept
    {later : Controller}
    (accepts : Accepts firmware commands controller)
    (kept : Kept controller later) :
    Accepts firmware commands later := by
  obtain ⟨sent, member, same⟩ := accepts
  exact ⟨sent, member, kept.accepted.trans same⟩

theorem accepts_stable :
    interruptedDevice.Stable (Accepts firmware commands) :=
  fun _ _ accepts moves => accepts.kept (interrupted_moves moves)

theorem ready_stable : interruptedDevice.Stable (Ready firmware commands) := by
  rintro before after ⟨accepts, none⟩ moves
  have kept := interrupted_moves moves
  exact ⟨accepts.kept kept, kept.input none⟩

/-- A read of the status changes nothing. -/
theorem reads_status
    {before after : Controller} {byte : UInt8}
    (reads : interruptedDevice.Reads 0x64 before byte after) :
    after = before ∧ inputFull byte = before.input.isSome :=
  ⟨reads.1, (reads.2 rfl).1⟩

/-- A wait that has not run out of time has seen what it waited for. -/
theorem guarantees_waitWhile
    {again : UInt8 → Bool} {ready : Controller → Prop}
    (stable : interruptedDevice.Stable ready)
    (seen : ∀ now byte, Accepts firmware commands now →
      interruptedDevice.Reads 0x64 now byte now → again byte = false → ready now)
    (safe : ∀ now, Accepts firmware commands now → always now)
    (timeout : Nat)
    (accepts : Accepts firmware commands controller) :
    (waitWhile again timeout).Guarantees interruptedDevice always
      (fun left after => Accepts firmware commands after ∧
        (left ≠ 0 → ready after)) controller := by
  have ends : ∀ left now, Accepts firmware commands now →
      (left ≠ 0 → ready now) →
      (.done left : PortProgram UInt16 UInt8 Nat).Guarantees interruptedDevice
        always (fun left after => Accepts firmware commands after ∧
          (left ≠ 0 → ready after)) now := by
    intro left now acceptsNow isReady
    refine guarantees_done ?_ (fun after holds => safe after holds.1)
      ⟨acceptsNow, isReady⟩
    exact fun before after holds moves =>
      ⟨accepts_stable before after holds.1 moves,
        fun positive => stable before after (holds.2 positive) moves⟩
  have timedOut : ∀ now, Accepts firmware commands now → _ :=
    fun now acceptsNow => ends 0 now acceptsNow fun positive =>
      absurd rfl positive
  induction timeout generalizing controller with
  | zero => exact timedOut controller accepts
  | succ timeout inductionHypothesis =>
      rw [waitWhile]
      split
      · exact timedOut controller accepts
      intro now settles
      have atRead := accepts_stable.settles accepts settles
      refine ⟨safe now atRead, fun byte next reads => ?_⟩
      obtain rfl := (reads_status reads).1
      change Guarantees _ _
        (if again byte = true then waitWhile again timeout else .done timeout)
        _ _
      split
      · exact inductionHypothesis atRead
      · rename_i leaves
        exact ends timeout _ atRead fun _ =>
          seen _ byte atRead reads (Bool.eq_false_iff.mpr leaves)

/-- The kernel waits until nothing is in front of the controller. -/
theorem guarantees_waitInput
    (safe : ∀ now, Accepts firmware commands now → always now)
    (timeout : Nat)
    (accepts : Accepts firmware commands controller) :
    (waitWhile inputFull timeout).Guarantees interruptedDevice always
      (fun left after => Accepts firmware commands after ∧
        (left ≠ 0 → Ready firmware commands after)) controller := by
  refine guarantees_waitWhile ready_stable (fun now byte acceptsNow reads empty => ?_)
    safe timeout accepts
  have input : now.input.isSome = false := (reads_status reads).2.symm.trans empty
  exact ⟨acceptsNow, Option.isSome_eq_false_iff.mp input |> Option.isNone_iff_eq_none.mp⟩

/-- A byte for a controller with nothing in front of it is not lost. -/
theorem guarantees_command
    {port : UInt16} {byte : UInt8}
    (ofController : port = 0x60 ∨ port = 0x64)
    (safe : ∀ now, Accepts firmware commands now → always now)
    (safeAfter : ∀ now,
      Accepts firmware (commands.map (· ++ [(port, byte)])) now → always now)
    (ready : Ready firmware commands controller) :
    (outb port byte).Guarantees interruptedDevice always
      (fun _ => Accepts firmware (commands.map (· ++ [(port, byte)])))
      controller := by
  refine guarantees_outb ready_stable accepts_stable
    (fun now isReady => safe now isReady.1) safeAfter ?_ ready
  rintro now ⟨⟨sent, member, same⟩, none⟩
  refine ⟨sent ++ [(port, byte)], List.mem_map_of_mem member, ?_⟩
  change (now.write port byte).accepted = _
  have taken : now.taken = firmware ++ sent := by
    rw [← same, Controller.accepted, none, Option.toList_none, List.append_nil]
  rw [Controller.write, if_pos ofController, Controller.accepted, taken,
    List.append_assoc]
  rfl

theorem guarantees_drainOutput
    (safe : ∀ now, Accepts firmware commands now → always now)
    (accepts : Accepts firmware commands controller) :
    drainOutput.Guarantees interruptedDevice always
      (fun _ => Accepts firmware commands) controller := by
  refine guarantees_whileLoop accepts_stable accepts_stable safe safe ?_ accepts
  intro now acceptsNow polled settles
  have atPoll := accepts_stable.settles acceptsNow settles
  refine ⟨safe polled atPoll, fun status next reads => ?_⟩
  obtain rfl := (reads_status reads).1
  change Guarantees _ _
    (if outputFull status = true then
      (inb 0x60).bind fun _ => .done true else .done false) _ _
  split
  · have read : (inb 0x60 : PortProgram UInt16 UInt8 UInt8).Guarantees
        interruptedDevice always (fun _ => Accepts firmware commands) next :=
      guarantees_inb accepts_stable (fun _ => accepts_stable) safe (fun _ => safe)
        (fun now byte found before reads => before.kept (kept_reads
          (show controllerDevice.Reads 0x60 now byte found from reads))) atPoll
    refine Guarantees.bind (read.mono fun _ after acceptsAfter => ?_)
    exact guarantees_done accepts_stable safe acceptsAfter
  · exact guarantees_done accepts_stable safe atPoll

end Commands

/-! ## The commands -/

abbrev disableKeyboard : UInt16 × UInt8 := (0x64, 0xAD)

abbrev disableAux : UInt16 × UInt8 := (0x64, 0xA7)

abbrev enableKeyboard : UInt16 × UInt8 := (0x64, 0xAE)

abbrev enableScanning : UInt16 × UInt8 := (0x60, 0xF4)

/-- The controller may not have taken the second command before the third. -/
def enabled : List (List (UInt16 × UInt8)) :=
  [[disableKeyboard, disableAux, enableKeyboard],
    [disableKeyboard, enableKeyboard]]

/-- What the controller has accepted when `keyboard_init` returns. -/
def commandsAt : InitEnd → List (List (UInt16 × UInt8))
  | .timeout1 => [[]]
  | .timeout2 => [[disableKeyboard]]
  | .timeout3 => enabled
  | .noData => enabled.map (· ++ [enableScanning])
  | .initDone => enabled.map (· ++ [enableScanning])

/-- A part of the commands, in their order. -/
def Begun
    (firmware : List (UInt16 × UInt8))
    (controller : Controller) : Prop :=
  ∃ sent, (sent <+: [disableKeyboard, disableAux, enableKeyboard, enableScanning] ∨
    sent <+: [disableKeyboard, enableKeyboard, enableScanning]) ∧
    controller.accepted = firmware ++ sent

section Init

variable {firmware : List (UInt16 × UInt8)} {controller : Controller}

theorem Accepts.begun
    {commands : List (List (UInt16 × UInt8))}
    (parts : ∀ sent ∈ commands,
      sent <+: [disableKeyboard, disableAux, enableKeyboard, enableScanning] ∨
        sent <+: [disableKeyboard, enableKeyboard, enableScanning])
    (accepts : Accepts firmware commands controller) :
    Begun firmware controller := by
  obtain ⟨sent, member, same⟩ := accepts
  exact ⟨sent, parts sent member, same⟩

/-- The command that is not waited for may take the place of the one before. -/
theorem guarantees_enableKeyboard
    (accepts : Accepts firmware [[disableKeyboard, disableAux]] controller) :
    (outb 0x64 0xAE).Guarantees interruptedDevice (Begun firmware)
      (fun _ => Accepts firmware enabled) controller := by
  refine guarantees_outb accepts_stable accepts_stable
    (fun now => Accepts.begun (by decide))
    (fun now => Accepts.begun (by decide)) ?_ accepts
  rintro now ⟨sent, member, same⟩
  obtain rfl := List.mem_singleton.mp member
  have written : ((now.write 0x64 0xAE).accepted : List (UInt16 × UInt8)) =
      now.taken ++ [enableKeyboard] := rfl
  change Accepts firmware enabled (now.write 0x64 0xAE)
  cases waits : now.input with
  | none =>
      refine ⟨_, List.mem_cons_self .., ?_⟩
      rw [Controller.accepted, waits, Option.toList_none, List.append_nil] at same
      rw [written, same, List.append_assoc]
      rfl
  | some byte =>
      refine ⟨_, List.mem_cons_of_mem _ (List.mem_cons_self ..), ?_⟩
      rw [Controller.accepted, waits, Option.toList_some,
        show [disableKeyboard, disableAux] = [disableKeyboard] ++ [disableAux]
          from rfl, ← List.append_assoc] at same
      rw [written, (List.append_inj' same rfl).1, List.append_assoc]
      rfl

/-- `keyboard_init` returns with the commands that its message tells. -/
theorem guarantees_ending
    (ending : InitEnd)
    (accepts : Accepts firmware (commandsAt ending) controller) :
    (.done ending : PortProgram UInt16 UInt8 InitEnd).Guarantees
      interruptedDevice (Begun firmware)
      (fun ending => Accepts firmware (commandsAt ending)) controller := by
  refine guarantees_done accepts_stable (fun after => Accepts.begun ?_) accepts
  cases ending <;> decide

/-- A wait that runs out of time ends `keyboard_init`, others go on. -/
theorem guarantees_waitThen
    {rest : PortProgram UInt16 UInt8 InitEnd}
    (ending : InitEnd)
    (accepts : Accepts firmware (commandsAt ending) controller)
    (continues : ∀ now, Ready firmware (commandsAt ending) now →
      rest.Guarantees interruptedDevice (Begun firmware)
        (fun ending => Accepts firmware (commandsAt ending)) now) :
    ((waitWhile inputFull 10000).bind fun timeout =>
      if timeout = 0 then .done ending else rest).Guarantees interruptedDevice
      (Begun firmware) (fun ending => Accepts firmware (commandsAt ending))
      controller := by
  have safe : ∀ now, Accepts firmware (commandsAt ending) now →
      Begun firmware now := by
    intro now
    refine Accepts.begun ?_
    cases ending <;> decide
  refine Guarantees.bind ((guarantees_waitInput safe 10000 accepts).mono ?_)
  rintro left now ⟨accepts, ready⟩
  split
  · exact guarantees_ending ending accepts
  · rename_i inTime
    exact continues now (ready inTime)

/-- A command that was waited for, and what follows it. -/
theorem guarantees_commandThen
    {commands : List (List (UInt16 × UInt8))}
    {port : UInt16} {byte : UInt8}
    {rest : PortProgram UInt16 UInt8 InitEnd}
    (ofController : port = 0x60 ∨ port = 0x64)
    (parts : ∀ sent ∈ commands ++ commands.map (· ++ [(port, byte)]),
      sent <+: [disableKeyboard, disableAux, enableKeyboard, enableScanning] ∨
        sent <+: [disableKeyboard, enableKeyboard, enableScanning])
    (ready : Ready firmware commands controller)
    (continues : ∀ now,
      Accepts firmware (commands.map (· ++ [(port, byte)])) now →
      rest.Guarantees interruptedDevice (Begun firmware)
        (fun ending => Accepts firmware (commandsAt ending)) now) :
    ((outb port byte).bind fun _ => rest).Guarantees interruptedDevice
      (Begun firmware) (fun ending => Accepts firmware (commandsAt ending))
      controller :=
  Guarantees.bind ((guarantees_command ofController
    (fun _ => Accepts.begun fun sent member =>
      parts sent (List.mem_append_left _ member))
    (fun _ => Accepts.begun fun sent member =>
      parts sent (List.mem_append_right _ member)) ready).mono
    fun _ => continues)

theorem keyboardInit_guarantees (controller : Controller) :
    keyboardInit.Guarantees interruptedDevice (Begun controller.accepted)
      (fun ending => Accepts controller.accepted (commandsAt ending))
      controller := by
  have start : Accepts controller.accepted [[]] controller :=
    ⟨[], List.mem_singleton.mpr rfl, (List.append_nil _).symm⟩
  refine guarantees_waitThen .timeout1 start fun now ready => ?_
  refine guarantees_commandThen (Or.inr rfl) (by decide) ready
    fun now accepts => ?_
  refine guarantees_waitThen .timeout2 accepts fun now ready => ?_
  refine guarantees_commandThen (Or.inr rfl) (by decide) ready
    fun now accepts => ?_
  refine Guarantees.bind ((guarantees_drainOutput
    (fun _ => Accepts.begun (by decide)) accepts).mono fun _ now accepts => ?_)
  refine Guarantees.bind ((guarantees_enableKeyboard accepts).mono
    fun _ now accepts => ?_)
  refine guarantees_waitThen .timeout3 accepts fun now ready => ?_
  refine guarantees_commandThen (Or.inl rfl) (by decide) ready
    fun now accepts => ?_
  have waits : (waitWhile (fun status => !outputFull status) 10000).Guarantees
      interruptedDevice (Begun controller.accepted) _ now :=
    guarantees_waitWhile (fun _ _ (holds : True) _ => holds)
      (fun _ _ _ _ _ => trivial) (fun _ => Accepts.begun (by decide)) 10000
      accepts
  refine Guarantees.bind (waits.mono ?_)
  rintro left now ⟨accepts, _⟩
  split
  · exact guarantees_ending .noData accepts
  · exact guarantees_ending .initDone accepts

/-- Whether the commands leave the keyboard on. -/
def keyboardOn (before : Bool) (commands : List (UInt16 × UInt8)) : Bool :=
  commands.foldl
    (fun on command =>
      if command = disableKeyboard then false
      else if command = enableKeyboard then true
      else on)
    before

/-- The keyboard is off behind the second wait, and on behind the later ones. -/
def onAt (before : Bool) : InitEnd → Bool
  | .timeout1 => before
  | .timeout2 => false
  | .timeout3 => true
  | .noData => true
  | .initDone => true

theorem keyboardOn_commandsAt (before : Bool) (ending : InitEnd) :
    ∀ sent ∈ commandsAt ending, keyboardOn before sent = onAt before ending := by
  cases ending <;> cases before <;> decide

end Init

/-- A wait whose first poll sees what it waits for. -/
theorem waitWhile_runs
    {again : UInt8 → Bool} {controller : Controller}
    (status : UInt8)
    (input : inputFull status = controller.input.isSome)
    (output : outputFull status = controller.output.isSome)
    (leaves : again status = false) :
    Runs controllerDevice (waitWhile again 10000, controller)
      (.done 9999, controller) := by
  have reads : controllerDevice.Reads 0x64 controller status controller :=
    ⟨rfl, fun _ => ⟨input, output⟩⟩
  have polled : Step controllerDevice (waitWhile again 10000, controller)
      (if again status then waitWhile again 9999 else .done 9999, controller) :=
    .input 0x64 _ reads
  rw [leaves] at polled
  exact .single polled

/-- The controller takes its byte. -/
theorem takes_runs
    {program : PortProgram UInt16 UInt8 InitEnd}
    (byte : UInt16 × UInt8) (output : Option UInt8)
    (taken : List (UInt16 × UInt8)) :
    Runs controllerDevice (program, ⟨some byte, output, taken⟩)
      (program, ⟨none, output, taken ++ [byte]⟩) :=
  .single (.moves program (.takes rfl))

/-- A slow controller that gets the third command in place of the second. -/
theorem keyboardInit_reached :
    Runs controllerDevice (keyboardInit, ⟨none, none, []⟩)
      (.done .initDone,
        ⟨none, some 0xFA, [disableKeyboard, enableKeyboard, enableScanning]⟩) := by
  have idle : ∀ taken, Runs controllerDevice
      (waitWhile inputFull 10000, ⟨none, none, taken⟩)
      (.done 9999, ⟨none, none, taken⟩) :=
    fun _ => waitWhile_runs 0x00 rfl rfl rfl
  refine ((idle []).bind _).trans ?_
  refine .head (.output 0x64 0xAD _ _) ?_
  refine (takes_runs disableKeyboard none []).trans ?_
  refine ((idle _).bind _).trans ?_
  refine .head (.output 0x64 0xA7 _ _) ?_
  refine .head (.loop _ _ _) ?_
  have busy : controllerDevice.Reads 0x64
      ⟨some disableAux, none, [disableKeyboard]⟩ 0x02 _ :=
    ⟨rfl, fun _ => ⟨rfl, rfl⟩⟩
  refine .head (.input 0x64 _ busy) ?_
  refine .head (.output 0x64 0xAE _ _) ?_
  refine (takes_runs enableKeyboard none [disableKeyboard]).trans ?_
  refine ((idle _).bind _).trans ?_
  refine .head (.output 0x60 0xF4 _ _) ?_
  refine (takes_runs enableScanning none _).trans ?_
  refine .head (.moves _ (.answers 0xFA rfl)) ?_
  refine ((waitWhile_runs 0x01 rfl rfl rfl).bind _).trans ?_
  exact .refl

end KeyboardSetup

end MatrixOS
