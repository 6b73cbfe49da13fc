import Mathlib.Logic.Relation

/-!
# Programs that drive a device

A program writes ports, reads ports and repeats parts of itself.  Between its
accesses the device moves on its own.  What a program guarantees is computed
from its text, and holds in all of its runs.

A device may also interrupt: a handler then runs to its end before the program
goes on.
-/

/-- A program, by its accesses to ports. -/
inductive PortProgram (Port Byte : Type) : Type → Type 1 where
  | done {Result : Type}
      (result : Result) : PortProgram Port Byte Result
  | output {Result : Type}
      (port : Port) (byte : Byte)
      (rest : PortProgram Port Byte Result) : PortProgram Port Byte Result
  | input {Result : Type}
      (port : Port)
      (rest : Byte → PortProgram Port Byte Result) :
      PortProgram Port Byte Result
  /-- The body is repeated as long as its result is `true`. -/
  | loop {Result : Type}
      (body : PortProgram Port Byte Bool)
      (rest : PortProgram Port Byte Result) : PortProgram Port Byte Result

/-- What the accesses do to a device, and what it does on its own. -/
structure PortDevice (Port Byte State : Type) where
  write : Port → Byte → State → State
  Reads : Port → State → Byte → State → Prop
  Moves : State → State → Prop

namespace PortProgram

variable {Port Byte State Result Next : Type}

/-- One program after another. -/
def bind :
    {Result : Type} →
    PortProgram Port Byte Result →
    (Result → PortProgram Port Byte Next) →
    PortProgram Port Byte Next
  | _, done result, next => next result
  | _, output port byte rest, next => output port byte (rest.bind next)
  | _, input port rest, next => input port fun byte => (rest byte).bind next
  | _, loop body rest, next => loop body (rest.bind next)

instance : Monad (PortProgram Port Byte) where
  pure := done
  bind := bind

/-- A write to a port. -/
def outb (port : Port) (byte : Byte) : PortProgram Port Byte Unit :=
  output port byte (done ())

/-- A read from a port. -/
def inb (port : Port) : PortProgram Port Byte Byte :=
  input port done

/-- A loop whose condition reads ports, too. -/
def whileLoop (body : PortProgram Port Byte Bool) : PortProgram Port Byte Unit :=
  loop body (done ())

/-- What a program without loops does to a device that stands still. -/
def exec
    {View : Type}
    (write : Port → Byte → View → View)
    (read : Port → View → Option Byte) :
    {Result : Type} → PortProgram Port Byte Result → View →
    Option (Result × View)
  | _, done result, view => some (result, view)
  | _, output port byte rest, view =>
      rest.exec write read (write port byte view)
  | _, input port rest, view =>
      (read port view).bind fun byte => (rest byte).exec write read view
  | _, loop _ _, _ => none

/-- The loop again, or what follows it. -/
def iterate
    (body : PortProgram Port Byte Bool)
    (rest : PortProgram Port Byte Result) :
    PortProgram Port Byte Result :=
  body.bind fun again => if again then loop body rest else rest

/-! ## Runs -/

variable (device : PortDevice Port Byte State)

/-- The program makes its next access, or the device moves. -/
inductive Step :
    PortProgram Port Byte Result × State →
    PortProgram Port Byte Result × State → Prop where
  | moves
      (program : PortProgram Port Byte Result)
      {state later : State}
      (moves : device.Moves state later) :
      Step (program, state) (program, later)
  | output
      (port : Port) (byte : Byte)
      (rest : PortProgram Port Byte Result)
      (state : State) :
      Step (output port byte rest, state) (rest, device.write port byte state)
  | input
      (port : Port)
      (rest : Byte → PortProgram Port Byte Result)
      {state later : State} {byte : Byte}
      (reads : device.Reads port state byte later) :
      Step (input port rest, state) (rest byte, later)
  | loop
      (body : PortProgram Port Byte Bool)
      (rest : PortProgram Port Byte Result)
      (state : State) :
      Step (loop body rest, state) (body.iterate rest, state)

/-- The program and the device have got from one pair to the other. -/
def Runs
    (before after : PortProgram Port Byte Result × State) : Prop :=
  Relation.ReflTransGen (Step device) before after

theorem bind_assoc
    {First Second : Type}
    (program : PortProgram Port Byte First)
    (next : First → PortProgram Port Byte Second)
    (last : Second → PortProgram Port Byte Result) :
    (program.bind next).bind last =
      program.bind fun result => (next result).bind last := by
  induction program with
  | done result => rfl
  | output port byte rest inductionHypothesis =>
      exact congrArg (output port byte) (inductionHypothesis next)
  | input port rest inductionHypothesis =>
      exact congrArg (input port)
        (funext fun byte => inductionHypothesis byte next)
  | loop body rest _ restHypothesis =>
      exact congrArg (loop body) (restHypothesis next)

variable {device} in
/-- What follows a program waits until it is done. -/
theorem Step.bind
    {before after : PortProgram Port Byte Result × State}
    (step : Step device before after)
    (next : Result → PortProgram Port Byte Next) :
    Step device (before.1.bind next, before.2) (after.1.bind next, after.2) := by
  cases step with
  | moves program moves => exact .moves _ moves
  | output port byte rest state => exact .output port byte _ state
  | input port rest reads => exact .input port _ reads
  | loop body rest state =>
      have same : (body.iterate rest).bind next =
          body.iterate (rest.bind next) := by
        refine (bind_assoc _ _ _).trans (congrArg body.bind (funext fun again => ?_))
        cases again <;> rfl
      rw [same]
      exact .loop body (rest.bind next) state

variable {device} in
theorem Runs.bind
    {program : PortProgram Port Byte Result} {result : Result}
    {before after : State}
    (runs : Runs device (program, before) (done result, after))
    (next : Result → PortProgram Port Byte Next) :
    Runs device (program.bind next, before) (next result, after) :=
  Relation.ReflTransGen.lift
    (fun reached : PortProgram Port Byte Result × State =>
      (reached.1.bind next, reached.2))
    (fun _ _ step => step.bind next) _ _ runs

variable {device} in
theorem exec_runs
    {read : Port → State → Option Byte}
    (reads : ∀ port state byte, read port state = some byte →
      device.Reads port state byte state)
    {program : PortProgram Port Byte Result} {result : Result}
    {before after : State}
    (executed : program.exec device.write read before = some (result, after)) :
    Runs device (program, before) (done result, after) := by
  induction program generalizing before with
  | done =>
      cases executed
      exact .refl
  | output port byte rest inductionHypothesis =>
      exact (inductionHypothesis executed).head (.output port byte rest before)
  | input port rest inductionHypothesis =>
      obtain ⟨byte, found, executedRest⟩ := Option.bind_eq_some_iff.mp executed
      exact (inductionHypothesis byte executedRest).head
        (.input port rest (reads port before byte found))
  | loop => cases executed

end PortProgram

namespace PortDevice

variable {Port Byte State : Type}
variable (device : PortDevice Port Byte State)

/-- The device has moved on its own, any number of times. -/
def Settles (before after : State) : Prop :=
  Relation.ReflTransGen device.Moves before after

/-- What the device does on its own keeps a property. -/
def Stable (holds : State → Prop) : Prop :=
  ∀ before after, holds before → device.Moves before after → holds after

variable {device}

theorem Stable.settles
    {holds : State → Prop}
    (stable : device.Stable holds)
    {before after : State}
    (now : holds before)
    (settles : device.Settles before after) :
    holds after := by
  induction settles with
  | refl => exact now
  | tail _ moves inductionHypothesis =>
      exact stable _ _ inductionHypothesis moves

end PortDevice

namespace PortProgram

/-! ## Guarantees -/

section Guarantees

variable {Port Byte State Result Next : Type}
variable (device : PortDevice Port Byte State)
variable (always : State → Prop)

/--
In every run from a state the device is always in a state of one kind, and the
result of the program is one of another.
-/
def Guarantees :
    {Result : Type} →
    PortProgram Port Byte Result →
    (Result → State → Prop) →
    State → Prop
  | _, done result, post, state =>
      ∀ later, device.Settles state later → always later ∧ post result later
  | _, output port byte rest, post, state =>
      ∀ later, device.Settles state later →
        always later ∧ rest.Guarantees post (device.write port byte later)
  | _, input port rest, post, state =>
      ∀ later, device.Settles state later →
        always later ∧ ∀ byte next, device.Reads port later byte next →
          (rest byte).Guarantees post next
  | _, loop body rest, post, state =>
      ∃ invariant : State → Prop,
        invariant state ∧ device.Stable invariant ∧
        ∀ later, invariant later → always later ∧
          body.Guarantees
            (fun again after =>
              if again then invariant after else rest.Guarantees post after)
            later

variable {device always}
variable {program : PortProgram Port Byte Result}
variable {post other : Result → State → Prop}
variable {state later : State}

theorem Guarantees.settles
    (guarantees : program.Guarantees device always post state)
    (settles : device.Settles state later) :
    program.Guarantees device always post later := by
  cases program with
  | done result =>
      intro last more
      exact guarantees last (settles.trans more)
  | output port byte rest =>
      intro last more
      exact guarantees last (settles.trans more)
  | input port rest =>
      intro last more
      exact guarantees last (settles.trans more)
  | loop body rest =>
      obtain ⟨invariant, holds, stable, kept⟩ := guarantees
      exact ⟨invariant, stable.settles holds settles, stable, kept⟩

theorem Guarantees.now
    (guarantees : program.Guarantees device always post state) :
    always state := by
  cases program with
  | done result => exact (guarantees state .refl).1
  | output port byte rest => exact (guarantees state .refl).1
  | input port rest => exact (guarantees state .refl).1
  | loop body rest =>
      obtain ⟨invariant, holds, _, kept⟩ := guarantees
      exact (kept state holds).1

/-- A program may be known to do more than it has to. -/
theorem Guarantees.mono
    (guarantees : program.Guarantees device always post state)
    (weaker : ∀ result after, post result after → other result after) :
    program.Guarantees device always other state := by
  induction program generalizing state with
  | done result =>
      intro last settles
      obtain ⟨holds, after⟩ := guarantees last settles
      exact ⟨holds, weaker result last after⟩
  | output port byte rest inductionHypothesis =>
      intro last settles
      obtain ⟨holds, after⟩ := guarantees last settles
      exact ⟨holds, inductionHypothesis after weaker⟩
  | input port rest inductionHypothesis =>
      intro last settles
      obtain ⟨holds, after⟩ := guarantees last settles
      exact ⟨holds, fun byte next reads =>
        inductionHypothesis byte (after byte next reads) weaker⟩
  | loop body rest bodyHypothesis restHypothesis =>
      obtain ⟨invariant, entered, stable, kept⟩ := guarantees
      refine ⟨invariant, entered, stable, fun last holds => ?_⟩
      obtain ⟨now, after⟩ := kept last holds
      refine ⟨now, bodyHypothesis after ?_⟩
      intro again next
      cases again with
      | true => exact id
      | false => exact fun leaves => restHypothesis leaves weaker

/-- One program guarantees what the next one needs. -/
theorem Guarantees.bind
    {next : Result → PortProgram Port Byte Next}
    {last : Next → State → Prop}
    (guarantees : program.Guarantees device always
      (fun result after => (next result).Guarantees device always last after)
      state) :
    (program.bind next).Guarantees device always last state := by
  induction program generalizing state with
  | done result => exact (guarantees state .refl).2
  | output port byte rest inductionHypothesis =>
      intro after settles
      obtain ⟨holds, written⟩ := guarantees after settles
      exact ⟨holds, inductionHypothesis written⟩
  | input port rest inductionHypothesis =>
      intro after settles
      obtain ⟨holds, read⟩ := guarantees after settles
      exact ⟨holds, fun byte found reads =>
        inductionHypothesis byte (read byte found reads)⟩
  | loop body rest _ restHypothesis =>
      obtain ⟨invariant, entered, stable, kept⟩ := guarantees
      refine ⟨invariant, entered, stable, fun after holds => ?_⟩
      obtain ⟨now, repeats⟩ := kept after holds
      refine ⟨now, repeats.mono ?_⟩
      intro again found
      cases again with
      | true => exact id
      | false => exact fun leaves => restHypothesis leaves

/-- A step keeps what the program guarantees. -/
theorem Guarantees.step
    {reached : PortProgram Port Byte Result × State}
    (guarantees : program.Guarantees device always post state)
    (step : Step device (program, state) reached) :
    reached.1.Guarantees device always post reached.2 := by
  cases step with
  | moves _ moves => exact guarantees.settles (.single moves)
  | output port byte rest => exact (guarantees state .refl).2
  | input port rest reads => exact (guarantees state .refl).2 _ _ reads
  | loop body rest =>
      obtain ⟨invariant, holds, stable, kept⟩ := guarantees
      refine Guarantees.bind ((kept state holds).2.mono ?_)
      intro again after
      cases again with
      | true => exact fun stays => ⟨invariant, stays, stable, kept⟩
      | false => exact id

/-- What a program guarantees holds in all of its runs. -/
theorem Guarantees.runs
    {reached : PortProgram Port Byte Result × State}
    (guarantees : program.Guarantees device always post state)
    (runs : Runs device (program, state) reached) :
    reached.1.Guarantees device always post reached.2 := by
  induction runs with
  | refl => exact guarantees
  | tail _ step inductionHypothesis => exact inductionHypothesis.step step

/-! ## Rules -/

theorem guarantees_done
    {result : Result}
    (stable : device.Stable (post result))
    (safe : ∀ after, post result after → always after)
    (holds : post result state) :
    (done result : PortProgram Port Byte Result).Guarantees device always post
      state := by
  intro last settles
  have after := stable.settles holds settles
  exact ⟨safe last after, after⟩

theorem guarantees_outb
    {port : Port} {byte : Byte} {before : State → Prop}
    {after : Unit → State → Prop}
    (stable : device.Stable before)
    (stableAfter : device.Stable (after ()))
    (safe : ∀ now, before now → always now)
    (safeAfter : ∀ now, after () now → always now)
    (writes : ∀ now, before now → after () (device.write port byte now))
    (holds : before state) :
    (outb port byte : PortProgram Port Byte Unit).Guarantees device always after
      state := by
  intro now settles
  have atWrite := stable.settles holds settles
  exact ⟨safe now atWrite,
    guarantees_done stableAfter safeAfter (writes now atWrite)⟩

/--
A program without loops does to a device what it does to a picture of it, when
the picture stays true whatever the device does on its own.
-/
theorem guarantees_exec
    {View : Type} {view seen : View} {result : Result}
    {pictures : State → View → Prop}
    {write : Port → Byte → View → View}
    {read : Port → View → Option Byte}
    (moves : ∀ seen, device.Stable fun now => pictures now seen)
    (writes : ∀ port byte now seen, pictures now seen →
      pictures (device.write port byte now) (write port byte seen))
    (reads : ∀ port byte now next seen expected, pictures now seen →
      device.Reads port now byte next → read port seen = some expected →
      byte = expected ∧ pictures next seen)
    (holds : pictures state view)
    (executed : program.exec write read view = some (result, seen)) :
    program.Guarantees device (fun _ => True)
      (fun found after => found = result ∧ pictures after seen) state := by
  induction program generalizing state view with
  | done found =>
      cases executed
      exact fun last settles =>
        ⟨trivial, rfl, (moves _).settles holds settles⟩
  | output port byte rest inductionHypothesis =>
      intro now settles
      have atWrite := (moves view).settles holds settles
      exact ⟨trivial, inductionHypothesis (writes port byte now view atWrite)
        executed⟩
  | input port rest inductionHypothesis =>
      intro now settles
      have atRead := (moves view).settles holds settles
      obtain ⟨expected, found, executedRest⟩ :=
        Option.bind_eq_some_iff.mp executed
      refine ⟨trivial, fun byte next read => ?_⟩
      obtain ⟨rfl, after⟩ := reads port byte now next view expected atRead read found
      exact inductionHypothesis byte after executedRest
  | loop => cases executed

theorem guarantees_inb
    {port : Port} {before : State → Prop} {after : Byte → State → Prop}
    (stable : device.Stable before)
    (stableAfter : ∀ byte, device.Stable (after byte))
    (safe : ∀ now, before now → always now)
    (safeAfter : ∀ byte now, after byte now → always now)
    (reads : ∀ now byte next, before now → device.Reads port now byte next →
      after byte next)
    (holds : before state) :
    (inb port : PortProgram Port Byte Byte).Guarantees device always after
      state := by
  intro now settles
  have atRead := stable.settles holds settles
  exact ⟨safe now atRead, fun byte next found =>
    guarantees_done (stableAfter byte) (safeAfter byte)
      (reads now byte next atRead found)⟩

theorem guarantees_whileLoop
    {body : PortProgram Port Byte Bool}
    {invariant : State → Prop} {after : Unit → State → Prop}
    (stable : device.Stable invariant)
    (stableAfter : device.Stable (after ()))
    (safe : ∀ now, invariant now → always now)
    (safeAfter : ∀ now, after () now → always now)
    (round : ∀ now, invariant now →
      body.Guarantees device always
        (fun again next => if again then invariant next else after () next) now)
    (holds : invariant state) :
    (whileLoop body).Guarantees device always after state := by
  refine ⟨invariant, holds, stable, fun now inLoop => ⟨safe now inLoop, ?_⟩⟩
  refine (round now inLoop).mono fun again next => ?_
  cases again with
  | true => exact id
  | false => exact guarantees_done stableAfter safeAfter

end Guarantees

/-! ## Interrupts -/

section Interrupts

variable {Port Byte State Result : Type}

/-- A program, the handler that interrupts it, and the device. -/
structure Interrupted (Port Byte State Result : Type) : Type 1 where
  main : PortProgram Port Byte Result
  handler : Option (PortProgram Port Byte Unit)
  state : State

variable (device : PortDevice Port Byte State)
variable (handlers : PortProgram Port Byte Unit → Prop)

/-- A handler interrupts the program, but no other handler. -/
inductive InterruptedStep :
    Interrupted Port Byte State Result →
    Interrupted Port Byte State Result → Prop where
  | moves
      (machine : Interrupted Port Byte State Result)
      {later : State}
      (moves : device.Moves machine.state later) :
      InterruptedStep machine { machine with state := later }
  | main
      {before after : PortProgram Port Byte Result × State}
      (step : Step device before after) :
      InterruptedStep ⟨before.1, none, before.2⟩ ⟨after.1, none, after.2⟩
  | interrupt
      (main : PortProgram Port Byte Result)
      (state : State)
      (handler : PortProgram Port Byte Unit)
      (handles : handlers handler) :
      InterruptedStep ⟨main, none, state⟩ ⟨main, some handler, state⟩
  | handler
      (main : PortProgram Port Byte Result)
      {before after : PortProgram Port Byte Unit × State}
      (step : Step device before after) :
      InterruptedStep ⟨main, some before.1, before.2⟩
        ⟨main, some after.1, after.2⟩
  | leave
      (main : PortProgram Port Byte Result)
      (state : State) :
      InterruptedStep ⟨main, some (done ()), state⟩ ⟨main, none, state⟩

variable {device handlers} in
/-- Interrupts may fail to come. -/
theorem Runs.interrupted
    {before after : PortProgram Port Byte Result × State}
    (runs : Runs device before after) :
    Relation.ReflTransGen (InterruptedStep device handlers)
      ⟨before.1, none, before.2⟩ ⟨after.1, none, after.2⟩ := by
  induction runs with
  | refl => exact .refl
  | tail _ step inductionHypothesis => exact inductionHypothesis.tail (.main step)

variable {device handlers} in
/-- A handler may run from its beginning to its end. -/
theorem Runs.handled
    {handler : PortProgram Port Byte Unit} {before after : State}
    (runs : Runs device (handler, before) (done (), after))
    (handles : handlers handler)
    (main : PortProgram Port Byte Result) :
    Relation.ReflTransGen (InterruptedStep device handlers)
      ⟨main, none, before⟩ ⟨main, none, after⟩ := by
  have inside : ∀ {reached : PortProgram Port Byte Unit × State},
      Runs device (handler, before) reached →
        Relation.ReflTransGen (InterruptedStep device handlers)
          ⟨main, none, before⟩ ⟨main, some reached.1, reached.2⟩ := by
    intro reached earlier
    induction earlier with
    | refl => exact .single (.interrupt main before handler handles)
    | tail _ step inductionHypothesis =>
        exact inductionHypothesis.tail (.handler main step)
  exact (inside runs).tail (.leave main after)

/-- To the program, a handler that has run to its end is a move. -/
def withHandlers : PortDevice Port Byte State :=
  { device with
    Moves := fun before after => device.Moves before after ∨
      ∃ handler, handlers handler ∧
        Runs device (handler, before) (done (), after) }

variable {device handlers}
variable {always : State → Prop} {post : Result → State → Prop}

theorem Step.withHandlers
    {before after : PortProgram Port Byte Result × State}
    (step : Step device before after) :
    Step (withHandlers device handlers) before after := by
  cases step with
  | moves program moves => exact .moves program (Or.inl moves)
  | output port byte rest state => exact .output port byte rest state
  | input port rest reads => exact .input port rest reads
  | loop body rest state => exact .loop body rest state

variable (device handlers always post) in
/-- What holds while the program runs, and while a handler does. -/
def InterruptedHolds
    (machine : Interrupted Port Byte State Result) : Prop :=
  match machine.handler with
  | none =>
      machine.main.Guarantees (withHandlers device handlers) always post
        machine.state
  | some program =>
      ∃ handler interrupted, handlers handler ∧
        machine.main.Guarantees (withHandlers device handlers) always post
          interrupted ∧
        Runs device (handler, interrupted) (program, machine.state)

theorem InterruptedHolds.step
    {machine next : Interrupted Port Byte State Result}
    (holds : InterruptedHolds device handlers always post machine)
    (step : InterruptedStep device handlers machine next) :
    InterruptedHolds device handlers always post next := by
  cases step with
  | moves machine moves =>
      obtain ⟨main, handler, state⟩ := machine
      cases handler with
      | none => exact Guarantees.settles holds (.single (Or.inl moves))
      | some program =>
          obtain ⟨handler, interrupted, handles, main, runs⟩ := holds
          exact ⟨handler, interrupted, handles, main,
            runs.tail (.moves program moves)⟩
  | main step =>
      have kept : Step (withHandlers device handlers) _ _ := step.withHandlers
      exact Guarantees.step holds kept
  | interrupt main state handler handles =>
      exact ⟨handler, state, handles, holds, .refl⟩
  | handler main step =>
      obtain ⟨handler, interrupted, handles, main, runs⟩ := holds
      exact ⟨handler, interrupted, handles, main, runs.tail step⟩
  | leave main state =>
      obtain ⟨handler, interrupted, handles, main, runs⟩ := holds
      exact main.settles (.single (Or.inr ⟨handler, handles, runs⟩))

/--
It is enough that the program guarantees a property when handlers are moves,
and that every handler keeps it.
-/
theorem interrupted_sound
    {program : PortProgram Port Byte Result} {state : State}
    {machine : Interrupted Port Byte State Result}
    (guarantees : program.Guarantees (withHandlers device handlers) always post
      state)
    (handled : ∀ handler, handlers handler → ∀ before, always before →
      handler.Guarantees device always (fun _ _ => True) before)
    (reached : Relation.ReflTransGen (InterruptedStep device handlers)
      ⟨program, none, state⟩ machine) :
    always machine.state ∧
      ∀ result, machine.main = done result → machine.handler = none →
        post result machine.state := by
  have holds : InterruptedHolds device handlers always post machine := by
    induction reached with
    | refl => exact guarantees
    | tail _ step inductionHypothesis => exact inductionHypothesis.step step
  obtain ⟨main, handler, state⟩ := machine
  cases handler with
  | none =>
      refine ⟨Guarantees.now holds, ?_⟩
      rintro result rfl _
      exact (holds state .refl).2
  | some program =>
      obtain ⟨handler, interrupted, handles, main, runs⟩ := holds
      refine ⟨((handled handler handles interrupted main.now).runs runs).now, ?_⟩
      intro result _ running
      cases running

end Interrupts

end PortProgram
