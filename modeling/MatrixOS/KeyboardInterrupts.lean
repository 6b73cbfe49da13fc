import MatrixOS.KeyboardQueue

namespace MatrixOS

/-!
# The keyboard interrupt during a read

`keyboard_get_char` one statement at a time, with the keyboard interrupt
between any two of them.  The handler runs to its end before the interrupted
code goes on.
-/

/-- The statement of `keyboard_get_char` that is next. -/
inductive ReaderAt where
  | idle
  | test
  | load
  | advance (c : UInt8)
  | ret (c : UInt8)
  deriving Repr, DecidableEq

/--
The keyboard and its reader, the characters accepted so far and all results of
`keyboard_get_char` so far.
-/
structure ReaderState where
  keyboard : Keyboard
  reader : ReaderAt
  accepted : List UInt8
  returned : List UInt8

inductive ReaderEvent where
  | interrupt (sc : UInt8)
  | reader
  deriving Repr, DecidableEq

namespace ReaderState

/-- The next statement of the reader; an idle reader makes a call. -/
def readerStep (state : ReaderState) : ReaderState :=
  match state.reader with
  | .idle => { state with reader := .test }
  | .test =>
      if state.keyboard.khead = state.keyboard.ktail then
        { state with reader := .ret 0 }
      else
        { state with reader := .load }
  | .load =>
      { state with
        reader := .advance (state.keyboard.kbuf state.keyboard.ktail) }
  | .advance c =>
      { state with
        keyboard := { state.keyboard with
          ktail := (state.keyboard.ktail + 1) % kbufSize }
        reader := .ret c }
  | .ret c =>
      { state with reader := .idle, returned := state.returned ++ [c] }

def step (state : ReaderState) : ReaderEvent → ReaderState
  | .interrupt sc =>
      { state with
        keyboard := keyboardInputHandler sc state.keyboard
        accepted := state.accepted ++ (acceptedChar sc).toList }
  | .reader => state.readerStep

/-- The results that are characters. -/
def delivered (state : ReaderState) : List UInt8 :=
  state.returned.filter (· ≠ 0)

/-- The character that the reader has read and not returned yet. -/
def inFlight (state : ReaderState) : List UInt8 :=
  match state.reader with
  | .advance c => [c]
  | .ret c => if c = 0 then [] else [c]
  | _ => []

/-- The number of accepted characters that have not been read. -/
def unread (state : ReaderState) : Nat :=
  state.accepted.length - (state.delivered ++ state.inFlight).length

/-- A run whose states have at most 255 unread characters. -/
def Bounded : ReaderState → List ReaderEvent → Prop
  | _, [] => True
  | state, event :: events =>
      (state.step event).unread ≤ 255 ∧ Bounded (state.step event) events

/-- Without interrupts the statements are `keyboard_get_char`. -/
theorem readerStep_getChar (state : ReaderState) (isIdle : state.reader = .idle) :
    ∃ statements ≤ 5, (readerStep^[statements] state) =
      { state with
        keyboard := (keyboardGetChar state.keyboard).2
        returned := state.returned ++ [(keyboardGetChar state.keyboard).1] } := by
  obtain ⟨keyboard, reader, accepted, returned⟩ := state
  subst isIdle
  by_cases empty : keyboard.khead = keyboard.ktail
  · exact ⟨3, by decide, by
      simp [readerStep, keyboardGetChar, empty]⟩
  · exact ⟨5, by decide, by
      simp [readerStep, keyboardGetChar, empty]⟩

/-- The state at boot. -/
def boot : ReaderState where
  keyboard := .bss
  reader := .idle
  accepted := []
  returned := []

def run (state : ReaderState) (events : List ReaderEvent) : ReaderState :=
  events.foldl step state

/-! ## The queue behind the reader -/

/-- The keyboard with a character that has been read counted as taken. -/
def view (state : ReaderState) : Keyboard :=
  match state.reader with
  | .advance _ =>
      { state.keyboard with
        ktail := (state.keyboard.ktail + 1) % kbufSize }
  | _ => state.keyboard

/-- The characters that have not been read, the oldest one first. -/
def queue (state : ReaderState) : List UInt8 :=
  state.view.unread

/-- What holds between any two statements. -/
structure Invariant (state : ReaderState) : Prop where
  inRange : state.keyboard.InRange
  chars : ∀ c ∈ state.accepted, c ≠ 0
  history :
    state.accepted = state.delivered ++ state.inFlight ++ state.queue
  loading : state.reader = .load → state.queue ≠ []
  loaded : ∀ c, state.reader = .advance c → c ≠ 0

variable {state : ReaderState}

theorem boot_invariant : boot.Invariant where
  inRange := Keyboard.bss_inRange
  chars := fun _ member => absurd member (List.not_mem_nil)
  history := rfl
  loading := ReaderAt.noConfusion
  loaded := fun _ => ReaderAt.noConfusion

theorem Invariant.unread_eq (invariant : state.Invariant) :
    state.unread = state.queue.length := by
  have lengths : (state.delivered ++ state.inFlight ++ state.queue).length =
      (state.delivered ++ state.inFlight).length + state.queue.length :=
    List.length_append
  rw [unread, invariant.history, lengths, Nat.add_sub_cancel_left]

theorem Invariant.view_inRange (invariant : state.Invariant) :
    state.view.InRange := by
  rw [view]
  split
  · exact ⟨invariant.inRange.head, Nat.mod_lt _ (by decide)⟩
  · exact invariant.inRange

/-! ### The interrupt -/

theorem step_interrupt_of_none
    {sc : UInt8}
    (ignored : acceptedChar sc = none) :
    state.step (.interrupt sc) = state := by
  simp only [step, Keyboard.input_of_none ignored, ignored, Option.toList_none,
    List.append_nil]

section Interrupt

variable {sc c : UInt8} (accepted : acceptedChar sc = some c)

include accepted

theorem step_interrupt_of_some :
    state.step (.interrupt sc) =
      { state with
        keyboard := state.keyboard.put c
        accepted := state.accepted ++ [c] } := by
  simp only [step, Keyboard.input_of_some accepted, accepted,
    Option.toList_some]

theorem view_interrupt :
    (state.step (.interrupt sc)).view = state.view.put c := by
  rw [step_interrupt_of_some accepted]
  obtain ⟨keyboard, reader, _, _⟩ := state
  cases reader <;> rfl

/-- An accepted character goes to the end of the queue. -/
theorem Invariant.queue_interrupt
    (invariant : state.Invariant)
    (bounded : (state.step (.interrupt sc)).unread ≤ 255) :
    (state.step (.interrupt sc)).queue = state.queue ++ [c] := by
  have counted : (state.step (.interrupt sc)).unread = state.unread + 1 := by
    have taken := congrArg List.length invariant.history
    rw [step_interrupt_of_some accepted]
    simp only [List.length_append] at taken
    simp only [unread, delivered, inFlight, List.length_append,
      List.length_singleton] at taken ⊢
    omega
  rw [counted, invariant.unread_eq] at bounded
  rw [queue, view_interrupt accepted]
  exact invariant.view_inRange.unread_put (Nat.lt_succ_of_le bounded)

end Interrupt

theorem Invariant.interrupt
    (invariant : state.Invariant)
    {sc : UInt8}
    (bounded : (state.step (.interrupt sc)).unread ≤ 255) :
    (state.step (.interrupt sc)).Invariant := by
  cases accepted : acceptedChar sc with
  | none =>
      rwa [step_interrupt_of_none accepted]
  | some c =>
      have queued := invariant.queue_interrupt accepted bounded
      have stepped := @step_interrupt_of_some state _ _ accepted
      constructor
      · rw [stepped]
        exact invariant.inRange.put
      · rw [stepped]
        intro other member
        rcases List.mem_append.mp member with before | last
        · exact invariant.chars other before
        · rw [List.mem_singleton.mp last]
          exact acceptedChar_ne_zero accepted
      · rw [queued, stepped, ← List.append_assoc]
        exact congrArg (· ++ [c]) invariant.history
      · intro _
        rw [queued]
        exact List.append_ne_nil_of_right_ne_nil _ (List.cons_ne_nil c [])
      · rw [stepped]
        exact invariant.loaded

/-! ### The reader -/

/-- The character that is read is the oldest one. -/
theorem Invariant.queue_load
    (invariant : state.Invariant)
    (atLoad : state.reader = .load) :
    state.queue =
      state.keyboard.kbuf state.keyboard.ktail :: state.readerStep.queue := by
  have notEmpty := invariant.loading atLoad
  obtain ⟨keyboard, reader, accepted, returned⟩ := state
  subst atLoad
  have apart : keyboard.khead ≠ keyboard.ktail := fun same =>
    notEmpty (invariant.inRange.unread_eq_nil_iff.mpr same)
  exact RingBuffer.contents_pop invariant.inRange.head invariant.inRange.tail
    apart

/-- The other statements leave the queue alone. -/
theorem queue_readerStep (notLoading : state.reader ≠ .load) :
    state.readerStep.queue = state.queue := by
  obtain ⟨keyboard, reader, accepted, returned⟩ := state
  cases reader with
  | load =>
      exact absurd rfl notLoading
  | test =>
      simp only [readerStep]
      split <;> rfl
  | idle => rfl
  | advance c => rfl
  | ret c => rfl

/-- What has been read goes from the register into the results. -/
theorem Invariant.taken_readerStep
    (invariant : state.Invariant)
    (notLoading : state.reader ≠ .load) :
    state.readerStep.delivered ++ state.readerStep.inFlight =
      state.delivered ++ state.inFlight := by
  have loaded := invariant.loaded
  obtain ⟨keyboard, reader, accepted, returned⟩ := state
  cases reader with
  | load =>
      exact absurd rfl notLoading
  | test =>
      simp only [ReaderState.readerStep]
      split <;> rfl
  | idle =>
      rfl
  | advance c =>
      simp [delivered, inFlight, ReaderState.readerStep, loaded c rfl]
  | ret c =>
      by_cases noChar : c = 0
      · simp [delivered, inFlight, ReaderState.readerStep, noChar]
      · simp [delivered, inFlight, ReaderState.readerStep, noChar]

theorem Invariant.history_load
    (invariant : state.Invariant)
    (atLoad : state.reader = .load) :
    state.accepted =
      state.delivered ++ [state.keyboard.kbuf state.keyboard.ktail] ++
        state.readerStep.queue := by
  have history := invariant.history
  rw [invariant.queue_load atLoad, inFlight, atLoad] at history
  simpa using history

theorem readerStep_accepted : state.readerStep.accepted = state.accepted := by
  rw [readerStep]
  split
  all_goals try rfl
  split <;> rfl

theorem Invariant.readerStep (invariant : state.Invariant) :
    state.readerStep.Invariant := by
  have history : state.readerStep.accepted =
      state.readerStep.delivered ++ state.readerStep.inFlight ++
        state.readerStep.queue := by
    rw [readerStep_accepted]
    by_cases atLoad : state.reader = .load
    · rw [invariant.history_load atLoad]
      simp only [delivered, inFlight, ReaderState.readerStep, atLoad]
    · rw [invariant.taken_readerStep atLoad, queue_readerStep atLoad]
      exact invariant.history
  have chars : ∀ c ∈ state.readerStep.accepted, c ≠ 0 := by
    rw [readerStep_accepted]
    exact invariant.chars
  have loadedChar := fun atLoad => invariant.history_load atLoad
  obtain ⟨keyboard, reader, accepted, returned⟩ := state
  have inRange := invariant.inRange
  cases reader with
  | idle =>
      exact ⟨inRange, chars, history, ReaderAt.noConfusion,
        fun _ => ReaderAt.noConfusion⟩
  | test =>
      by_cases empty : keyboard.khead = keyboard.ktail
      · simp only [ReaderState.readerStep, empty, ↓reduceIte] at history chars ⊢
        exact ⟨inRange, chars, history, ReaderAt.noConfusion,
          fun _ => ReaderAt.noConfusion⟩
      · simp only [ReaderState.readerStep, empty, ↓reduceIte] at history chars ⊢
        refine ⟨inRange, chars, history, fun _ queueEmpty => empty ?_,
          fun _ => ReaderAt.noConfusion⟩
        exact inRange.unread_eq_nil_iff.mp queueEmpty
  | load =>
      refine ⟨inRange, chars, history, ReaderAt.noConfusion, fun c same => ?_⟩
      rw [← ReaderAt.advance.inj same]
      refine invariant.chars _ ?_
      rw [loadedChar rfl]
      simp
  | advance c =>
      exact ⟨⟨inRange.head, Nat.mod_lt _ (by decide)⟩, chars, history,
        ReaderAt.noConfusion, fun _ => ReaderAt.noConfusion⟩
  | ret c =>
      exact ⟨inRange, chars, history, ReaderAt.noConfusion,
        fun _ => ReaderAt.noConfusion⟩

theorem Invariant.step
    (invariant : state.Invariant)
    {event : ReaderEvent}
    (bounded : (state.step event).unread ≤ 255) :
    (state.step event).Invariant := by
  cases event with
  | interrupt sc =>
      exact invariant.interrupt bounded
  | reader =>
      exact invariant.readerStep

theorem Invariant.run
    (invariant : state.Invariant)
    {events : List ReaderEvent}
    (bounded : state.Bounded events) :
    (state.run events).Invariant := by
  induction events generalizing state with
  | nil =>
      exact invariant
  | cons event events inductionHypothesis =>
      exact inductionHypothesis (invariant.step bounded.1) bounded.2

/-! ## One call -/

/--
After so many of its statements the call that found `c` at the front of the
queue, with the results before it.
-/
def CallAt (c : UInt8) (before : List UInt8) : Nat → ReaderState → Prop
  | 0, state => state.reader = .idle ∧ state.queue.head? = some c ∧
      state.returned = before
  | 1, state => state.reader = .test ∧ state.queue.head? = some c ∧
      state.returned = before
  | 2, state => state.reader = .load ∧ state.queue.head? = some c ∧
      state.returned = before
  | 3, state => state.reader = .advance c ∧ state.returned = before
  | 4, state => state.reader = .ret c ∧ state.returned = before
  | 5, state => state.reader = .idle ∧ state.returned = before ++ [c]
  | _, _ => False

section Call

variable {c : UInt8} {before : List UInt8} {statements : Nat}

theorem CallAt.interrupt
    (call : CallAt c before statements state)
    (invariant : state.Invariant)
    {sc : UInt8}
    (bounded : (state.step (.interrupt sc)).unread ≤ 255) :
    CallAt c before statements (state.step (.interrupt sc)) := by
  cases accepted : acceptedChar sc with
  | none =>
      rwa [step_interrupt_of_none accepted]
  | some last =>
      have front : state.queue.head? = some c →
          (state.step (.interrupt sc)).queue.head? = some c := by
        intro first
        rw [invariant.queue_interrupt accepted bounded, List.head?_append, first]
        rfl
      have stepped := @step_interrupt_of_some state _ _ accepted
      have reader : (state.step (.interrupt sc)).reader = state.reader := by
        rw [stepped]
      have returned : (state.step (.interrupt sc)).returned =
          state.returned := by
        rw [stepped]
      match statements, call with
      | 0, ⟨isAt, first, same⟩ | 1, ⟨isAt, first, same⟩ |
        2, ⟨isAt, first, same⟩ =>
          exact ⟨reader.trans isAt, front first, returned.trans same⟩
      | 3, ⟨isAt, same⟩ | 4, ⟨isAt, same⟩ | 5, ⟨isAt, same⟩ =>
          exact ⟨reader.trans isAt, returned.trans same⟩

theorem CallAt.readerStep
    (call : CallAt c before statements state)
    (invariant : state.Invariant)
    (going : statements < 5) :
    CallAt c before (statements + 1) state.readerStep := by
  match statements, call with
  | 0, ⟨isAt, first, same⟩ =>
      obtain ⟨keyboard, reader, accepted, returned⟩ := state
      subst isAt
      exact ⟨rfl, first, same⟩
  | 1, ⟨isAt, first, same⟩ =>
      obtain ⟨keyboard, reader, accepted, returned⟩ := state
      subst isAt
      have notEmpty : keyboard.khead ≠ keyboard.ktail := by
        intro empty
        have nothing : ReaderState.queue ⟨keyboard, .test, accepted, returned⟩ =
            [] := invariant.inRange.unread_eq_nil_iff.mpr empty
        rw [nothing] at first
        cases first
      simp only [ReaderState.readerStep, notEmpty, ↓reduceIte]
      exact ⟨rfl, first, same⟩
  | 2, ⟨isAt, first, same⟩ =>
      rw [invariant.queue_load isAt] at first
      have oldest := Option.some.inj first
      obtain ⟨keyboard, reader, accepted, returned⟩ := state
      subst isAt
      exact ⟨congrArg ReaderAt.advance oldest, same⟩
  | 3, ⟨isAt, same⟩ =>
      obtain ⟨keyboard, reader, accepted, returned⟩ := state
      subst isAt
      exact ⟨rfl, same⟩
  | 4, ⟨isAt, same⟩ =>
      obtain ⟨keyboard, reader, accepted, returned⟩ := state
      subst isAt
      exact ⟨rfl, congrArg (· ++ [c]) same⟩

/-- The call goes on with every statement, whatever comes in between. -/
theorem CallAt.run
    (call : CallAt c before statements state)
    (invariant : state.Invariant)
    {events : List ReaderEvent}
    (bounded : state.Bounded events)
    (within : statements + events.count .reader ≤ 5) :
    CallAt c before (statements + events.count .reader) (state.run events) := by
  induction events generalizing state statements with
  | nil =>
      exact call
  | cons event events inductionHypothesis =>
      have next := invariant.step bounded.1
      cases event with
      | interrupt sc =>
          have counted : (ReaderEvent.interrupt sc :: events).count .reader =
              events.count .reader := by
            simp
          rw [counted] at within ⊢
          exact inductionHypothesis (call.interrupt invariant bounded.1) next
            bounded.2 within
      | reader =>
          rw [List.count_cons_self] at within ⊢
          have rest := inductionHypothesis
            (call.readerStep invariant (by omega)) next bounded.2 (by omega)
          rwa [Nat.add_assoc, Nat.add_comm 1] at rest

end Call

end ReaderState

/-! ## Runs -/

/-- A call that starts with an unread character returns the oldest one. -/
def ReturnsOldest (state : ReaderState) : Prop :=
  state.reader = .idle → 1 ≤ state.unread →
    ∀ events, state.Bounded events → events.count .reader = 5 →
      (state.run events).reader = .idle ∧
        ∃ c, state.accepted[state.delivered.length]? = some c ∧
          (state.run events).returned = state.returned ++ [c]

/--
As long as there are at most 255 unread characters, what has been delivered is
at every moment a prefix of what has been accepted, and a call that starts
with an unread character returns the oldest one, whatever interrupts it.
-/
theorem keyboard_fifo
    (events : List ReaderEvent)
    (bounded : ReaderState.boot.Bounded events) :
    (ReaderState.boot.run events).delivered <+:
        (ReaderState.boot.run events).accepted ∧
      ReturnsOldest (ReaderState.boot.run events) := by
  have invariant := ReaderState.boot_invariant.run bounded
  generalize ReaderState.boot.run events = state at invariant
  constructor
  · rw [invariant.history, List.append_assoc]
    exact List.prefix_append _ _
  · intro isIdle waits more moreBounded statements
    rw [invariant.unread_eq] at waits
    obtain ⟨c, rest, queue⟩ := List.exists_cons_of_length_pos waits
    have call : ReaderState.CallAt c state.returned 0 state :=
      ⟨isIdle, by rw [queue]; rfl, rfl⟩
    have done := call.run invariant moreBounded (by omega)
    rw [statements] at done
    refine ⟨done.1, c, ?_, done.2⟩
    rw [invariant.history, ReaderState.inFlight, isIdle, queue]
    simp

/-- A key is pressed and read while another one is pressed. -/
theorem keyboard_fifo_two :
    (ReaderState.boot.run [.interrupt 0x1E, .reader, .reader, .reader,
        .interrupt 0x30, .reader, .reader]).delivered <+:
      (ReaderState.boot.run [.interrupt 0x1E, .reader, .reader, .reader,
        .interrupt 0x30, .reader, .reader]).accepted ∧
      ReturnsOldest (ReaderState.boot.run [.interrupt 0x1E, .reader, .reader,
        .reader, .interrupt 0x30, .reader, .reader]) :=
  keyboard_fifo _ (by simp only [ReaderState.Bounded]; decide)

end MatrixOS
