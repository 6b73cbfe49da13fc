import MatrixOS.KeyboardInterrupts

namespace MatrixOS

/-!
# The idle loop of the kernel

`boot_idle_forever`, with the keyboard interrupt between any two of its
statements.  At a `hlt` the loop stands still until an interrupt; one that
comes just before the `hlt` does not count.  The message on the serial port is
left out.
-/

/-- The statement of `boot_idle_forever` that is next. -/
inductive IdleAt where
  /-- A statement of `keyboard_get_char`. -/
  | call
  | test (c : UInt8)
  | hlt
  | halted
  deriving Repr, DecidableEq

/--
The loop with the keyboard and the screen, the characters it has printed so
far and the number of times an interrupt has ended a `hlt`.
-/
structure IdleState where
  reader : ReaderState
  place : IdleAt
  screen : Screen
  echoed : List UInt8
  wakeups : Nat

/-- `fb_putchar` for one character after the other. -/
def echo (text : List UInt8) (screen : Screen) : Screen :=
  text.foldl (fun screen c => fbPutchar c screen) screen

/-- Where the loop is after a statement of the call. -/
def ReaderAt.next : ReaderAt → IdleAt
  | .ret c => .test c
  | _ => .call

/-- A character that the call has returned and that is not printed yet. -/
def IdleAt.held : IdleAt → List UInt8
  | .test c => if c = 0 then [] else [c]
  | _ => []

namespace IdleState

/-- The next statement of the loop. -/
def loopStep (state : IdleState) : IdleState :=
  match state.place with
  | .call =>
      { state with
        reader := state.reader.readerStep
        place := state.reader.reader.next }
  | .test c =>
      if c ≠ 0 then
        { state with
          screen := fbPutchar c state.screen
          echoed := state.echoed ++ [c]
          place := .hlt }
      else
        { state with place := .hlt }
  | .hlt => { state with place := .halted }
  | .halted => state

def step (state : IdleState) : ReaderEvent → IdleState
  | .interrupt sc =>
      let handled := { state with
        reader := state.reader.step (.interrupt sc) }
      if state.place = .halted then
        { handled with place := .call, wakeups := state.wakeups + 1 }
      else
        handled
  | .reader => state.loopStep

def run (state : IdleState) (events : List ReaderEvent) : IdleState :=
  events.foldl step state

/-- A run whose states have at most 255 unread characters. -/
def Bounded : IdleState → List ReaderEvent → Prop
  | _, [] => True
  | state, event :: events =>
      (state.step event).reader.unread ≤ 255 ∧ Bounded (state.step event) events

/-- The loop is entered; keys have been pressed before. -/
def entered (earlier : List UInt8) (screen : Screen) : IdleState where
  reader := ReaderState.boot.run (earlier.map .interrupt)
  place := .call
  screen := screen
  echoed := []
  wakeups := 0

/-! ## What holds between any two statements -/

/-- The screen shows what the calls have returned, up to a last character. -/
structure Invariant (screen : Screen) (state : IdleState) : Prop where
  reader : state.reader.Invariant
  between : state.place ≠ .call → state.reader.reader = .idle
  delivered : state.reader.delivered = state.echoed ++ state.place.held
  screen : state.screen = echo state.echoed screen

variable {state : IdleState} {screen : Screen}

theorem Invariant.interrupt
    (invariant : state.Invariant screen)
    {sc : UInt8}
    (bounded : (state.reader.step (.interrupt sc)).unread ≤ 255) :
    (state.step (.interrupt sc)).Invariant screen := by
  have reader := invariant.reader.interrupt bounded
  obtain ⟨readerState, place, onScreen, echoed, wakeups⟩ := state
  cases place with
  | halted =>
      exact ⟨reader, fun away => absurd rfl away, invariant.delivered,
        invariant.screen⟩
  | call =>
      exact ⟨reader, fun away => absurd rfl away, invariant.delivered,
        invariant.screen⟩
  | test c =>
      exact ⟨reader, invariant.between, invariant.delivered, invariant.screen⟩
  | hlt =>
      exact ⟨reader, invariant.between, invariant.delivered, invariant.screen⟩

/-- A statement of the call adds to the results what it returns. -/
theorem delivered_readerStep (reader : ReaderState) :
    reader.readerStep.delivered =
      reader.delivered ++ reader.reader.next.held := by
  obtain ⟨keyboard, place, accepted, returned⟩ := reader
  cases place with
  | ret c =>
      by_cases noChar : c = 0
      · simp [ReaderState.readerStep, ReaderState.delivered, ReaderAt.next,
          IdleAt.held, noChar]
      · simp [ReaderState.readerStep, ReaderState.delivered, ReaderAt.next,
          IdleAt.held, noChar]
  | test =>
      simp only [ReaderState.readerStep, ReaderAt.next, IdleAt.held,
        List.append_nil]
      split <;> rfl
  | idle => exact (List.append_nil _).symm
  | load => exact (List.append_nil _).symm
  | advance c => exact (List.append_nil _).symm

/-- The loop leaves the call when the reader is done. -/
theorem reader_readerStep
    {reader : ReaderState}
    (leaves : reader.reader.next ≠ .call) :
    reader.readerStep.reader = .idle := by
  obtain ⟨keyboard, place, accepted, returned⟩ := reader
  cases place with
  | ret c => rfl
  | idle => exact absurd rfl leaves
  | test => exact absurd rfl leaves
  | load => exact absurd rfl leaves
  | advance c => exact absurd rfl leaves

theorem Invariant.loopStep (invariant : state.Invariant screen) :
    state.loopStep.Invariant screen := by
  obtain ⟨reader, between, delivered, shown⟩ := invariant
  obtain ⟨readerState, place, onScreen, echoed, wakeups⟩ := state
  cases place with
  | call =>
      refine ⟨reader.readerStep, reader_readerStep, ?_, shown⟩
      have before : readerState.delivered = echoed :=
        delivered.trans (List.append_nil _)
      exact (delivered_readerStep readerState).trans
        (congrArg (· ++ readerState.reader.next.held) before)
  | test c =>
      by_cases noChar : c = 0
      · simp only [IdleState.loopStep, noChar, ne_eq, not_true_eq_false,
          ↓reduceIte]
        refine ⟨reader, fun _ => between IdleAt.noConfusion, ?_, shown⟩
        rw [delivered]
        simp [IdleAt.held, noChar]
      · simp only [IdleState.loopStep, ne_eq, noChar, not_false_eq_true,
          ↓reduceIte]
        refine ⟨reader, fun _ => between IdleAt.noConfusion, ?_, ?_⟩
        · rw [delivered]
          simp [IdleAt.held, noChar]
        · have printed : onScreen = echo echoed screen := shown
          rw [printed]
          simp [echo]
  | hlt =>
      exact ⟨reader, fun _ => between IdleAt.noConfusion, delivered, shown⟩
  | halted =>
      exact ⟨reader, between, delivered, shown⟩

theorem Invariant.step
    (invariant : state.Invariant screen)
    {event : ReaderEvent}
    (bounded : (state.step event).reader.unread ≤ 255) :
    (state.step event).Invariant screen := by
  cases event with
  | interrupt sc =>
      refine invariant.interrupt ?_
      rw [IdleState.step] at bounded
      split at bounded
      · exact bounded
      · exact bounded
  | reader =>
      exact invariant.loopStep

theorem Invariant.run
    (invariant : state.Invariant screen)
    {events : List ReaderEvent}
    (bounded : state.Bounded events) :
    (state.run events).Invariant screen := by
  induction events generalizing state with
  | nil =>
      exact invariant
  | cons event events inductionHypothesis =>
      exact inductionHypothesis (invariant.step bounded.1) bounded.2

/-! ## How far the loop gets -/

/-- The number of characters that are out of the queue. -/
def taken (state : IdleState) : Nat :=
  (state.reader.delivered ++ state.reader.inFlight).length

/-- Whether the call has yet to take a character out of the queue. -/
def seeking (state : IdleState) : Nat :=
  match state.place, state.reader.reader with
  | .call, .idle | .call, .test | .call, .load => 1
  | _, _ => 0

theorem Invariant.taken_of_halted
    (invariant : state.Invariant screen)
    (halted : state.place = .halted) :
    state.taken = state.echoed.length ∧ state.seeking = 0 := by
  obtain ⟨reader, between, delivered, shown⟩ := invariant
  obtain ⟨readerState, place, onScreen, echoed, wakeups⟩ := state
  subst halted
  have idle : readerState.reader = .idle := between IdleAt.noConfusion
  have printed : readerState.delivered = echoed ++ [] := delivered
  refine ⟨?_, rfl⟩
  simp only [taken, ReaderState.inFlight, idle, printed, List.append_nil]

/-- A round that has begun takes a character, or it has found none. -/
theorem Invariant.taken_loopStep (invariant : state.Invariant screen) :
    state.loopStep.taken + state.loopStep.seeking =
        state.taken + state.seeking ∨
      state.reader.queue = [] ∧ state.loopStep.taken = state.taken ∧
        state.loopStep.seeking = 0 := by
  obtain ⟨reader, between, delivered, shown⟩ := invariant
  obtain ⟨readerState, place, onScreen, echoed, wakeups⟩ := state
  have kept := reader.taken_readerStep
  have loaded := reader.loaded
  obtain ⟨keyboard, readerAt, accepted, returned⟩ := readerState
  cases place with
  | call =>
      cases readerAt with
      | idle =>
          exact Or.inl rfl
      | test =>
          by_cases empty : keyboard.khead = keyboard.ktail
          · refine Or.inr ⟨?_, ?_, ?_⟩
            · exact reader.inRange.unread_eq_nil_iff.mpr empty
            · exact congrArg List.length (kept ReaderAt.noConfusion)
            · simp [IdleState.loopStep, ReaderState.readerStep, empty, seeking,
                ReaderAt.next]
          · refine Or.inl ?_
            simp [IdleState.loopStep, ReaderState.readerStep, empty, seeking,
              taken, ReaderAt.next, ReaderState.delivered, ReaderState.inFlight]
      | load =>
          refine Or.inl ?_
          simp [IdleState.loopStep, ReaderState.readerStep, seeking, taken,
            ReaderAt.next, ReaderState.delivered, ReaderState.inFlight]
      | advance c =>
          exact Or.inl (congrArg List.length (kept ReaderAt.noConfusion))
      | ret c =>
          exact Or.inl (congrArg List.length (kept ReaderAt.noConfusion))
  | test c =>
      by_cases noChar : c = 0
      · simp [IdleState.loopStep, noChar, taken, seeking]
      · simp [IdleState.loopStep, noChar, taken, seeking]
  | hlt =>
      exact Or.inl rfl
  | halted =>
      exact Or.inl rfl

/--
What holds after the loop has been halted with `base` characters printed and
`target` characters accepted, `before` wakeups ago.
-/
structure KeepsUp (target base before : Nat) (state : IdleState) : Prop where
  accepted : target ≤ state.reader.accepted.length
  wakeups : before ≤ state.wakeups
  least : min target (base + (state.wakeups - before)) ≤
    state.taken + state.seeking
  most : state.taken + state.seeking ≤ base + (state.wakeups - before)

section KeepsUp

variable {target base before : Nat}

theorem KeepsUp.interrupt
    (keepsUp : state.KeepsUp target base before)
    (invariant : state.Invariant screen)
    (sc : UInt8) :
    (state.step (.interrupt sc)).KeepsUp target base before := by
  obtain ⟨accepted, counted, least, most⟩ := keepsUp
  have more : target ≤
      (state.reader.step (.interrupt sc)).accepted.length := by
    simp only [ReaderState.step, List.length_append]
    omega
  have taken : ∀ place wakeups,
      IdleState.taken ⟨state.reader.step (.interrupt sc), place, state.screen,
        state.echoed, wakeups⟩ = state.taken := fun _ _ => rfl
  by_cases halted : state.place = .halted
  · have idle : (state.reader.step (.interrupt sc)).reader = .idle :=
      invariant.between (by rw [halted]; exact IdleAt.noConfusion)
    have seeks : state.seeking = 0 := (invariant.taken_of_halted halted).2
    rw [seeks] at least most
    simp only [IdleState.step, halted, ↓reduceIte]
    refine ⟨more, Nat.le_succ_of_le counted, ?_, ?_⟩
    all_goals
      simp only [taken, seeking, idle]
      omega
  · simp only [IdleState.step, halted, ↓reduceIte]
    exact ⟨more, counted, least, most⟩

theorem KeepsUp.loopStep
    (keepsUp : state.KeepsUp target base before)
    (invariant : state.Invariant screen) :
    state.loopStep.KeepsUp target base before := by
  obtain ⟨accepted, counted, least, most⟩ := keepsUp
  have wakeups : state.loopStep.wakeups = state.wakeups := by
    rw [IdleState.loopStep]
    split
    all_goals try rfl
    split <;> rfl
  have same : state.loopStep.reader.accepted = state.reader.accepted := by
    rw [IdleState.loopStep]
    split
    · exact ReaderState.readerStep_accepted
    · split <;> rfl
    · rfl
    · rfl
  refine ⟨by rwa [same], by rwa [wakeups], ?_, ?_⟩
  all_goals rw [wakeups]
  · rcases invariant.taken_loopStep with kept | ⟨empty, kept, found⟩
    · rwa [kept]
    · -- an empty queue: everything that was accepted is out of it
      have history := congrArg List.length invariant.reader.history
      rw [empty, List.append_nil] at history
      have all : state.taken = state.reader.accepted.length := history.symm
      rw [kept, found]
      omega
  · rcases invariant.taken_loopStep with kept | ⟨_, kept, found⟩
    · rwa [kept]
    · rw [kept, found]
      omega

theorem KeepsUp.run
    (keepsUp : state.KeepsUp target base before)
    (invariant : state.Invariant screen)
    {events : List ReaderEvent}
    (bounded : state.Bounded events) :
    (state.run events).KeepsUp target base before := by
  induction events generalizing state with
  | nil =>
      exact keepsUp
  | cons event events inductionHypothesis =>
      refine inductionHypothesis ?_ (invariant.step bounded.1) bounded.2
      cases event with
      | interrupt sc =>
          exact keepsUp.interrupt invariant sc
      | reader =>
          exact keepsUp.loopStep invariant

end KeepsUp

/-! ## Runs of the loop -/

/-- Before the loop nothing has been returned. -/
theorem returned_interrupts (earlier : List UInt8) (reader : ReaderState) :
    (reader.run (earlier.map .interrupt)).returned = reader.returned := by
  induction earlier generalizing reader with
  | nil =>
      rfl
  | cons sc earlier inductionHypothesis =>
      exact inductionHypothesis (reader.step (.interrupt sc))

theorem entered_invariant
    {earlier : List UInt8}
    (bounded : ReaderState.boot.Bounded (earlier.map .interrupt))
    (screen : Screen) :
    (entered earlier screen).Invariant screen where
  reader := ReaderState.boot_invariant.run bounded
  between := fun away => absurd rfl away
  delivered := by
    simp only [entered, ReaderState.delivered,
      returned_interrupts earlier ReaderState.boot]
    rfl
  screen := rfl

/--
From one `hlt` to a later one: every wakeup prints one of the characters that
were accepted before, and none prints more than one.
-/
def OnePerWakeup (state : IdleState) : Prop :=
  state.place = .halted →
    ∀ events, state.Bounded events → (state.run events).place = .halted →
      min state.reader.accepted.length
          (state.echoed.length + ((state.run events).wakeups - state.wakeups)) ≤
          (state.run events).echoed.length ∧
        (state.run events).echoed.length ≤
          state.echoed.length + ((state.run events).wakeups - state.wakeups)

theorem Invariant.onePerWakeup (invariant : state.Invariant screen) :
    state.OnePerWakeup := by
  intro halted events bounded stillHalted
  obtain ⟨taken, seeking⟩ := invariant.taken_of_halted halted
  have now : state.KeepsUp state.reader.accepted.length state.echoed.length
      state.wakeups :=
    ⟨Nat.le_refl _, Nat.le_refl _, by omega, by omega⟩
  obtain ⟨_, _, least, most⟩ := now.run invariant bounded
  obtain ⟨laterTaken, laterSeeking⟩ :=
    (invariant.run bounded).taken_of_halted stillHalted
  rw [laterTaken, laterSeeking] at least most
  exact ⟨least, most⟩

end IdleState

/--
The idle loop shows the accepted characters in order, one for each wakeup; a
character that comes between the last look at the queue and the `hlt` stays
there until the next interrupt.
-/
theorem idleLoop_echoes
    {earlier : List UInt8}
    (earlierBounded : ReaderState.boot.Bounded (earlier.map .interrupt))
    (screen : Screen)
    (events : List ReaderEvent)
    (bounded : (IdleState.entered earlier screen).Bounded events) :
    ((IdleState.entered earlier screen).run events).screen =
        echo ((IdleState.entered earlier screen).run events).echoed screen ∧
      ((IdleState.entered earlier screen).run events).echoed <+:
        ((IdleState.entered earlier screen).run events).reader.accepted ∧
      ((IdleState.entered earlier screen).run events).OnePerWakeup := by
  have invariant := (IdleState.entered_invariant earlierBounded screen).run
    bounded
  generalize (IdleState.entered earlier screen).run events = state at invariant
  refine ⟨invariant.screen, ?_, invariant.onePerWakeup⟩
  rw [invariant.reader.history, invariant.delivered]
  simp only [List.append_assoc]
  exact List.prefix_append _ _

/-- The loop when a key is pressed after its last look at the queue. -/
def lateKey : IdleState :=
  (IdleState.entered [] ⟨fun _ => 0, 0, 7, 0, 0⟩).run
    [.reader, .reader, .reader, .interrupt 0x1E, .reader, .reader]

/-- The character waits at the `hlt`; one more wakeup will show it. -/
theorem idleLoop_echoes_lateKey :
    lateKey.place = .halted ∧ lateKey.reader.accepted = [0x61] ∧
      lateKey.echoed = [] ∧ lateKey.OnePerWakeup := by
  refine ⟨rfl, rfl, rfl, ?_⟩
  have before : ReaderState.boot.Bounded (([] : List UInt8).map .interrupt) :=
    trivial
  exact (idleLoop_echoes before _ _
    (by simp only [IdleState.Bounded]; decide)).2.2

end MatrixOS
