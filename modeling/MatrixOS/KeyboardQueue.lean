import Mathlib.Data.List.Induction
import MatrixOS.Console
import MatrixOS.RingBuffer

namespace MatrixOS

/-!
# The queue of the keyboard

The ring buffer as a queue, and what happens when more keys are pressed than
it has room for.
-/

/-- `kbuf`, `khead` and `ktail` at boot. -/
def Keyboard.bss : Keyboard where
  kbuf := fun _ => 0
  khead := 0
  ktail := 0

/-- The character that `keyboard_input_handler` stores for a scan code. -/
def acceptedChar (sc : UInt8) : Option UInt8 :=
  if sc = 0xFA ∨ sc = 0xAA ∨ sc = 0x00 ∨ sc = 0xFF then
    none
  else if scancodeToChar sc ≠ 0 then
    some (scancodeToChar sc)
  else
    none

theorem acceptedChar_ne_zero
    {sc c : UInt8}
    (accepted : acceptedChar sc = some c) :
    c ≠ 0 := by
  rw [acceptedChar] at accepted
  split at accepted
  · cases accepted
  · split at accepted
    · rwa [← Option.some.inj accepted]
    · cases accepted

namespace Keyboard

/-- The characters that have not been taken, the oldest one first. -/
def unread (keyboard : Keyboard) : List UInt8 :=
  RingBuffer.contents kbufSize keyboard.kbuf keyboard.khead keyboard.ktail

/-- A character is stored. -/
def put (c : UInt8) (keyboard : Keyboard) : Keyboard where
  kbuf := Function.update keyboard.kbuf keyboard.khead c
  khead := (keyboard.khead + 1) % kbufSize
  ktail := keyboard.ktail

/-- The two indices are in the buffer. -/
structure InRange (keyboard : Keyboard) : Prop where
  head : keyboard.khead < kbufSize
  tail : keyboard.ktail < kbufSize

theorem bss_inRange : bss.InRange :=
  ⟨by decide, by decide⟩

variable {keyboard : Keyboard} {c : UInt8}

theorem input_of_none
    {sc : UInt8}
    (ignored : acceptedChar sc = none) :
    keyboardInputHandler sc keyboard = keyboard := by
  rw [acceptedChar] at ignored
  rw [keyboardInputHandler]
  split at ignored
  · rename_i response
    rw [if_pos response]
  · rename_i notResponse
    rw [if_neg notResponse]
    split at ignored
    · cases ignored
    · rename_i noChar
      exact if_neg noChar

theorem input_of_some
    {sc : UInt8}
    (accepted : acceptedChar sc = some c) :
    keyboardInputHandler sc keyboard = keyboard.put c := by
  rw [acceptedChar] at accepted
  rw [keyboardInputHandler]
  split at accepted
  · cases accepted
  · rename_i notResponse
    rw [if_neg notResponse]
    split at accepted
    · rename_i isChar
      rw [← Option.some.inj accepted]
      exact if_pos isChar
    · cases accepted

theorem InRange.put (inRange : keyboard.InRange) : (keyboard.put c).InRange :=
  ⟨Nat.mod_lt _ (by decide), inRange.tail⟩

theorem InRange.getChar (inRange : keyboard.InRange) :
    (keyboardGetChar keyboard).2.InRange := by
  rw [keyboardGetChar]
  split
  · exact inRange
  · exact ⟨inRange.head, Nat.mod_lt _ (by decide)⟩

theorem InRange.unread_eq_nil_iff (inRange : keyboard.InRange) :
    keyboard.unread = [] ↔ keyboard.khead = keyboard.ktail :=
  RingBuffer.contents_eq_nil_iff inRange.head inRange.tail

/-- With room for it a character goes to the end of the queue. -/
theorem InRange.unread_put
    (inRange : keyboard.InRange)
    (room : keyboard.unread.length + 1 < kbufSize) :
    (keyboard.put c).unread = keyboard.unread ++ [c] := by
  rw [unread, RingBuffer.length_contents] at room
  exact RingBuffer.contents_push inRange.head inRange.tail room

/-- `keyboard_get_char` on an empty queue. -/
theorem InRange.getChar_of_nil
    (inRange : keyboard.InRange)
    (empty : keyboard.unread = []) :
    keyboardGetChar keyboard = (0, keyboard) :=
  if_pos (inRange.unread_eq_nil_iff.mp empty)

/-- `keyboard_get_char` takes the oldest character. -/
theorem InRange.getChar_of_cons
    (inRange : keyboard.InRange)
    {rest : List UInt8}
    (queue : keyboard.unread = c :: rest) :
    ∃ next, keyboardGetChar keyboard = (c, next) ∧ next.unread = rest := by
  have notEmpty : keyboard.khead ≠ keyboard.ktail := by
    intro same
    have empty := inRange.unread_eq_nil_iff.mpr same
    exact List.cons_ne_nil _ _ (queue.symm.trans empty)
  have taken : keyboard.unread = _ :=
    RingBuffer.contents_pop inRange.head inRange.tail notEmpty
  obtain ⟨first, others⟩ := List.cons.inj (queue.symm.trans taken)
  exact ⟨{ keyboard with ktail := (keyboard.ktail + 1) % kbufSize },
    by rw [keyboardGetChar, if_neg notEmpty, first], others.symm⟩

theorem length_unread : keyboard.unread.length = keyboard.waiting :=
  RingBuffer.length_contents

/-- A character counts, but the one that fills the buffer counts for all. -/
theorem InRange.waiting_put (inRange : keyboard.InRange) :
    (keyboard.put c).waiting = (keyboard.waiting + 1) % kbufSize := by
  have few : keyboard.waiting < kbufSize := Nat.mod_lt _ (by decide)
  by_cases room : keyboard.waiting + 1 < kbufSize
  · rw [Nat.mod_eq_of_lt room]
    exact RingBuffer.size_push inRange.head inRange.tail room
  · have full : keyboard.waiting + 1 = kbufSize := by omega
    rw [full, Nat.mod_self]
    exact RingBuffer.size_push_full inRange.head inRange.tail full

theorem Sound.inRange (sound : keyboard.Sound) : keyboard.InRange :=
  ⟨sound.head, sound.tail⟩

theorem Sound.unread_ne_zero
    (sound : keyboard.Sound)
    (member : c ∈ keyboard.unread) :
    c ≠ 0 := by
  obtain ⟨offset, below, rfl⟩ := RingBuffer.mem_contents.mp member
  exact sound.chars offset below

theorem bss_sound : bss.Sound :=
  ⟨by decide, by decide, fun _ below => absurd below (Nat.not_lt_zero _)⟩

/-- A character is returned exactly when there is one. -/
theorem Sound.getChar_ne_zero_iff (sound : keyboard.Sound) :
    (keyboardGetChar keyboard).1 ≠ 0 ↔ keyboard.unread ≠ [] := by
  cases queue : keyboard.unread with
  | nil =>
      rw [sound.inRange.getChar_of_nil queue]
      simp
  | cons c rest =>
      obtain ⟨next, taken, _⟩ := sound.inRange.getChar_of_cons queue
      rw [taken]
      exact iff_of_true (sound.unread_ne_zero (by simp [queue])) (by simp)

theorem Sound.getChar (sound : keyboard.Sound) :
    (keyboardGetChar keyboard).2.Sound := by
  rcases sound.getChar_cases with taken | ⟨c, next, taken, _, nextSound, _⟩
  · rwa [taken]
  · rwa [taken]

/-- Every call takes one character. -/
theorem Sound.unread_getChar (sound : keyboard.Sound) :
    (keyboardGetChar keyboard).2.unread = keyboard.unread.drop 1 := by
  cases queue : keyboard.unread with
  | nil =>
      rw [sound.inRange.getChar_of_nil queue, queue]
      rfl
  | cons c rest =>
      obtain ⟨next, taken, left⟩ := sound.inRange.getChar_of_cons queue
      rw [taken, left]
      rfl

end Keyboard

/-! ## Keys and calls in any order -/

inductive KeyEvent where
  | press (sc : UInt8)
  | getChar

/-- The keyboard, the characters accepted so far and those returned so far. -/
structure KeyRun where
  keyboard : Keyboard
  accepted : List UInt8
  delivered : List UInt8

namespace KeyRun

def step (run : KeyRun) : KeyEvent → KeyRun
  | .press sc =>
      { run with
        keyboard := keyboardInputHandler sc run.keyboard
        accepted := run.accepted ++ (acceptedChar sc).toList }
  | .getChar =>
      let (c, keyboard) := keyboardGetChar run.keyboard
      { run with
        keyboard := keyboard
        delivered := if c = 0 then run.delivered else run.delivered ++ [c] }

/-- A sequence of events from boot on. -/
def after (events : List KeyEvent) : KeyRun :=
  events.foldl step ⟨.bss, [], []⟩

/-- The number of accepted characters that have not been delivered. -/
def undelivered (run : KeyRun) : Nat :=
  run.accepted.length - run.delivered.length

end KeyRun

/-- The keyboard after some calls of `keyboard_get_char`. -/
def afterCalls (count : Nat) (keyboard : Keyboard) : Keyboard :=
  (fun keyboard => (keyboardGetChar keyboard).2)^[count] keyboard

/--
With characters that have not been delivered the next call returns one, and
without further keys as many calls do as there are such characters, up to 255.
-/
structure LosesOnlyExcess (run : KeyRun) : Prop where
  first : 1 ≤ run.undelivered → (keyboardGetChar run.keyboard).1 ≠ 0
  calls : ∀ count < min run.undelivered 255,
    (keyboardGetChar (afterCalls count run.keyboard)).1 ≠ 0

section Calls

variable {keyboard : Keyboard}

theorem Keyboard.Sound.afterCalls
    (sound : keyboard.Sound)
    (count : Nat) :
    (afterCalls count keyboard).Sound ∧
      (afterCalls count keyboard).unread = keyboard.unread.drop count := by
  induction count generalizing keyboard with
  | zero =>
      exact ⟨sound, rfl⟩
  | succ count inductionHypothesis =>
      obtain ⟨stays, left⟩ := inductionHypothesis sound.getChar
      rw [sound.unread_getChar, List.drop_drop, Nat.add_comm] at left
      exact ⟨stays, left⟩

/-- Consecutive calls return characters as long as there are some. -/
theorem Keyboard.Sound.calls_ne_zero_iff
    (sound : keyboard.Sound)
    (count : Nat) :
    (keyboardGetChar (MatrixOS.afterCalls count keyboard)).1 ≠ 0 ↔
      count < keyboard.waiting := by
  obtain ⟨stays, left⟩ := sound.afterCalls count
  rw [stays.getChar_ne_zero_iff, left, ne_eq, List.drop_eq_nil_iff,
    Keyboard.length_unread, Nat.not_le]

end Calls

namespace KeyRun

/-- What holds of every run: the buffer counts modulo its size. -/
structure Invariant (run : KeyRun) : Prop where
  sound : run.keyboard.Sound
  delivered_le : run.delivered.length ≤ run.accepted.length
  waiting : run.keyboard.waiting = run.undelivered % kbufSize

theorem Invariant.press
    {run : KeyRun}
    (invariant : run.Invariant)
    (sc : UInt8) :
    (run.step (.press sc)).Invariant := by
  obtain ⟨sound, delivered_le, waiting⟩ := invariant
  refine ⟨sound.keyboardInputHandler sc, ?_, ?_⟩
  · simp only [step, List.length_append]
    omega
  · cases accepted : acceptedChar sc with
    | none =>
        simp only [step, Keyboard.input_of_none accepted, undelivered, accepted,
          Option.toList_none, List.append_nil]
        exact waiting
    | some c =>
        simp only [undelivered, kbufSize] at waiting
        simp only [step, Keyboard.input_of_some accepted, undelivered, accepted,
          Option.toList_some, List.length_append, List.length_singleton,
          sound.inRange.waiting_put, kbufSize]
        omega

theorem Invariant.getChar
    {run : KeyRun}
    (invariant : run.Invariant) :
    (run.step .getChar).Invariant := by
  obtain ⟨sound, delivered_le, waiting⟩ := invariant
  rcases sound.getChar_cases with
    taken | ⟨c, next, taken, isChar, nextSound, fewer⟩
  · simp only [step, taken, ↓reduceIte]
    exact ⟨sound, delivered_le, waiting⟩
  · simp only [step, taken, isChar, ↓reduceIte]
    simp only [undelivered, kbufSize] at waiting
    refine ⟨nextSound, ?_, ?_⟩
    · simp only [List.length_append, List.length_singleton]
      omega
    · simp only [undelivered, List.length_append, List.length_singleton,
        kbufSize]
      omega

theorem after_append (events : List KeyEvent) (event : KeyEvent) :
    after (events ++ [event]) = (after events).step event := by
  rw [after, List.foldl_append]
  rfl

theorem after_invariant (events : List KeyEvent) :
    (after events).Invariant := by
  induction events using List.reverseRecOn with
  | nil =>
      exact ⟨Keyboard.bss_sound, Nat.le_refl 0, rfl⟩
  | append_singleton events event inductionHypothesis =>
      rw [after_append]
      cases event with
      | press sc =>
          exact inductionHypothesis.press sc
      | getChar =>
          exact inductionHypothesis.getChar

theorem Invariant.losesOnlyExcess
    {run : KeyRun}
    (invariant : run.Invariant) :
    LosesOnlyExcess run ↔
      run.undelivered ≤ 255 ∨ run.undelivered % 256 = 255 := by
  obtain ⟨sound, _, waiting⟩ := invariant
  simp only [kbufSize] at waiting
  constructor
  · intro excess
    by_contra overrun
    have more := (sound.calls_ne_zero_iff _).mp
      (excess.calls run.keyboard.waiting (by omega))
    exact absurd more (Nat.lt_irrefl _)
  · intro room
    refine ⟨fun waits => ?_, fun count below => ?_⟩
    · exact (sound.calls_ne_zero_iff 0).mpr (by omega)
    · exact (sound.calls_ne_zero_iff count).mpr (by omega)

end KeyRun

/--
Only the excess is lost as long as there are at most 255 characters, or while
255 of them are left over from full buffers.
-/
theorem losesOnlyExcess_iff (events : List KeyEvent) :
    LosesOnlyExcess (.after events) ↔
      (KeyRun.after events).undelivered ≤ 255 ∨
        (KeyRun.after events).undelivered % 256 = 255 :=
  (KeyRun.after_invariant events).losesOnlyExcess

/-- The key of `a` is pressed 256 times. -/
theorem not_losesOnlyExcess :
    ¬ LosesOnlyExcess (.after (List.replicate 256 (.press 0x1E))) := by
  have accepted : ∀ count,
      (KeyRun.after (List.replicate count (.press 0x1E))).undelivered =
        count := by
    intro count
    suffices histories :
        (KeyRun.after (List.replicate count (.press 0x1E))).accepted.length =
            count ∧
          (KeyRun.after (List.replicate count (.press 0x1E))).delivered = [] by
      rw [KeyRun.undelivered, histories.1, histories.2]
      rfl
    induction count with
    | zero =>
        exact ⟨rfl, rfl⟩
    | succ count inductionHypothesis =>
        have isKey : acceptedChar 0x1E = some 97 := by decide
        rw [List.replicate_succ', KeyRun.after_append]
        simp only [KeyRun.step, isKey, Option.toList_some, List.length_append,
          List.length_singleton, inductionHypothesis, and_self]
  rw [(KeyRun.after_invariant _).losesOnlyExcess, accepted]
  decide

end MatrixOS
