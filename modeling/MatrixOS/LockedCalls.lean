import Mathlib.Logic.Function.Basic
import Mathlib.Logic.Relation

/-!
# Calls that run under one lock

Any number of threads call operations of a shared object.  A call takes the
lock, executes statements on the object and releases the lock; between any two
of its steps the other threads run, and the owner of the object may be
disturbed by its clients.

A proof about the object states what holds while the lock is free and what
holds at every place of the code under the lock.  It is checked one step at a
time and then holds in every interleaving.
-/

/-- A lock that is taken by repeated attempts. -/
structure AttemptLock (Lock : Type) where
  initial : Lock
  attempt : Lock → Bool × Lock
  release : Lock → Lock
  Held : Lock → Prop
  initial_free : ¬ Held initial
  attempt_iff : ∀ lock, (attempt lock).1 = true ↔ ¬ Held lock
  held_attempt : ∀ lock, Held (attempt lock).2
  free_release : ∀ lock, ¬ Held (release lock)

/-- Where a thread is in a call. -/
inductive ThreadAt (Call Place Result : Type) where
  | idle
  | spinning (call : Call)
  | inside (call : Call) (place : Place)
  | releasing (call : Call) (result : Result)

/-- The lock, the object, what the clients know and where the threads are. -/
structure LockedState (Lock Object Clients Thread Call Place Result : Type) where
  lock : Lock
  object : Object
  clients : Clients
  threads : Thread → ThreadAt Call Place Result

/-- The operations of an object, and how its clients use them. -/
structure LockedCode
    (Object Clients Thread Call Place Result : Type) where
  /-- The answer of a call that does not take the lock. -/
  refuse : Call → Object → Option Result
  enter : Call → Place
  statement : Place → Object → Object × (Place ⊕ Result)
  Allowed : Clients → Thread → Call → Prop
  called : Clients → Thread → Call → Clients
  returned : Clients → Thread → Call → Result → Clients
  Disturbs : Clients → Object → Object → Prop

namespace ThreadAt

variable {Call Place Result : Type}

/-- The thread has taken the lock and not released it. -/
def Owns : ThreadAt Call Place Result → Prop
  | idle => False
  | spinning _ => False
  | inside _ _ => True
  | releasing _ _ => True

end ThreadAt

/-! ## Mutual exclusion -/

section Owners

variable {Lock Object Clients Thread Call Place Result : Type}
variable {mutex : AttemptLock Lock}
variable {state next : LockedState Lock Object Clients Thread Call Place Result}

/-- The lock is held exactly while one thread owns it. -/
structure Exclusive
    (mutex : AttemptLock Lock)
    (state : LockedState Lock Object Clients Thread Call Place Result) :
    Prop where
  one : ∀ thread other, (state.threads thread).Owns →
    (state.threads other).Owns → thread = other
  held : mutex.Held state.lock ↔ ∃ thread, (state.threads thread).Owns

namespace Exclusive

/-- Who owns the lock does not depend on the object and the clients. -/
theorem congr
    (exclusive : Exclusive mutex state)
    (owners : ∀ thread, (next.threads thread).Owns ↔ (state.threads thread).Owns)
    (held : mutex.Held next.lock ↔ mutex.Held state.lock) :
    Exclusive mutex next where
  one := by
    intro thread other owns otherOwns
    exact exclusive.one thread other ((owners thread).mp owns)
      ((owners other).mp otherOwns)
  held := by
    rw [held, exclusive.held]
    exact exists_congr fun thread => (owners thread).symm

/-- Nobody owns a lock that is free. -/
theorem not_owns
    (exclusive : Exclusive mutex state)
    (free : ¬ mutex.Held state.lock)
    (thread : Thread) :
    ¬ (state.threads thread).Owns :=
  fun owns => free (exclusive.held.mpr ⟨thread, owns⟩)

end Exclusive

/-- Who has the lock, and where in the code. -/
inductive LockPhase (Thread Call Place Result : Type) where
  | free
  | inside (thread : Thread) (call : Call) (place : Place)
  | releasing (thread : Thread) (call : Call) (result : Result)

/-- The phase a thread at a place stands for. -/
def ThreadAt.phase (thread : Thread) :
    ThreadAt Call Place Result → LockPhase Thread Call Place Result
  | .idle => .free
  | .spinning _ => .free
  | .inside call place => .inside thread call place
  | .releasing call result => .releasing thread call result

/-- A state is in a phase. -/
def LockedState.InPhase
    (state : LockedState Lock Object Clients Thread Call Place Result)
    (phase : LockPhase Thread Call Place Result) : Prop :=
  (phase = .free ∧ ∀ thread, ¬ (state.threads thread).Owns) ∨
    ∃ thread, (state.threads thread).Owns ∧
      phase = (state.threads thread).phase thread

/-- The owner of the lock tells the phase. -/
theorem Exclusive.inPhase_iff
    (exclusive : Exclusive mutex state)
    {thread : Thread}
    (owns : (state.threads thread).Owns)
    {phase : LockPhase Thread Call Place Result} :
    state.InPhase phase ↔ phase = (state.threads thread).phase thread := by
  constructor
  · rintro (⟨_, none⟩ | ⟨owner, owned, rfl⟩)
    · exact absurd owns (none thread)
    · rw [exclusive.one owner thread owned owns]
  · intro shape
    exact Or.inr ⟨thread, owns, shape⟩

/-- Without an owner the lock is free. -/
theorem LockedState.inPhase_iff_of_free
    (none : ∀ thread, ¬ (state.threads thread).Owns)
    {phase : LockPhase Thread Call Place Result} :
    state.InPhase phase ↔ phase = .free := by
  constructor
  · rintro (⟨shape, _⟩ | ⟨owner, owned, _⟩)
    · exact shape
    · exact absurd owned (none owner)
  · intro shape
    exact Or.inl ⟨shape, none⟩

theorem LockedState.exists_inPhase
    (state : LockedState Lock Object Clients Thread Call Place Result) :
    ∃ phase, state.InPhase phase := by
  by_cases owned : ∃ thread, (state.threads thread).Owns
  · obtain ⟨thread, owns⟩ := owned
    exact ⟨_, Or.inr ⟨thread, owns, rfl⟩⟩
  · exact ⟨.free, Or.inl ⟨rfl, not_exists.mp owned⟩⟩

end Owners

/-! ## Steps -/

section Steps

variable {Lock Object Clients Thread Call Place Result : Type}
variable [DecidableEq Thread]

namespace LockedState

/-- The state with a thread at another place. -/
def move
    (state : LockedState Lock Object Clients Thread Call Place Result)
    (thread : Thread)
    (place : ThreadAt Call Place Result) :
    LockedState Lock Object Clients Thread Call Place Result :=
  { state with threads := Function.update state.threads thread place }

section Moves

variable
  (state : LockedState Lock Object Clients Thread Call Place Result)
  (thread : Thread) (place : ThreadAt Call Place Result)

@[simp] theorem move_threads_self :
    (state.move thread place).threads thread = place :=
  Function.update_self ..

theorem move_threads_of_ne
    {other : Thread}
    (different : other ≠ thread) :
    (state.move thread place).threads other = state.threads other :=
  Function.update_of_ne different ..

@[simp] theorem move_lock : (state.move thread place).lock = state.lock := rfl

@[simp] theorem move_object :
    (state.move thread place).object = state.object := rfl

@[simp] theorem move_clients :
    (state.move thread place).clients = state.clients := rfl

end Moves

end LockedState

variable (mutex : AttemptLock Lock)
variable (code : LockedCode Object Clients Thread Call Place Result)

/-- The next step of a thread that is in a call. -/
def LockedState.tick
    (state : LockedState Lock Object Clients Thread Call Place Result)
    (thread : Thread) :
    LockedState Lock Object Clients Thread Call Place Result :=
  match state.threads thread with
  | .idle => state
  | .spinning call =>
      let (taken, lock) := mutex.attempt state.lock
      if taken then
        { state with lock := lock }.move thread (.inside call (code.enter call))
      else
        { state with lock := lock }
  | .inside call place =>
      match code.statement place state.object with
      | (object, .inl next) =>
          { state with object := object }.move thread (.inside call next)
      | (object, .inr result) =>
          { state with object := object }.move thread (.releasing call result)
  | .releasing call result =>
      { state with
        lock := mutex.release state.lock
        clients := code.returned state.clients thread call result }.move
        thread .idle

/-- A call begins, a thread goes on, or the object is disturbed. -/
inductive LockedStep :
    LockedState Lock Object Clients Thread Call Place Result →
    LockedState Lock Object Clients Thread Call Place Result → Prop where
  | refuse
      (state : LockedState Lock Object Clients Thread Call Place Result)
      (thread : Thread) (call : Call) (result : Result)
      (idle : state.threads thread = .idle)
      (allowed : code.Allowed state.clients thread call)
      (refused : code.refuse call state.object = some result) :
      LockedStep state { state with
        clients := code.returned (code.called state.clients thread call)
          thread call result }
  | call
      (state : LockedState Lock Object Clients Thread Call Place Result)
      (thread : Thread) (call : Call)
      (idle : state.threads thread = .idle)
      (allowed : code.Allowed state.clients thread call)
      (accepted : code.refuse call state.object = none) :
      LockedStep state
        ({ state with
          clients := code.called state.clients thread call }.move thread
            (.spinning call))
  | tick
      (state : LockedState Lock Object Clients Thread Call Place Result)
      (thread : Thread) :
      LockedStep state (state.tick mutex code thread)
  | disturb
      (state : LockedState Lock Object Clients Thread Call Place Result)
      (object : Object)
      (disturbs : code.Disturbs state.clients state.object object) :
      LockedStep state { state with object := object }

/-- The states of the runs that start with no call. -/
def LockedReachable (object : Object) (clients : Clients) :
    LockedState Lock Object Clients Thread Call Place Result → Prop :=
  Relation.ReflTransGen (LockedStep mutex code)
    ⟨mutex.initial, object, clients, fun _ => .idle⟩

end Steps

section Rule

variable {Lock Object Clients Thread Call Place Result : Type}
variable [DecidableEq Thread]
variable {mutex : AttemptLock Lock}
variable {code : LockedCode Object Clients Thread Call Place Result}
variable {state next : LockedState Lock Object Clients Thread Call Place Result}

variable (mutex code) in
/-- What a step of a thread in a call can do. -/
theorem LockedState.tick_cases
    (state : LockedState Lock Object Clients Thread Call Place Result)
    (thread : Thread) :
    (¬ (state.threads thread).Owns ∧
      ∃ lock, (mutex.Held lock ↔ mutex.Held state.lock) ∧
        state.tick mutex code thread = { state with lock := lock }) ∨
    (∃ call lock, state.threads thread = .spinning call ∧
      ¬ mutex.Held state.lock ∧ mutex.Held lock ∧
      state.tick mutex code thread =
        { state with lock := lock }.move thread
          (.inside call (code.enter call))) ∨
    (∃ call place object next, state.threads thread = .inside call place ∧
      code.statement place state.object = (object, .inl next) ∧
      state.tick mutex code thread =
        { state with object := object }.move thread (.inside call next)) ∨
    (∃ call place object result, state.threads thread = .inside call place ∧
      code.statement place state.object = (object, .inr result) ∧
      state.tick mutex code thread =
        { state with object := object }.move thread
          (.releasing call result)) ∨
    ∃ call result, state.threads thread = .releasing call result ∧
      state.tick mutex code thread =
        { state with
          lock := mutex.release state.lock
          clients := code.returned state.clients thread call result }.move
          thread .idle := by
  cases stands : state.threads thread with
  | idle =>
      refine Or.inl ⟨id, state.lock, Iff.rfl, ?_⟩
      simp only [tick, stands]
  | spinning call =>
      have iff := mutex.attempt_iff state.lock
      have held := mutex.held_attempt state.lock
      cases tried : mutex.attempt state.lock with
      | mk taken lock =>
          rw [tried] at iff held
          cases taken with
          | false =>
              have busy : mutex.Held state.lock := by
                by_contra free
                exact Bool.false_ne_true (iff.mpr free)
              refine Or.inl ⟨id, lock, iff_of_true held busy, ?_⟩
              simp [tick, stands, tried]
          | true =>
              refine Or.inr (Or.inl
                ⟨call, lock, rfl, iff.mp rfl, held, ?_⟩)
              simp [tick, stands, tried]
  | inside call place =>
      refine Or.inr (Or.inr ?_)
      cases done : code.statement place state.object with
      | mk object after =>
          cases after with
          | inl next =>
              refine Or.inl ⟨call, place, object, next, rfl, done, ?_⟩
              simp only [tick, stands, done]
          | inr result =>
              refine Or.inr (Or.inl
                ⟨call, place, object, result, rfl, done, ?_⟩)
              simp only [tick, stands, done]
  | releasing call result =>
      refine Or.inr (Or.inr (Or.inr (Or.inr ⟨call, result, rfl, ?_⟩)))
      simp only [tick, stands]

namespace Exclusive

/-- A thread that goes on without taking or releasing the lock. -/
theorem move
    (exclusive : Exclusive mutex state)
    {thread : Thread}
    {place : ThreadAt Call Place Result}
    (same : place.Owns ↔ (state.threads thread).Owns) :
    Exclusive mutex (state.move thread place) := by
  refine exclusive.congr (fun other => ?_) Iff.rfl
  by_cases isThread : other = thread
  · subst isThread
    rw [LockedState.move_threads_self]
    exact same
  · rw [LockedState.move_threads_of_ne _ _ _ isThread]

/-- A thread that gets the free lock is its only owner. -/
theorem takes
    (exclusive : Exclusive mutex state)
    (free : ¬ mutex.Held state.lock)
    (thread : Thread)
    {lock : Lock}
    (held : mutex.Held lock)
    {place : ThreadAt Call Place Result}
    (owns : place.Owns) :
    Exclusive mutex ({ state with lock := lock }.move thread place) := by
  have only : ∀ other,
      (({ state with lock := lock }.move thread place).threads other).Owns →
        other = thread := by
    intro other otherOwns
    by_contra different
    rw [LockedState.move_threads_of_ne _ _ _ different] at otherOwns
    exact exclusive.not_owns free other otherOwns
  refine ⟨fun first second firstOwns secondOwns => ?_, ?_⟩
  · rw [only first firstOwns, only second secondOwns]
  · refine iff_of_true held ⟨thread, ?_⟩
    rw [LockedState.move_threads_self]
    exact owns

/-- Nobody owns the lock that its owner releases. -/
theorem releases
    (exclusive : Exclusive mutex state)
    {thread : Thread}
    (owns : (state.threads thread).Owns)
    (clients : Clients) :
    Exclusive mutex
      ({ state with
        lock := mutex.release state.lock
        clients := clients }.move thread .idle) := by
  have none : ∀ other,
      ¬ (({ state with
        lock := mutex.release state.lock
        clients := clients }.move thread .idle).threads other).Owns := by
    intro other otherOwns
    by_cases isThread : other = thread
    · subst isThread
      rw [LockedState.move_threads_self] at otherOwns
      exact otherOwns
    · rw [LockedState.move_threads_of_ne _ _ _ isThread] at otherOwns
      exact isThread (exclusive.one other thread otherOwns owns)
  exact ⟨fun first _ firstOwns => absurd firstOwns (none first),
    iff_of_false (mutex.free_release _) fun ⟨other, owner⟩ => none other owner⟩

end Exclusive

/-! ## The rule of the lock -/

/-- The steps of a thread that has no lock do not change the phase. -/
theorem LockedState.inPhase_move
    {thread : Thread}
    {place : ThreadAt Call Place Result}
    (before : ¬ (state.threads thread).Owns)
    (after : ¬ place.Owns)
    {phase : LockPhase Thread Call Place Result}
    (inPhase : (state.move thread place).InPhase phase) :
    state.InPhase phase := by
  rcases inPhase with ⟨shape, none⟩ | ⟨owner, owned, shape⟩
  · refine Or.inl ⟨shape, fun other owns => ?_⟩
    have different : other ≠ thread := fun same => before (same ▸ owns)
    apply none other
    rwa [move_threads_of_ne _ _ _ different]
  · have different : owner ≠ thread := by
      rintro rfl
      rw [move_threads_self] at owned
      exact after owned
    rw [move_threads_of_ne _ _ _ different] at owned shape
    exact Or.inr ⟨owner, owned, shape⟩

/-- What holds of the object in every phase, and of every waiting call. -/
structure LockProof
    (code : LockedCode Object Clients Thread Call Place Result) where
  Holds : Clients → LockPhase Thread Call Place Result → Object → Prop
  Waits : Clients → Thread → Call → Prop
  called : ∀ {clients phase object thread call},
    Holds clients phase object → code.Allowed clients thread call →
    Holds (code.called clients thread call) phase object
  refused : ∀ {clients phase object thread call result},
    Holds clients phase object → code.Allowed clients thread call →
    code.refuse call object = some result →
    Holds (code.returned (code.called clients thread call) thread call result)
      phase object
  disturbed : ∀ {clients phase object after},
    Holds clients phase object → code.Disturbs clients object after →
    Holds clients phase after
  waits_own : ∀ {clients phase object thread call},
    Holds clients phase object → code.Allowed clients thread call →
    code.refuse call object = none →
    Waits (code.called clients thread call) thread call
  waits_called : ∀ {clients thread call other} otherCall,
    Waits clients thread call → other ≠ thread →
    Waits (code.called clients other otherCall) thread call
  waits_returned : ∀ {clients thread call other} otherCall result,
    Waits clients thread call → other ≠ thread →
    Waits (code.returned clients other otherCall result) thread call
  enter : ∀ {clients object thread call},
    Holds clients .free object → Waits clients thread call →
    Holds clients (.inside thread call (code.enter call)) object
  statement : ∀ {clients object thread call place after next},
    Holds clients (.inside thread call place) object →
    code.statement place object = (after, .inl next) →
    Holds clients (.inside thread call next) after
  finish : ∀ {clients object thread call place after result},
    Holds clients (.inside thread call place) object →
    code.statement place object = (after, .inr result) →
    Holds clients (.releasing thread call result) after
  returned : ∀ {clients object thread call result},
    Holds clients (.releasing thread call result) object →
    Holds (code.returned clients thread call result) .free object

namespace LockProof

variable (proof : LockProof code)

/-- The assertions hold where the threads are. -/
structure Sound
    (mutex : AttemptLock Lock)
    (state : LockedState Lock Object Clients Thread Call Place Result) :
    Prop where
  exclusive : Exclusive mutex state
  holds : ∀ phase, state.InPhase phase →
    proof.Holds state.clients phase state.object
  waits : ∀ thread call, state.threads thread = .spinning call →
    proof.Waits state.clients thread call

variable {proof : LockProof code}

namespace Sound

/-- The owner of the lock is at a place of the code. -/
theorem of_owner
    {thread : Thread}
    {place : ThreadAt Call Place Result}
    (exclusive : Exclusive mutex (state.move thread place))
    (owns : place.Owns)
    (holds : proof.Holds state.clients (place.phase thread) state.object)
    (waits : ∀ other call, state.threads other = .spinning call →
      proof.Waits state.clients other call) :
    proof.Sound mutex (state.move thread place) where
  exclusive := exclusive
  holds := by
    intro phase inPhase
    rw [exclusive.inPhase_iff 
      (by rwa [LockedState.move_threads_self]),
      LockedState.move_threads_self] at inPhase
    rw [inPhase]
    exact holds
  waits := by
    intro other call waiting
    by_cases same : other = thread
    · subst same
      rw [LockedState.move_threads_self] at waiting
      rw [waiting] at owns
      exact owns.elim
    · rw [LockedState.move_threads_of_ne _ _ _ same] at waiting
      exact waits other call waiting

omit [DecidableEq Thread] in
theorem refuse
    (sound : proof.Sound mutex state)
    {thread : Thread} {call : Call} {result : Result}
    (idle : state.threads thread = .idle)
    (allowed : code.Allowed state.clients thread call)
    (refused : code.refuse call state.object = some result) :
    proof.Sound mutex { state with
      clients := code.returned (code.called state.clients thread call)
        thread call result } where
  exclusive := sound.exclusive.congr (fun _ => Iff.rfl) Iff.rfl
  holds := by
    intro phase inPhase
    exact proof.refused (sound.holds phase inPhase) allowed refused
  waits := by
    intro other otherCall waiting
    have different : thread ≠ other := by
      rintro rfl
      rw [show state.threads thread = .spinning otherCall from waiting] at idle
      cases idle
    exact proof.waits_returned call result
      (proof.waits_called call (sound.waits other otherCall waiting) different)
      different

theorem call
    (sound : proof.Sound mutex state)
    {thread : Thread} {call : Call}
    (idle : state.threads thread = .idle)
    (allowed : code.Allowed state.clients thread call)
    (accepted : code.refuse call state.object = none) :
    proof.Sound mutex ({ state with
      clients := code.called state.clients thread call }.move thread
        (.spinning call)) where
  exclusive := by
    have moved : Exclusive mutex (state.move thread (.spinning call)) := by
      apply sound.exclusive.move
      rw [idle]
      exact Iff.rfl
    exact moved.congr (fun _ => Iff.rfl) Iff.rfl
  holds := by
    intro phase inPhase
    have before : state.InPhase phase := by
      refine LockedState.inPhase_move ?_ id inPhase
      rw [idle]
      exact id
    exact proof.called (sound.holds phase before) allowed
  waits := by
    intro other otherCall waiting
    by_cases same : other = thread
    · subst same
      rw [LockedState.move_threads_self] at waiting
      obtain rfl := ThreadAt.spinning.inj waiting
      obtain ⟨phase, inPhase⟩ := state.exists_inPhase
      exact proof.waits_own (sound.holds phase inPhase) allowed accepted
    · rw [LockedState.move_threads_of_ne _ _ _ same] at waiting
      exact proof.waits_called call (sound.waits other otherCall waiting)
        (Ne.symm same)

omit [DecidableEq Thread] in
theorem disturb
    (sound : proof.Sound mutex state)
    {object : Object}
    (disturbs : code.Disturbs state.clients state.object object) :
    proof.Sound mutex { state with object := object } where
  exclusive := sound.exclusive.congr (fun _ => Iff.rfl) Iff.rfl
  holds := by
    intro phase inPhase
    exact proof.disturbed (sound.holds phase inPhase) disturbs
  waits := sound.waits

theorem tick
    (sound : proof.Sound mutex state)
    (thread : Thread) :
    proof.Sound mutex (state.tick mutex code thread) := by
  rcases state.tick_cases mutex code thread with
    ⟨notOwner, lock, held, ticked⟩ | ⟨call, lock, stands, free, held, ticked⟩ |
      ⟨call, place, object, next, stands, done, ticked⟩ |
      ⟨call, place, object, result, stands, done, ticked⟩ |
      ⟨call, result, stands, ticked⟩
  all_goals rw [ticked]
  · exact ⟨sound.exclusive.congr (fun _ => Iff.rfl) held, sound.holds,
      sound.waits⟩
  · have nobody : state.InPhase .free :=
      Or.inl ⟨rfl, sound.exclusive.not_owns free⟩
    exact of_owner (sound.exclusive.takes free thread held trivial) trivial
      (proof.enter (sound.holds .free nobody) (sound.waits thread call stands))
      sound.waits
  · have owns : (state.threads thread).Owns := by rw [stands]; trivial
    have inside : state.InPhase (.inside thread call place) :=
      Or.inr ⟨thread, owns, by rw [stands]; rfl⟩
    have moved : Exclusive mutex (state.move thread (.inside call next)) :=
      sound.exclusive.move (iff_of_true trivial owns)
    exact of_owner (moved.congr (fun _ => Iff.rfl) Iff.rfl) trivial
      (proof.statement (sound.holds _ inside) done) sound.waits
  · have owns : (state.threads thread).Owns := by rw [stands]; trivial
    have inside : state.InPhase (.inside thread call place) :=
      Or.inr ⟨thread, owns, by rw [stands]; rfl⟩
    have moved : Exclusive mutex (state.move thread (.releasing call result)) :=
      sound.exclusive.move (iff_of_true trivial owns)
    exact of_owner (moved.congr (fun _ => Iff.rfl) Iff.rfl) trivial
      (proof.finish (sound.holds _ inside) done) sound.waits
  · have owns : (state.threads thread).Owns := by rw [stands]; trivial
    have releasing : state.InPhase (.releasing thread call result) :=
      Or.inr ⟨thread, owns, by rw [stands]; rfl⟩
    have exclusive := sound.exclusive.releases owns
      (code.returned state.clients thread call result)
    refine ⟨exclusive, fun phase inPhase => ?_, fun other otherCall waiting => ?_⟩
    · rw [LockedState.inPhase_iff_of_free
        (exclusive.not_owns (mutex.free_release _))] at inPhase
      rw [inPhase]
      exact proof.returned (sound.holds _ releasing)
    · have different : other ≠ thread := by
        rintro rfl
        rw [LockedState.move_threads_self] at waiting
        cases waiting
      rw [LockedState.move_threads_of_ne _ _ _ different] at waiting
      exact proof.waits_returned call result
        (sound.waits other otherCall waiting) (Ne.symm different)

theorem step
    (sound : proof.Sound mutex state)
    (taken : LockedStep mutex code state next) :
    proof.Sound mutex next := by
  cases taken with
  | refuse thread call result idle allowed refused =>
      exact sound.refuse idle allowed refused
  | call thread call idle allowed accepted =>
      exact sound.call idle allowed accepted
  | tick thread =>
      exact sound.tick thread
  | disturb object disturbs =>
      exact sound.disturb disturbs

end Sound

/-- What the proof says at the start holds in every interleaving. -/
theorem sound_of_reachable
    {object : Object}
    {clients : Clients}
    (initially : proof.Holds clients .free object)
    (reached : LockedReachable mutex code object clients state) :
    proof.Sound mutex state := by
  induction reached with
  | refl =>
      refine ⟨⟨fun _ _ owns => owns.elim, ?_⟩, fun phase inPhase => ?_, ?_⟩
      · exact iff_of_false mutex.initial_free fun ⟨_, owns⟩ => owns
      · rw [LockedState.inPhase_iff_of_free fun _ => id] at inPhase
        rw [inPhase]
        exact initially
      · intro thread call waiting
        cases waiting
  | tail _ taken inductionHypothesis =>
      exact inductionHypothesis.step taken

end LockProof

end Rule
