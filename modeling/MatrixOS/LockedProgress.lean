import MatrixOS.LockedCalls

/-!
# Calls under one lock return

Safety says nothing about a lock that is never released.  Here every place of
the code under the lock has a number that each statement makes smaller.  Then,
in a run in which every thread goes on again and again, the lock is released
again and again and calls go on returning.  The lock is not fair, so that a
thread may wait for ever while others return.
-/

variable {Lock Object Clients Thread Call Place Result : Type}
variable [DecidableEq Thread]
variable {mutex : AttemptLock Lock}
variable {code : LockedCode Object Clients Thread Call Place Result}
variable {state next : LockedState Lock Object Clients Thread Call Place Result}

/-- The statements that are left, at most, until the lock is released. -/
structure LockProgress (proof : LockProof code) where
  left : Place → Object → Nat
  statement : ∀ {clients object thread call place after next},
    proof.Holds clients (.inside thread call place) object →
    code.statement place object = (after, .inl next) →
    left next after < left place object
  disturbed : ∀ {clients object thread call place after},
    proof.Holds clients (.inside thread call place) object →
    code.Disturbs clients object after →
    left place after = left place object

/-! ## One step -/

/-- A thread in a call goes on by its own steps only. -/
theorem LockedStep.threads_eq
    (taken : LockedStep mutex code state next)
    {thread : Thread}
    (inCall : state.threads thread ≠ .idle) :
    next.threads thread = state.threads thread ∨
      next = state.tick mutex code thread := by
  cases taken with
  | refuse other call result idle allowed refused =>
      exact .inl rfl
  | disturb object disturbs =>
      exact .inl rfl
  | call other call idle allowed accepted =>
      have different : thread ≠ other := fun same => inCall (same ▸ idle)
      exact .inl (LockedState.move_threads_of_ne _ _ _ different)
  | tick other =>
      by_cases same : other = thread
      · exact .inr (same ▸ rfl)
      · refine .inl ?_
        rcases state.tick_cases mutex code other with
          ⟨_, lock, _, ticked⟩ | ⟨_, _, _, _, _, ticked⟩ |
            ⟨_, _, _, _, _, _, ticked⟩ | ⟨_, _, _, _, _, _, ticked⟩ |
            ⟨_, _, _, ticked⟩ <;>
          rw [ticked]
        all_goals exact LockedState.move_threads_of_ne _ _ _ (Ne.symm same)

namespace LockProof.Sound

variable {proof : LockProof code} {thread : Thread} {call : Call}
variable {place : Place}

/-- While a thread is under the lock, the others leave it its number. -/
theorem left_eq
    (sound : proof.Sound mutex state)
    (progress : LockProgress proof)
    (taken : LockedStep mutex code state next)
    (stands : state.threads thread = .inside call place) :
    progress.left place next.object = progress.left place state.object ∨
      next = state.tick mutex code thread := by
  have owns : (state.threads thread).Owns := by
    rw [stands]
    trivial
  cases taken with
  | refuse other otherCall result idle allowed refused =>
      exact .inl rfl
  | call other otherCall idle allowed accepted =>
      exact .inl rfl
  | disturb object disturbs =>
      have holds := sound.holds (.inside thread call place)
        (Or.inr ⟨thread, owns, by rw [stands]; rfl⟩)
      exact .inl (progress.disturbed holds disturbs)
  | tick other =>
      by_cases same : other = thread
      · exact .inr (same ▸ rfl)
      have notOwner : ¬ (state.threads other).Owns := fun otherOwns =>
        same (sound.exclusive.one other thread otherOwns owns)
      refine .inl ?_
      rcases state.tick_cases mutex code other with
        ⟨_, lock, _, ticked⟩ | ⟨_, _, _, _, _, ticked⟩ |
          ⟨_, _, _, _, inside, _, _⟩ | ⟨_, _, _, _, inside, _, _⟩ |
          ⟨_, _, releasing, _⟩
      · rw [ticked]
      · rw [ticked]
        rfl
      · rw [inside] at notOwner
        exact absurd trivial notOwner
      · rw [inside] at notOwner
        exact absurd trivial notOwner
      · rw [releasing] at notOwner
        exact absurd trivial notOwner

/-- A statement makes the number smaller or is the last one. -/
theorem tick_inside
    (sound : proof.Sound mutex state)
    (progress : LockProgress proof)
    (stands : state.threads thread = .inside call place) :
    (∃ after, (state.tick mutex code thread).threads thread =
        .inside call after ∧
      progress.left after (state.tick mutex code thread).object <
        progress.left place state.object) ∨
      ∃ result, (state.tick mutex code thread).threads thread =
        .releasing call result := by
  have owns : (state.threads thread).Owns := by
    rw [stands]
    trivial
  have holds := sound.holds (.inside thread call place)
    (Or.inr ⟨thread, owns, by rw [stands]; rfl⟩)
  cases done : code.statement place state.object with
  | mk object after =>
      cases after with
      | inl after =>
          refine .inl ⟨after, ?_, ?_⟩
          · simp [LockedState.tick, stands, done]
          · simp only [LockedState.tick, stands, done, LockedState.move_object]
            exact progress.statement holds done
      | inr result =>
          exact .inr ⟨result, by simp [LockedState.tick, stands, done]⟩

end LockProof.Sound

/-! ## Runs without end -/

/-- A run without end. -/
def LockedRun
    (mutex : AttemptLock Lock)
    (code : LockedCode Object Clients Thread Call Place Result)
    (states : Nat →
      LockedState Lock Object Clients Thread Call Place Result) : Prop :=
  ∀ moment, LockedStep mutex code (states moment) (states (moment + 1))

/-- Every thread gets its turn again and again. -/
def Fair
    (mutex : AttemptLock Lock)
    (code : LockedCode Object Clients Thread Call Place Result)
    (states : Nat →
      LockedState Lock Object Clients Thread Call Place Result) : Prop :=
  ∀ thread moment, ∃ later ≥ moment,
    states (later + 1) = (states later).tick mutex code thread

section Runs

variable {states : Nat →
  LockedState Lock Object Clients Thread Call Place Result}
variable {proof : LockProof code} {thread : Thread} {moment : Nat}

/-- What stays until a thread's turn is there at one of its turns. -/
theorem Fair.turn
    (fair : Fair mutex code states)
    (thread : Thread)
    (stays : LockedState Lock Object Clients Thread Call Place Result → Prop)
    (keeps : ∀ now ≥ moment, stays (states now) →
      stays (states (now + 1)) ∨
        states (now + 1) = (states now).tick mutex code thread)
    (here : stays (states moment)) :
    ∃ later ≥ moment, stays (states later) ∧
      states (later + 1) = (states later).tick mutex code thread := by
  obtain ⟨turn, notBefore, isTurn⟩ := fair thread moment
  obtain ⟨wait, rfl⟩ := Nat.exists_eq_add_of_le notBefore
  clear notBefore
  induction wait generalizing moment with
  | zero =>
      exact ⟨moment, Nat.le_refl _, here, isTurn⟩
  | succ wait inductionHypothesis =>
      rcases keeps moment (Nat.le_refl _) here with there | now
      · obtain ⟨later, after, found⟩ := inductionHypothesis
          (fun now after => keeps now (Nat.le_of_succ_le after)) there
          (by rwa [Nat.succ_add_eq_add_succ])
        exact ⟨later, Nat.le_of_succ_le after, found⟩
      · exact ⟨moment, Nat.le_refl _, here, now⟩

variable (run : LockedRun mutex code states)
variable (fair : Fair mutex code states)
variable (sound : ∀ moment, proof.Sound mutex (states moment))
variable (progress : LockProgress proof)

include run fair

/-- A thread that is about to release the lock releases it. -/
theorem LockedRun.releases
    {call : Call} {result : Result}
    (stands : (states moment).threads thread = .releasing call result) :
    ∃ later ≥ moment, (states later).threads thread = .releasing call result ∧
      states (later + 1) = (states later).tick mutex code thread := by
  refine fair.turn thread
    (fun state => state.threads thread = .releasing call result)
    (fun now _ here => ?_) stands
  rcases (run now).threads_eq (by rw [here]; nofun) with same | turn
  · exact .inl (same.trans here)
  · exact .inr turn

include sound progress

/-- A thread under the lock comes to its end. -/
theorem LockedRun.finishes
    {call : Call} {place : Place} {count : Nat}
    (stands : (states moment).threads thread = .inside call place)
    (bound : progress.left place (states moment).object < count) :
    ∃ later ≥ moment, ∃ result,
      (states later).threads thread = .releasing call result := by
  induction count generalizing moment place with
  | zero =>
      exact absurd bound (Nat.not_lt_zero _)
  | succ count inductionHypothesis =>
      obtain ⟨turn, notBefore, ⟨here, same⟩, isTurn⟩ := fair.turn thread
        (fun state => state.threads thread = .inside call place ∧
          progress.left place state.object =
            progress.left place (states moment).object)
        (fun now _ ⟨here, same⟩ => by
          rcases (run now).threads_eq (by rw [here]; nofun) with unmoved | turn
          · rcases (sound now).left_eq progress (run now) here with kept | turn
            · exact .inl ⟨unmoved.trans here, kept.trans same⟩
            · exact .inr turn
          · exact .inr turn) ⟨stands, rfl⟩
      rcases (sound turn).tick_inside progress here with
        ⟨after, moved, fewer⟩ | ⟨result, done⟩
      · rw [← isTurn] at moved fewer
        obtain ⟨later, behind, found⟩ := inductionHypothesis moved (by omega)
        exact ⟨later, by omega, found⟩
      · rw [← isTurn] at done
        exact ⟨turn + 1, by omega, result, done⟩

/-- A call under the lock returns. -/
theorem LockedRun.owner_returns
    (owns : ((states moment).threads thread).Owns) :
    ∃ later ≥ moment, ∃ call result,
      (states later).threads thread = .releasing call result ∧
      states (later + 1) = (states later).tick mutex code thread := by
  cases stands : (states moment).threads thread with
  | idle =>
      rw [stands] at owns
      exact owns.elim
  | spinning call =>
      rw [stands] at owns
      exact owns.elim
  | inside call place =>
      obtain ⟨middle, notBefore, result, releasing⟩ :=
        run.finishes fair sound progress stands (Nat.lt_succ_self _)
      obtain ⟨later, behind, found⟩ := run.releases fair releasing
      exact ⟨later, by omega, call, result, found⟩
  | releasing call result =>
      obtain ⟨later, behind, found⟩ := run.releases fair stands
      exact ⟨later, behind, call, result, found⟩

/-- As long as some thread is in a call, some call under the lock returns. -/
theorem LockedRun.returns
    (inCall : (states moment).threads thread ≠ .idle) :
    ∃ later ≥ moment, ∃ thread call result,
      (states later).threads thread = .releasing call result ∧
      states (later + 1) = (states later).tick mutex code thread := by
  by_cases owned : ∃ now ≥ moment, ∃ other, ((states now).threads other).Owns
  · obtain ⟨now, notBefore, other, owns⟩ := owned
    obtain ⟨later, behind, call, result, found⟩ :=
      run.owner_returns fair sound progress owns
    exact ⟨later, by omega, other, call, result, found⟩
  -- nobody is under the lock from now on, so that the thread gets it
  replace owned : ∀ now ≥ moment, ∀ other,
      ¬ ((states now).threads other).Owns := fun now notBefore other owns =>
    owned ⟨now, notBefore, other, owns⟩
  have waits : ∃ call, (states moment).threads thread = .spinning call := by
    have notOwner := owned moment (Nat.le_refl _) thread
    cases stands : (states moment).threads thread with
    | idle => exact absurd stands inCall
    | spinning call => exact ⟨call, rfl⟩
    | inside call place =>
        rw [stands] at notOwner
        exact absurd trivial notOwner
    | releasing call result =>
        rw [stands] at notOwner
        exact absurd trivial notOwner
  obtain ⟨call, stands⟩ := waits
  obtain ⟨turn, notBefore, here, isTurn⟩ := fair.turn thread
    (fun state => state.threads thread = .spinning call)
    (fun now _ here => by
      rcases (run now).threads_eq (by rw [here]; nofun) with same | turn
      · exact .inl (same.trans here)
      · exact .inr turn) stands
  have free : ¬ mutex.Held (states turn).lock := by
    rw [(sound turn).exclusive.held]
    rintro ⟨other, owns⟩
    exact owned turn notBefore other owns
  have taken := (mutex.attempt_iff (states turn).lock).mpr free
  refine absurd ?_ (owned (turn + 1) (by omega) thread)
  rw [isTurn]
  simp [LockedState.tick, here, taken, ThreadAt.Owns]

/-- The lock is free again and again. -/
theorem LockedRun.free_again (moment : Nat) :
    ∃ later ≥ moment, ¬ mutex.Held (states later).lock := by
  by_cases held : mutex.Held (states moment).lock
  · obtain ⟨owner, owns⟩ := (sound moment).exclusive.held.mp held
    obtain ⟨later, behind, call, result, releasing, isTurn⟩ :=
      run.owner_returns fair sound progress owns
    refine ⟨later + 1, by omega, ?_⟩
    rw [isTurn]
    simp only [LockedState.tick, releasing, LockedState.move_lock]
    exact mutex.free_release _
  · exact ⟨moment, Nat.le_refl _, held⟩

end Runs
