import Mathlib.Order.Basic
import Mathlib.Order.Defs.Unbundled

namespace StateOption

/-!
# Programs that may not return

A program over a state may fail to return; then its result is `none`.
`Returns` is total correctness from one state and `Ensures` is partial
correctness.  The rules follow the structure of the program.
-/

variable {State Value Next : Type}

/-- The program returns, and its result satisfies the postcondition. -/
def Returns
    (program : StateT State Option Value)
    (state : State)
    (post : Value → State → Prop) :
    Prop :=
  ∃ value next, program state = some (value, next) ∧ post value next

/-- If the program returns, its result satisfies the postcondition. -/
def Ensures
    (program : StateT State Option Value)
    (state : State)
    (post : Value → State → Prop) :
    Prop :=
  ∀ value next, program state = some (value, next) → post value next

section Bind

variable {program : StateT State Option Value}
variable {rest : Value → StateT State Option Next}
variable {state next : State} {value : Value}

theorem bind_of_eq (run : program state = some (value, next)) :
    (program >>= rest) state = rest value next := by
  change (program state).bind _ = _
  rw [run]
  rfl

theorem bind_of_none (stuck : program state = none) :
    (program >>= rest) state = none := by
  change (program state).bind _ = _
  rw [stuck]
  rfl

theorem bind_eq_some {result : Next × State} :
    (program >>= rest) state = some result ↔
      ∃ value next, program state = some (value, next) ∧
        rest value next = some result := by
  change (program state).bind _ = _ ↔ _
  rw [Option.bind_eq_some_iff]
  simp only [Prod.exists]

/-- Two programs agree when their first steps and what follows them do. -/
theorem bind_congr
    {other : StateT State Option Value}
    {otherRest : Value → StateT State Option Next}
    (first : program state = other state)
    (after : Ensures other state fun value next =>
      rest value next = otherRest value next) :
    (program >>= rest) state = (other >>= otherRest) state := by
  cases run : other state with
  | none =>
      rw [bind_of_none (first.trans run), bind_of_none run]
  | some result =>
      rw [bind_of_eq (first.trans run), bind_of_eq run]
      exact after _ _ run

end Bind

namespace Returns

variable {program : StateT State Option Value}
variable {rest : Value → StateT State Option Next}
variable {state next : State} {value : Value}
variable {middle post weaker : Value → State → Prop}
variable {final : Next → State → Prop}

theorem of_eq
    (run : program state = some (value, next))
    (holds : post value next) :
    Returns program state post :=
  ⟨value, next, run, holds⟩

theorem pure (holds : post value state) :
    Returns (Pure.pure value) state post :=
  ⟨value, state, rfl, holds⟩

theorem mono
    (returns : Returns program state post)
    (implies : ∀ value next, post value next → weaker value next) :
    Returns program state weaker := by
  obtain ⟨value, next, run, holds⟩ := returns
  exact ⟨value, next, run, implies value next holds⟩

theorem bind
    (first : Returns program state middle)
    (second : ∀ value next, middle value next →
      Returns (rest value) next final) :
    Returns (program >>= rest) state final := by
  obtain ⟨value, next, run, holds⟩ := first
  obtain ⟨result, last, after, done⟩ := second value next holds
  exact ⟨result, last, (bind_of_eq run).trans after, done⟩

/-- A first step whose result is known. -/
theorem step
    (run : program state = some (value, next))
    (second : Returns (rest value) next final) :
    Returns (program >>= rest) state final := by
  obtain ⟨result, last, after, done⟩ := second
  exact ⟨result, last, (bind_of_eq run).trans after, done⟩

/-- A program that is known to return has only this result. -/
theorem ensures (returns : Returns program state post) :
    Ensures program state post := by
  obtain ⟨value, next, run, holds⟩ := returns
  intro other last same
  obtain ⟨rfl, rfl⟩ := Prod.mk.inj (Option.some.inj (run.symm.trans same))
  exact holds

end Returns

namespace Ensures

variable {program : StateT State Option Value}
variable {rest : Value → StateT State Option Next}
variable {state next : State} {value : Value}
variable {middle post weaker : Value → State → Prop}
variable {final : Next → State → Prop}

theorem of_eq
    (run : program state = some (value, next))
    (holds : post value next) :
    Ensures program state post :=
  (Returns.of_eq run holds).ensures

/-- A first step whose result is known. -/
theorem step
    (run : program state = some (value, next))
    (second : Ensures (rest value) next final) :
    Ensures (program >>= rest) state final := by
  intro result last done
  rw [bind_of_eq run] at done
  exact second result last done

theorem pure (holds : post value state) :
    Ensures (Pure.pure value) state post := by
  intro other last same
  obtain ⟨rfl, rfl⟩ := Prod.mk.inj (Option.some.inj same)
  exact holds

theorem mono
    (ensures : Ensures program state post)
    (implies : ∀ value next, post value next → weaker value next) :
    Ensures program state weaker :=
  fun value next run => implies value next (ensures value next run)

theorem bind
    (first : Ensures program state middle)
    (second : ∀ value next, middle value next →
      Ensures (rest value) next final) :
    Ensures (program >>= rest) state final := by
  intro result last run
  obtain ⟨value, next, before, after⟩ := bind_eq_some.mp run
  exact second value next (first value next before) result last after

/-- Nothing needs to be known of the first program. -/
theorem of_rest
    (second : ∀ value next, Ensures (rest value) next final) :
    Ensures (program >>= rest) state final :=
  bind (fun _ _ _ => trivial) fun value next _ => second value next

end Ensures

/-! ## Relations that every run keeps -/

/-- The states before and after every run that returns are related. -/
def Preserves
    (relation : State → State → Prop)
    (program : StateT State Option Value) :
    Prop :=
  ∀ state, Ensures program state fun _ next => relation state next

namespace Preserves

variable {relation : State → State → Prop}
variable {program : StateT State Option Value}
variable {rest : Value → StateT State Option Next}

theorem of_map
    {Found : Type}
    {find : State → Option Found} {step : State → Found → Value × State}
    (kept : ∀ state found, relation state (step state found).2) :
    Preserves relation fun state => (find state).map (step state) := by
  intro state value next run
  obtain ⟨found, _, same⟩ := Option.map_eq_some_iff.mp run
  obtain rfl : (step state found).2 = next := congrArg Prod.snd same
  exact kept state found

theorem of_some
    {step : State → Value × State}
    (kept : ∀ state, relation state (step state).2) :
    Preserves relation fun state => some (step state) := by
  intro state value next run
  obtain rfl : (step state).2 = next := congrArg Prod.snd (Option.some.inj run)
  exact kept state

theorem ite
    {condition : Prop} [Decidable condition]
    {other : StateT State Option Value}
    (yes : Preserves relation program)
    (no : Preserves relation other) :
    Preserves relation (if condition then program else other) := by
  split
  · exact yes
  · exact no

variable [IsPreorder State relation]

theorem pure (value : Value) :
    Preserves relation (Pure.pure value : StateT State Option Value) :=
  fun state => Ensures.pure (Std.Refl.refl state)

theorem bind
    (before : Preserves relation program)
    (after : ∀ value, Preserves relation (rest value)) :
    Preserves relation (program >>= rest) :=
  fun state => (before state).bind fun value next related =>
    (after value next).mono fun _ _ later => IsTrans.trans _ _ _ related later

end Preserves

end StateOption
