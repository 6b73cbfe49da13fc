import Mathlib.Order.Lattice
import Mathlib.Order.Nat

namespace MatrixOS.Fuel

/-!
# Computations with fuel

A loop that may run forever is given a number of steps and has no result when
they do not suffice.  It returns a result when every large enough number of
steps gives it.
-/

variable {α β : Type*}

/-- All but finitely many amounts of fuel give this result. -/
def Returns (computation : Nat → Option α) (result : α) : Prop :=
  ∃ enough, ∀ fuel, enough ≤ fuel → computation fuel = some result

theorem returns_some (result : α) : Returns (fun _ => some result) result :=
  ⟨0, fun _ _ => rfl⟩

section

variable {computation : Nat → Option α} {next : α → Nat → Option β}
variable {result other : α} {final : β}

theorem Returns.unique
    (returns : Returns computation result)
    (alsoReturns : Returns computation other) :
    result = other := by
  obtain ⟨enough, reaches⟩ := returns
  obtain ⟨alsoEnough, alsoReaches⟩ := alsoReturns
  exact Option.some.inj
    ((reaches _ (le_max_left enough alsoEnough)).symm.trans
      (alsoReaches _ (le_max_right enough alsoEnough)))

/-- A finished first part leaves the second part to be computed. -/
theorem Returns.bind_iff (returns : Returns computation result) :
    Returns (fun fuel => (computation fuel).bind fun middle => next middle fuel)
        final ↔
      Returns (next result) final := by
  obtain ⟨enough, reaches⟩ := returns
  constructor
  · rintro ⟨alsoEnough, both⟩
    refine ⟨max enough alsoEnough, fun fuel large => ?_⟩
    have reached := reaches fuel ((le_max_left _ _).trans large)
    have total := both fuel ((le_max_right _ _).trans large)
    simpa only [reached, Option.bind_some] using total
  · rintro ⟨alsoEnough, rest⟩
    refine ⟨max enough alsoEnough, fun fuel large => ?_⟩
    have reached := reaches fuel ((le_max_left _ _).trans large)
    have total := rest fuel ((le_max_right _ _).trans large)
    simpa only [reached, Option.bind_some] using total

/-- One step of fuel more or less makes no difference. -/
theorem returns_succ_iff :
    Returns (fun fuel => computation (fuel + 1)) result ↔
      Returns computation result := by
  constructor
  · rintro ⟨enough, reaches⟩
    refine ⟨enough + 1, fun fuel large => ?_⟩
    obtain ⟨less, rfl⟩ : ∃ less, fuel = less + 1 := ⟨fuel - 1, by omega⟩
    exact reaches less (Nat.le_of_succ_le_succ large)
  · rintro ⟨enough, reaches⟩
    exact ⟨enough, fun fuel large => reaches _ (Nat.le_succ_of_le large)⟩

end

end MatrixOS.Fuel
