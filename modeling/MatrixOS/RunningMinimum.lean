import Mathlib.Order.Lattice

namespace MatrixOS.RunningMinimum

/-!
# The running minimum of a list

A loop that walks a list once, remembers the best entry it has seen and
replaces it by a strictly smaller one only.  It ends with the first of the
smallest entries that are eligible.
-/

variable {α : Type*} {β : Type*} [LinearOrder β]

section Search

variable (eligible : α → Prop) (key : α → β)

/-- `entry` is the first of the smallest eligible entries of its list. -/
structure FirstMinimum (before : List α) (entry : α) (after : List α) :
    Prop where
  fits : eligible entry
  below : ∀ other ∈ before, eligible other → key entry < key other
  atMost : ∀ other ∈ after, eligible other → key entry ≤ key other

/-- What the loop knows of the entries it has seen. -/
def IsBest (seen : List α) : Option α → Prop
  | none => ∀ entry ∈ seen, ¬ eligible entry
  | some entry => ∃ before after,
      seen = before ++ entry :: after ∧
        FirstMinimum eligible key before entry after

variable [DecidablePred eligible]

/-- The best entry after one more entry has been looked at. -/
def improve (best : Option α) (entry : α) : Option α :=
  if eligible entry ∧ ∀ other ∈ best, key entry < key other then
    some entry
  else
    best

/-- The loop, with the best entry so far. -/
def runningMinimum : List α → Option α → Option α
  | [], best => best
  | entry :: rest, best => runningMinimum rest (improve eligible key best entry)

end Search

section Invariant

variable {eligible : α → Prop} {key : α → β}
variable {seen : List α} {best : Option α}

/-- No eligible entry of the whole list is smaller. -/
theorem FirstMinimum.key_le
    {before after : List α} {entry other : α}
    (first : FirstMinimum eligible key before entry after)
    (member : other ∈ before ++ entry :: after)
    (fits : eligible other) :
    key entry ≤ key other := by
  rcases List.mem_append.mp member with inBefore | inRest
  · exact (first.below other inBefore fits).le
  · rcases List.mem_cons.mp inRest with rfl | inAfter
    · exact le_rfl
    · exact first.atMost other inAfter fits

/-- An entry that is not taken changes nothing but the list of seen ones. -/
theorem IsBest.skipped
    (isBest : IsBest eligible key seen best)
    {entry : α}
    (worse : ¬ (eligible entry ∧ ∀ other ∈ best, key entry < key other)) :
    IsBest eligible key (seen ++ [entry]) best := by
  cases best with
  | none =>
      intro other member fits
      rcases List.mem_append.mp member with old | new
      · exact isBest other old fits
      · obtain rfl := List.mem_singleton.mp new
        exact worse ⟨fits, by simp⟩
  | some kept =>
      obtain ⟨before, after, rfl, first⟩ := isBest
      refine ⟨before, after ++ [entry], by simp, first.fits, first.below, ?_⟩
      intro other member fits
      rcases List.mem_append.mp member with old | new
      · exact first.atMost other old fits
      · obtain rfl := List.mem_singleton.mp new
        by_contra smaller
        exact worse ⟨fits, by simpa using smaller⟩

/-- An entry that is taken is smaller than every eligible one before it. -/
theorem IsBest.taken
    (isBest : IsBest eligible key seen best)
    {entry : α}
    (fits : eligible entry)
    (smaller : ∀ other ∈ best, key entry < key other) :
    IsBest eligible key (seen ++ [entry]) (some entry) := by
  refine ⟨seen, [], rfl, fits, ?_, by simp⟩
  intro other member otherFits
  cases best with
  | none =>
      exact absurd otherFits (isBest other member)
  | some kept =>
      obtain ⟨before, after, rfl, first⟩ := isBest
      have belowKept : key entry < key kept := smaller kept rfl
      rcases List.mem_append.mp member with inBefore | inRest
      · exact lt_trans belowKept (first.below other inBefore otherFits)
      · rcases List.mem_cons.mp inRest with rfl | inAfter
        · exact belowKept
        · exact lt_of_lt_of_le belowKept (first.atMost other inAfter otherFits)

variable [DecidablePred eligible]

theorem IsBest.improved
    (isBest : IsBest eligible key seen best)
    (entry : α) :
    IsBest eligible key (seen ++ [entry])
      (improve eligible key best entry) := by
  rw [improve]
  split
  · rename_i better
    exact isBest.taken better.1 better.2
  · rename_i worse
    exact isBest.skipped worse

/-- The loop ends with the best entry of the whole list. -/
theorem IsBest.afterAll
    (isBest : IsBest eligible key seen best)
    (rest : List α) :
    IsBest eligible key (seen ++ rest)
      (runningMinimum eligible key rest best) := by
  induction rest generalizing seen best with
  | nil =>
      simpa [runningMinimum] using isBest
  | cons entry rest inductionHypothesis =>
      simpa [runningMinimum] using inductionHypothesis (isBest.improved entry)

variable (eligible key) in
theorem runningMinimum_isBest (entries : List α) :
    IsBest eligible key entries (runningMinimum eligible key entries none) := by
  have nothing : IsBest eligible key [] none := by
    simp [IsBest]
  exact nothing.afterAll entries

end Invariant

end MatrixOS.RunningMinimum
