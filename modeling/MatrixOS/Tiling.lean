import Mathlib.Data.Set.Disjoint
import Mathlib.Data.Set.Lattice
import Mathlib.Order.CompletePartialOrder
import Mathlib.Data.List.Perm.Basic
import Mathlib.Data.List.Nodup
import Mathlib.Data.List.Pairwise

namespace Tiling

/-!
# Families of pieces that tile a region

A list of pieces tiles a region when different entries of the list have
disjoint extents and the extents together are exactly the region.  The
operations below are the ones a memory manager performs on its blocks:
reordering, cutting one piece in two, joining two pieces into one, and
dropping pieces.  Nothing here depends on what a piece is.
-/

variable {Piece Point : Type} (extent : Piece → Set Point)

/-- The extents of `pieces` are pairwise disjoint and cover exactly `region`. -/
structure Tiles (pieces : List Piece) (region : Set Point) : Prop where
  disjoint :
    pieces.Pairwise fun first second =>
      Disjoint (extent first) (extent second)
  covered :
    ∀ point, point ∈ region ↔ ∃ piece ∈ pieces, point ∈ extent piece

namespace Tiles

variable {extent}
variable {pieces others rest : List Piece} {region : Set Point}
variable {whole left right : Piece}

/-- Every list of pairwise disjoint pieces tiles the union of its extents. -/
theorem of_pairwise
    (disjoint :
      pieces.Pairwise fun first second =>
        Disjoint (extent first) (extent second)) :
    Tiles extent pieces {point | ∃ piece ∈ pieces, point ∈ extent piece} :=
  ⟨disjoint, fun _ => Iff.rfl⟩

/-- The order in which the pieces are listed does not matter. -/
theorem perm
    (tiles : Tiles extent pieces region)
    (permutation : pieces.Perm others) :
    Tiles extent others region where
  disjoint :=
    (permutation.pairwise_iff fun {_ _} apart => apart.symm).mp tiles.disjoint
  covered := by
    intro point
    rw [tiles.covered point]
    constructor
    · rintro ⟨piece, member, inside⟩
      exact ⟨piece, permutation.mem_iff.mp member, inside⟩
    · rintro ⟨piece, member, inside⟩
      exact ⟨piece, permutation.mem_iff.mpr member, inside⟩

/-- Renaming the pieces does not matter when their extents stay the same. -/
theorem map
    {Name : Type} {extent' : Name → Set Point}
    (tiles : Tiles extent pieces region)
    (name : Piece → Name)
    (same : ∀ piece ∈ pieces, extent' (name piece) = extent piece) :
    Tiles extent' (pieces.map name) region where
  disjoint := by
    rw [List.pairwise_map]
    refine tiles.disjoint.imp_of_mem fun firstMember secondMember apart => ?_
    rwa [same _ firstMember, same _ secondMember]
  covered := by
    intro point
    rw [tiles.covered point]
    constructor
    · rintro ⟨piece, member, inside⟩
      exact ⟨name piece, List.mem_map_of_mem member, same piece member ▸ inside⟩
    · rintro ⟨named, member, inside⟩
      obtain ⟨piece, pieceMember, rfl⟩ := List.mem_map.mp member
      exact ⟨piece, pieceMember, same piece pieceMember ▸ inside⟩

/-- The head of a tiling is disjoint from every later piece. -/
theorem head_disjoint
    (tiles : Tiles extent (whole :: rest) region)
    {piece : Piece}
    (member : piece ∈ rest) :
    Disjoint (extent whole) (extent piece) :=
  (List.pairwise_cons.mp tiles.disjoint).1 piece member

/-- Every piece lies inside the region. -/
theorem extent_subset
    (tiles : Tiles extent pieces region)
    {piece : Piece}
    (member : piece ∈ pieces) :
    extent piece ⊆ region :=
  fun point inside => (tiles.covered point).mpr ⟨piece, member, inside⟩

/-- Two pieces that share a point are the same piece. -/
theorem eq_of_mem
    (tiles : Tiles extent pieces region)
    {first second : Piece} {point : Point}
    (firstMember : first ∈ pieces)
    (secondMember : second ∈ pieces)
    (inFirst : point ∈ extent first)
    (inSecond : point ∈ extent second) :
    first = second := by
  by_contra different
  have : Std.Symm fun first second : Piece =>
      Disjoint (extent first) (extent second) :=
    ⟨fun _ _ apart => apart.symm⟩
  have apart : Disjoint (extent first) (extent second) :=
    tiles.disjoint.forall firstMember secondMember different
  exact Set.disjoint_left.mp apart inFirst inSecond

/-- A piece with a nonempty extent is listed only once. -/
theorem nodup
    (tiles : Tiles extent pieces region)
    (nonempty : ∀ piece ∈ pieces, (extent piece).Nonempty) :
    pieces.Nodup := by
  refine List.nodup_iff_pairwise_ne.mpr
    (tiles.disjoint.imp_of_mem ?_)
  intro first second firstMember _ apart same
  subst second
  obtain ⟨point, inside⟩ := nonempty first firstMember
  exact Set.disjoint_left.mp apart inside inside

/--
Cutting the first piece into two disjoint parts, or joining two disjoint
parts into one piece, does not change what is tiled.
-/
theorem cut_iff
    (parts : extent whole = extent left ∪ extent right)
    (apart : Disjoint (extent left) (extent right)) :
    Tiles extent (whole :: rest) region ↔
      Tiles extent (left :: right :: rest) region := by
  have sameCover : ∀ point,
      (∃ piece ∈ whole :: rest, point ∈ extent piece) ↔
        ∃ piece ∈ left :: right :: rest, point ∈ extent piece := by
    intro point
    simp only [List.mem_cons, exists_eq_or_imp, parts, Set.mem_union,
      or_assoc]
  have sameDisjoint :
      (whole :: rest).Pairwise
          (fun first second => Disjoint (extent first) (extent second)) ↔
        (left :: right :: rest).Pairwise
          (fun first second => Disjoint (extent first) (extent second)) := by
    simp only [List.pairwise_cons, List.mem_cons, forall_eq_or_imp, parts,
      Set.disjoint_union_left, apart, true_and]
    constructor
    · rintro ⟨both, later⟩
      exact ⟨fun piece member => (both piece member).1,
        fun piece member => (both piece member).2, later⟩
    · rintro ⟨leftApart, rightApart, later⟩
      exact ⟨fun piece member =>
        ⟨leftApart piece member, rightApart piece member⟩, later⟩
  constructor
  · rintro ⟨disjoint, covered⟩
    exact ⟨sameDisjoint.mp disjoint,
      fun point => (covered point).trans (sameCover point)⟩
  · rintro ⟨disjoint, covered⟩
    exact ⟨sameDisjoint.mpr disjoint,
      fun point => (covered point).trans (sameCover point).symm⟩

end Tiles

/--
A `flatMap` whose branch at `key` gains one entry is the old `flatMap` with
that entry in front, up to order.
-/
theorem flatMap_gain_perm
    {Key Entry : Type}
    {keys : List Key} {key : Key}
    {before after : Key → List Entry} {entry : Entry}
    (noDuplicates : keys.Nodup)
    (member : key ∈ keys)
    (gain : (after key).Perm (entry :: before key))
    (same : ∀ other, other ≠ key → after other = before other) :
    (keys.flatMap after).Perm (entry :: keys.flatMap before) := by
  induction keys with
  | nil =>
      simp at member
  | cons first rest inductionHypothesis =>
      obtain ⟨firstFresh, restNodup⟩ := List.nodup_cons.mp noDuplicates
      simp only [List.flatMap_cons]
      by_cases isFirst : first = key
      · subst first
        have restSame : rest.flatMap after = rest.flatMap before := by
          refine List.flatMap_congr fun other otherMember => same other ?_
          rintro rfl
          exact firstFresh otherMember
        rw [restSame]
        exact gain.append_right _
      · have inRest : key ∈ rest :=
          (List.mem_cons.mp member).resolve_left (Ne.symm isFirst)
        rw [same first isFirst]
        exact ((inductionHypothesis restNodup inRest).append_left
          (before first)).trans List.perm_middle

end Tiling
