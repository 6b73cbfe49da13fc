import Mathlib.Data.Nat.Basic
import Mathlib.Tactic.Ring
import Mathlib.Logic.Function.Basic

/-!
# Byte memories

A memory is a map from addresses to bytes.  Words of any width are stored
least significant byte first.  The laws say what a load sees after a store,
and that two memories which agree on a range give the same words there.
-/

/-- A memory: one byte for every address. -/
abbrev Memory := Nat → UInt8

namespace ByteMemory

/-- `address` lies in the range of `count` bytes from `first` on. -/
def InRange (first count address : Nat) : Prop :=
  first ≤ address ∧ address < first + count

instance (first count address : Nat) : Decidable (InRange first count address) :=
  inferInstanceAs (Decidable (_ ∧ _))

/-- The two memories hold the same bytes in a range. -/
def Agree (first count : Nat) (left right : Memory) : Prop :=
  ∀ address, InRange first count address → left address = right address

/-- The word of `width` bytes at an address. -/
def load (mem : Memory) : (width address : Nat) → Nat
  | 0, _ => 0
  | width + 1, address => (mem address).toNat + 256 * load mem width (address + 1)

/-- Write the low `width` bytes of a value at an address. -/
def store (mem : Memory) (width address value : Nat) : Memory :=
  fun target =>
    if InRange address width target then
      UInt8.ofNat (value / 256 ^ (target - address))
    else
      mem target

/-- Set every byte of a range. -/
def fill (mem : Memory) (first count : Nat) (byte : UInt8) : Memory :=
  fun target => if InRange first count target then byte else mem target

/-- Copy a range to another place, all bytes read before any is written. -/
def transfer (mem : Memory) (dest src count : Nat) : Memory :=
  fun target =>
    if InRange dest count target then mem (src + (target - dest))
    else mem target

namespace Agree

variable {first count : Nat} {left middle right : Memory}

theorem refl (mem : Memory) : Agree first count mem mem :=
  fun _ _ => rfl

theorem symm (agree : Agree first count left right) :
    Agree first count right left :=
  fun address inside => (agree address inside).symm

theorem trans
    (earlier : Agree first count left middle)
    (later : Agree first count middle right) :
    Agree first count left right :=
  fun address inside => (earlier address inside).trans (later address inside)

theorem mono
    {smaller less : Nat}
    (agree : Agree first count left right)
    (lower : first ≤ smaller)
    (upper : smaller + less ≤ first + count) :
    Agree smaller less left right :=
  fun address inside =>
    agree address ⟨lower.trans inside.1, Nat.lt_of_lt_of_le inside.2 upper⟩

end Agree

/-! ## Loads -/

/-- Words of the same bytes are the same, wherever they are. -/
theorem load_eq_of_bytes
    {width address other : Nat}
    {left right : Memory}
    (bytes : ∀ offset < width, left (address + offset) = right (other + offset)) :
    load left width address = load right width other := by
  induction width generalizing address other with
  | zero =>
      rfl
  | succ width inductionHypothesis =>
      have head : left address = right other := bytes 0 (by omega)
      have tail : load left width (address + 1) = load right width (other + 1) := by
        refine inductionHypothesis fun offset bound => ?_
        have byte := bytes (offset + 1) (by omega)
        rwa [Nat.add_right_comm address, Nat.add_right_comm other]
      simp only [load, head, tail]

theorem load_congr
    {width address : Nat}
    {left right : Memory}
    (agree : Agree address width left right) :
    load left width address = load right width address :=
  load_eq_of_bytes fun _ _ => agree _ ⟨by omega, by omega⟩

theorem load_lt (mem : Memory) (width address : Nat) :
    load mem width address < 256 ^ width := by
  induction width generalizing address with
  | zero =>
      exact Nat.one_pos
  | succ width inductionHypothesis =>
      have byte := (mem address).toNat_lt
      have rest := inductionHypothesis (address + 1)
      simp only [load, Nat.pow_succ]
      omega

/-- Words that are the same have the same bytes. -/
theorem bytes_of_load_eq
    {width address other : Nat}
    {left right : Memory}
    (same : load left width address = load right width other) :
    ∀ offset < width, left (address + offset) = right (other + offset) := by
  induction width generalizing address other with
  | zero =>
      exact fun offset below => absurd below (Nat.not_lt_zero _)
  | succ width inductionHypothesis =>
      have leftByte := (left address).toNat_lt
      have rightByte := (right other).toNat_lt
      simp only [load] at same
      have head : left address = right other :=
        UInt8.toNat_inj.mp (by omega)
      have tail := inductionHypothesis
        (show load left width (address + 1) = load right width (other + 1) by
          omega)
      intro offset below
      cases offset with
      | zero => exact head
      | succ offset =>
          have byte := tail offset (by omega)
          rwa [Nat.add_right_comm address, Nat.add_right_comm other] at byte

/-- A word is determined by its bytes. -/
theorem load_of_bytes
    {mem : Memory}
    {width address value : Nat}
    (bytes : ∀ offset < width,
      mem (address + offset) = UInt8.ofNat (value / 256 ^ offset)) :
    load mem width address = value % 256 ^ width := by
  induction width generalizing address value with
  | zero =>
      rw [load, pow_zero, Nat.mod_one]
  | succ width inductionHypothesis =>
      have head := bytes 0 (by omega)
      have tail : load mem width (address + 1) = value / 256 % 256 ^ width := by
        apply inductionHypothesis
        intro offset bound
        have byte := bytes (offset + 1) (by omega)
        rw [Nat.pow_succ', ← Nat.div_div_eq_div_mul] at byte
        rwa [Nat.add_right_comm]
      rw [Nat.add_zero, pow_zero, Nat.div_one] at head
      rw [load, head, tail, Nat.pow_succ', Nat.mod_mul]
      simp

/-! ## Stores -/

section Store

variable {mem : Memory} {width address value : Nat}

@[simp] theorem load_store :
    load (store mem width address value) width address =
      value % 256 ^ width := by
  apply load_of_bytes
  intro offset bound
  have inside : InRange address width (address + offset) :=
    ⟨by omega, by omega⟩
  simp only [store, inside, ↓reduceIte, Nat.add_sub_cancel_left]

theorem store_of_not_inRange
    {target : Nat}
    (outside : ¬ InRange address width target) :
    store mem width address value target = mem target :=
  if_neg outside

theorem agree_store
    {first count : Nat}
    (apart : first + count ≤ address ∨ address + width ≤ first) :
    Agree first count (store mem width address value) mem := by
  intro target inside
  apply store_of_not_inRange
  simp only [InRange] at inside ⊢
  omega

theorem load_store_of_disjoint
    {other otherWidth : Nat}
    (apart : other + otherWidth ≤ address ∨ address + width ≤ other) :
    load (store mem width address value) otherWidth other =
      load mem otherWidth other :=
  load_congr (agree_store apart)

end Store

/-! ## Fills and copies -/

section Ranges

variable {mem : Memory} {first count target : Nat} {byte : UInt8}

theorem fill_of_inRange (inside : InRange first count target) :
    fill mem first count byte target = byte :=
  if_pos inside

theorem fill_of_not_inRange (outside : ¬ InRange first count target) :
    fill mem first count byte target = mem target :=
  if_neg outside

@[simp] theorem fill_zero : fill mem first 0 byte = mem := by
  funext target
  apply fill_of_not_inRange
  simp only [InRange]
  omega

theorem fill_succ :
    fill mem first (count + 1) byte =
      Function.update (fill mem first count byte) (first + count) byte := by
  funext target
  by_cases last : target = first + count
  · subst last
    rw [Function.update_self]
    exact fill_of_inRange ⟨by omega, by omega⟩
  · rw [Function.update_of_ne last]
    have same :
        InRange first (count + 1) target ↔ InRange first count target := by
      simp only [InRange]
      omega
    simp only [fill, same]

theorem load_fill_zero
    {width address : Nat}
    (lower : first ≤ address)
    (upper : address + width ≤ first + count) :
    load (fill mem first count 0) width address = 0 := by
  refine (load_of_bytes fun offset bound => ?_).trans (Nat.zero_mod _)
  rw [Nat.zero_div]
  exact fill_of_inRange ⟨by omega, by omega⟩

theorem agree_fill
    {other otherCount : Nat}
    (apart : other + otherCount ≤ first ∨ first + count ≤ other) :
    Agree other otherCount (fill mem first count byte) mem := by
  intro target inside
  apply fill_of_not_inRange
  simp only [InRange] at inside ⊢
  omega

variable {dest src : Nat}

theorem transfer_of_inRange (inside : InRange dest count target) :
    transfer mem dest src count target = mem (src + (target - dest)) :=
  if_pos inside

theorem transfer_of_not_inRange (outside : ¬ InRange dest count target) :
    transfer mem dest src count target = mem target :=
  if_neg outside

@[simp] theorem transfer_zero : transfer mem dest src 0 = mem := by
  funext target
  apply transfer_of_not_inRange
  simp only [InRange]
  omega

/-- Copying byte by byte upwards is a copy when the source is kept. -/
theorem transfer_succ
    (kept : ¬ InRange dest count (src + count)) :
    transfer mem dest src (count + 1) =
      Function.update (transfer mem dest src count) (dest + count)
        (transfer mem dest src count (src + count)) := by
  funext target
  by_cases last : target = dest + count
  · subst last
    rw [Function.update_self, transfer_of_not_inRange kept,
      transfer_of_inRange ⟨by omega, by omega⟩, Nat.add_sub_cancel_left]
  · rw [Function.update_of_ne last]
    have same :
        InRange dest (count + 1) target ↔ InRange dest count target := by
      simp only [InRange]
      omega
    simp only [transfer, same]

/-- Copying the last byte first is a copy when it does not hit the source. -/
theorem transfer_update_last
    (ordered : src ≤ dest) :
    transfer (Function.update mem (dest + count) (mem (src + count))) dest src
        count =
      transfer mem dest src (count + 1) := by
  funext target
  by_cases last : target = dest + count
  · subst last
    rw [transfer_of_not_inRange (by simp only [InRange]; omega),
      Function.update_self, transfer_of_inRange ⟨by omega, by omega⟩,
      Nat.add_sub_cancel_left]
  by_cases inside : InRange dest count target
  · have copied : src + (target - dest) ≠ dest + count := by
      simp only [InRange] at inside
      omega
    rw [transfer_of_inRange inside, Function.update_of_ne copied,
      transfer_of_inRange ⟨inside.1, by simp only [InRange] at inside; omega⟩]
  · have outside : ¬ InRange dest (count + 1) target := by
      simp only [InRange] at inside ⊢
      omega
    rw [transfer_of_not_inRange inside, Function.update_of_ne last,
      transfer_of_not_inRange outside]

theorem agree_transfer
    {other otherCount : Nat}
    (apart : other + otherCount ≤ dest ∨ dest + count ≤ other) :
    Agree other otherCount (transfer mem dest src count) mem := by
  intro target inside
  apply transfer_of_not_inRange
  simp only [InRange] at inside ⊢
  omega

end Ranges

end ByteMemory
