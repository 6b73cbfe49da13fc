import MatrixOS.LoaderNames
import MatrixOS.StringRoutines

namespace MatrixOS

open ByteMemory ByteStrings Fuel

/-!
# Strings that are copied

`strlen`, `strcpy`, `strncpy`, `strcat` and `memcmp` of `lib/string.c` on the
bytes of memory, and the names that `loader_init` copies with them.  A loop
that looks for a terminator has no result when it does not find one.
-/

/-! ## The routines -/

/-- `strlen`. -/
def strlenFlat (mem : Memory) : (fuel str len : Nat) → Option Nat
  | 0, _, _ => none
  | fuel + 1, str, len =>
      if mem (wrap32 (str + len)) ≠ 0 then
        strlenFlat mem fuel str (len + 1)
      else
        some len

/-- `strcpy`, with both pointers as they are in its loop. -/
def strcpyFlat : (fuel : Nat) → Memory → (d src : Nat) → Option Memory
  | 0, _, _, _ => none
  | fuel + 1, mem, d, src =>
      if mem src ≠ 0 then
        strcpyFlat fuel (Function.update mem d (mem src)) (wrap32 (d + 1))
          (wrap32 (src + 1))
      else
        some (Function.update mem d 0)

/-- The first loop of `strcat`. -/
def strcatEnd (mem : Memory) : (fuel d : Nat) → Option Nat
  | 0, _ => none
  | fuel + 1, d =>
      if mem d ≠ 0 then strcatEnd mem fuel (wrap32 (d + 1)) else some d

/-- `strcat`; its second loop is the one of `strcpy`. -/
def strcatFlat (fuel : Nat) (mem : Memory) (dest src : Nat) : Option Memory :=
  (strcatEnd mem fuel dest).bind fun d => strcpyFlat fuel mem d src

/-- The first loop of `strncpy`, by the number of rounds left. -/
def strncpyCopy (dest src : Nat) : (left i : Nat) → Memory → Memory × Nat
  | 0, i, mem => (mem, i)
  | left + 1, i, mem =>
      let c := mem (wrap32 (src + i))
      if c ≠ 0 then
        strncpyCopy dest src left (i + 1)
          (Function.update mem (wrap32 (dest + i)) c)
      else
        (mem, i)

/-- The second loop of `strncpy`. -/
def strncpyPad (dest : Nat) : (left i : Nat) → Memory → Memory
  | 0, _, mem => mem
  | left + 1, i, mem =>
      strncpyPad dest left (i + 1)
        (Function.update mem (wrap32 (dest + i)) 0)

/-- `strncpy`. -/
def strncpyFlat (mem : Memory) (dest src num : Nat) : Memory :=
  let (mem, i) := strncpyCopy dest src num 0 mem
  strncpyPad dest (num - i) i mem

/-- The loop of `memcmp`, by the number of rounds left. -/
def memcmpFlatFrom (mem : Memory) (ptr1 ptr2 : Nat) : (left i : Nat) → Int
  | 0, _ => 0
  | left + 1, i =>
      let first := mem (wrap32 (ptr1 + i))
      let second := mem (wrap32 (ptr2 + i))
      if first ≠ second then (first.toNat : Int) - second.toNat
      else memcmpFlatFrom mem ptr1 ptr2 left (i + 1)

/-- `memcmp`. -/
def memcmpFlat (mem : Memory) (ptr1 ptr2 num : Nat) : Int :=
  memcmpFlatFrom mem ptr1 ptr2 num 0

/-! ## Strings in a memory that changes -/

section Strings

variable {mem changed : Memory} {str src dest : Nat} {text : List UInt8}

/-- A string stays as long as its bytes and its terminator do. -/
theorem CString.congr
    (string : CString mem str text)
    (same : Agree str (text.length + 1) changed mem) :
    CString changed str text := by
  obtain ⟨⟨noNul, bytes, ends⟩, inRange⟩ := string
  refine ⟨⟨noNul, fun offset inside => ?_, ?_⟩, inRange⟩
  · rw [same _ ⟨by omega, by omega⟩]
    exact bytes offset inside
  · rw [same _ ⟨by omega, by omega⟩]
    exact ends

theorem CString.update
    {address : Nat} {byte : UInt8}
    (string : CString mem str text)
    (outside : address < str ∨ str + text.length < address) :
    CString (Function.update mem address byte) str text :=
  string.congr fun other ⟨above, below⟩ =>
    Function.update_of_ne (by omega) _ _

/-- Text that is placed with a terminator is a string. -/
theorem cstring_place
    (noNul : 0 ∉ text)
    (mem : Memory)
    (inRange : dest + text.length < 2 ^ 32) :
    CString (place mem dest (text ++ [0])) dest text :=
  ⟨stringAt_place noNul mem dest, inRange⟩

/-! ## `strlen`, `strcpy` and `strcat` -/

theorem strlenFlat_returns
    {len : Nat}
    (string : CString mem (str + len) text) :
    Returns (fun fuel => strlenFlat mem fuel str len) (len + text.length) := by
  induction text generalizing len with
  | nil =>
      have inRange := string.inRange
      rw [List.length_nil, Nat.add_zero] at inRange
      refine returns_succ_iff.mp ?_
      simp only [strlenFlat, wrap32_of_lt inRange, string.ends, ne_eq,
        not_true_eq_false, ↓reduceIte]
      exact returns_some _
  | cons c rest inductionHypothesis =>
      obtain ⟨byte, nonzero, _, tail⟩ := string.head
      have inRange := string.inRange
      refine returns_succ_iff.mp ?_
      simp only [strlenFlat, wrap32_of_lt
        (show str + len < 2 ^ 32 by omega), byte, ne_eq, nonzero,
        not_false_eq_true, ↓reduceIte]
      have later : Returns (fun fuel => strlenFlat mem fuel str (len + 1))
          (len + 1 + rest.length) := inductionHypothesis tail
      rw [List.length_cons]
      rwa [Nat.add_assoc, Nat.add_comm 1] at later

/-- `strcpy` copies the characters and the terminator. -/
theorem strcpyFlat_returns
    (string : CString mem src text)
    (apart : dest ≤ src ∨ src + text.length < dest)
    (inRange : dest + text.length < 2 ^ 32) :
    Returns (fun fuel => strcpyFlat fuel mem dest src)
      (place mem dest (text ++ [0])) := by
  induction text generalizing mem dest src with
  | nil =>
      refine returns_succ_iff.mp ?_
      simp only [strcpyFlat, string.ends, ne_eq, not_true_eq_false, ↓reduceIte]
      exact returns_some _
  | cons c rest inductionHypothesis =>
      obtain ⟨byte, nonzero, advanced, tail⟩ := string.head
      rw [List.length_cons] at apart inRange
      refine returns_succ_iff.mp ?_
      simp only [strcpyFlat, byte, ne_eq, nonzero, not_false_eq_true,
        ↓reduceIte, advanced, wrap32_of_lt (show dest + 1 < 2 ^ 32 by omega)]
      exact inductionHypothesis (tail.update (by omega)) (by omega) (by omega)

theorem strcatEnd_returns (string : CString mem str text) :
    Returns (fun fuel => strcatEnd mem fuel str) (str + text.length) := by
  induction text generalizing str with
  | nil =>
      refine returns_succ_iff.mp ?_
      simp only [strcatEnd, string.ends, ne_eq, not_true_eq_false, ↓reduceIte]
      exact returns_some _
  | cons c rest inductionHypothesis =>
      obtain ⟨byte, nonzero, advanced, tail⟩ := string.head
      refine returns_succ_iff.mp ?_
      simp only [strcatEnd, byte, ne_eq, nonzero, not_false_eq_true, ↓reduceIte,
        advanced, List.length_cons]
      have later := inductionHypothesis tail
      rwa [Nat.add_assoc, Nat.add_comm 1] at later

/-- `strcat` writes behind the string that is there. -/
theorem strcatFlat_returns
    {head : List UInt8}
    (first : CString mem dest head)
    (second : CString mem src text)
    (apart : dest + head.length ≤ src ∨
      src + text.length < dest + head.length)
    (inRange : dest + head.length + text.length < 2 ^ 32) :
    Returns (fun fuel => strcatFlat fuel mem dest src)
      (place mem (dest + head.length) (text ++ [0])) :=
  (strcatEnd_returns first).bind_iff.mpr
    (strcpyFlat_returns second apart inRange)

/-- A string and another one behind it are one string. -/
theorem CString.append
    {head : List UInt8}
    (first : CString mem dest head)
    (noNul : 0 ∉ text)
    (inRange : dest + head.length + text.length < 2 ^ 32) :
    CString (place mem (dest + head.length) (text ++ [0])) dest
      (head ++ text) := by
  have second := cstring_place noNul mem inRange
  refine ⟨⟨?_, fun offset inside => ?_, ?_⟩, ?_⟩
  · rw [List.mem_append, not_or]
    exact ⟨first.holds.noNul, noNul⟩
  · by_cases inHead : offset < head.length
    · rw [place_of_outside (by omega), List.getElem_append_left inHead]
      exact first.holds.bytes offset inHead
    · rw [List.length_append] at inside
      have byte := second.holds.bytes (offset - head.length) (by omega)
      rw [List.getElem_append_right (by omega), ← byte]
      congr 1
      omega
  · rw [List.length_append, ← Nat.add_assoc]
    exact second.holds.ends
  · rw [List.length_append]
    omega

/-! ## `strncpy` -/

theorem strncpyPad_eq
    {left i : Nat}
    (inRange : dest + i + left ≤ 2 ^ 32) :
    strncpyPad dest left i mem = place mem (dest + i) (List.replicate left 0) := by
  induction left generalizing mem i with
  | zero =>
      rfl
  | succ left inductionHypothesis =>
      rw [strncpyPad, wrap32_of_lt (by omega), List.replicate_succ, place]
      exact inductionHypothesis (by omega)

/-- The first loop ends with the string or with the last round. -/
theorem strncpyCopy_eq
    {left i : Nat}
    (string : CString mem (src + i) text)
    (apart : dest ≤ src ∨ src + i + text.length < dest + i)
    (inRange : dest + i + left ≤ 2 ^ 32) :
    strncpyCopy dest src left i mem =
      (place mem (dest + i) (text.take left), i + min left text.length) := by
  induction left generalizing mem i text with
  | zero =>
      rw [strncpyCopy, List.take_zero, place, Nat.zero_min, Nat.add_zero]
  | succ left inductionHypothesis =>
      have srcRange := string.inRange
      rw [strncpyCopy, wrap32_of_lt (by omega)]
      cases text with
      | nil =>
          simp only [string.ends, ne_eq, not_true_eq_false, ↓reduceIte,
            List.take_nil, List.length_nil, Nat.min_zero, Nat.add_zero, place]
      | cons c rest =>
          obtain ⟨byte, nonzero, _, tail⟩ := string.head
          rw [List.length_cons] at apart
          have later : strncpyCopy dest src left (i + 1)
              (Function.update mem (dest + i) c) =
                (place (Function.update mem (dest + i) c) (dest + (i + 1))
                  (rest.take left), i + 1 + min left rest.length) :=
            inductionHypothesis (tail.update (by omega)) (by omega) (by omega)
          simp only [byte, ne_eq, nonzero, not_false_eq_true, ↓reduceIte]
          rw [wrap32_of_lt (show dest + i < 2 ^ 32 by omega), later,
            List.take_succ_cons, place, List.length_cons]
          congr 1
          omega

theorem length_strncpy (text : List UInt8) (num : Nat) :
    (strncpy text num).length = min num text.length :=
  List.length_take

/-- `strncpy` cuts the string, or pads it with zeros. -/
theorem strncpyFlat_eq
    (string : CString mem src text)
    {num : Nat}
    (apart : dest ≤ src ∨ src + text.length < dest)
    (inRange : dest + num ≤ 2 ^ 32) :
    strncpyFlat mem dest src num =
      place mem dest
        (strncpy text num ++ List.replicate (num - text.length) 0) := by
  have copied := @strncpyCopy_eq mem src dest text num 0 string (by omega)
    (by omega)
  have left : num - (0 + min num text.length) = num - text.length := by omega
  rw [strncpyFlat, copied, place_append, length_strncpy]
  simp only
  rw [strncpyPad_eq (by omega), left, Nat.zero_add, Nat.add_zero, strncpy]

/-! ## `memcmp` -/

theorem memcmpFlatFrom_eq_zero_iff
    {ptr1 ptr2 left i : Nat} :
    memcmpFlatFrom mem ptr1 ptr2 left i = 0 ↔ ∀ round, i ≤ round →
      round < i + left →
        mem (wrap32 (ptr1 + round)) = mem (wrap32 (ptr2 + round)) := by
  induction left generalizing i with
  | zero =>
      exact iff_of_true rfl fun round above below => absurd below (by omega)
  | succ left inductionHypothesis =>
      rw [memcmpFlatFrom]
      by_cases same : mem (wrap32 (ptr1 + i)) = mem (wrap32 (ptr2 + i))
      · simp only [same, ne_eq, not_true_eq_false, ↓reduceIte]
        rw [inductionHypothesis]
        constructor
        · intro later round above below
          rcases Nat.eq_or_lt_of_le above with rfl | past
          · exact same
          · exact later round past (by omega)
        · exact fun all round above below => all round (by omega) (by omega)
      · have apart : (mem (wrap32 (ptr1 + i))).toNat ≠
            (mem (wrap32 (ptr2 + i))).toNat := fun equal =>
          same (UInt8.toNat_inj.mp equal)
        simp only [ne_eq, same, not_false_eq_true, ↓reduceIte]
        exact iff_of_false (by omega) fun all =>
          same (all i (Nat.le_refl i) (by omega))

end Strings

/-! ## Strings that are put together -/

section Joined

variable {mem : Memory} {dest src other : Nat} {head text : List UInt8}

/-- The destination keeps away from a string that is copied to it. -/
def RoomApart (dest length src : Nat) (text : List UInt8) : Prop :=
  dest + length < src ∨ src + text.length < dest

/--
`strcpy` and `strcat` end and leave one string of the two, in which `strlen`
counts every character and `memcmp` finds the first string again; nothing else
is written.
-/
theorem strcpy_strcat
    (first : CString mem src head)
    (second : CString mem other text)
    (firstApart : RoomApart dest (head.length + text.length) src head)
    (secondApart : RoomApart dest (head.length + text.length) other text)
    (inRange : dest + (head.length + text.length) < 2 ^ 32) :
    ∃ copied joined,
      Returns (fun fuel => strcpyFlat fuel mem dest src) copied ∧
      Returns (fun fuel => strcatFlat fuel copied dest other) joined ∧
      CString joined dest (head ++ text) ∧
      Returns (fun fuel => strlenFlat joined fuel dest 0)
        (head.length + text.length) ∧
      memcmpFlat joined dest src head.length = 0 ∧
      ∀ address, address < dest ∨
          dest + (head.length + text.length) < address →
        joined address = mem address := by
  simp only [RoomApart] at firstApart secondApart
  have firstLength : (head ++ [0]).length = head.length + 1 := by simp
  have secondLength : (text ++ [0]).length = text.length + 1 := by simp
  have copied : Returns (fun fuel => strcpyFlat fuel mem dest src)
      (place mem dest (head ++ [0])) :=
    strcpyFlat_returns first (by omega) (by omega)
  have atDest := cstring_place first.holds.noNul mem
    (show dest + head.length < 2 ^ 32 by omega)
  have kept : CString (place mem dest (head ++ [0])) other text :=
    second.congr fun address ⟨above, below⟩ => place_of_outside (by omega)
  have joined := strcatFlat_returns atDest kept (by omega) (by omega)
  have whole := atDest.append kept.holds.noNul (by omega)
  have outside : ∀ address, address < dest ∨
      dest + (head.length + text.length) < address →
      place (place mem dest (head ++ [0])) (dest + head.length) (text ++ [0])
        address = mem address := by
    intro address apart
    rw [place_of_outside (by omega), place_of_outside (by omega)]
  refine ⟨_, _, copied, joined, whole, ?_, ?_, outside⟩
  · have counted := strlenFlat_returns
      (show CString _ (dest + 0) (head ++ text) from whole)
    rwa [Nat.zero_add, List.length_append] at counted
  · refine memcmpFlatFrom_eq_zero_iff.mpr fun round _ below => ?_
    rw [Nat.zero_add] at below
    have srcRange := first.inRange
    rw [wrap32_of_lt (by omega), wrap32_of_lt (by omega),
      outside (src + round) (by omega), first.holds.bytes round below]
    have inWhole : round < (head ++ text).length := by
      rw [List.length_append]
      omega
    rw [whole.holds.bytes round inWhole, List.getElem_append_left below]

end Joined

/-- "ab" and "c" become "abc" at 64. -/
theorem strcpy_strcat_twoStrings :
    ∃ copied joined,
      Returns (fun fuel =>
        strcpyFlat fuel (twoStrings [0x61, 0x62] [0x63]) 64 16) copied ∧
      Returns (fun fuel => strcatFlat fuel copied 64 32) joined ∧
      CString joined 64 [0x61, 0x62, 0x63] := by
  have strings := twoStrings_cString (show 0 ∉ [0x61, 0x62] by decide)
    (show 0 ∉ [0x63] by decide) (by decide) (by decide)
  obtain ⟨copied, joined, copies, joins, whole, _⟩ :=
    @strcpy_strcat _ 64 16 32 _ _ strings.1 strings.2 (Or.inr (by decide))
      (Or.inr (by decide)) (by decide)
  exact ⟨copied, joined, copies, joins, whole⟩

/-! ## The names of the modules -/

/--
What `loader_init` does to the field `name` at `field`: `grubName` is the
pointer of the boot loader, and `placeholder` that of the name to take instead.
-/
def storeModuleName
    (fuel : Nat) (mem : Memory) (field grubName placeholder : Nat) :
    Option Memory :=
  if grubName ≠ 0 then
    some (Function.update
      (strncpyFlat mem field grubName (moduleNameSize - 1))
      (wrap32 (field + (moduleNameSize - 1))) 0)
  else
    strcpyFlat fuel mem field placeholder

/-- What the two pointers lead to for a module. -/
def NameGiven
    (mem : Memory) (field grubName placeholder i : Nat)
    (mod : MultibootModule) : Prop :=
  match mod.string with
  | some text => grubName ≠ 0 ∧ CString mem grubName text ∧
      RoomApart field (moduleNameSize - 1) grubName text
  | none => grubName = 0 ∧ CString mem placeholder (placeholderName i) ∧
      RoomApart field (moduleNameSize - 1) placeholder (placeholderName i)

theorem length_placeholderName (i : Nat) :
    (placeholderName i).length < moduleNameSize := by
  rw [placeholderName]
  split
  · decide
  · split
    · decide
    · split <;> decide

/-- Text in front of zeros is a string. -/
theorem stringAt_zeros
    {text : List UInt8}
    (noNul : 0 ∉ text)
    (mem : Memory)
    (address zeros : Nat) :
    StringAt (place mem address (text ++ List.replicate (zeros + 1) 0)) address
      text := by
  refine ⟨noNul, fun offset inside => ?_, ?_⟩
  · rw [place_of_inside (by rw [List.length_append]; omega),
      List.getElem_append_left inside]
  · rw [place_of_inside (by simp), List.getElem_append_right (Nat.le_refl _)]
    simp

section ModuleNames

variable {mem : Memory} {field grubName placeholder : Nat} {text : List UInt8}

/-- The terminator is one more zero behind the padding of `strncpy`. -/
theorem storeModuleName_of_string
    (pointer : grubName ≠ 0)
    (holds : CString mem grubName text)
    (apart : RoomApart field 31 grubName text)
    (inRange : field + 32 ≤ 2 ^ 32)
    (fuel : Nat) :
    storeModuleName fuel mem field grubName placeholder =
      some (place mem field
        (strncpy text 31 ++ List.replicate (31 - text.length + 1) 0)) := by
  have size : moduleNameSize = 32 := rfl
  simp only [RoomApart] at apart
  have written : Function.update (strncpyFlat mem field grubName 31)
      (field + 31) 0 =
        place mem field (strncpy text 31 ++
          List.replicate (31 - text.length + 1) 0) := by
    rw [strncpyFlat_eq holds (by omega) (by omega), List.replicate_succ',
      ← List.append_assoc, place_snoc]
    congr 1
    rw [List.length_append, length_strncpy, List.length_replicate]
    omega
  rw [storeModuleName, if_pos pointer, size,
    wrap32_of_lt (show field + (32 - 1) < 2 ^ 32 by omega), ← written]

/-- Without a string the placeholder is copied. -/
theorem storeModuleName_of_null
    (null : grubName = 0)
    (holds : CString mem placeholder text)
    (short : text.length < 32)
    (apart : RoomApart field 31 placeholder text)
    (inRange : field + 32 ≤ 2 ^ 32) :
    Returns (fun fuel => storeModuleName fuel mem field grubName placeholder)
      (place mem field (text ++ [0])) := by
  have same (fuel : Nat) :
      storeModuleName fuel mem field grubName placeholder =
        strcpyFlat fuel mem field placeholder := by
    rw [storeModuleName, if_neg (not_not.mpr null)]
  simp only [RoomApart] at apart
  simpa only [same] using strcpyFlat_returns holds (by omega) (by omega)

/--
In the 32 bytes of the field there is the name that is recorded, with its
terminator, whatever its length; nothing else is written.
-/
theorem storeModuleName_records
    {mem : Memory} {field grubName placeholder i : Nat} {mod : MultibootModule}
    (inRange : field + moduleNameSize ≤ 2 ^ 32)
    (given : NameGiven mem field grubName placeholder i mod) :
    ∃ recorded,
      Returns (fun fuel =>
        storeModuleName fuel mem field grubName placeholder) recorded ∧
      StringAt recorded field (ModuleInfo.ofMultiboot i mod).name ∧
      ∀ address, address < field ∨ field + moduleNameSize ≤ address →
        recorded address = mem address := by
  have size : moduleNameSize = 32 := rfl
  rw [size] at inRange ⊢
  simp only [NameGiven, size] at given
  cases string : mod.string with
  | some text =>
      rw [string] at given
      obtain ⟨pointer, holds, apart⟩ := given
      have name : (ModuleInfo.ofMultiboot i mod).name = strncpy text 31 := by
        simp only [ModuleInfo.ofMultiboot, string, size]
      have noNul : 0 ∉ strncpy text 31 := fun member =>
        holds.holds.noNul (List.mem_of_mem_take member)
      rw [name]
      refine ⟨_, ?_, stringAt_zeros noNul mem field (31 - text.length), ?_⟩
      · simp only [storeModuleName_of_string pointer holds apart inRange]
        exact returns_some _
      · intro address outside
        refine place_of_outside ?_
        rw [List.length_append, length_strncpy, List.length_replicate]
        omega
  | none =>
      rw [string] at given
      obtain ⟨null, holds, apart⟩ := given
      have name : (ModuleInfo.ofMultiboot i mod).name = placeholderName i := by
        simp only [ModuleInfo.ofMultiboot, string]
      have short := length_placeholderName i
      rw [size] at short
      rw [name]
      refine ⟨_, storeModuleName_of_null null holds short apart inRange,
        stringAt_place holds.holds.noNul mem field, fun address outside => ?_⟩
      refine place_of_outside ?_
      rw [List.length_append, List.length_singleton]
      omega

end ModuleNames

/-- A module called "ab", whose name is recorded at 64. -/
theorem storeModuleName_records_twoStrings :
    ∃ recorded,
      Returns (fun fuel =>
        storeModuleName fuel (twoStrings [0x61, 0x62] [0x63]) 64 16 32)
          recorded ∧
      StringAt recorded 64 [0x61, 0x62] := by
  have strings := twoStrings_cString (show 0 ∉ [0x61, 0x62] by decide)
    (show 0 ∉ [0x63] by decide) (by decide) (by decide)
  have given : NameGiven (twoStrings [0x61, 0x62] [0x63]) 64 16 32 0
      ⟨0x200000, 0x200010, some [0x61, 0x62]⟩ :=
    ⟨by decide, strings.1, Or.inr (by decide)⟩
  obtain ⟨recorded, returns, name, _⟩ :=
    storeModuleName_records (by decide) given
  exact ⟨recorded, returns, name⟩

end MatrixOS
