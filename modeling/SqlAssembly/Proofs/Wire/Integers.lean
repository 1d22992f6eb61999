import SqlAssembly.Proofs.Outcome
import SqlAssembly.Proofs.Wire.Received

/-!
# Integers on the wire

The types that hold integers exactly are those of two, four and eight octets, and `numeric`.

* `ExactType.Holds` says which integers a type holds, and `ExactType.number?` and
  `ExactType.numbers?` what a server makes of the octets of a number and of an array.
* `writes_encodeInt` and `refuses_encodeInt`: an integer is written if the type holds it, and else
  nothing is.
* `writes_encodeInts` and `refuses_encodeInts`: the same for all integers of an array at once.
* `integers_exact`: integers arrive as they are or are refused.
-/

namespace SqlAssembly.Wire

open Numeric

/-- A type that holds integers exactly. -/
inductive ExactType where
  | int2
  | int4
  | int8
  | numeric

namespace ExactType

/-- The type in the catalogue. -/
def scalar : ExactType → Scalar
  | int2 => .int2
  | int4 => .int4
  | int8 => .int8
  | numeric => .numeric

/-- The number of octets, if it is the same for all numbers. -/
def width? : ExactType → Option Nat
  | int2 => some 2
  | int4 => some 4
  | int8 => some 8
  | numeric => none

/-- The integers that the type holds. -/
def Holds : ExactType → Int → Prop
  | int2, n => -2 ^ 15 ≤ n ∧ n < 2 ^ 15
  | int4, n => -2 ^ 31 ≤ n ∧ n < 2 ^ 31
  | int8, n => -2 ^ 63 ≤ n ∧ n < 2 ^ 63
  | numeric, _ => True

/-- The number that octets stand for. -/
def number? (t : ExactType) (octets : List UInt8) : Option ℚ :=
  match t.width? with
  | some width => if octets.length = width then some (signed octets) else none
  | none => (Reader.decimal.whole? octets).map Decimal.value

/-- The numbers of an array of one dimension with elements of the type. -/
def numbers? (t : ExactType) (octets : List UInt8) : Option (List ℚ) := do
  let (element, items) ← Reader.array.whole? octets
  if element = t.scalar.objectNumber then items.mapM t.number? else none

end ExactType

/-- The octets of an integer. -/
def ExactType.octets (t : ExactType) (n : Int) : List UInt8 :=
  match t.width? with
  | some width => intOctets width n
  | none => numericOctets (Fixed.ofInt n)

/-- The encoder succeeds exactly if `fits`. Then it puts octets as meant behind those that are there,
and else it finds an integer out of range and leaves what is there as it was. -/
structure Delivers (x : Encoder Presence) (fits : Prop) (meant : List UInt8 → Prop) : Prop where
  succeeds : ∀ out, (∃ p, (x.run.run out).1 = .ok p) ↔ fits
  written : fits → ∃ octets, Writes x .present octets ∧ meant octets
  refused : ¬fits → Refuses x .outOfRange

variable {t : ExactType} {n : Int64}

/-! ### One integer -/

theorem holds_iff_of_width {width : Nat} (h : t.width? = some width) (n : Int) :
    t.Holds n ↔ FitsOctets width n := by
  cases t <;> cases h <;> exact Iff.rfl

theorem width_pos {width : Nat} (h : t.width? = some width) : 0 < width ∧ width ≤ 8 := by
  cases t <;> cases h <;> decide

/-- An integer that the type holds is written. -/
theorem writes_encodeInt (h : t.Holds n.toInt) :
    Writes (encodeInt n (.scalar t.scalar)) () (t.octets n.toInt) := by
  cases t with
  | int2 => exact (Writes.liftM (narrow_of_fits (show FitsOctets 2 _ from h))).bind (.put _)
  | int4 => exact (Writes.liftM (narrow_of_fits (show FitsOctets 4 _ from h))).bind (.put _)
  | int8 => exact .put _
  | numeric => exact .put _

/-- An integer that the type does not hold is refused before anything is written. -/
theorem refuses_encodeInt (h : ¬t.Holds n.toInt) :
    Refuses (encodeInt n (.scalar t.scalar)) .outOfRange := by
  cases t with
  | int2 => exact (Refuses.liftM (narrow_of_not_fits (show ¬FitsOctets 2 _ from h))).bind _
  | int4 => exact (Refuses.liftM (narrow_of_not_fits (show ¬FitsOctets 4 _ from h))).bind _
  | int8 => exact (h ⟨n.le_toInt, n.toInt_lt⟩).elim
  | numeric => exact (h trivial).elim

/-- Every integer of 64 bits has at most five groups of digits. -/
theorem natAbs_toInt_lt (n : Int64) : n.toInt.natAbs < 10000 ^ 5 := by
  have hlow := n.le_toInt
  have hhigh := n.toInt_lt
  omega

theorem length_numericOctets_le {n : Int} (h : n.natAbs < 10000 ^ 5) :
    (numericOctets (Fixed.ofInt n)).length ≤ 18 := by
  by_cases hn : n = 0
  · subst hn
    rw [numericOctets_zero]
    decide
  · have hlength := length_groups_le h
    have hgroups : ((groups n.natAbs).flatMap (natOctets 2)).length =
        (groups n.natAbs).length * 2 := by
      simp [List.length_flatMap]
    rw [numericOctets_ofInt hn]
    simp only [List.length_append, length_natOctets, length_intOctets, hgroups]
    omega

/-- The octets of an integer that the type holds are read as this integer. -/
theorem number?_octets (h : t.Holds n.toInt) : t.number? (t.octets n.toInt) = some (n.toInt : ℚ) := by
  unfold ExactType.number? ExactType.octets
  cases hw : t.width? with
  | some width => simp [signed_intOctets (width_pos hw).1 ((holds_iff_of_width hw _).1 h)]
  | none =>
    obtain ⟨d, hd, hvalue⟩ := reads_numericOctets (natAbs_toInt_lt n)
    simp [hd.whole?, hvalue]

theorem length_octets_lt (t : ExactType) (n : Int64) : (t.octets n.toInt).length < 2 ^ 31 := by
  unfold ExactType.octets
  cases hw : t.width? with
  | some width =>
    have hle := (width_pos hw).2
    rw [length_intOctets]
    omega
  | none => exact (length_numericOctets_le (natAbs_toInt_lt n)).trans_lt (by decide)

/-! ### Arrays -/

theorem narrowAll_of_fits {width : Nat} {l : List Int64} (h : ∀ n ∈ l, FitsOctets width n.toInt) :
    narrowAll width l = .ok (l.map Int64.toInt) := by
  rw [narrowAll, mapM_eq_ok_iff, List.forall₂_map_right_iff, List.forall₂_same]
  exact fun n hn => narrow_of_fits (h n hn)

theorem narrowAll_of_not_fits {width : Nat} {l : List Int64}
    (h : ¬∀ n ∈ l, FitsOctets width n.toInt) : narrowAll width l = .error .outOfRange := by
  rw [narrowAll]
  cases hall : l.mapM fun n => narrow width n.toInt with
  | ok narrowed =>
    refine (h fun n hn => ?_).elim
    obtain ⟨m, hm⟩ := exists_mapM_iff.1 ⟨narrowed, hall⟩ n hn
    by_contra hfits
    rw [narrow_of_not_fits hfits] at hm
    cases hm
  | error e =>
    obtain ⟨-, n, -, -, -, hn⟩ := mapM_eq_error_iff.1 hall
    by_cases hfits : FitsOctets width n.toInt
    · rw [narrow_of_fits hfits] at hn
      cases hn
    · rw [narrow_of_not_fits hfits] at hn
      rw [← Except.error.inj hn]

theorem writes_putArray_map (element width : Nat) (l : List Int64) :
    Writes (putArray element (fun n => put (intOctets width n)) (l.map Int64.toInt)) ()
      (arrayOctets element (l.map fun n => intOctets width n.toInt)) := by
  have hput : Writes (putArray element (fun n => put (intOctets width n)) (l.map Int64.toInt)) () _ :=
    .putArray element fun n _ => .put (intOctets width n)
  rwa [List.map_map] at hput

/-- An array is written when the type of its elements holds all its integers. -/
theorem writes_encodeInts {l : List Int64} (h : ∀ n ∈ l, t.Holds n.toInt) :
    Writes (encodeInts l (.arrayOf t.scalar)) ()
      (arrayOctets t.scalar.objectNumber (l.map fun n => t.octets n.toInt)) := by
  cases t with
  | int2 => exact (Writes.liftM (narrowAll_of_fits h)).bind (writes_putArray_map _ 2 l)
  | int4 => exact (Writes.liftM (narrowAll_of_fits h)).bind (writes_putArray_map _ 4 l)
  | int8 => exact .putArray _ fun n _ => .put _
  | numeric => exact .putArray _ fun n _ => .put _

/-- With one integer that the type of the elements does not hold, an array is refused before
anything of it is written. -/
theorem refuses_encodeInts {l : List Int64} (h : ¬∀ n ∈ l, t.Holds n.toInt) :
    Refuses (encodeInts l (.arrayOf t.scalar)) .outOfRange := by
  cases t with
  | int2 => exact (Refuses.liftM (narrowAll_of_not_fits h)).bind _
  | int4 => exact (Refuses.liftM (narrowAll_of_not_fits h)).bind _
  | int8 => exact (h fun n _ => ⟨n.le_toInt, n.toInt_lt⟩).elim
  | numeric => exact (h fun _ _ => trivial).elim

theorem mapM_number?_octets {l : List Int64} (h : ∀ n ∈ l, t.Holds n.toInt) :
    (l.map fun n => t.octets n.toInt).mapM t.number? = some (l.map fun n => (n.toInt : ℚ)) := by
  induction l with
  | nil => rfl
  | cons n l ih =>
    obtain ⟨hn, hl⟩ := List.forall_mem_cons.1 h
    rw [List.map_cons, List.mapM_cons, number?_octets hn, ih hl]
    rfl

/-- The octets of an array are read as its numbers, in their order. -/
theorem numbers?_arrayOctets {l : List Int64} (hl : l.length < 2 ^ 31)
    (h : ∀ n ∈ l, t.Holds n.toInt) :
    t.numbers? (arrayOctets t.scalar.objectNumber (l.map fun n => t.octets n.toInt)) =
      some (l.map fun n => (n.toInt : ℚ)) := by
  have hshort : ∀ item ∈ l.map fun n => t.octets n.toInt, item.length < 2 ^ 31 := by
    intro item hitem
    obtain ⟨n, -, rfl⟩ := List.mem_map.1 hitem
    exact length_octets_lt t n
  have helement : t.scalar.objectNumber < 256 ^ 4 := by cases t <;> decide
  have harray := reads_arrayOctets helement (by rwa [List.length_map]) hshort
  rw [ExactType.numbers?, harray.whole?]
  simp [mapM_number?_octets h]

/-! ### Delivery -/

theorem Delivers.of_present {x : Encoder Unit} {fits : Prop} {meant : List UInt8 → Prop}
    {octets : List UInt8} (hwrites : fits → Writes x () octets) (hmeant : fits → meant octets)
    (hrefuses : ¬fits → Refuses x .outOfRange) : Delivers (present x) fits meant where
  succeeds out := by
    by_cases h : fits
    · exact iff_of_true ⟨.present, by rw [(hwrites h).present]⟩ h
    · refine iff_of_false ?_ h
      rintro ⟨p, hp⟩
      rw [(hrefuses h).present] at hp
      cases hp
  written h := ⟨octets, (hwrites h).present, hmeant h⟩
  refused h := (hrefuses h).present

/-- **Integers arrive as they are or are refused.** An integer is written exactly if the type holds
it, and then the octets are read as that integer; where the type has a width they are its two's
complement. An array is written exactly if the type of its elements holds all integers of the list,
and then it is read as that list. What is not written is out of range, and nothing of it is left
behind the octets that are there. -/
theorem integers_exact (t : ExactType) (n : Int64) (l : List Int64) (hl : l.length < 2 ^ 31) :
    Delivers (encodeInto (.int n) (.scalar t.scalar)) (t.Holds n.toInt)
        (fun octets => t.number? octets = some (n.toInt : ℚ)) ∧
      (∀ width, t.width? = some width → ∀ octets,
        Writes (encodeInto (.int n) (.scalar t.scalar)) .present octets ↔
          TwosComplement width n.toInt octets) ∧
      Delivers (encodeInto (.ints l) (.arrayOf t.scalar)) (∀ m ∈ l, t.Holds m.toInt)
        (fun octets => t.numbers? octets = some (l.map fun m => (m.toInt : ℚ))) := by
  have hint : Delivers (encodeInto (.int n) (.scalar t.scalar)) (t.Holds n.toInt)
      (fun octets => t.number? octets = some (n.toInt : ℚ)) :=
    .of_present writes_encodeInt number?_octets refuses_encodeInt
  refine ⟨hint, fun width hw octets => ?_,
    .of_present writes_encodeInts (numbers?_arrayOctets hl) refuses_encodeInts⟩
  have hoctets : t.octets n.toInt = intOctets width n.toInt := by rw [ExactType.octets, hw]
  rw [twosComplement_iff (width_pos hw).1, ← holds_iff_of_width hw, ← hoctets]
  have hwrites (h : t.Holds n.toInt) :
      Writes (encodeInto (.int n) (.scalar t.scalar)) .present (t.octets n.toInt) :=
    (writes_encodeInt h).present
  constructor
  · intro h
    have hholds : t.Holds n.toInt := (hint.succeeds []).1 ⟨.present, by rw [h []]⟩
    exact ⟨hholds, h.unique (hwrites hholds)⟩
  · rintro ⟨hholds, rfl⟩
    exact hwrites hholds

/-- The least integer, zero and one with a group of zeros in the middle travel as decimals. A list
with one item beyond the bounds leaves the octets that are there as they were. -/
theorem integers_exact_bounds :
    (∃ octets,
      Writes (encodeInto (.ints [Int64.minValue, 0, 900010000]) (.arrayOf .numeric)) .present octets ∧
        ExactType.numeric.numbers? octets = some [-9223372036854775808, 0, 900010000]) ∧
      (encodeInto (.ints [-32768, 32768]) (.arrayOf .int2)).run.run [0, 1] =
        (.error .outOfRange, [0, 1]) ∧
      (encodeInto (.int (-2)) (.scalar .int2)).run.run [0, 1] =
        (.ok .present, [0, 1, 0xff, 0xfe]) := by
  refine ⟨?_, ?_, ?_⟩
  · have h := (integers_exact .numeric 0 [Int64.minValue, 0, 900010000] (by decide)).2.2
    obtain ⟨octets, hoctets, hread⟩ := h.written fun _ _ => trivial
    exact ⟨octets, hoctets, hread.trans (by simp)⟩
  · refine (integers_exact .int2 0 [-32768, 32768] (by decide)).2.2.refused (fun h => ?_) [0, 1]
    exact absurd (h 32768 (by simp)).2 (by decide)
  · exact ((integers_exact .int2 (-2) [] (by decide)).2.1 2 rfl [0xff, 0xfe]).2
      ⟨rfl, by decide⟩ [0, 1]

end SqlAssembly.Wire
