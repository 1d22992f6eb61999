import Mathlib.Data.List.Induction
import Mathlib.Tactic.NormNum
import Mathlib.Tactic.Positivity
import Mathlib.Tactic.Ring
import SqlAssembly.Wire.Encode

/-!
# Numbers as octets

What a sequence of octets stands for, highest octet first, said without the functions that write
them.

* `bigEndian` is the number without a sign, and `signed` the one in two's complement.
* `bigEndian_natOctets` and `natOctets_bigEndian`: with a fixed width, numbers and octets determine
  each other.
* `twosComplement_iff`: the octets of an integer are exactly those that stand for it.
-/

namespace SqlAssembly.Wire

/-- The natural number in base 256. -/
def bigEndian (l : List UInt8) : Nat :=
  l.foldl (fun n octet => n * 256 + octet.toNat) 0

/-- The integer in two's complement. -/
def signed (l : List UInt8) : Int :=
  (bigEndian l : Int).bmod (256 ^ l.length)

/-- The integers of two's complement with `width` octets. -/
def FitsOctets (width : Nat) (n : Int) : Prop :=
  -2 ^ (8 * width - 1) ≤ n ∧ n < 2 ^ (8 * width - 1)

/-- The octets are the two's complement of an integer with the given width. -/
structure TwosComplement (width : Nat) (n : Int) (l : List UInt8) : Prop where
  length : l.length = width
  signed : signed l = n

@[simp] theorem bigEndian_nil : bigEndian [] = 0 := rfl

theorem bigEndian_concat (l : List UInt8) (octet : UInt8) :
    bigEndian (l ++ [octet]) = bigEndian l * 256 + octet.toNat := by
  rw [bigEndian, List.foldl_append]
  rfl

theorem bigEndian_lt (l : List UInt8) : bigEndian l < 256 ^ l.length := by
  induction l using List.reverseRecOn with
  | nil => decide
  | append_singleton l octet ih =>
    have := octet.toNat_lt
    rw [bigEndian_concat, List.length_append, List.length_singleton, pow_succ]
    omega

/-! ### Natural numbers -/

@[simp] theorem length_natOctets (width n : Nat) : (natOctets width n).length = width := by
  induction width generalizing n with
  | zero => rfl
  | succ width ih => rw [natOctets, List.length_append, ih, List.length_singleton]

/-- A number is written up to multiples of what the width can hold. -/
theorem bigEndian_natOctets (width n : Nat) : bigEndian (natOctets width n) = n % 256 ^ width := by
  induction width generalizing n with
  | zero => rw [natOctets, bigEndian_nil, pow_zero, Nat.mod_one]
  | succ width ih =>
    have hlast : n.toUInt8.toNat = n % 256 := UInt8.toNat_ofNat'
    rw [natOctets, bigEndian_concat, ih, hlast, pow_succ', Nat.mod_mul]
    ring

theorem bigEndian_natOctets_of_lt {width n : Nat} (h : n < 256 ^ width) :
    bigEndian (natOctets width n) = n := by
  rw [bigEndian_natOctets, Nat.mod_eq_of_lt h]

/-- Octets are those of the number that they stand for. -/
theorem natOctets_bigEndian (l : List UInt8) : natOctets l.length (bigEndian l) = l := by
  induction l using List.reverseRecOn with
  | nil => rfl
  | append_singleton l octet ih =>
    have hlt := octet.toNat_lt
    have hrest : (bigEndian l * 256 + octet.toNat) / 256 = bigEndian l := by omega
    have hlast : (bigEndian l * 256 + octet.toNat).toUInt8 = octet := by
      refine UInt8.toNat_inj.1 ?_
      rw [Nat.toUInt8_eq, UInt8.toNat_ofNat']
      omega
    rw [List.length_append, List.length_singleton, natOctets, bigEndian_concat, hrest, hlast, ih]

/-! ### Integers -/

/-- Half of what the width can hold is below zero. -/
theorem pow_width {width : Nat} (h : 0 < width) :
    (256 : Nat) ^ width = 2 * 2 ^ (8 * width - 1) := by
  rw [← pow_succ', show 8 * width - 1 + 1 = 8 * width by omega, pow_mul]
  norm_num

@[simp] theorem length_intOctets (width : Nat) (n : Int) : (intOctets width n).length = width :=
  length_natOctets _ _

theorem signed_intOctets {width : Nat} {n : Int} (hw : 0 < width) (h : FitsOctets width n) :
    signed (intOctets width n) = n := by
  have hpos : (0 : Int) < (256 ^ width : Nat) := by positivity
  have hvalue : (bigEndian (intOctets width n) : Int) = n % (256 ^ width : Nat) := by
    have hnonneg := Int.emod_nonneg n hpos.ne'
    have hlt := Int.emod_lt_of_pos n hpos
    have hnat : bigEndian (intOctets width n) = (n % (256 ^ width : Nat)).toNat :=
      bigEndian_natOctets_of_lt ((Int.toNat_lt hnonneg).2 hlt)
    rw [hnat, Int.toNat_of_nonneg hnonneg]
  obtain ⟨hlow, hhigh⟩ := h
  have hpow : ((256 ^ width : Nat) : Int) = 2 * 2 ^ (8 * width - 1) := by
    rw [pow_width hw]
    norm_cast
  rw [signed, length_intOctets, hvalue, Int.emod_bmod]
  refine Int.bmod_eq_of_le_mul_two ?_ ?_ <;> rw [hpow] <;> omega

/-- Octets stand for an integer that their width can hold. -/
theorem fitsOctets_signed {l : List UInt8} (h : l ≠ []) : FitsOctets l.length (signed l) := by
  have hpos : 0 < l.length := List.length_pos_iff.2 h
  have hm : 0 < 256 ^ l.length := by positivity
  have hlow := Int.le_bmod (x := bigEndian l) hm
  have hhigh := Int.bmod_lt (x := bigEndian l) hm
  have hpow : ((256 ^ l.length : Nat) : Int) = 2 * 2 ^ (8 * l.length - 1) := by
    rw [pow_width hpos]
    norm_cast
  rw [hpow] at hlow hhigh
  constructor <;> rw [signed] <;> omega

/-- Octets are those of the integer that they stand for. -/
theorem intOctets_signed (l : List UInt8) : intOctets l.length (signed l) = l := by
  have hvalue : signed l % (256 ^ l.length : Nat) = bigEndian l := by
    rw [signed, Int.bmod_emod, Int.emod_eq_of_lt (by positivity) (by exact_mod_cast bigEndian_lt l)]
  change natOctets l.length (signed l % (256 ^ l.length : Nat)).toNat = l
  rw [hvalue, Int.toNat_natCast, natOctets_bigEndian]

/-- The octets of an integer that fits, and no others, stand for it. -/
theorem twosComplement_iff {width : Nat} {n : Int} {l : List UInt8} (hw : 0 < width) :
    TwosComplement width n l ↔ FitsOctets width n ∧ l = intOctets width n := by
  constructor
  · rintro ⟨rfl, rfl⟩
    exact ⟨fitsOctets_signed (List.length_pos_iff.1 hw), (intOctets_signed l).symm⟩
  · rintro ⟨hfits, rfl⟩
    exact ⟨length_intOctets width n, signed_intOctets hw hfits⟩

theorem narrow_of_fits {width : Nat} {n : Int} (h : FitsOctets width n) :
    narrow width n = .ok n := by
  rw [narrow, if_pos (by simpa [FitsOctets] using h)]

theorem narrow_of_not_fits {width : Nat} {n : Int} (h : ¬FitsOctets width n) :
    narrow width n = .error .outOfRange := by
  rw [narrow, if_neg (by simpa [FitsOctets] using h)]

end SqlAssembly.Wire
