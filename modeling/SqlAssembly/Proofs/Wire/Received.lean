import Mathlib.Algebra.Order.Field.Rat
import Mathlib.Data.Rat.Floor
import SqlAssembly.Proofs.Wire.Writing

/-!
# What a server receives

Readers for the binary forms of integers, decimals and arrays, as a server takes them in.

* A `Reader` takes octets from the front. `Reads` says that it takes exactly the given ones, with
  any octets behind them, so that readers one after another are put together by `Reads.bind`.
* `Reader.decimal` and `Decimal.value` are the reading of a decimal from its groups of four digits.
* `Reader.array` is the reading of an array of one dimension.
* `reads_numericOctets` and `reads_arrayOctets`: these readers take what is written.
-/

namespace SqlAssembly.Wire

open Numeric

variable {α β : Type}

/-- Takes octets from the front of what was received, or fails. -/
abbrev Reader := StateT (List UInt8) Option

/-- A decimal as it was received: groups of four digits, of which the first counts
`10000 ^ weight`. -/
structure Decimal where
  /-- The weight of the first group. -/
  weight : Int
  negative : Bool
  /-- The number of places after the point. -/
  places : Nat
  /-- The groups, highest first. -/
  groups : List Nat

/-- The number of groups of which the first counts `10000 ^ weight`. -/
def ofGroups : Int → List Nat → ℚ
  | _, [] => 0
  | weight, group :: rest => group * 10000 ^ weight + ofGroups (weight - 1) rest

/-- The number that a decimal stands for. What lies beyond its places is dropped. -/
def Decimal.value (d : Decimal) : ℚ :=
  let magnitude : ℚ := ⌊ofGroups d.weight d.groups * 10 ^ d.places⌋ / 10 ^ d.places
  if d.negative then -magnitude else magnitude

namespace Reader

/-- The next `n` octets. -/
def octets (n : Nat) : Reader (List UInt8) := fun l =>
  if n ≤ l.length then some (l.take n, l.drop n) else none

/-- A number without a sign. -/
def unsigned (width : Nat) : Reader Nat := bigEndian <$> octets width

/-- An integer in two's complement. -/
def signed (width : Nat) : Reader Int := Wire.signed <$> octets width

/-- What a reader gives, `n` times. -/
def times (r : Reader α) : Nat → Reader (List α)
  | 0 => pure []
  | n + 1 => do
    let first ← r
    let rest ← r.times n
    return first :: rest

/-- A decimal. -/
def decimal : Reader Decimal := do
  let count ← unsigned 2
  let weight ← signed 2
  let sign ← unsigned 2
  let places ← unsigned 2
  let groups ← (unsigned 2).times count
  guard ((sign = 0 ∨ sign = 0x4000) ∧ ∀ group ∈ groups, group < 10000)
  return ⟨weight, sign = 0x4000, places, groups⟩

/-- An item of an array, after its length. -/
def item : Reader (List UInt8) := do
  let length ← signed 4
  guard (0 ≤ length)
  octets length.toNat

/-- An array of one dimension without absent items: the object number of the elements, and the
items. -/
def array : Reader (Nat × List (List UInt8)) := do
  let dimensions ← signed 4
  let absent ← signed 4
  let element ← unsigned 4
  let count ← signed 4
  let lowest ← signed 4
  guard (dimensions = 1 ∧ absent = 0 ∧ 0 ≤ count ∧ lowest = 1)
  let items ← item.times count.toNat
  return (element, items)

/-- What a reader gives for octets that it takes to the last one. -/
def whole? (r : Reader α) (l : List UInt8) : Option α :=
  match r.run l with
  | some (a, []) => some a
  | _ => none

end Reader

/-- The reader takes exactly these octets, whatever follows them. -/
def Reads (r : Reader α) (a : α) (l : List UInt8) : Prop :=
  ∀ rest, r.run (l ++ rest) = some (a, rest)

namespace Reads

theorem pure (a : α) : Reads (Pure.pure a) a [] := fun _ => rfl

/-- Two readers take their octets one after another. -/
theorem bind {r : Reader α} {next : α → Reader β} {a : α} {b : β} {l m : List UInt8}
    (h : Reads r a l) (h' : Reads (next a) b m) : Reads (r >>= next) b (l ++ m) := by
  intro rest
  rw [StateT.run_bind, List.append_assoc, h]
  exact h' rest

theorem map {r : Reader α} {a : α} {l : List UInt8} (f : α → β) (h : Reads r a l) :
    Reads (f <$> r) (f a) l := by
  intro rest
  rw [StateT.run_map, h]
  rfl

theorem bind_return {r : Reader α} {a : α} {l : List UInt8} (f : α → β) (h : Reads r a l) :
    Reads (r >>= fun x => Pure.pure (f x)) (f a) l := by
  rw [bind_pure_comp]
  exact h.map f

theorem of_guard {p : Prop} [Decidable p] {r : Reader α} {a : α} {l : List UInt8} (hp : p)
    (h : Reads r a l) : Reads (guard p >>= fun _ => r) a l := by
  rw [guard, if_pos hp]
  exact h

/-- Items that a reader takes one by one are taken together. -/
theorem times {ι : Type} {r : Reader α} {f : ι → α} {write : ι → List UInt8} {items : List ι}
    (h : ∀ i ∈ items, Reads r (f i) (write i)) :
    Reads (r.times items.length) (items.map f) (items.flatMap write) := by
  induction items with
  | nil => exact .pure []
  | cons i items ih =>
    obtain ⟨hi, hitems⟩ := List.forall_mem_cons.1 h
    exact hi.bind ((ih hitems).bind_return (f i :: ·))

theorem whole? {r : Reader α} {a : α} {l : List UInt8} (h : Reads r a l) :
    r.whole? l = some a := by
  have hl := h []
  rw [List.append_nil] at hl
  rw [Reader.whole?, hl]

end Reads

theorem reads_octets (l : List UInt8) : Reads (Reader.octets l.length) l l := by
  intro rest
  change (if l.length ≤ (l ++ rest).length then _ else _) = _
  rw [if_pos (by simp), List.take_left, List.drop_left]

theorem reads_unsigned {width n : Nat} (h : n < 256 ^ width) :
    Reads (Reader.unsigned width) n (natOctets width n) := by
  have hread := (reads_octets (natOctets width n)).map bigEndian
  rwa [length_natOctets, bigEndian_natOctets_of_lt h] at hread

theorem reads_signed {width : Nat} {n : Int} (hw : 0 < width) (h : FitsOctets width n) :
    Reads (Reader.signed width) n (intOctets width n) := by
  have hread := (reads_octets (intOctets width n)).map signed
  rwa [length_intOctets, signed_intOctets hw h] at hread

theorem intOctets_natCast {width n : Nat} (h : n < 256 ^ width) :
    intOctets width n = natOctets width n := by
  have hmod : (n : Int) % (256 ^ width : Nat) = n :=
    Int.emod_eq_of_lt (by positivity) (by exact_mod_cast h)
  change natOctets width ((n : Int) % (256 ^ width : Nat)).toNat = _
  rw [hmod, Int.toNat_natCast]

/-- A natural number that fits is written in the same way with and without a sign. -/
theorem reads_signed_natCast {width n : Nat} (hw : 0 < width) (h : n < 2 ^ (8 * width - 1)) :
    Reads (Reader.signed width) n (natOctets width n) := by
  have hpow := pow_width hw
  rw [← intOctets_natCast (by omega)]
  refine reads_signed hw ⟨?_, by exact_mod_cast h⟩
  have : (0 : Int) < 2 ^ (8 * width - 1) := by positivity
  omega

/-! ### Arrays -/

theorem reads_item {l : List UInt8} (h : l.length < 2 ^ 31) :
    Reads Reader.item l (natOctets 4 l.length ++ l) :=
  (reads_signed_natCast (by decide) h).bind
    (.of_guard (Int.natCast_nonneg _) (by simpa using reads_octets l))

/-- An array is taken as its items, in their order. -/
theorem reads_arrayOctets {element : Nat} {items : List (List UInt8)} (he : element < 256 ^ 4)
    (hlength : items.length < 2 ^ 31) (hitems : ∀ l ∈ items, l.length < 2 ^ 31) :
    Reads Reader.array (element, items) (arrayOctets element items) := by
  have hall := Reads.times (f := id) fun l hl => reads_item (hitems l hl)
  rw [List.map_id] at hall
  rw [arrayOctets]
  simp only [List.append_assoc]
  refine (reads_signed_natCast (by decide) (by decide)).bind ?_
  refine (reads_signed_natCast (by decide) (by decide)).bind ?_
  refine (reads_unsigned he).bind ?_
  refine (reads_signed_natCast (by decide) hlength).bind ?_
  refine (reads_signed_natCast (by decide) (by decide)).bind ?_
  exact .of_guard (by simp) (hall.bind_return (element, ·))

/-! ### Decimals -/

theorem ofGroups_concat (weight : Int) (l : List Nat) (group : Nat) :
    ofGroups weight (l ++ [group]) =
      ofGroups weight l + group * 10000 ^ (weight - l.length) := by
  induction l generalizing weight with
  | nil => simp [ofGroups]
  | cons first l ih =>
    rw [List.cons_append, ofGroups, ofGroups, ih, List.length_cons, add_assoc]
    congr 4
    omega

theorem ofGroups_succ (weight : Int) (l : List Nat) :
    ofGroups (weight + 1) l = ofGroups weight l * 10000 := by
  induction l generalizing weight with
  | nil => simp [ofGroups]
  | cons group l ih =>
    have hweight : weight + 1 - 1 = weight - 1 + 1 := by omega
    rw [ofGroups, ofGroups, hweight, ih, zpow_add_one₀ (by norm_num)]
    ring

theorem lt_of_mem_groups {n group : Nat} (h : group ∈ groups n) : group < 10000 := by
  induction n using groups.induct with
  | case1 => simp [groups] at h
  | case2 n hn ih =>
    rw [groups, if_neg hn, List.mem_append, List.mem_singleton] at h
    rcases h with h | rfl
    · exact ih h
    · exact Nat.mod_lt n (by decide)

theorem length_groups_le {n k : Nat} (h : n < 10000 ^ k) : (groups n).length ≤ k := by
  induction n using groups.induct generalizing k with
  | case1 => simp [groups]
  | case2 n hn ih =>
    cases k with
    | zero => omega
    | succ k =>
      have hk : n / 10000 < 10000 ^ k := by
        rw [pow_succ] at h
        omega
      have := ih hk
      rw [groups, if_neg hn, List.length_append, List.length_singleton]
      omega

theorem groups_ne_nil {n : Nat} (h : n ≠ 0) : groups n ≠ [] := by
  rw [groups, if_neg h]
  simp

/-- The groups of a number stand for it, with the weight that makes the last one count ones. -/
theorem ofGroups_groups (n : Nat) : ofGroups ((groups n).length - 1) (groups n) = n := by
  induction n using groups.induct with
  | case1 => simp [groups, ofGroups]
  | case2 n hn ih =>
    have hlength : (((groups (n / 10000)).length + 1 : Nat) : Int) - 1 =
        (groups (n / 10000)).length - 1 + 1 := by omega
    have hdigits : ((n / 10000 : Nat) : ℚ) * 10000 + (n % 10000 : Nat) = n := by
      exact_mod_cast Nat.div_add_mod' n 10000
    rw [groups, if_neg hn, List.length_append, List.length_singleton, hlength, ofGroups_concat,
      ofGroups_succ, ih, sub_add_cancel, sub_self, zpow_zero, mul_one, hdigits]

/-- A number with no places is written as its groups. -/
theorem numericOctets_ofInt {n : Int} (h : n ≠ 0) :
    numericOctets (Fixed.ofInt n) =
      natOctets 2 (groups n.natAbs).length ++ intOctets 2 ((groups n.natAbs).length - 1) ++
        natOctets 2 (if n < 0 then 0x4000 else 0) ++ natOctets 2 0 ++
        (groups n.natAbs).flatMap (natOctets 2) := by
  have hpos : 0 < (groups n.natAbs).length :=
    List.length_pos_iff.2 (groups_ne_nil (Int.natAbs_ne_zero.2 h))
  simp [numericOctets, Fixed.ofInt, h, dropLastZeros]
  rfl

theorem reads_decimal {weight : Int} {sign places : Nat} {l : List Nat}
    (hlength : l.length < 256 ^ 2) (hweight : FitsOctets 2 weight)
    (hsign : sign = 0 ∨ sign = 0x4000) (hplaces : places < 256 ^ 2)
    (hl : ∀ group ∈ l, group < 10000) :
    Reads Reader.decimal ⟨weight, sign = 0x4000, places, l⟩
      (natOctets 2 l.length ++ intOctets 2 weight ++ natOctets 2 sign ++ natOctets 2 places ++
        l.flatMap (natOctets 2)) := by
  have hgroups := Reads.times (r := Reader.unsigned 2) (f := id) fun group hg =>
    @reads_unsigned 2 group ((hl group hg).trans (by decide))
  rw [List.map_id] at hgroups
  have hword : sign < 256 ^ 2 := by omega
  simp only [List.append_assoc]
  refine (reads_unsigned hlength).bind ?_
  refine (reads_signed (by decide) hweight).bind ?_
  refine (reads_unsigned hword).bind ?_
  refine (reads_unsigned hplaces).bind ?_
  rw [← List.append_nil (l.flatMap _)]
  exact hgroups.bind (.of_guard ⟨hsign, hl⟩ (.pure _))

/-- With no places, the groups of a natural number stand for it, up to the sign. -/
theorem value_groups (n : Nat) (negative : Bool) :
    (Decimal.mk ((groups n).length - 1) negative 0 (groups n)).value =
      if negative then -(n : ℚ) else n := by
  rw [Decimal.value, ofGroups_groups]
  simp

theorem numericOctets_zero :
    numericOctets (Fixed.ofInt 0) =
      natOctets 2 0 ++ intOctets 2 0 ++ natOctets 2 0 ++ natOctets 2 0 ++ [] := by
  decide

/-- An integer is taken as a decimal of the same value. -/
theorem reads_numericOctets {n : Int} (h : n.natAbs < 10000 ^ 5) :
    ∃ d, Reads Reader.decimal d (numericOctets (Fixed.ofInt n)) ∧ d.value = n := by
  by_cases hn : n = 0
  · subst hn
    rw [numericOctets_zero]
    exact ⟨_, reads_decimal (l := []) (by decide) ⟨by decide, by decide⟩ (.inl rfl) (by decide)
      (by simp), by simp [Decimal.value, ofGroups]⟩
  · have hlength := length_groups_le h
    have hpos : 0 < (groups n.natAbs).length :=
      List.length_pos_iff.2 (groups_ne_nil (Int.natAbs_ne_zero.2 hn))
    rw [numericOctets_ofInt hn]
    refine ⟨_, reads_decimal (by omega) ⟨by omega, by omega⟩ (by split <;> simp) (by decide)
      fun group => lt_of_mem_groups, ?_⟩
    rw [value_groups]
    rcases lt_or_ge n 0 with hneg | hneg
    · simp [hneg, Nat.cast_natAbs, abs_of_neg hneg]
    · simp [hneg.not_gt, Nat.cast_natAbs, abs_of_nonneg hneg]

end SqlAssembly.Wire
