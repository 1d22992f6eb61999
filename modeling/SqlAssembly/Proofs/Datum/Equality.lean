import SqlAssembly.Datum.Basic

/-!
# Equality of data

Equality of data is symmetric and transitive. It is not reflexive, since NaN is equal to nothing.
The instances follow the layers of a datum: doubles, JSON values, data.
-/

namespace SqlAssembly

open Numeric

namespace Numeric.Double

theorem equal_eq_true_iff {x y : Double} :
    x.equal y = true ↔
      x.isNaN = false ∧ y.isNaN = false ∧ (x = y ∨ x.isZero = true ∧ y.isZero = true) := by
  have hbits : x.bits = y.bits ↔ x = y := by
    cases x
    cases y
    simp
  simp [equal, hbits, and_assoc]

instance : PartialEquivBEq Double where
  symm {x y} h := by
    obtain ⟨hx, hy, h⟩ := equal_eq_true_iff.1 h
    exact equal_eq_true_iff.2 ⟨hy, hx, h.imp Eq.symm And.symm⟩
  trans {x y z} h h' := by
    obtain ⟨hx, hy, h⟩ := equal_eq_true_iff.1 h
    obtain ⟨-, hz, h'⟩ := equal_eq_true_iff.1 h'
    refine equal_eq_true_iff.2 ⟨hx, hz, ?_⟩
    rcases h with rfl | h
    · exact h'
    · rcases h' with rfl | h'
      · exact .inr h
      · exact .inr ⟨h.1, h'.2⟩

end Numeric.Double

namespace Json

theorem Number.equal_symm {m n : Number} (h : m.equal n = true) : n.equal m = true := by
  cases m <;> cases n <;> simp only [Number.equal] at h ⊢ <;> first | cases h | exact BEq.symm h

theorem Number.equal_trans {m n k : Number} (h : m.equal n = true) (h' : n.equal k = true) :
    m.equal k = true := by
  cases m <;> cases n <;> simp only [Number.equal] at h <;> try cases h
  all_goals cases k <;> simp only [Number.equal] at h' ⊢ <;> first | cases h' | exact BEq.trans h h'

mutual

theorem equal_symm : ∀ {i j : Json}, i.equal j = true → j.equal i = true
  | .null, j, h => by cases j <;> simp_all [equal]
  | .bool _, j, h => by cases j <;> simp_all [equal]
  | .string _, j, h => by cases j <;> simp_all [equal]
  | .number m, j, h => by
    cases j with
    | number n => exact Number.equal_symm h
    | _ => cases h
  | .array a, j, h => by
    cases j with
    | array b => exact equalItems_symm (a := a) h
    | _ => cases h
  | .object a, j, h => by
    cases j with
    | object b => exact equalMembers_symm (a := a) h
    | _ => cases h

theorem equalItems_symm : ∀ {a b : List Json}, equalItems a b = true → equalItems b a = true
  | [], [], _ => rfl
  | [], _ :: _, h => nomatch h
  | _ :: _, [], h => nomatch h
  | i :: a, j :: b, h => by
    obtain ⟨hi, ha⟩ := Bool.and_eq_true_iff.1 h
    exact Bool.and_eq_true_iff.2 ⟨equal_symm hi, equalItems_symm ha⟩

theorem equalMembers_symm : ∀ {a b : List (String × Json)},
    equalMembers a b = true → equalMembers b a = true
  | [], [], _ => rfl
  | [], _ :: _, h => nomatch h
  | _ :: _, [], h => nomatch h
  | (k, i) :: a, (l, j) :: b, h => by
    obtain ⟨hi, ha⟩ := Bool.and_eq_true_iff.1 h
    obtain ⟨hk, hi⟩ := Bool.and_eq_true_iff.1 hi
    exact Bool.and_eq_true_iff.2
      ⟨Bool.and_eq_true_iff.2 ⟨BEq.symm hk, equal_symm hi⟩, equalMembers_symm ha⟩

end

mutual

theorem equal_trans : ∀ {i j k : Json}, i.equal j = true → j.equal k = true → i.equal k = true
  | .null, j, _, h, h' => by cases j <;> first | exact h' | cases h
  | .bool _, j, k, h, h' => by cases j <;> cases k <;> simp_all [equal]
  | .string _, j, k, h, h' => by cases j <;> cases k <;> simp_all [equal]
  | .number m, j, k, h, h' => by
    cases j with
    | number n =>
      cases k with
      | number l => exact Number.equal_trans h h'
      | _ => cases h'
    | _ => cases h
  | .array a, j, k, h, h' => by
    cases j with
    | array b =>
      cases k with
      | array c => exact equalItems_trans (a := a) (b := b) h h'
      | _ => cases h'
    | _ => cases h
  | .object a, j, k, h, h' => by
    cases j with
    | object b =>
      cases k with
      | object c => exact equalMembers_trans (a := a) (b := b) h h'
      | _ => cases h'
    | _ => cases h

theorem equalItems_trans : ∀ {a b c : List Json},
    equalItems a b = true → equalItems b c = true → equalItems a c = true
  | [], [], _, _, h' => h'
  | [], _ :: _, _, h, _ => nomatch h
  | _ :: _, [], _, h, _ => nomatch h
  | _ :: _, _ :: _, [], _, h' => nomatch h'
  | i :: a, j :: b, k :: c, h, h' => by
    obtain ⟨hi, ha⟩ := Bool.and_eq_true_iff.1 h
    obtain ⟨hj, hb⟩ := Bool.and_eq_true_iff.1 h'
    exact Bool.and_eq_true_iff.2 ⟨equal_trans hi hj, equalItems_trans ha hb⟩

theorem equalMembers_trans : ∀ {a b c : List (String × Json)},
    equalMembers a b = true → equalMembers b c = true → equalMembers a c = true
  | [], [], _, _, h' => h'
  | [], _ :: _, _, h, _ => nomatch h
  | _ :: _, [], _, h, _ => nomatch h
  | _ :: _, _ :: _, [], _, h' => nomatch h'
  | (k, i) :: a, (l, j) :: b, (m, o) :: c, h, h' => by
    obtain ⟨hi, ha⟩ := Bool.and_eq_true_iff.1 h
    obtain ⟨hk, hi⟩ := Bool.and_eq_true_iff.1 hi
    obtain ⟨hj, hb⟩ := Bool.and_eq_true_iff.1 h'
    obtain ⟨hl, hj⟩ := Bool.and_eq_true_iff.1 hj
    exact Bool.and_eq_true_iff.2
      ⟨Bool.and_eq_true_iff.2 ⟨BEq.trans hk hl, equal_trans hi hj⟩, equalMembers_trans ha hb⟩

end

end Json

namespace Datum

theorem equal_symm {d e : Datum} (h : d.equal e = true) : e.equal d = true := by
  cases d <;> cases e <;> first
    | exact h
    | cases h
    | exact Json.equal_symm h
    | exact BEq.symm h

theorem equal_trans {c d e : Datum} (h : c.equal d = true) (h' : d.equal e = true) :
    c.equal e = true := by
  cases c <;> cases d <;> first
    | exact h'
    | cases h
    | (cases e <;> first
        | cases h'
        | exact Json.equal_trans h h'
        | exact BEq.trans h h')

instance : PartialEquivBEq Datum where
  symm := equal_symm
  trans := equal_trans

end Datum

end SqlAssembly
