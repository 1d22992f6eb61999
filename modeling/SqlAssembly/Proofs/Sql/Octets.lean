import Mathlib
import SqlAssembly.Proofs.Sql.Scanner

/-!
# Characters and octets

What the octets of a text say about its characters.

* One of the first 128 characters is one octet, which no other character has among its octets; the
  first octet of a character tells how many there are (`width_eq`).
* `Tests` says that a test of octets finds the characters of a test of characters.
* `place a` is the place behind the characters `a`.
-/

namespace SqlAssembly.Sql.Scanner

/-! ### The octets of one character -/

theorem encode_of_lt {c : Char} (h : c.toNat < 128) : String.utf8EncodeChar c = [c.toUInt8] := by
  have hv : c.val.toNat ≤ 127 := Nat.le_of_lt_succ h
  simp only [String.utf8EncodeChar, if_pos hv]
  rfl

/-- The octets of other characters are not those of the first 128 ones. -/
theorem le_of_mem_encode {c : Char} (h : 128 ≤ c.toNat) :
    ∀ x ∈ String.utf8EncodeChar c, 128 ≤ x.toNat := by
  have hv : ¬c.val.toNat ≤ 127 := Nat.not_le.2 h
  simp only [String.utf8EncodeChar, if_neg hv]
  split
  · simp
    omega
  · split
    · simp
      omega
    · simp
      omega

theorem toNat_toUInt8 {c : Char} (h : c.toNat < 128) : c.toUInt8.toNat = c.toNat := by
  show c.toNat % 256 = c.toNat
  omega

theorem toUInt8_inj {c d : Char} (hc : c.toNat < 128) (hd : d.toNat < 128) :
    c.toUInt8 = d.toUInt8 ↔ c = d := by
  constructor
  · intro h
    have := congrArg UInt8.toNat h
    rw [toNat_toUInt8 hc, toNat_toUInt8 hd] at this
    exact Char.toNat_inj.1 this
  · rintro rfl
    rfl

theorem toUInt8_mem_encode_iff {c d : Char} (hd : d.toNat < 128) :
    d.toUInt8 ∈ String.utf8EncodeChar c ↔ c = d := by
  by_cases hc : c.toNat < 128
  · rw [encode_of_lt hc, List.mem_singleton, toUInt8_inj hd hc, eq_comm]
  · constructor
    · intro h
      have := le_of_mem_encode (Nat.le_of_not_lt hc) _ h
      rw [toNat_toUInt8 hd] at this
      omega
    · rintro rfl
      exact absurd hd hc

/-- Behind the first octet of a character there are none of the first 128 characters. -/
theorem le_of_mem_tail {c : Char} {x : UInt8} {u : List UInt8}
    (h : String.utf8EncodeChar c = x :: u) : ∀ y ∈ u, 128 ≤ y.toNat := by
  by_cases hc : c.toNat < 128
  · rw [encode_of_lt hc] at h
    cases h
    nofun
  · intro y hy
    exact le_of_mem_encode (Nat.le_of_not_lt hc) y (by simp [h, hy])

theorem exists_encode (c : Char) : ∃ x u, String.utf8EncodeChar c = x :: u :=
  List.exists_cons_of_ne_nil String.utf8EncodeChar_ne_nil

/-- The first octet of a character tells how many there are. -/
theorem width_eq {c : Char} {x : UInt8} (h : (String.utf8EncodeChar c).head? = some x) :
    width x = (String.utf8EncodeChar c).length := by
  have htoNat : ∀ n < 256, (UInt8.ofNat n).toNat = n := fun n hn => Nat.mod_eq_of_lt hn
  revert h
  fun_cases String.utf8EncodeChar c with
  | case1 v h₁ =>
    rintro ⟨⟩
    simp only [width, UInt8.le_iff_toNat_le, htoNat v (by omega), UInt8.reduceToNat]
    rw [if_pos h₁]
    rfl
  | case2 v h₁ h₂ =>
    rintro ⟨⟩
    simp only [width, UInt8.le_iff_toNat_le, htoNat (v / 64 % 32 + 192) (by omega),
      UInt8.reduceToNat]
    rw [if_neg (by omega), if_pos (by omega)]
    rfl
  | case3 v h₁ h₂ h₃ =>
    rintro ⟨⟩
    simp only [width, UInt8.le_iff_toNat_le, htoNat (v / 4096 % 16 + 224) (by omega),
      UInt8.reduceToNat]
    rw [if_neg (by omega), if_neg (by omega), if_pos (by omega)]
    rfl
  | case4 v h₁ h₂ h₃ =>
    rintro ⟨⟩
    simp only [width, UInt8.le_iff_toNat_le, htoNat (v / 262144 % 8 + 240) (by omega),
      UInt8.reduceToNat]
    rw [if_neg (by omega), if_neg (by omega), if_neg (by omega)]
    rfl

/-! ### Tests -/

/-- The octet test `f` finds the characters of the test `p`, which are among the first 128. -/
structure Tests (f : UInt8 → Bool) (p : Char → Bool) : Prop where
  ascii : ∀ c, c.toNat < 128 → f c.toUInt8 = p c
  octet : ∀ b, 128 ≤ b.toNat → f b = false
  char : ∀ c, 128 ≤ c.toNat → p c = false

theorem Tests.lt_of_char {f : UInt8 → Bool} {p : Char → Bool} (h : Tests f p) {c : Char}
    (hc : p c = true) : c.toNat < 128 :=
  Nat.lt_of_not_le fun hge => by
    rw [h.char c hge] at hc
    cases hc

theorem tests_eq {d : Char} (hd : d.toNat < 128) : Tests (· == d.toUInt8) (· == d) where
  ascii c hc := by
    rw [Bool.eq_iff_iff, beq_iff_eq, beq_iff_eq, toUInt8_inj hc hd]
  octet b hb := by
    rw [beq_eq_false_iff_ne]
    rintro rfl
    rw [toNat_toUInt8 hd] at hb
    omega
  char c hc := by
    rw [beq_eq_false_iff_ne]
    rintro rfl
    omega

theorem Tests.or {f g : UInt8 → Bool} {p q : Char → Bool} (hf : Tests f p) (hg : Tests g q) :
    Tests (fun b => f b || g b) (fun c => p c || q c) where
  ascii c hc := by rw [hf.ascii c hc, hg.ascii c hc]
  octet b hb := by rw [hf.octet b hb, hg.octet b hb]; rfl
  char c hc := by rw [hf.char c hc, hg.char c hc]; rfl

theorem tests_startsName : Tests startsName isNameStart where
  ascii c hc := by
    have h : ∀ n < 128, startsName (Char.ofNat n).toUInt8 = isNameStart (Char.ofNat n) := by decide
    simpa using h c.toNat hc
  octet b hb := by
    have h : ∀ n < 256, 128 ≤ n → startsName (UInt8.ofNat n) = false := by decide +kernel
    simpa using h b.toNat b.toNat_lt hb
  char c hc := by
    have hv : 128 ≤ c.val.toNat := hc
    have hunderscore : c ≠ '_' := by
      rintro rfl
      exact absurd hc (by decide)
    have halpha : c.isAlpha = false := by
      simp [Char.isAlpha, Char.isUpper, Char.isLower, UInt32.le_iff_toNat_le]
      omega
    simp [isNameStart, hunderscore, halpha]

theorem tests_inName : Tests inName isNameChar where
  ascii c hc := by
    have h : ∀ n < 128, inName (Char.ofNat n).toUInt8 = isNameChar (Char.ofNat n) := by decide
    simpa using h c.toNat hc
  octet b hb := by
    have h : ∀ n < 256, 128 ≤ n → inName (UInt8.ofNat n) = false := by decide +kernel
    simpa using h b.toNat b.toNat_lt hb
  char c hc := by
    have hv : 128 ≤ c.val.toNat := hc
    have hdigit : c.isDigit = false := by
      simp [Char.isDigit, UInt32.le_iff_toNat_le]
      omega
    have := tests_startsName.char c hc
    simp only [isNameStart, Bool.or_eq_false_iff] at this
    simp [isNameChar, Char.isAlphanum, this, hdigit]

/-! ### Places -/

/-- The place behind the characters. -/
def place (a : List Char) : Nat :=
  (octets a).length

@[simp] theorem octets_nil : octets [] = [] := rfl

theorem octets_cons (c : Char) (l : List Char) :
    octets (c :: l) = String.utf8EncodeChar c ++ octets l := rfl

theorem octets_cons_of_lt {c : Char} (h : c.toNat < 128) (l : List Char) :
    octets (c :: l) = c.toUInt8 :: octets l := by
  rw [octets_cons, encode_of_lt h]
  rfl

theorem octets_append (a l : List Char) : octets (a ++ l) = octets a ++ octets l :=
  List.flatMap_append

theorem place_append (a l : List Char) : place (a ++ l) = place a + place l := by
  rw [place, octets_append, List.length_append]
  rfl

theorem place_singleton (c : Char) : place [c] = (String.utf8EncodeChar c).length := by
  rw [place, octets_cons, octets_nil, List.append_nil]

theorem place_of_lt {c : Char} (h : c.toNat < 128) : place [c] = 1 := by
  rw [place_singleton, encode_of_lt h]
  rfl

theorem place_pair_of_lt {c d : Char} (hc : c.toNat < 128) (hd : d.toNat < 128) :
    place [c, d] = 2 := by
  rw [place, octets_cons_of_lt hc, octets_cons_of_lt hd]
  rfl

theorem place_succ {c : Char} (hc : c.toNat < 128) (a : List Char) :
    place a + 1 = place (a ++ [c]) := by
  rw [place_append, place_of_lt hc]

theorem place_add_two {c d : Char} (hc : c.toNat < 128) (hd : d.toNat < 128) (a : List Char) :
    place a + 2 = place (a ++ [c, d]) := by
  rw [place_append, place_pair_of_lt hc hd]

theorem getElem?_octets (a l : List Char) (k : Nat) :
    (octets (a ++ l))[place a + k]? = (octets l)[k]? := by
  rw [octets_append, place, List.getElem?_append_right (Nat.le_add_right _ _),
    Nat.add_sub_cancel_left]

theorem getElem?_place (a l : List Char) : (octets (a ++ l))[place a]? = (octets l).head? := by
  rw [List.head?_eq_getElem?, ← getElem?_octets a l 0, Nat.add_zero]

theorem Tests.any_head? {f : UInt8 → Bool} {p : Char → Bool} (h : Tests f p) (l : List Char) :
    (octets l).head?.any f = l.head?.any p := by
  cases l with
  | nil => rfl
  | cons c l =>
    by_cases hc : c.toNat < 128
    · rw [octets_cons_of_lt hc]
      exact h.ascii c hc
    · obtain ⟨x, u, hx⟩ := exists_encode c
      have hle : 128 ≤ x.toNat := le_of_mem_encode (Nat.le_of_not_lt hc) x (by simp [hx])
      rw [octets_cons, hx]
      exact (h.octet x hle).trans (h.char c (Nat.le_of_not_lt hc)).symm

theorem Tests.any_getLast? {f : UInt8 → Bool} {p : Char → Bool} (h : Tests f p) (l : List Char) :
    (octets l).getLast?.any f = l.getLast?.any p := by
  rcases List.eq_nil_or_concat l with rfl | ⟨l, c, rfl⟩
  · rfl
  · rw [List.concat_eq_append, octets_append, List.getLast?_concat, octets_cons, octets_nil,
      List.append_nil]
    by_cases hc : c.toNat < 128
    · rw [encode_of_lt hc, List.getLast?_concat]
      exact h.ascii c hc
    · obtain ⟨x, hx⟩ := Option.ne_none_iff_exists'.1
        (mt List.getLast?_eq_none_iff.1 (String.utf8EncodeChar_ne_nil (c := c)))
      have hle : 128 ≤ x.toNat :=
        le_of_mem_encode (Nat.le_of_not_lt hc) x (List.mem_of_getLast? hx)
      rw [List.getLast?_append, hx]
      exact (h.octet x hle).trans (h.char c (Nat.le_of_not_lt hc)).symm

theorem head?_octets_eq_iff {d : Char} (hd : d.toNat < 128) (l : List Char) :
    (octets l).head? = some d.toUInt8 ↔ l.head? = some d := by
  have := (tests_eq hd).any_head? l
  rw [Bool.eq_iff_iff, Option.any_eq_true, Option.any_eq_true] at this
  simpa using this

theorem place_pos {a : List Char} (h : a ≠ []) : 0 < place a := by
  obtain ⟨c, l, rfl⟩ := List.exists_cons_of_ne_nil h
  obtain ⟨x, u, hx⟩ := exists_encode c
  rw [place, octets_cons, hx]
  exact Nat.succ_pos _

theorem followsName_place (a l : List Char) :
    followsName (octets (a ++ l)) (place a) = continuesName a.getLast? := by
  by_cases ha : a = []
  · rw [ha]
    rfl
  · have hpos := place_pos ha
    have hlast : (octets (a ++ l))[place a - 1]? = (octets a).getLast? := by
      rw [octets_append, List.getLast?_eq_getElem?, place, List.getElem?_append_left]
      exact Nat.sub_one_lt_of_lt hpos
    rw [followsName, decide_eq_true hpos, Bool.true_and, hlast, continuesName]
    exact (tests_inName.or (tests_eq (by decide))).any_getLast? a

end SqlAssembly.Sql.Scanner
