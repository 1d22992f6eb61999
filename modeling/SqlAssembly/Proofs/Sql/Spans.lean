import SqlAssembly.Proofs.Sql.Comments
import Mathlib.Data.List.Infix

/-!
# Where regions end

The spans of the scanner, told from the contents that the grammar gives the regions: how a span
runs over a content, and what it is at the end of the region.
-/

namespace SqlAssembly.Sql

/-! ### Characters -/

theorem isNameStart_iff {c : Char} : isNameStart c = true ↔ NameStart c := by
  show (c == '_' || (decide (c.val ≥ 'A'.val ∧ c.val ≤ 'Z'.val) ||
    (decide (c.val ≥ 'a'.val) && decide (c.val ≤ 'z'.val)))) = true ↔ _
  simp only [NameStart, Bool.or_eq_true, beq_iff_eq, Bool.and_eq_true, decide_eq_true_eq,
    Char.le_def, UInt32.le_iff_toNat_le]
  grind

theorem isNameChar_iff {c : Char} : isNameChar c = true ↔ NameChar c := by
  rw [NameChar, ← isNameStart_iff]
  simp only [isNameChar, isNameStart, Char.isAlphanum, Char.isDigit, Bool.or_eq_true, beq_iff_eq,
    Bool.and_eq_true, decide_eq_true_eq, Char.le_def, UInt32.le_iff_toNat_le, or_assoc]

theorem continuesName_iff {prev : Option Char} : continuesName prev = true ↔ Continues prev := by
  cases prev <;> simp [continuesName, Continues, isNameChar_iff]

namespace Span

/-! ### Quotes -/

theorem untilQuote_of_ne {q c : Char} (h : c ≠ q) (l : List Char) :
    untilQuote q (c :: l) = (untilQuote q l).push [c] := by
  cases l with
  | nil => simp [untilQuote, unclosed, push, h]
  | cons d l => rw [untilQuote, if_neg h]

theorem untilQuote_close {q : Char} {rest : List Char} (h : rest.head? ≠ some q) :
    untilQuote q (q :: rest) = ⟨[q], rest, true⟩ := by
  cases rest with
  | nil => simp [untilQuote]
  | cons d rest =>
    have hd : d ≠ q := fun e => h (by rw [e]; rfl)
    rw [untilQuote, if_pos rfl, if_neg hd]

/-- The span up to a quote runs over the content between quotes. -/
theorem untilQuote_append {q : Char} {body : List Char} (h : Quoted q body) (l : List Char) :
    untilQuote q (body ++ l) = (untilQuote q l).push body := by
  induction h with
  | nil => rfl
  | char hc _ ih => rw [List.cons_append, untilQuote_of_ne hc, ih, push_push]; rfl
  | double _ ih =>
    rw [List.cons_append, List.cons_append, untilQuote, if_pos rfl, if_pos rfl, ih, push_push]
    rfl

/-! ### Quotes with escapes -/

theorem untilEscapedQuote_of_ne {c : Char} (hb : c ≠ '\\') (hq : c ≠ '\'') (l : List Char) :
    untilEscapedQuote (c :: l) = (untilEscapedQuote l).push [c] := by
  cases l with
  | nil => simp [untilEscapedQuote, unclosed, push, hq]
  | cons d l => rw [untilEscapedQuote, if_neg hb, if_neg hq]

theorem untilEscapedQuote_close {rest : List Char} (h : rest.head? ≠ some '\'') :
    untilEscapedQuote ('\'' :: rest) = ⟨['\''], rest, true⟩ := by
  cases rest with
  | nil => rfl
  | cons d rest =>
    have hd : d ≠ '\'' := fun e => h (by rw [e]; rfl)
    rw [untilEscapedQuote, if_neg (by decide), if_pos rfl, if_neg hd]

theorem untilEscapedQuote_append {body : List Char} (h : Escaped body) (l : List Char) :
    untilEscapedQuote (body ++ l) = (untilEscapedQuote l).push body := by
  induction h with
  | nil => rfl
  | char hb hq _ ih => rw [List.cons_append, untilEscapedQuote_of_ne hb hq, ih, push_push]; rfl
  | double _ ih =>
    rw [List.cons_append, List.cons_append, untilEscapedQuote, if_neg (by decide), if_pos rfl,
      if_pos rfl, ih, push_push]
    rfl
  | escape c _ ih =>
    rw [List.cons_append, List.cons_append, untilEscapedQuote, if_pos rfl, ih, push_push]
    rfl

/-! ### Lines -/

theorem untilLineFeed_append {body : List Char} (h : '\n' ∉ body) (l : List Char) :
    untilLineFeed (body ++ l) = (untilLineFeed l).push body := by
  induction body with
  | nil => rfl
  | cons c body ih =>
    obtain ⟨hc, hb⟩ := not_or.1 (fun e => h (List.mem_cons.2 e))
    rw [List.cons_append, untilLineFeed, if_neg (Ne.symm hc), ih hb, push_push]
    rfl

/-! ### Tags -/

/-- The span up to a tag runs over all that stands before its first occurrence. -/
theorem untilTag_endsFirst {tag body : List Char} (ht : tag ≠ []) (h : EndsFirst tag body)
    (rest : List Char) : untilTag tag (body ++ (tag ++ rest)) = ⟨body ++ tag, rest, true⟩ := by
  induction body with
  | nil =>
    obtain ⟨c, tag, rfl⟩ := List.exists_cons_of_ne_nil ht
    rw [List.nil_append, List.cons_append, untilTag, if_pos (by simp)]
    simp
  | cons c body ih =>
    have hn : ¬tag.isPrefixOf (c :: (body ++ (tag ++ rest))) := by
      rw [List.isPrefixOf_iff_prefix]
      intro hp
      -- an occurrence at `c` would end within `c :: body ++ tag`, but not at its end
      have hs : tag <+: c :: (body ++ tag) :=
        List.prefix_of_prefix_length_le hp ⟨rest, by simp⟩ (by simp; omega)
      obtain ⟨b, hb⟩ := hs
      have hb' : c :: (body ++ tag) = [] ++ (tag ++ b) := by rw [hb]; rfl
      have hlen := congrArg List.length hb
      rw [h [] b hb'] at hlen
      simp at hlen
      omega
    have hb : EndsFirst tag body := fun a b e => h (c :: a) b (by simp [e])
    rw [List.cons_append, untilTag, if_neg hn, ih hb]
    rfl

theorem untilTag_open {tag body : List Char} (h : ¬tag <:+: body) :
    untilTag tag body = ⟨body, [], false⟩ := by
  induction body with
  | nil => rfl
  | cons c body ih =>
    obtain ⟨hp, hi⟩ := not_or.1 (mt List.infix_cons_iff.2 h)
    rw [untilTag, if_neg (by rwa [List.isPrefixOf_iff_prefix]), ih hi]
    rfl

end Span

end SqlAssembly.Sql
