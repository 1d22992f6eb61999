import Mathlib.Algebra.Group.Nat.Defs
import SqlAssembly.Listing.RowCount
import SqlAssembly.Proofs.Outcome
import SqlAssembly.Proofs.Text.Lines
import SqlAssembly.Proofs.Text.Runs

/-!
# The annotation that counts

What `rowCount` reads, said without the search.

* `Annotates` holds of a text that starts with an annotation, and `Leftmost` of one with a first
  annotation at any place.
* `firstAnnotation?_eq_some_iff`: the search finds that one.
* `ofDigits_of_isDigit`: digits are read as the number they stand for, if it fits 64 bits.
* `Report` is what a server prints about a node; `leftmost_report` says that its annotation comes
  first behind any label without one.
* `rowCount_outermost`: hence the number comes from the first line, and from nothing else.
-/

namespace SqlAssembly

open Text

namespace RowCount

/-- What stands between the word and the number of rows: the times with a blank, or nothing. -/
inductive Timing : List Char → Prop
  | off : Timing []
  | on {word : List Char} (hne : word ≠ []) (hword : ∀ c ∈ word, isBlank c = false) :
      Timing ("time=".toList ++ word ++ [' '])

/-- The text starts with the number of rows, which has these digits. -/
def Tells (digits l : List Char) : Prop :=
  ∃ rest, l = "rows=".toList ++ digits ++ rest ∧ digits ≠ [] ∧ Run Unicode.isDigit digits rest

/-- The text starts with an annotation, whose number has these digits. -/
def Annotates (digits l : List Char) : Prop :=
  ∃ timing rest, l = "actual ".toList ++ timing ++ rest ∧ Timing timing ∧ Tells digits rest

/-- The first annotation of the text has these digits. -/
def Leftmost (digits l : List Char) : Prop :=
  ∃ i, Annotates digits (l.drop i) ∧ ∀ j < i, ∀ other, ¬Annotates other (l.drop j)

/-- The text has no annotation. -/
def Unannotated (l : List Char) : Prop :=
  ∀ i digits, ¬Annotates digits (l.drop i)

/-! ### The search -/

theorem after?_eq_some_iff {front l rest : List Char} :
    after? front l = some rest ↔ l = front ++ rest := by
  rw [after?]
  split
  · next h =>
    obtain ⟨tail, rfl⟩ := List.isPrefixOf_iff_prefix.1 h
    simp [eq_comm]
  · next h =>
    have hne : l ≠ front ++ rest := by
      rintro rfl
      exact h (List.isPrefixOf_iff_prefix.2 (List.prefix_append _ _))
    simp [hne]

theorem rows?_eq_some_iff {l digits : List Char} : rows? l = some digits ↔ Tells digits l := by
  simp only [rows?, Option.bind_eq_bind, Option.bind_eq_some_iff, after?_eq_some_iff]
  constructor
  · rintro ⟨tail, rfl, h⟩
    split at h
    · cases h
    · next hne =>
      cases h
      refine ⟨tail.dropWhile Unicode.isDigit, ?_, by simpa using hne, run_takeWhile _ _⟩
      rw [List.append_assoc, List.takeWhile_append_dropWhile]
  · rintro ⟨rest, rfl, hne, hrun⟩
    refine ⟨digits ++ rest, by simp, ?_⟩
    rw [hrun.takeWhile_append, if_neg (by simpa using hne)]

theorem afterTiming?_eq_some_iff {l rest : List Char} :
    afterTiming? l = some rest ↔
      ∃ word, word ≠ [] ∧ (∀ c ∈ word, isBlank c = false) ∧
        l = "time=".toList ++ word ++ ' ' :: rest := by
  simp only [afterTiming?, Option.bind_eq_bind, Option.bind_eq_some_iff, after?_eq_some_iff]
  constructor
  · rintro ⟨tail, rfl, h⟩
    split at h
    · cases h
    · next hne =>
      rw [after?_eq_some_iff] at h
      have hrun := run_takeWhile (fun c => !isBlank c) tail
      refine ⟨tail.takeWhile fun c => !isBlank c, by simpa using hne,
        fun c hc => by simpa using hrun.all c hc, ?_⟩
      rw [List.append_assoc, ← List.singleton_append, ← h, List.takeWhile_append_dropWhile]
  · rintro ⟨word, hne, hword, rfl⟩
    have hrun : Run (fun c => !isBlank c) word (' ' :: rest) :=
      ⟨fun c hc => by simp [hword c hc], by rintro c ⟨⟩; decide⟩
    refine ⟨word ++ ' ' :: rest, by simp, ?_⟩
    rw [hrun.takeWhile_append, hrun.dropWhile_append, if_neg (by simpa using hne),
      after?_eq_some_iff]
    rfl

/-- The number of rows does not start like the times. -/
theorem Tells.afterTiming?_eq_none {digits l : List Char} (h : Tells digits l) :
    afterTiming? l = none := by
  obtain ⟨rest, rfl, -, -⟩ := h
  rw [Option.eq_none_iff_forall_ne_some]
  intro tail htail
  obtain ⟨word, -, -, heq⟩ := afterTiming?_eq_some_iff.1 htail
  simp at heq

theorem annotation?_eq_some_iff {l digits : List Char} :
    annotation? l = some digits ↔ Annotates digits l := by
  simp only [annotation?, Option.bind_eq_bind, Option.bind_eq_some_iff, after?_eq_some_iff,
    Option.or_eq_some_iff, afterTiming?_eq_some_iff, rows?_eq_some_iff]
  constructor
  · rintro ⟨tail, rfl, ⟨rest, ⟨word, hne, hword, rfl⟩, htells⟩ | ⟨-, htells⟩⟩
    · exact ⟨_, rest, by simp, .on hne hword, htells⟩
    · exact ⟨[], tail, by simp, .off, htells⟩
  · rintro ⟨timing, rest, rfl, htiming, htells⟩
    refine ⟨timing ++ rest, by simp, ?_⟩
    cases htiming with
    | off => exact .inr ⟨by simp [htells.afterTiming?_eq_none], htells⟩
    | @on word hne hword => exact .inl ⟨rest, ⟨word, hne, hword, by simp⟩, htells⟩

theorem annotation?_eq_none_iff {l : List Char} :
    annotation? l = none ↔ ∀ digits, ¬Annotates digits l := by
  simp only [Option.eq_none_iff_forall_ne_some, ne_eq, annotation?_eq_some_iff]

theorem not_annotates_nil {digits : List Char} : ¬Annotates digits [] := by
  rintro ⟨timing, rest, h, -, -⟩
  simp at h

theorem leftmost_cons_iff {digits l : List Char} {c : Char} :
    Leftmost digits (c :: l) ↔
      Annotates digits (c :: l) ∨ (∀ other, ¬Annotates other (c :: l)) ∧ Leftmost digits l := by
  constructor
  · rintro ⟨i, hi, hbefore⟩
    cases i with
    | zero => exact .inl hi
    | succ i =>
      exact .inr ⟨hbefore 0 (Nat.succ_pos i), i, hi,
        fun j hj => hbefore (j + 1) (Nat.succ_lt_succ hj)⟩
  · rintro (h | ⟨hhere, i, hi, hbefore⟩)
    · exact ⟨0, h, fun j hj => absurd hj (Nat.not_lt_zero j)⟩
    · refine ⟨i + 1, hi, fun j hj => ?_⟩
      cases j with
      | zero => exact hhere
      | succ j => exact hbefore j (Nat.lt_of_succ_lt_succ hj)

theorem unannotated_cons_iff {l : List Char} {c : Char} :
    Unannotated (c :: l) ↔ (∀ digits, ¬Annotates digits (c :: l)) ∧ Unannotated l := by
  constructor
  · exact fun h => ⟨h 0, fun i => h (i + 1)⟩
  · rintro ⟨hhere, hrest⟩ i
    cases i with
    | zero => exact hhere
    | succ i => exact hrest i

/-- The search finds the first annotation. -/
theorem firstAnnotation?_eq_some_iff {l digits : List Char} :
    firstAnnotation? l = some digits ↔ Leftmost digits l := by
  induction l with
  | nil => simp [firstAnnotation?, Leftmost, not_annotates_nil]
  | cons c l ih =>
    rw [firstAnnotation?, Option.or_eq_some_iff, annotation?_eq_some_iff, annotation?_eq_none_iff,
      ih, leftmost_cons_iff]

/-- The search finds nothing exactly where there is no annotation. -/
theorem firstAnnotation?_eq_none_iff {l : List Char} :
    firstAnnotation? l = none ↔ Unannotated l := by
  induction l with
  | nil => simp [firstAnnotation?, Unannotated, not_annotates_nil]
  | cons c l ih =>
    rw [firstAnnotation?, Option.or_eq_none_iff, annotation?_eq_none_iff, ih, unannotated_cons_iff]

/-! ### The number -/

/-- The number so far, with one more digit. -/
def digitStep (text : String) (n : Nat) (c : Char) : Except Fault Nat :=
  if !c.isDigit then .error (.execution (.foreignDigits text))
  else if 2 ^ 64 ≤ 10 * n + (c.toNat - 48) then .error (.execution (.countTooLarge text))
  else .ok (10 * n + (c.toNat - 48))

theorem ofDigits_eq_foldlM (digits : List Char) :
    ofDigits digits = digits.foldlM (digitStep (String.ofList digits)) 0 :=
  rfl

theorem le_ofDigitChars (digits : List Char) (n : Nat) : n ≤ Nat.ofDigitChars 10 digits n := by
  induction digits generalizing n with
  | nil => exact Nat.le_refl n
  | cons c digits ih =>
    rw [Nat.ofDigitChars_cons]
    exact Nat.le_trans (by omega) (ih _)

theorem foldlM_digitStep (text : String) {digits : List Char} {n : Nat} (hn : n < 2 ^ 64)
    (h : ∀ c ∈ digits, c.isDigit = true) :
    digits.foldlM (digitStep text) n =
      if Nat.ofDigitChars 10 digits n < 2 ^ 64 then .ok (Nat.ofDigitChars 10 digits n)
      else .error (.execution (.countTooLarge text)) := by
  induction digits generalizing n with
  | nil => exact (if_pos hn).symm
  | cons c digits ih =>
    obtain ⟨hc, hdigits⟩ := List.forall_mem_cons.1 h
    have hzero : '0'.toNat = 48 := rfl
    rw [List.foldlM_cons, digitStep, Nat.ofDigitChars_cons, hzero]
    by_cases hlarge : 2 ^ 64 ≤ 10 * n + (c.toNat - 48)
    · have hle := le_ofDigitChars digits (10 * n + (c.toNat - 48))
      rw [if_neg (by simp [hc]), if_pos hlarge, if_neg (by omega)]
      rfl
    · rw [if_neg (by simp [hc]), if_neg hlarge]
      exact ih (by omega) hdigits

/-- Digits are read as the number they stand for. One that does not fit 64 bits is a fault. -/
theorem ofDigits_of_isDigit {digits : List Char} (h : ∀ c ∈ digits, c.isDigit = true) :
    ofDigits digits =
      if Nat.ofDigitChars 10 digits 0 < 2 ^ 64 then .ok (Nat.ofDigitChars 10 digits 0)
      else .error (.execution (.countTooLarge (String.ofList digits))) := by
  rw [ofDigits_eq_foldlM, foldlM_digitStep _ (by decide) h]

theorem isDigit_of_foldlM {text : String} {digits : List Char} {m n : Nat}
    (h : digits.foldlM (digitStep text) m = .ok n) : ∀ c ∈ digits, c.isDigit = true := by
  induction digits generalizing m with
  | nil => simp
  | cons c digits ih =>
    rw [List.foldlM_cons, bind_eq_ok_iff] at h
    obtain ⟨m', hstep, hrest⟩ := h
    rw [List.forall_mem_cons]
    refine ⟨?_, ih hrest⟩
    by_contra hc
    rw [digitStep, if_pos (by simpa using hc)] at hstep
    cases hstep

/-- The digits of a number that is read are those of ASCII, and the number fits 64 bits. -/
theorem ofDigits_eq_ok_iff {digits : List Char} {n : Nat} :
    ofDigits digits = .ok n ↔
      (∀ c ∈ digits, c.isDigit = true) ∧ Nat.ofDigitChars 10 digits 0 = n ∧ n < 2 ^ 64 := by
  constructor
  · intro h
    have hdigits := isDigit_of_foldlM (ofDigits_eq_foldlM digits ▸ h)
    rw [ofDigits_of_isDigit hdigits] at h
    split at h
    · next hlt =>
      cases h
      exact ⟨hdigits, rfl, hlt⟩
    · cases h
  · rintro ⟨hdigits, rfl, hlt⟩
    rw [ofDigits_of_isDigit hdigits, if_pos hlt]

theorem digitStep_error {text : String} {n : Nat} {c : Char} {e : Fault}
    (h : digitStep text n c = .error e) : ∃ cause, e = .execution cause := by
  unfold digitStep at h
  split at h
  · cases h
    exact ⟨_, rfl⟩
  split at h
  · cases h
    exact ⟨_, rfl⟩
  · cases h

theorem ofDigits_error {digits : List Char} {e : Fault} (h : ofDigits digits = .error e) :
    ∃ cause, e = .execution cause := by
  rw [ofDigits_eq_foldlM] at h
  generalize String.ofList digits = text at h
  generalize 0 = n at h
  induction digits generalizing n with
  | nil => cases h
  | cons c digits ih =>
    rw [List.foldlM_cons, bind_eq_error_iff] at h
    rcases h with h | ⟨n', -, h⟩
    · exact digitStep_error h
    · exact ih n' h

/-! ### What a server prints -/

/-- What a server prints about a node that it has executed. -/
structure Report where
  /-- The times, if they were taken. -/
  times : Option String
  times_word : ∀ word ∈ times, word ≠ "" ∧ ∀ c ∈ word.toList, isBlank c = false
  rows : Nat
  /-- What stands behind the point, if the number of rows has one. -/
  fraction : Option String
  /-- How often the node was executed. -/
  loops : Nat

namespace Report

/-- The times as they are printed. -/
def timing (r : Report) : String :=
  r.times.elim "" fun word => "time=" ++ word ++ " "

/-- What is printed behind the number of rows. -/
def tail (r : Report) : String :=
  r.fraction.elim "" ("." ++ ·) ++ " loops=" ++ toString r.loops ++ ")"

/-- The report as it is printed. -/
def text (r : Report) : String :=
  "(actual " ++ r.timing ++ "rows=" ++ toString r.rows ++ r.tail

theorem timing_timing (r : Report) : Timing r.timing.toList := by
  obtain ⟨times, hword, rows, fraction, loops⟩ := r
  cases times with
  | none => exact .off
  | some word =>
    obtain ⟨hne, hblank⟩ := hword word rfl
    have hon := @Timing.on word.toList (by simpa using hne) hblank
    simpa [timing] using hon

theorem run_rows (r : Report) (more : List Char) :
    Run Unicode.isDigit (Nat.toDigits 10 r.rows) (r.tail.toList ++ more) := by
  constructor
  · intro c hc
    exact Unicode.isDigit_of_isDigit (Nat.isDigit_of_mem_toDigits (by decide) (by decide) hc)
  · intro c hc
    have hhead : c = '.' ∨ c = ' ' := by
      cases hf : r.fraction with
      | none => exact .inr (by simpa [tail, hf, eq_comm] using hc)
      | some fraction => exact .inl (by simpa [tail, hf, eq_comm] using hc)
    rcases hhead with rfl | rfl <;> decide

theorem tells_rows (r : Report) (more : List Char) :
    Tells (Nat.toDigits 10 r.rows)
      ("rows=".toList ++ Nat.toDigits 10 r.rows ++ (r.tail.toList ++ more)) :=
  ⟨_, rfl, Nat.toDigits_ne_nil, r.run_rows more⟩

/-- What is printed behind the opening parenthesis. -/
def inside (r : Report) (more : List Char) : List Char :=
  "actual".toList ++ ' ' :: (r.timing.toList ++
    ("rows=".toList ++ Nat.toDigits 10 r.rows ++ (r.tail.toList ++ more)))

theorem inside_eq (r : Report) (more : List Char) :
    r.inside more = "actual".toList ++ ' ' :: (r.timing.toList ++
      ("rows=".toList ++ Nat.toDigits 10 r.rows ++ (r.tail.toList ++ more))) :=
  rfl

theorem toList_text_append (r : Report) (more : List Char) :
    r.text.toList ++ more = '(' :: r.inside more := by
  simp [text, inside_eq]

theorem annotates_inside (r : Report) (more : List Char) :
    Annotates (Nat.toDigits 10 r.rows) (r.inside more) :=
  ⟨r.timing.toList, _, by simp [inside_eq], r.timing_timing, r.tells_rows more⟩

end Report

theorem Tells.unique {digits other l : List Char} (h : Tells digits l) (h' : Tells other l) :
    digits = other := by
  rw [← rows?_eq_some_iff] at h h'
  exact Option.some.inj (h.symm.trans h')

/-- Where a report is read as a word and a number of rows behind it, the number is the report's. -/
theorem Report.eq_of_inside {r : Report} {word other rest more : List Char}
    (hword : ∀ c ∈ word, isBlank c = false) (htells : Tells other rest)
    (h : r.inside more = word ++ ' ' :: rest) : other = Nat.toDigits 10 r.rows := by
  have hrun : Run (fun c => !isBlank c) word (' ' :: rest) :=
    ⟨fun c hc => by simp [hword c hc], by rintro c ⟨⟩; decide⟩
  have hactual : Run (fun c => !isBlank c) "actual".toList
      (' ' :: (r.timing.toList ++
        ("rows=".toList ++ Nat.toDigits 10 r.rows ++ (r.tail.toList ++ more)))) :=
    ⟨List.all_eq_true.1 (by decide), by rintro c ⟨⟩; decide⟩
  obtain ⟨-, hrest⟩ := hactual.unique hrun h
  obtain ⟨-, rfl⟩ := List.cons.inj hrest
  have htiming := r.timing_timing
  generalize r.timing.toList = timing at htells htiming
  cases htiming with
  | off => exact htells.unique (r.tells_rows more)
  | on =>
    obtain ⟨rest, heq, -, -⟩ := htells
    simp at heq

/-- A front without a parenthesis lies before the parenthesis. -/
theorem exists_of_append_eq_append {front l label tail : List Char} (hfront : '(' ∉ front)
    (h : front ++ l = label ++ '(' :: tail) :
    ∃ rest, label = front ++ rest ∧ l = rest ++ '(' :: tail := by
  obtain ⟨rest, rfl⟩ := prefix_of_not_mem ⟨l, h⟩ hfront
  rw [List.append_assoc] at h
  exact ⟨rest, rfl, List.append_cancel_left h⟩

/-- The number of rows does not go beyond a parenthesis. -/
theorem Tells.of_append {digits label tail : List Char} (h : Tells digits (label ++ '(' :: tail)) :
    Tells digits label := by
  obtain ⟨rest, heq, hne, hrun⟩ := h
  have hfree : '(' ∉ "rows=".toList ++ digits := by
    rw [List.mem_append, not_or]
    refine ⟨by decide, fun hc => ?_⟩
    exact absurd (hrun.all _ hc) (by decide)
  obtain ⟨label, rfl, rfl⟩ := exists_of_append_eq_append hfree heq.symm
  refine ⟨label, rfl, hne, hrun.all, fun c hc => hrun.stops c ?_⟩
  rw [List.head?_append, hc]
  rfl

/-- An annotation that starts in a label is one of the label, or else it takes the report's opening
for the times, and the report's number for its own. -/
theorem Annotates.of_label {r : Report} {other label more : List Char}
    (h : Annotates other (label ++ '(' :: r.inside more)) :
    Annotates other label ∨ other = Nat.toDigits 10 r.rows := by
  obtain ⟨timing, rest, heq, htiming, htells⟩ := h
  rw [List.append_assoc] at heq
  obtain ⟨label, rfl, hlabel⟩ := exists_of_append_eq_append (by decide) heq.symm
  cases htiming with
  | off =>
    rw [List.nil_append] at hlabel
    rw [hlabel] at htells
    exact .inl ⟨[], label, by simp, .off, htells.of_append⟩
  | @on word hne hword =>
    simp only [List.append_assoc, List.singleton_append] at hlabel
    obtain ⟨label, rfl, htimes⟩ :=
      @exists_of_append_eq_append "time=".toList _ _ _ (by decide) hlabel
    rcases List.append_eq_append_iff.1 htimes with ⟨label, rfl, hblank⟩ | ⟨word', rfl, hinside⟩
    · obtain ⟨label, rfl, rfl⟩ := @exists_of_append_eq_append [' '] _ _ _ (by decide) hblank
      exact .inl ⟨_, label, by simp, .on hne hword, htells.of_append⟩
    · cases word' with
      | nil => simp at hinside
      | cons c word' =>
        obtain ⟨-, hinside⟩ := List.cons.inj hinside
        exact .inr (r.eq_of_inside (fun d hd => hword d (by simp [hd])) htells hinside)

/-- Behind a label without an annotation, the first annotation is that of the report. -/
theorem leftmost_report (r : Report) {label : List Char} (more : List Char)
    (h : Unannotated label) :
    Leftmost (Nat.toDigits 10 r.rows) (label ++ (r.text.toList ++ more)) := by
  rw [r.toList_text_append]
  induction label with
  | nil =>
    rw [List.nil_append, leftmost_cons_iff]
    refine .inr ⟨?_, 0, r.annotates_inside more, by simp⟩
    rintro other ⟨timing, rest, heq, -, -⟩
    simp at heq
  | cons c label ih =>
    obtain ⟨hhere, hlabel⟩ := unannotated_cons_iff.1 h
    rw [List.cons_append, leftmost_cons_iff]
    by_cases hex : ∃ other, Annotates other (c :: (label ++ '(' :: r.inside more))
    · obtain ⟨other, hother⟩ := hex
      rcases @Annotates.of_label r other (c :: label) more hother with hown | rfl
      · exact (hhere other hown).elim
      · exact .inl hother
    · exact .inr ⟨not_exists.1 hex, ih hlabel⟩

/-! ### A line -/

theorem ofLine_of_leftmost {line : String} {digits : List Char}
    (h : Leftmost digits line.toList) : ofLine line = ofDigits digits := by
  rw [ofLine, firstAnnotation?_eq_some_iff.2 h]

theorem ofLine_of_unannotated {line : String} (h : Unannotated line.toList) :
    ofLine line = .error (.execution (.noRowCount line)) := by
  rw [ofLine, firstAnnotation?_eq_none_iff.2 h]

theorem ofLine_eq_ok_iff {line : String} {n : Nat} :
    ofLine line = .ok n ↔ ∃ digits, Leftmost digits line.toList ∧ ofDigits digits = .ok n := by
  constructor
  · intro h
    cases hfirst : firstAnnotation? line.toList with
    | none =>
      rw [ofLine_of_unannotated (firstAnnotation?_eq_none_iff.1 hfirst)] at h
      cases h
    | some digits =>
      have hleft := firstAnnotation?_eq_some_iff.1 hfirst
      exact ⟨digits, hleft, ofLine_of_leftmost hleft ▸ h⟩
  · rintro ⟨digits, hleft, h⟩
    rw [ofLine_of_leftmost hleft, h]

theorem ofLine_report (r : Report) {label : String} (more : String)
    (h : Unannotated label.toList) :
    ofLine (label ++ r.text ++ more) =
      if r.rows < 2 ^ 64 then .ok r.rows
      else .error (.execution (.countTooLarge (toString r.rows))) := by
  have hleft := leftmost_report r more.toList h
  rw [← String.toList_append, ← String.toList_append, ← String.append_assoc] at hleft
  rw [ofLine_of_leftmost hleft,
    ofDigits_of_isDigit fun c hc => Nat.isDigit_of_mem_toDigits (by decide) (by decide) hc,
    Nat.ofDigitChars_ten_toDigits, Nat.toString_eq_ofList_toDigits]

end RowCount

open RowCount

/-! ### A plan -/

theorem rowCount_of_opening {plan : List String} {line : String} (h : Opening plan line) :
    rowCount plan = ofLine line := by
  rw [rowCount, firstLineOf?_eq_some_iff.2 h]

theorem rowCount_of_empty {plan : List String} (h : ∀ row ∈ plan, row = "") :
    rowCount plan = .error (.execution .emptyPlan) := by
  rw [rowCount, firstLineOf?_eq_none_iff.2 h]

/-- A plan without a row other than empty ones opens with no line, any other one with some line. -/
theorem empty_or_opening (plan : List String) :
    (∀ row ∈ plan, row = "") ∨ ∃ line, Opening plan line := by
  cases h : firstLineOf? plan with
  | none => exact .inl (firstLineOf?_eq_none_iff.1 h)
  | some line => exact .inr ⟨line, firstLineOf?_eq_some_iff.1 h⟩

theorem rowCount_eq_ok_iff {plan : List String} {n : Nat} :
    rowCount plan = .ok n ↔ ∃ line, Opening plan line ∧ ofLine line = .ok n := by
  constructor
  · intro h
    rcases empty_or_opening plan with hempty | ⟨line, hline⟩
    · rw [rowCount_of_empty hempty] at h
      cases h
    · exact ⟨line, hline, rowCount_of_opening hline ▸ h⟩
  · rintro ⟨line, hline, h⟩
    rw [rowCount_of_opening hline, h]

/-- A plan that tells no number of rows is a bad answer. -/
theorem rowCount_error {plan : List String} {e : Fault} (h : rowCount plan = .error e) :
    ∃ cause, e = .execution cause := by
  rcases empty_or_opening plan with hempty | ⟨line, hline⟩
  · rw [rowCount_of_empty hempty] at h
    cases h
    exact ⟨_, rfl⟩
  rw [rowCount_of_opening hline] at h
  cases hfirst : firstAnnotation? line.toList with
  | none =>
    rw [ofLine_of_unannotated (firstAnnotation?_eq_none_iff.1 hfirst)] at h
    cases h
    exact ⟨_, rfl⟩
  | some digits =>
    rw [ofLine_of_leftmost (firstAnnotation?_eq_some_iff.1 hfirst)] at h
    exact ofDigits_error h

/-- **The number of rows is that of the outermost node.** A plan tells the number of the first
annotation of its first line, if that fits 64 bits; in all other cases it is a bad answer. No later
line or row plays a part. A report is read whatever stands before it, unless that has an annotation
of its own. -/
theorem rowCount_outermost (plan : List String) :
    (∀ n, rowCount plan = .ok n ↔
      ∃ line digits, Opening plan line ∧ Leftmost digits line.toList ∧
        (∀ c ∈ digits, c.isDigit = true) ∧ Nat.ofDigitChars 10 digits 0 = n ∧ n < 2 ^ 64) ∧
    ((∀ n, rowCount plan ≠ .ok n) → ∃ cause, rowCount plan = .error (.execution cause)) ∧
    ((∀ row ∈ plan, row = "") → rowCount plan = .error (.execution .emptyPlan)) ∧
    (∀ line, Opening plan line → Unannotated line.toList →
      rowCount plan = .error (.execution (.noRowCount line))) ∧
    (∀ line other, Opening plan line → Opening other line → rowCount other = rowCount plan) ∧
    ∀ (r : Report) (label more : String), Unannotated label.toList →
      Opening plan (label ++ r.text ++ more) →
      rowCount plan = if r.rows < 2 ^ 64 then .ok r.rows
        else .error (.execution (.countTooLarge (toString r.rows))) := by
  refine ⟨fun n => ?_, fun h => ?_, rowCount_of_empty, fun line hline h => ?_,
    fun line other hline hother => ?_, fun r label more hlabel hline => ?_⟩
  · simp only [rowCount_eq_ok_iff, ofLine_eq_ok_iff, ofDigits_eq_ok_iff]
    constructor
    · rintro ⟨line, hline, digits, hleft, hdigits⟩
      exact ⟨line, digits, hline, hleft, hdigits⟩
    · rintro ⟨line, digits, hline, hleft, hdigits⟩
      exact ⟨line, hline, digits, hleft, hdigits⟩
  · cases hcount : rowCount plan with
    | ok n => exact (h n hcount).elim
    | error e =>
      obtain ⟨cause, rfl⟩ := rowCount_error hcount
      exact ⟨cause, rfl⟩
  · rw [rowCount_of_opening hline, ofLine_of_unannotated h]
  · rw [rowCount_of_opening hline, rowCount_of_opening hother]
  · rw [rowCount_of_opening hline, ofLine_report r more hlabel]

/-- The estimate stands before the annotation, and a second node on the next line. -/
theorem rowCount_outermost_hashJoin :
    rowCount ["", "Hash Join  (cost=1.09..2.22 rows=5 width=36) " ++
      "(actual time=0.031..0.036 rows=3 loops=1)\r\n  ->  Seq Scan  (actual rows=9 loops=1)",
      "Planning Time: 0.120 ms"] = .ok 3 := by
  let r : Report := {
    times := some "0.031..0.036"
    times_word := by
      have hword : "0.031..0.036".toList.all (fun c => !isBlank c) = true := by decide
      simpa using hword
    rows := 3
    fraction := none
    loops := 1 }
  exact (rowCount_outermost _).2.2.2.2.2 r "Hash Join  (cost=1.09..2.22 rows=5 width=36) " ""
    (firstAnnotation?_eq_none_iff.1 (by decide +kernel))
    (firstLineOf?_eq_some_iff.1 (by decide +kernel))

end SqlAssembly
