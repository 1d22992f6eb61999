import SqlAssembly.Proofs.Sql.Composition

/-!
# Statements of longer texts

How the statement of a text changes when the text grows on either side.

* `Bindings.statement_lead`: words in front of a text stand in front of its statement.
* `Bindings.statement_append`: when a text goes on with an inert character, its statement goes on
  too. This holds for every text, even one that ends inside a region.
-/

namespace SqlAssembly

namespace Sql

theorem Extends.uses {xs ys : List Lexeme} (h : Extends xs ys) :
    ∃ more, Sql.uses ys = Sql.uses xs ++ more := by
  rcases h with ⟨zs, rfl⟩ | ⟨zs, kind, text, more, closed, rest, rfl, rfl⟩
  · exact ⟨Sql.uses zs, List.filterMap_append⟩
  · refine ⟨Sql.uses rest, ?_⟩
    simp [Sql.uses, Lexeme.name?]

/-- A longer sequence of lexemes starts with the same text. -/
theorem Extends.numbered {xs ys : List Lexeme} (h : Extends xs ys) {names names' : List String}
    (hn : ∀ x ∈ xs, numbered names' x = numbered names x) :
    ∃ rest, ys.flatMap (numbered names') = xs.flatMap (numbered names) ++ rest := by
  rw [← List.flatMap_congr hn]
  rcases h with ⟨zs, rfl⟩ | ⟨zs, kind, text, more, closed, rest, rfl, rfl⟩
  · exact ⟨zs.flatMap (Sql.numbered names'), List.flatMap_append⟩
  · refine ⟨more ++ rest.flatMap (Sql.numbered names'), ?_⟩
    simp [Sql.numbered, Lexeme.text]

/-- Single characters stay as they are. -/
theorem flatMap_numbered_other (names : List String) (l : List Char) :
    (l.map Lexeme.other).flatMap (numbered names) = l := by
  rw [List.flatMap_map]
  exact List.flatMap_singleton' l

/-- A name that is used has its number also when more names are used behind it. -/
theorem numbered_append {names : List String} (more : List String) {xs : List Lexeme} {x : Lexeme}
    (hx : x ∈ xs) (h : ∀ n ∈ uses xs, n ∈ names) :
    numbered (names ++ more) x = numbered names x := by
  cases x with
  | placeholder name =>
    have hmem : String.ofList name ∈ uses xs := mem_uses_iff.2 (by rwa [String.toList_ofList])
    rw [numbered, numbered, List.idxOf_append_of_mem (h _ hmem)]
  | _ => rfl

end Sql

namespace Bindings

open Sql

/-- Words in front of a text stand in front of its statement. -/
theorem statement_lead (b : Bindings) {lead : String} (hl : Plain lead) (sql : String) :
    b.statement (lead ++ " " ++ sql) =
      (b.statement sql).map fun s => ⟨lead ++ " " ++ s.text, s.data⟩ := by
  have hlex : lexemes none (lead ++ " " ++ sql).toList =
      (lead ++ " ").toList.map .other ++ lexemes none sql.toList := by
    rw [lexemes_glue (closed_plain hl) (by decide), lexemes_plain hl, String.toList_append]
    simp
  have hnames : placeholders (lead ++ " " ++ sql) = placeholders sql := by
    rw [placeholders, hlex, List.filterMap_append, List.filterMap_map]
    simp [placeholders, Function.comp_def, Lexeme.name?]
  rw [statement, statement, hnames, hlex]
  simp only [List.flatMap_append, flatMap_numbered_other, String.ofList_append,
    String.ofList_toList]
  cases (placeholders sql).eraseDups.mapM b.require <;> rfl

/-- When a text goes on with an inert character, its statement goes on too: all numbers and data
stay as they are, if the names of the text have the same data. -/
theorem statement_append {b b' : Bindings} {sql tail : String} {s s' : Statement} {d : Char}
    {t : List Char} (ht : tail.toList = d :: t) (hd : Inert d) (hs : b.statement sql = .ok s)
    (hs' : b'.statement (sql ++ tail) = .ok s')
    (hb : ∀ n ∈ placeholders sql, b'.get? n = b.get? n) :
    (∃ rest, s'.text = s.text ++ rest) ∧ s.data <+: s'.data := by
  obtain ⟨hdata, htext⟩ := statement_eq_ok_iff.1 hs
  obtain ⟨hdata', htext'⟩ := statement_eq_ok_iff.1 hs'
  have hext : Extends (lexemes none sql.toList) (lexemes none (sql ++ tail).toList) := by
    rw [String.toList_append, ht]
    exact extends_lexemes none sql.toList hd t
  obtain ⟨more, hmore⟩ := hext.uses
  have hnames : (placeholders (sql ++ tail)).eraseDups =
      (placeholders sql).eraseDups ++ (more.removeAll (placeholders sql)).eraseDups := by
    rw [placeholders_eq_uses, hmore, List.eraseDups_append]
    rfl
  rw [hnames] at hdata' htext'
  constructor
  · have hnum := hext.numbered fun x hx =>
      numbered_append (more.removeAll (placeholders sql)).eraseDups hx fun n hn =>
        List.mem_eraseDups.2 hn
    obtain ⟨rest, hrest⟩ := hnum
    refine ⟨String.ofList rest, ?_⟩
    rw [htext', htext, ← String.ofList_append]
    exact congrArg String.ofList hrest
  · have hsame : (placeholders sql).eraseDups.map b'.get? = s.data.map some := by
      rw [← hdata]
      exact List.map_congr_left fun n hn => hb n (List.mem_eraseDups.1 hn)
    rw [List.map_append, hsame] at hdata'
    obtain ⟨data, hdata, heq⟩ := List.prefix_map_iff.1 ⟨_, hdata'⟩
    rwa [List.map_injective_iff.2 (Option.some_injective Datum) heq]

end Bindings

end SqlAssembly
