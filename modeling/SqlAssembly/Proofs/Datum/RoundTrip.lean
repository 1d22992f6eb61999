import SqlAssembly.Datum.Basic
import SqlAssembly.Proofs.Assoc.Order
import Mathlib.Data.String.Basic

/-!
# JSON values as data and back

A datum keeps the JSON value it was taken from, also where a list of integers or of strings became a
kind of its own. Only an integer above those of 64 signed bits is lost: it becomes a float.

* `Json.Oversized` tells such an integer.
* `Datum.toJson_ofJson_iff`: what a datum is written out as.
* `Bindings.ofSource?_object`: bindings are read from the members of a JSON object, which is what
  `Bindings.ofMembers` says.
* `Bindings.toValue` is the JSON value of bindings, with its members in the order of the keys, and
  `Bindings.ofJson?_toValue` what is read from it.
* `json_survives`: both, also for data and bindings that were written out before.
-/

namespace SqlAssembly

open Numeric

namespace Json

/-- Whether the value is an integer above those of 64 signed bits. -/
def Oversized : Json → Prop
  | number (.integer n _ _) => Nat.pow 2 63 ≤ n
  | _ => False

theorem mem_insertMember {key : String} {value : Json} {m : String × Json}
    {l : List (String × Json)} (h : m ∈ insertMember key value l) : m = (key, value) ∨ m ∈ l := by
  induction l with
  | nil => exact .inl (List.mem_singleton.1 h)
  | cons n l ih =>
    rw [insertMember] at h
    split at h
    · exact (List.mem_cons.1 h).imp_right (List.mem_cons_of_mem n)
    · split at h
      · exact List.mem_cons.1 h
      · rcases List.mem_cons.1 h with rfl | h
        · exact .inr List.mem_cons_self
        · exact (ih h).imp_right (List.mem_cons_of_mem n)

theorem pairwise_insertMember {key : String} {value : Json} {l : List (String × Json)}
    (h : l.Pairwise fun m n => m.1 < n.1) :
    (insertMember key value l).Pairwise fun m n => m.1 < n.1 := by
  induction l with
  | nil => exact List.pairwise_singleton _ _
  | cons m l ih =>
    obtain ⟨hm, hl⟩ := List.pairwise_cons.1 h
    rw [insertMember]
    split
    · next he =>
      subst he
      exact List.pairwise_cons.2 ⟨hm, hl⟩
    · next hne =>
      split
      · next hlt =>
        refine List.pairwise_cons.2 ⟨fun n hn => ?_, h⟩
        rcases List.mem_cons.1 hn with rfl | hn
        · exact hlt
        · exact hlt.trans (hm n hn)
      · next hnlt =>
        have hlt : m.1 < key := lt_of_le_of_ne (not_lt.1 hnlt) (Ne.symm hne)
        refine List.pairwise_cons.2 ⟨fun n hn => ?_, ih hl⟩
        rcases mem_insertMember hn with rfl | hn
        · exact hlt
        · exact hm n hn

theorem perm_insertMember {key : String} {value : Json} {l : List (String × Json)}
    (h : key ∉ l.map Prod.fst) : (insertMember key value l).Perm ((key, value) :: l) := by
  induction l with
  | nil => exact .refl _
  | cons m l ih =>
    obtain ⟨hm, hl⟩ := not_or.1 (mt List.mem_cons.2 h)
    rw [insertMember, if_neg hm]
    split
    · exact .refl _
    · exact ((ih hl).cons m).trans (.swap _ _ l)

/-- The object of members with distinct keys has these members, in the order of the keys. -/
theorem ofMembers_eq_object {l : List (String × Json)} (h : (l.map Prod.fst).Nodup) :
    ∃ ms, ofMembers l = .object ms ∧ (ms.Pairwise fun m n => m.1 < n.1) ∧ ms.Perm l := by
  induction l using List.reverseRecOn with
  | nil => exact ⟨[], rfl, .nil, .nil⟩
  | append_singleton l n ih =>
    rw [List.map_append, List.map_singleton, List.nodup_append] at h
    obtain ⟨hl, -, hn⟩ := h
    obtain ⟨ms, hms, hsorted, hperm⟩ := ih hl
    have hfresh : n.1 ∉ ms.map Prod.fst := fun hmem =>
      hn n.1 ((hperm.map Prod.fst).mem_iff.1 hmem) n.1 (List.mem_singleton_self _) rfl
    refine ⟨insertMember n.1 n.2 ms, ?_, pairwise_insertMember hsorted, ?_⟩
    · rw [← object.inj hms, ofMembers, List.foldl_append]
      rfl
    · exact (perm_insertMember hfresh).trans
        ((hperm.cons n).trans (List.perm_append_singleton n l).symm)

/-- Members that are in the order of their keys stay so. -/
theorem ofMembers_of_pairwise {l : List (String × Json)} (h : l.Pairwise fun m n => m.1 < n.1) :
    ofMembers l = .object l := by
  have hnodup : (l.map Prod.fst).Nodup := List.pairwise_map.2 (h.imp ne_of_lt)
  obtain ⟨ms, hms, hsorted, hperm⟩ := ofMembers_eq_object hnodup
  rw [hms, hperm.eq_of_pairwise (fun m n _ _ hmn hnm => (lt_asymm hmn hnm).elim) hsorted h]

end Json

namespace Datum

theorem ofInt64_of_jsonInt? {j : Json} {i : Int64} (h : jsonInt? j = some i) : .ofInt64 i = j := by
  obtain _ | _ | (⟨n, hleast, hgreatest⟩ | _) | _ | _ | _ := j <;> try cases h
  rw [jsonInt?] at h
  split at h
  · next hn =>
    obtain rfl := Option.some.inj h
    have htoInt : (Int64.ofInt n).toInt = n := Int64.toInt_ofInt_of_le hleast hn
    simp only [Json.ofInt64, htoInt]
  · cases h

theorem string_of_jsonText? {j : Json} {s : String} (h : jsonText? j = some s) : .string s = j := by
  cases j <;> cases h
  rfl

/-- A list of which every item was taken from what it is written out as. -/
theorem map_of_mapM {α : Type} {f : Json → Option α} {g : α → Json}
    (hfg : ∀ {j a}, f j = some a → g a = j) {items : List Json} {l : List α}
    (h : items.mapM f = some l) : l.map g = items := by
  induction items generalizing l with
  | nil =>
    obtain rfl := Option.some.inj h
    rfl
  | cons j items ih =>
    rw [List.mapM_cons] at h
    obtain ⟨a, ha, h⟩ := Option.bind_eq_some_iff.1 h
    obtain ⟨l', hl, h⟩ := Option.bind_eq_some_iff.1 h
    obtain rfl := Option.some.inj h
    rw [List.map_cons, hfg ha, ih hl]

theorem toJson_ofJson_array (items : List Json) :
    (ofJson (.array items)).toJson = .array items := by
  cases items with
  | nil => rfl
  | cons j items =>
    rw [ofJson]
    split
    · next _ _ l hints => exact congrArg Json.array (map_of_mapM ofInt64_of_jsonInt? hints)
    · next _ _ l _ htexts => exact congrArg Json.array (map_of_mapM string_of_jsonText? htexts)
    · rfl
    · nofun

theorem ofJson_of_oversized {j : Json} (h : j.Oversized) : ∃ x, ofJson j = .float x := by
  obtain _ | _ | (⟨n, hleast, hgreatest⟩ | _) | _ | _ | _ := j <;> try cases h
  exact ⟨Double.ofInt n, if_neg (not_lt.2 h)⟩

/-- A JSON value is what its datum is written out as, unless it is too large an integer. -/
theorem toJson_ofJson_iff (j : Json) : (ofJson j).toJson = j ↔ ¬j.Oversized := by
  cases j with
  | null => exact iff_of_true rfl id
  | bool b => exact iff_of_true rfl id
  | string s => exact iff_of_true rfl id
  | array items => exact iff_of_true (toJson_ofJson_array items) id
  | object members => exact iff_of_true rfl id
  | number n =>
    cases n with
    | real x hx => exact iff_of_true (dif_pos hx) id
    | integer n hleast hgreatest =>
      by_cases hn : n < Nat.pow 2 63
      · refine iff_of_true ?_ (not_le.2 hn)
        rw [ofJson, if_pos hn]
        have hint : jsonInt? (.number (.integer n hleast hgreatest)) = some (Int64.ofInt n) :=
          if_pos hn
        exact ofInt64_of_jsonInt? hint
      · refine iff_of_false (fun h => ?_) (not_not.2 (not_lt.1 hn))
        obtain ⟨x, hx⟩ :=
          ofJson_of_oversized (j := .number (.integer n hleast hgreatest)) (not_lt.1 hn)
        rw [hx, toJson, Json.ofDouble] at h
        split at h <;> cases h

end Datum

namespace Bindings

/-- The bindings of a JSON object. -/
def ofMembers (ms : List (String × Json)) : Bindings :=
  Assoc.ofList (ms.map fun m => (m.1, Datum.ofJson m.2))

theorem bind_mapM_members? (depth : Nat) (members : List (Option String × Json.Source)) :
    ((Json.Source.object members).members?.bind fun l => l.mapM fun m =>
        (m.2.toJson? depth).map fun j => (m.1, Datum.ofJson j)) =
      (Json.Source.membersToJson? depth members).map fun ms =>
        ms.map fun m => (m.1, Datum.ofJson m.2) := by
  rw [Json.Source.members?]
  induction members with
  | nil => rfl
  | cons m members ih =>
    obtain ⟨_ | key, value⟩ := m
    · rfl
    · simp only [List.mapM_cons, Json.Source.membersToJson?, Option.bind_eq_bind, Option.bind_assoc,
        Option.pure_def, Option.bind_some, Option.map_some, Option.map_bind, Option.bind_map,
        Function.comp_def, List.map_cons]
      -- it makes no difference whether the value of a member or the keys behind it come first
      rw [Option.bind_comm]
      refine Option.bind_congr fun j _ => ?_
      rw [← Option.bind_assoc, ih, Option.bind_map]
      rfl

/-- Bindings are read from the members that a JSON value has, in the order of the text. -/
theorem ofSource?_object (depth : Nat) (members : List (Option String × Json.Source)) :
    ofSource? (depth + 1) (.object members) =
      (Json.Source.membersToJson? depth members).map ofMembers := by
  calc ofSource? (depth + 1) (.object members)
      = ((Json.Source.object members).members?.bind fun l => l.mapM fun m =>
          (m.2.toJson? depth).map fun j => (m.1, Datum.ofJson j)).map Assoc.ofList := by
        rw [ofSource?, Option.map_bind]
        simp only [Option.bind_eq_bind, Option.pure_def, Option.map_eq_bind, Function.comp_def]
    _ = (Json.Source.membersToJson? depth members).map ofMembers := by
        rw [bind_mapM_members?, Option.map_map]
        rfl

theorem entries_ofMembers {ms : List (String × Json)} (h : (ms.map Prod.fst).Nodup) :
    (ofMembers ms).entries = ms.map fun m => (m.1, Datum.ofJson m.2) := by
  refine Assoc.entries_ofList ?_
  rwa [List.map_map]

theorem keys_ofMembers {ms : List (String × Json)} (h : (ms.map Prod.fst).Nodup) :
    (ofMembers ms).keys = ms.map Prod.fst := by
  rw [Assoc.keys, entries_ofMembers h, List.map_map]
  rfl

/-- The members of the JSON object of the bindings, in the order of the names. -/
def members (b : Bindings) : List (String × Json) :=
  (b.map Datum.toJson).entries

/-- The JSON value of the bindings. The members of a JSON value are in the order of their keys. -/
def toValue (b : Bindings) : Json :=
  Json.ofMembers b.members

/-- The bindings that a JSON value stands for, if it is an object. -/
def ofJson? : Json → Option Bindings
  | .object ms => some (ofMembers ms)
  | _ => none

theorem members_ofMembers {ms : List (String × Json)} (h : (ms.map Prod.fst).Nodup) :
    (ofMembers ms).members = ms.map fun m => (m.1, (Datum.ofJson m.2).toJson) := by
  change (ofMembers ms).entries.map (fun m => (m.1, m.2.toJson)) = _
  rw [entries_ofMembers h, List.map_map]
  rfl

/-- Members with distinct keys are what their bindings are written out as, if none of them is too
large an integer. -/
theorem members_ofMembers_iff {ms : List (String × Json)} (h : (ms.map Prod.fst).Nodup) :
    (ofMembers ms).members = ms ↔ ∀ m ∈ ms, ¬m.2.Oversized := by
  rw [members_ofMembers h]
  conv_lhs => rhs; rw [← List.map_id ms]
  rw [List.map_inj_left]
  refine forall₂_congr fun m _ => ?_
  rw [← Datum.toJson_ofJson_iff, id_eq, Prod.mk.injEq, and_iff_right rfl]

theorem not_oversized_members {b : Bindings} :
    (∀ m ∈ b.members, ¬m.2.Oversized) ↔ ∀ entry ∈ b.entries, ¬entry.2.toJson.Oversized :=
  List.forall_mem_map

/-- What is read from the JSON value of bindings has their names in the order of the keys. It gives
back this value if no datum is too large an integer. -/
theorem ofJson?_toValue (b : Bindings) :
    ∃ b', ofJson? b.toValue = some b' ∧ b'.keys.Pairwise (· < ·) ∧
      (∀ name, b'.get? name = (b.get? name).map fun d => Datum.ofJson d.toJson) ∧
      (b'.toValue = b.toValue ↔ ∀ entry ∈ b.entries, ¬entry.2.toJson.Oversized) := by
  have hnodup : (b.members.map Prod.fst).Nodup := (b.map Datum.toJson).keys_nodup
  obtain ⟨ms, hms, hsorted, hperm⟩ := Json.ofMembers_eq_object hnodup
  have hms' : (ms.map Prod.fst).Nodup := (hperm.map Prod.fst).nodup_iff.2 hnodup
  refine ⟨ofMembers ms, by rw [toValue, hms, ofJson?], ?_, fun name => ?_, ?_⟩
  · rw [keys_ofMembers hms']
    exact List.pairwise_map.2 hsorted
  · -- the order of the members does not matter for the look-up
    have hentries : (ms.map fun m => (m.1, Datum.ofJson m.2)).Perm
        (b.map fun d => Datum.ofJson d.toJson).entries := by
      have h := hperm.map fun m => (m.1, Datum.ofJson m.2)
      rwa [members, Assoc.map, List.map_map] at h
    rw [ofMembers, Assoc.get?_ofList_of_perm hentries, Assoc.get?_map]
  · have hsorted' : (ofMembers ms).members.Pairwise fun m n => m.1 < n.1 := by
      rw [members_ofMembers hms']
      exact List.pairwise_map.2 hsorted
    rw [toValue, toValue, hms, Json.ofMembers_of_pairwise hsorted', Json.object.injEq,
      members_ofMembers_iff hms', ← not_oversized_members]
    exact forall_congr' fun m => by rw [hperm.mem_iff]

end Bindings

/-! ### The main statement -/

/-- **A JSON value that is taken in and written out again is what it was.** Only an integer above
those of 64 signed bits is not: it becomes a float; inside a list or an object it stays. Hence what
a datum is written out as can be taken in and written out again, and so can what bindings are
written out as. What is taken in of bindings has the same names in the order of the keys. -/
theorem json_survives (j : Json) (d : Datum) (b : Bindings) :
    ((Datum.ofJson j).toJson = j ↔ ¬j.Oversized) ∧
      (j.Oversized → ∃ x, Datum.ofJson j = .float x) ∧
      ((Datum.ofJson d.toJson).toJson = d.toJson ↔ ¬d.toJson.Oversized) ∧
      ∃ b', Bindings.ofJson? b.toValue = some b' ∧ b'.keys.Pairwise (· < ·) ∧
        (∀ name, b'.get? name = (b.get? name).map fun d => Datum.ofJson d.toJson) ∧
        (b'.toValue = b.toValue ↔ ∀ entry ∈ b.entries, ¬entry.2.toJson.Oversized) :=
  ⟨Datum.toJson_ofJson_iff j, Datum.ofJson_of_oversized, Datum.toJson_ofJson_iff d.toJson,
    Bindings.ofJson?_toValue b⟩

/-- The least integer that is too large, alone, in a list and within bindings. -/
theorem json_survives_large :
    let large : Json := .number (.integer (Nat.pow 2 63) (by decide) (by decide))
    let b : Bindings :=
      ⟨[("places", .texts ["hall", "yard"]), ("ids", .json (.array [large]))], by decide⟩
    (∃ x, Datum.ofJson large = .float x) ∧
      (Datum.ofJson (.array [large])).toJson = .array [large] ∧
      ∃ b', Bindings.ofJson? b.toValue = some b' ∧
        b'.get? "places" = some (.texts ["hall", "yard"]) ∧ b'.toValue = b.toValue := by
  intro large b
  have hdata : ∀ entry ∈ b.entries, ¬entry.2.toJson.Oversized := by
    simp [b, Datum.toJson, Json.Oversized]
  obtain ⟨-, hfloat, hlist, b', hb', -, hget, hsame⟩ :=
    json_survives large (.json (.array [large])) b
  exact ⟨hfloat (le_refl _), hlist.2 id, b', hb', hget "places", hsame.2 hdata⟩

/-- The names of two bindings come back the other way round. -/
theorem json_survives_sorted_names :
    let b : Bindings := ⟨[("places", .int 1), ("ids", .int 2)], by decide⟩
    ∃ b', Bindings.ofJson? b.toValue = some b' ∧ b'.keys = ["ids", "places"] ∧
      b.keys = ["places", "ids"] := by
  intro b
  have hlt : "ids" < "places" := by decide +kernel
  have hvalue : b.toValue = .object [("ids", .ofInt64 2), ("places", .ofInt64 1)] := by
    simp [b, Bindings.toValue, Bindings.members, Assoc.map, Json.ofMembers, Json.insertMember, hlt,
      hlt.ne, Datum.toJson]
  refine ⟨.ofMembers [("ids", .ofInt64 2), ("places", .ofInt64 1)], ?_, ?_, rfl⟩
  · rw [hvalue, Bindings.ofJson?]
  · exact Bindings.keys_ofMembers (by decide)

end SqlAssembly
