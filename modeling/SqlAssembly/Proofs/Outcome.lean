import Mathlib.Data.List.Forall2

/-!
# Outcomes

How a sequence of steps that can fail comes out: `bind_eq_ok_iff` and `bind_eq_error_iff` for two
steps, `mapM_eq_ok_iff` and `mapM_eq_error_iff` for a step on each item of a list.
-/

namespace SqlAssembly

variable {α β γ ε : Type}

/-- Two steps succeed when the first does and the second does with its result. -/
theorem bind_eq_ok_iff {x : Except ε α} {f : α → Except ε β} {b : β} :
    x >>= f = .ok b ↔ ∃ a, x = .ok a ∧ f a = .ok b := by
  cases x with
  | error e => simp [bind, Except.bind]
  | ok a => simp [bind, Except.bind]

/-- Two steps fail when the first does, or the second does with its result. -/
theorem bind_eq_error_iff {x : Except ε α} {f : α → Except ε β} {e : ε} :
    x >>= f = .error e ↔ x = .error e ∨ ∃ a, x = .ok a ∧ f a = .error e := by
  cases x with
  | error e => simp [bind, Except.bind]
  | ok a => simp [bind, Except.bind]

/-- A changed result comes from a result. -/
theorem map_eq_ok_iff {x : Except ε α} {f : α → β} {b : β} :
    f <$> x = .ok b ↔ ∃ a, x = .ok a ∧ f a = b := by
  cases x <;> simp

/-- To change the result keeps a failure. -/
theorem map_eq_error_iff {x : Except ε α} {f : α → β} {e : ε} :
    f <$> x = .error e ↔ x = .error e := by
  cases x <;> simp

@[simp] theorem pure_eq_ok_iff {a b : α} : (pure a : Except ε α) = .ok b ↔ a = b := by
  simp [pure, Except.pure]

@[simp] theorem pure_ne_error {a : α} {e : ε} : (pure a : Except ε α) ≠ .error e := nofun

/-- A step on each item succeeds when it does on every item. -/
theorem mapM_eq_ok_iff {f : α → Except ε β} {l : List α} {r : List β} :
    l.mapM f = .ok r ↔ List.Forall₂ (fun a b => f a = .ok b) l r := by
  induction l generalizing r with
  | nil => simp
  | cons a l ih =>
    rw [List.mapM_cons, bind_eq_ok_iff, List.forall₂_cons_left_iff]
    refine exists_congr fun b => ?_
    simp only [bind_eq_ok_iff, ih, pure_eq_ok_iff, exists_and_left, eq_comm (a := r)]

/-- Only what a step does on the items matters. -/
theorem mapM_congr {f g : α → Except ε β} {l : List α} (h : ∀ a ∈ l, f a = g a) :
    l.mapM f = l.mapM g := by
  induction l with
  | nil => rfl
  | cons a l ih =>
    obtain ⟨ha, hl⟩ := List.forall_mem_cons.1 h
    rw [List.mapM_cons, List.mapM_cons, ha, ih hl]

/-- A step on each item has results when it has one on every item. -/
theorem exists_mapM_iff {f : α → Except ε β} {l : List α} :
    (∃ r, l.mapM f = .ok r) ↔ ∀ a ∈ l, ∃ b, f a = .ok b := by
  induction l with
  | nil => simp
  | cons a l ih =>
    rw [List.forall_mem_cons, ← ih]
    simp only [List.mapM_cons, bind_eq_ok_iff, pure_eq_ok_iff]
    constructor
    · rintro ⟨_, b, hb, r, hr, -⟩
      exact ⟨⟨b, hb⟩, r, hr⟩
    · rintro ⟨⟨b, hb⟩, r, hr⟩
      exact ⟨_, b, hb, r, hr, rfl⟩

/-- Every result of a step on each item comes from an item. -/
theorem exists_of_mem_mapM {f : α → Except ε β} {l : List α} {r : List β}
    (h : l.mapM f = .ok r) {b : β} (hb : b ∈ r) : ∃ a ∈ l, f a = .ok b := by
  rw [mapM_eq_ok_iff] at h
  induction h with
  | nil => cases hb
  | cons ha _ ih =>
    rcases List.mem_cons.1 hb with rfl | hb
    · exact ⟨_, List.mem_cons_self, ha⟩
    · obtain ⟨a, hl, ha⟩ := ih hb
      exact ⟨a, List.mem_cons_of_mem _ hl, ha⟩

/-- Every item has its result among those of a step on each item. -/
theorem mem_mapM_of_mem {f : α → Except ε β} {l : List α} {r : List β} (h : l.mapM f = .ok r)
    {a : α} {b : β} (ha : a ∈ l) (hb : f a = .ok b) : b ∈ r := by
  rw [mapM_eq_ok_iff] at h
  induction h with
  | nil => cases ha
  | cons hc _ ih =>
    rcases List.mem_cons.1 ha with rfl | ha
    · obtain rfl := Except.ok.inj (hc.symm.trans hb)
      exact List.mem_cons_self
    · exact List.mem_cons_of_mem _ (ih ha)

/-- A step on each item fails as it does on the first item on which it fails. -/
theorem mapM_eq_error_iff {f : α → Except ε β} {l : List α} {e : ε} :
    l.mapM f = .error e ↔
      ∃ before a after, l = before ++ a :: after ∧ (∀ b ∈ before, ∃ c, f b = .ok c) ∧
        f a = .error e := by
  induction l with
  | nil => simp
  | cons a l ih =>
    rw [List.mapM_cons, bind_eq_error_iff]
    simp only [bind_eq_error_iff, pure_ne_error, and_false, exists_false, or_false, ih]
    constructor
    · rintro (h | ⟨b, hb, before, c, after, rfl, hbefore, hc⟩)
      · exact ⟨[], a, l, rfl, by simp, h⟩
      · refine ⟨a :: before, c, after, rfl, ?_, hc⟩
        rintro d (_ | ⟨_, hd⟩)
        · exact ⟨b, hb⟩
        · exact hbefore d hd
    · rintro ⟨before, c, after, hl, hbefore, hc⟩
      rcases before with _ | ⟨b, before⟩
      · obtain ⟨rfl, rfl⟩ := List.cons.inj hl
        exact .inl hc
      · obtain ⟨rfl, rfl⟩ := List.cons.inj hl
        obtain ⟨d, hd⟩ := hbefore a List.mem_cons_self
        exact .inr ⟨d, hd, before, c, after, rfl, fun b hb => hbefore b (List.mem_cons_of_mem a hb),
          hc⟩

/-- To change all results of a step on each item is to change the list of results. -/
theorem mapM_map_result (f : α → Except ε β) (g : β → γ) (l : List α) :
    (l.mapM fun a => g <$> f a) = List.map g <$> l.mapM f := by
  induction l with
  | nil => rfl
  | cons a l ih => simp only [List.mapM_cons, ih, map_bind, bind_map_left, map_pure, List.map_cons]

/-- To take the results of a step up as they come is to take them up at the end, when all goes
well. -/
theorem foldlM_bind_eq_ok_iff {f : α → Except ε β} {step : γ → β → Except ε γ}
    {l : List α} {c c' : γ} :
    l.foldlM (fun c a => f a >>= step c) c = .ok c' ↔
      ∃ r, l.mapM f = .ok r ∧ r.foldlM step c = .ok c' := by
  induction l generalizing c with
  | nil => simp
  | cons a l ih =>
    simp only [List.foldlM_cons, List.mapM_cons, bind_eq_ok_iff, pure_eq_ok_iff, ih]
    constructor
    · rintro ⟨c₁, ⟨b, hb, hc⟩, r, hr, h⟩
      exact ⟨b :: r, ⟨b, hb, r, hr, rfl⟩, bind_eq_ok_iff.2 ⟨c₁, hc, h⟩⟩
    · rintro ⟨_, ⟨b, hb, r, hr, rfl⟩, h⟩
      obtain ⟨c₁, hc, h⟩ := bind_eq_ok_iff.1 h
      exact ⟨c₁, ⟨b, hb, hc⟩, r, hr, h⟩

/-- Outcomes that `g` makes equal are equal to one who does not see what `g` does. -/
theorem map_eq_of_map_eq {f : α → β} {g : α → α} (hfg : ∀ a, f (g a) = f a)
    {x y : Except ε α} (h : g <$> x = g <$> y) : f <$> x = f <$> y := by
  have hg (z : Except ε α) : f <$> z = f <$> g <$> z := by simp only [Functor.map_map, hfg]
  rw [hg x, hg y, h]

end SqlAssembly
