import Mathlib.Data.List.Nodup

/-!
# Keyed tables

A table is a finite list of rows under distinct keys. The distinctness is a field,
so that a table with a duplicate primary key cannot be built; every operation below
returns a table again. Row order is insertion order, which only the queries that
state an order of their own may read.
-/

set_option autoImplicit false

namespace AiStudio.Data

variable {κ ρ : Type}

/-- Rows of type `ρ` under distinct keys. -/
structure Table (κ ρ : Type) where
  rows : List (κ × ρ)
  nodup : (rows.map Prod.fst).Nodup

namespace Table

/-- The table without rows. -/
def empty : Table κ ρ := ⟨[], List.nodup_nil⟩

instance : Inhabited (Table κ ρ) := ⟨empty⟩

/-- Keys of an image that keeps keys. -/
theorem nodup_map (t : Table κ ρ) {ρ' : Type} (f : κ → ρ → ρ') :
    ((t.rows.map fun kr => (kr.1, f kr.1 kr.2)).map Prod.fst).Nodup := by
  simpa [List.map_map, Function.comp_def] using t.nodup

variable [DecidableEq κ]

/-- The row under a key. -/
def find? (t : Table κ ρ) (k : κ) : Option ρ := (t.rows.find? fun kr => kr.1 = k).map Prod.snd

/-- Replace every row by an image of it. -/
def mapRows (t : Table κ ρ) (f : κ → ρ → ρ) : Table κ ρ :=
  ⟨t.rows.map fun kr => (kr.1, f kr.1 kr.2), t.nodup_map f⟩

/-- Update the row under `k`, if there is one. -/
def modify (t : Table κ ρ) (k : κ) (f : ρ → ρ) : Table κ ρ :=
  t.mapRows fun k' r => if k' = k then f r else r

/-- Update the rows that satisfy `p`. -/
def modifyWhere (t : Table κ ρ) (p : κ → ρ → Bool) (f : ρ → ρ) : Table κ ρ :=
  t.mapRows fun k r => if p k r then f r else r

/-- The keys of a table with one more row under a new key are distinct. -/
theorem nodup_concat (t : Table κ ρ) {k : κ} (r : ρ) (h : t.find? k = none) :
    ((t.rows ++ [(k, r)]).map Prod.fst).Nodup := by
  rw [List.map_append]
  refine List.Nodup.append t.nodup (by simp) ?_
  intro k' hk' hmem
  obtain rfl : k' = k := by simpa using hmem
  obtain ⟨kr, hkr, rfl⟩ := List.mem_map.1 hk'
  simp only [find?, Option.map_eq_none_iff, List.find?_eq_none] at h
  exact absurd (h kr hkr) (by simp)

/-- Add a row under a new key; `none` when the key is taken. -/
def insert? (t : Table κ ρ) (k : κ) (r : ρ) : Option (Table κ ρ) :=
  if h : t.find? k = none then some ⟨t.rows ++ [(k, r)], t.nodup_concat r h⟩ else none

/-- The rows that satisfy `p`, in table order. -/
def select (t : Table κ ρ) (p : κ → ρ → Bool) : List (κ × ρ) := t.rows.filter fun kr => p kr.1 kr.2

/-- Delete the rows that satisfy `p`. -/
def deleteWhere (t : Table κ ρ) (p : κ → ρ → Bool) : Table κ ρ :=
  ⟨t.rows.filter fun kr => !p kr.1 kr.2, t.nodup.sublist (List.filter_sublist.map Prod.fst)⟩

/-! ## Lookups -/

/-- **The rows are exactly what lookups find.** -/
theorem find?_eq_some_iff (t : Table κ ρ) (k : κ) (r : ρ) :
    t.find? k = some r ↔ (k, r) ∈ t.rows := by
  obtain ⟨rows, hnodup⟩ := t
  simp only [find?]
  induction rows with
  | nil => simp
  | cons kr rows ih =>
      obtain ⟨k', r'⟩ := kr
      simp only [List.map_cons, List.nodup_cons, List.mem_map, not_exists, not_and] at hnodup
      by_cases hk : k' = k
      · subst hk
        simp only [List.find?_cons, decide_true, Option.map_some, Option.some.injEq,
          List.mem_cons, Prod.mk.injEq, true_and]
        constructor
        · exact fun h => Or.inl h.symm
        · rintro (h | h)
          · exact h.symm
          · exact absurd rfl (hnodup.1 _ h)
      · have hk' : ¬ k = k' := fun h => hk h.symm
        simp only [List.find?_cons, hk, decide_false, List.mem_cons, Prod.mk.injEq, hk',
          false_and, false_or]
        exact ih hnodup.2

@[simp] theorem find?_empty (k : κ) : (empty : Table κ ρ).find? k = none := rfl

theorem find?_mapRows (t : Table κ ρ) (f : κ → ρ → ρ) (k : κ) :
    (t.mapRows f).find? k = (t.find? k).map (f k) := by
  obtain ⟨rows, hnodup⟩ := t
  simp only [find?, mapRows]
  clear hnodup
  induction rows with
  | nil => rfl
  | cons kr rows ih =>
      by_cases hk : kr.1 = k
      · simp [hk]
      · simpa [hk] using ih

omit [DecidableEq κ] in
/-- An image of every row by itself is the table. -/
theorem mapRows_eq_self {t : Table κ ρ} {f : κ → ρ → ρ}
    (h : ∀ kr ∈ t.rows, f kr.1 kr.2 = kr.2) : t.mapRows f = t := by
  obtain ⟨rows, hnodup⟩ := t
  simp only [mapRows, mk.injEq]
  calc rows.map (fun kr => (kr.1, f kr.1 kr.2)) = rows.map id :=
        List.map_congr_left fun kr hkr => by rw [h kr hkr]; rfl
    _ = rows := List.map_id rows

omit [DecidableEq κ] in
/-- Of two images one after the other. -/
theorem mapRows_mapRows (t : Table κ ρ) (f g : κ → ρ → ρ) :
    (t.mapRows f).mapRows g = t.mapRows fun k r => g k (f k r) := by
  simp only [mapRows, List.map_map, Function.comp_def]

/-- An update under `k` changes the row under `k` only. -/
theorem find?_modify (t : Table κ ρ) (k k' : κ) (f : ρ → ρ) :
    (t.modify k f).find? k' = if k' = k then (t.find? k').map f else t.find? k' := by
  rw [modify, find?_mapRows]
  by_cases h : k' = k <;> simp [h]

@[simp] theorem find?_modify_self (t : Table κ ρ) (k : κ) (f : ρ → ρ) :
    (t.modify k f).find? k = (t.find? k).map f := by
  simp [find?_modify]

theorem find?_modify_ne (t : Table κ ρ) {k k' : κ} (f : ρ → ρ) (h : k' ≠ k) :
    (t.modify k f).find? k' = t.find? k' := by
  simp [find?_modify, h]

/-- Of two rewrites of one row the last counts. -/
theorem modify_modify (t : Table κ ρ) (k : κ) (r r' : ρ) :
    (t.modify k fun _ => r).modify k (fun _ => r') = t.modify k fun _ => r' := by
  obtain ⟨rows, hnodup⟩ := t
  simp only [modify, mapRows, mk.injEq, List.map_map]
  refine List.map_congr_left fun kr _ => ?_
  by_cases hk : kr.1 = k <;> simp [hk]

theorem find?_modifyWhere (t : Table κ ρ) (p : κ → ρ → Bool) (f : ρ → ρ) (k : κ) :
    (t.modifyWhere p f).find? k = (t.find? k).map fun r => if p k r then f r else r := by
  rw [modifyWhere, find?_mapRows]

/-- **What an insertion does.** -/
theorem insert?_eq_some {t t' : Table κ ρ} {k : κ} {r : ρ} (h : t.insert? k r = some t') :
    t.find? k = none ∧ t'.rows = t.rows ++ [(k, r)] := by
  simp only [insert?] at h
  split at h
  · rename_i hk
    simp only [Option.some.injEq] at h
    subst h
    exact ⟨hk, rfl⟩
  · simp at h

/-- A new key is taken. -/
theorem insert?_of_find?_none {t : Table κ ρ} {k : κ} (r : ρ) (h : t.find? k = none) :
    ∃ t', t.insert? k r = some t' := by
  rw [insert?, dif_pos h]
  exact ⟨_, rfl⟩

theorem find?_insert {t t' : Table κ ρ} {k : κ} {r : ρ} (h : t.insert? k r = some t')
    (k' : κ) : t'.find? k' = if k' = k then some r else t.find? k' := by
  obtain ⟨hk, hrows⟩ := insert?_eq_some h
  by_cases hkk : k' = k
  · subst hkk
    rw [if_pos rfl, find?_eq_some_iff, hrows]
    simp
  · rw [if_neg hkk]
    simp only [find?, hrows, List.find?_append, List.find?_cons, List.find?_nil]
    have hne : ¬ k = k' := fun h => hkk h.symm
    simp [hne]

/-- The row under `k` is `r` now, whether or not the key was taken. -/
def upsert (t : Table κ ρ) (k : κ) (r : ρ) : Table κ ρ :=
  (t.insert? k r).getD (t.modify k fun _ => r)

theorem find?_upsert (t : Table κ ρ) (k : κ) (r : ρ) (k' : κ) :
    (t.upsert k r).find? k' = if k' = k then some r else t.find? k' := by
  cases hk : t.find? k with
  | none =>
      obtain ⟨t', hinsert⟩ := insert?_of_find?_none r hk
      rw [upsert, hinsert, Option.getD_some, find?_insert hinsert]
  | some old =>
      have hnone : t.insert? k r = none := by
        rw [insert?, dif_neg (by simp [hk])]
      rw [upsert, hnone, Option.getD_none]
      by_cases hkk : k' = k
      · rw [if_pos hkk, hkk, find?_modify_self, hk, Option.map_some]
      · rw [if_neg hkk, find?_modify_ne t _ hkk]

theorem mem_select (t : Table κ ρ) (p : κ → ρ → Bool) (k : κ) (r : ρ) :
    (k, r) ∈ t.select p ↔ t.find? k = some r ∧ p k r = true := by
  rw [select, List.mem_filter, find?_eq_some_iff]

/-- In rows of distinct keys each key has one row. -/
theorem filter_key {l : List (κ × ρ)} (hnodup : (l.map Prod.fst).Nodup) {k : κ} {r : ρ}
    (h : (k, r) ∈ l) : (l.filter fun kr => kr.1 = k) = [(k, r)] := by
  induction l with
  | nil => cases h
  | cons x l ih =>
      obtain ⟨k₁, r₁⟩ := x
      rw [List.map_cons, List.nodup_cons] at hnodup
      rcases List.mem_cons.1 h with hhead | htail
      · obtain ⟨rfl, rfl⟩ := Prod.mk.inj hhead
        have hnone : (l.filter fun kr => kr.1 = k) = [] := by
          refine List.filter_eq_nil_iff.2 fun kr hkr heq => hnodup.1 ?_
          exact List.mem_map.2 ⟨kr, hkr, by simpa using heq⟩
        simp [hnone]
      · have hne : k₁ ≠ k := fun heq => hnodup.1 (List.mem_map.2 ⟨(k, r), htail, heq.symm⟩)
        rw [List.filter_cons_of_neg (by simpa using hne), ih hnodup.2 htail]

theorem find?_deleteWhere (t : Table κ ρ) (p : κ → ρ → Bool) (k : κ) :
    (t.deleteWhere p).find? k = (t.find? k).filter fun r => !p k r := by
  ext r
  rw [find?_eq_some_iff, deleteWhere, List.mem_filter, ← find?_eq_some_iff,
    Option.filter_eq_some_iff]

end Table

end AiStudio.Data
