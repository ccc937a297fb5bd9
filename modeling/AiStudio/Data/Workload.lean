import AiStudio.Data.Table
import Mathlib.Algebra.BigOperators.Group.Finset.Basic
import Mathlib.Data.Finset.Image
import Mathlib.Logic.Hydra
import Mathlib.Tactic.Abel

/-!
# The work that a table holds

Every row of a table weighs a finite multiset of ranks. A change that takes one rank off the table
and puts finitely many lower ones in its place lowers the whole weight in a well-founded order, so
it cannot be made for ever (`Descends.finite`).
-/

set_option autoImplicit false

namespace AiStudio.Data

variable {κ ρ : Type} [DecidableEq κ]

namespace Table

/-- The keys of the rows. -/
def keys (t : Table κ ρ) : Finset κ := (t.rows.map Prod.fst).toFinset

theorem mem_keys {t : Table κ ρ} {k : κ} : k ∈ t.keys ↔ (t.find? k).isSome = true := by
  rw [keys, List.mem_toFinset, List.mem_map, Option.isSome_iff_exists]
  constructor
  · rintro ⟨⟨k', r⟩, hmem, rfl⟩
    exact ⟨r, (t.find?_eq_some_iff _ _).2 hmem⟩
  · rintro ⟨r, hr⟩
    exact ⟨(k, r), (t.find?_eq_some_iff _ _).1 hr, rfl⟩

/-- What the row under a key weighs. -/
def weightAt (w : ρ → Multiset ℕ) (t : Table κ ρ) (k : κ) : Multiset ℕ := ((t.find? k).map w).getD 0

/-- What all rows weigh. -/
def weight (w : ρ → Multiset ℕ) (t : Table κ ρ) : Multiset ℕ := ∑ k ∈ t.keys, t.weightAt w k

end Table

/-- One rank `n` has been taken off the table, and lower ones put in its place. -/
def Descends (w : ρ → Multiset ℕ) (n : ℕ) (t t' : Table κ ρ) : Prop :=
  ∃ more : Multiset ℕ, (∀ m ∈ more, m < n) ∧ t'.weight w + {n} = t.weight w + more

variable {w : ρ → Multiset ℕ} {t t' : Table κ ρ} {n : ℕ}

/-- **The rank of one row is spent.** All other rows weigh what they did, or are new and of lower
rank. -/
theorem descends_of_rows {k : κ} (hspent : t.weightAt w k = {n}) (hfree : t'.weightAt w k = 0)
    (hold : ∀ k' ∈ t.keys, k' ∈ t'.keys ∧ (k' ≠ k → t'.weightAt w k' = t.weightAt w k'))
    (hnew : ∀ k' ∈ t'.keys, k' ∉ t.keys → ∀ m ∈ t'.weightAt w k', m < n) :
    Descends w n t t' := by
  have hk : k ∈ t.keys := by
    rw [Table.mem_keys]
    cases hrow : t.find? k with
    | some r => rfl
    | none =>
        rw [Table.weightAt, hrow] at hspent
        exact absurd hspent.symm (Multiset.singleton_ne_zero n)
  have hsub : t.keys ⊆ t'.keys := fun k' hk' => (hold k' hk').1
  have hbefore : t.weight w = {n} + ∑ k' ∈ t.keys.erase k, t.weightAt w k' := by
    rw [Table.weight, ← Finset.add_sum_erase _ _ hk, hspent]
  have hkept : ∑ k' ∈ t.keys, t'.weightAt w k' = ∑ k' ∈ t.keys.erase k, t.weightAt w k' := by
    rw [← Finset.add_sum_erase _ _ hk, hfree, zero_add]
    refine Finset.sum_congr rfl fun k' hk' => ?_
    exact (hold k' (Finset.mem_of_mem_erase hk')).2 (Finset.ne_of_mem_erase hk')
  refine ⟨∑ k' ∈ t'.keys \ t.keys, t'.weightAt w k', ?_, ?_⟩
  · intro m hm
    obtain ⟨k', hk', hm⟩ := Multiset.mem_sum.1 hm
    rw [Finset.mem_sdiff] at hk'
    exact hnew k' hk'.1 hk'.2 m hm
  · rw [Table.weight, ← Finset.sum_sdiff hsub, hkept, hbefore]
    abel

/-- **Only finitely often.** Along a sequence of tables that either stays as it is for good or
descends, it descends finitely often. -/
theorem Descends.finite {tables : ℕ → Table κ ρ} {active : ℕ → Prop}
    (hdescends : ∀ i, active i → ∃ n, Descends w n (tables i) (tables (i + 1)))
    (hstop : ∀ i, ¬ active i → ¬ active (i + 1)) : {i | active i}.Finite := by
  have hlater : ∀ i j, ¬ active i → ¬ active (i + j) := by
    intro i j hi
    induction j with
    | zero => exact hi
    | succ j ih => exact hstop _ ih
  have hend : ∃ i, ¬ active i := by
    by_contra hall
    have hactive : ∀ i, active i := fun i => by_contra fun hi => hall ⟨i, hi⟩
    have hwf : WellFounded (Relation.CutExpand fun m n : ℕ => m < n) :=
      WellFounded.cutExpand Nat.lt_wfRel.wf
    obtain ⟨lowest, ⟨i, rfl⟩, hlowest⟩ :=
      hwf.has_min (Set.range fun i => (tables i).weight w) ⟨_, 0, rfl⟩
    obtain ⟨n, more, hmore, hsum⟩ := hdescends i (hactive i)
    exact hlowest _ ⟨i + 1, rfl⟩ ⟨more, n, hmore, hsum⟩
  obtain ⟨i, hi⟩ := hend
  refine (Set.finite_lt_nat i).subset fun j hj => ?_
  by_contra hge
  obtain ⟨d, rfl⟩ := Nat.exists_eq_add_of_le (Nat.le_of_not_lt hge)
  exact hlater i d hi hj

end AiStudio.Data
