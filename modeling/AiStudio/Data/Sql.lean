import Mathlib.Data.List.Basic

/-!
# Conditions of a query

The conditions of a `WHERE` clause over text columns, with the third truth value of SQL: a
comparison with NULL is neither true nor false, and a row is selected where the condition is true.
-/

set_option autoImplicit false

namespace AiStudio.Data.Sql

/-- A truth value of SQL; `none` is NULL. -/
abbrev Truth := Option Bool

/-- `a AND b`. -/
def Truth.and : Truth → Truth → Truth
  | some false, _ => some false
  | _, some false => some false
  | some true, some true => some true
  | _, _ => none

/-- `a OR b`. -/
def Truth.or : Truth → Truth → Truth
  | some true, _ => some true
  | _, some true => some true
  | some false, some false => some false
  | _, _ => none

/-- `a = b`, NULL where either is. -/
def equals (a b : Option String) : Truth := a.bind fun x => b.map fun y => decide (x = y)

/-- A column compared with parameters: with one, or with the members of a list. -/
structure Clause (κ : Type) where
  column : κ
  values : List (Option String)

namespace Clause

variable {κ : Type}

/-- The text of the clause, a placeholder for each parameter. -/
def text (name : κ → String) (c : Clause κ) : String :=
  match c.values with
  | [_] => name c.column ++ " = %s"
  | values => name c.column ++ " IN (" ++ ", ".intercalate (values.map fun _ => "%s") ++ ")"

/-- The value of the clause on a row. -/
def eval (row : κ → Option String) (c : Clause κ) : Truth :=
  c.values.foldr (fun value => Truth.or (equals (row c.column) value)) (some false)

/-- The row is selected by the clauses together. -/
def selects (row : κ → Option String) (clauses : List (Clause κ)) : Bool :=
  clauses.foldr (fun c => Truth.and (c.eval row)) (some true) = some true

end Clause

@[simp] theorem Truth.and_eq_true {a b : Truth} :
    a.and b = some true ↔ a = some true ∧ b = some true := by
  rcases a with _ | _ | _ <;> rcases b with _ | _ | _ <;> simp [Truth.and]

@[simp] theorem Truth.or_eq_true {a b : Truth} :
    a.or b = some true ↔ a = some true ∨ b = some true := by
  rcases a with _ | _ | _ <;> rcases b with _ | _ | _ <;> simp [Truth.or]

/-- Equal texts, neither of them NULL. -/
theorem equals_eq_true {a b : Option String} :
    equals a b = some true ↔ ∃ x, a = some x ∧ b = some x := by
  cases a with
  | none => simp [equals]
  | some x =>
      cases b with
      | none => simp [equals]
      | some y => simp [equals, eq_comm]

variable {κ : Type} {row : κ → Option String}

theorem Clause.eval_eq_true {c : Clause κ} :
    c.eval row = some true ↔ ∃ x, row c.column = some x ∧ some x ∈ c.values := by
  obtain ⟨column, values⟩ := c
  induction values with
  | nil => simp [eval]
  | cons value values ih =>
      simp only [eval, List.foldr_cons, Truth.or_eq_true, equals_eq_true] at ih ⊢
      rw [ih]
      constructor
      · rintro (⟨x, hrow, rfl⟩ | ⟨x, hrow, hmem⟩)
        · exact ⟨x, hrow, List.mem_cons_self⟩
        · exact ⟨x, hrow, List.mem_cons_of_mem _ hmem⟩
      · rintro ⟨x, hrow, hmem⟩
        rcases List.mem_cons.1 hmem with hx | hx
        · exact .inl ⟨x, hrow, hx.symm⟩
        · exact .inr ⟨x, hrow, hx⟩

/-- **A row is selected when each clause finds its column among the parameters.** -/
theorem Clause.selects_iff {clauses : List (Clause κ)} :
    Clause.selects row clauses = true ↔
      ∀ c ∈ clauses, ∃ x, row c.column = some x ∧ some x ∈ c.values := by
  rw [selects, decide_eq_true_eq]
  induction clauses with
  | nil => simp
  | cons c clauses ih =>
      rw [List.foldr_cons, Truth.and_eq_true, Clause.eval_eq_true, ih, List.forall_mem_cons]

end AiStudio.Data.Sql
