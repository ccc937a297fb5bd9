import AiStudio.Runtime.Transition
import Mathlib.Data.List.Sort

/-!
# Grabbing a task

Embeds `runtime/tasks.py::grab_task` and what it reads: the structured sort and
filter, the dependency gate and the quarantine gate. Of the rows other transactions
hold locked at the moment of the query, which `SKIP LOCKED` passes over, the model
knows nothing; they are a parameter.
-/

set_option autoImplicit false

namespace AiStudio.Runtime

open AiStudio.Data

/-! ## ORDER BY -/

/-- `_SORTABLE_COLUMNS`. -/
inductive SortColumn where
  | priority
  | createdAt
  | updatedAt
  | claimedAt
  | id
  | workstream
  | type
  | agentType
  deriving DecidableEq, Repr

/-- One term of a sort: the column, its direction and where nulls go, by default
last when ascending and first when descending. -/
structure SortTerm where
  column : SortColumn
  descending : Bool := false
  nullsFirst : Bool := descending
  deriving DecidableEq

/-- A column's value: a number or a text. -/
inductive SortKey where
  | num (n : Int)
  | text (s : String)

/-- Comparison of two values of one column. -/
def SortKey.compare : SortKey → SortKey → Ordering
  | .num m, .num n => Ord.compare m n
  | .text s, .text t => Ord.compare s t
  | .num _, .text _ => .lt
  | .text _, .num _ => .gt

/-- The value of a column in a row. -/
def SortColumn.key (c : SortColumn) (id : Uuid) (row : Task) : Option SortKey :=
  match c with
  | .priority => some (.num row.priority)
  | .createdAt => some (.num row.createdAt)
  | .updatedAt => some (.num row.updatedAt)
  | .claimedAt => row.claimedAt.map .num
  | .id => some (.text id.text)
  | .workstream => some (.text row.workstream.name)
  | .type => some (.text row.type)
  | .agentType => row.agentType.map .text

/-- Comparison of two rows by one term. -/
def SortTerm.compare (term : SortTerm) (x y : Uuid × Task) : Ordering :=
  match term.column.key x.1 x.2, term.column.key y.1 y.2 with
  | none, none => .eq
  | none, some _ => if term.nullsFirst then .lt else .gt
  | some _, none => if term.nullsFirst then .gt else .lt
  | some a, some b => if term.descending then (a.compare b).swap else a.compare b

/-- The order of an ORDER BY clause. -/
def orderBy (terms : List SortTerm) (x y : Uuid × Task) : Bool :=
  (terms.foldl (fun (o : Ordering) term => o.then (term.compare x y)) .eq).isLE

/-- `DEFAULT_SORT_TERMS`: highest priority first, then oldest. -/
def defaultSortTerms : List SortTerm :=
  [{ column := .priority, descending := true }, { column := .createdAt }]

/-! ## WHERE -/

/-- One entry of a structured filter: a column of `_FILTERABLE_COLUMNS` and the values
it may have. -/
inductive FilterClause where
  | type (values : List String)
  | workstream (values : List String)
  | assignee (values : List Assignee)
  | priority (values : List Int)
  | agentType (values : List String)
  | claimedBy (values : List String)

/-- `t.column = ANY(values)`; a null column satisfies nothing. -/
def FilterClause.admits (row : Task) : FilterClause → Bool
  | .type values => values.contains row.type
  | .workstream values => values.contains row.workstream.name
  | .assignee values => row.assignee.any values.contains
  | .priority values => values.contains row.priority
  | .agentType values => row.agentType.any values.contains
  | .claimedBy values => row.claimedBy.any values.contains

/-- The keyword arguments of `grab_task`. -/
structure GrabArgs where
  workerId : String
  agentType : Option String := none
  assignee : Option Assignee := none
  sort : List SortTerm := defaultSortTerms
  filter : List FilterClause := []
  workstream : Option String := none

namespace Store

/-- Every prerequisite that has a row is merged. -/
def depsMerged (s : Store) (row : Task) : Bool :=
  row.dependsOn.all fun dep => (s.tasks.find? dep).all (·.status = .merged)

/-- The trust ledger fences the identity out of the queue. -/
def identityQuarantined (s : Store) (identity : String) : Bool :=
  identity ≠ "" &&
    (s.identityTrust.find? identity).any fun t =>
      t.trustState = .revoked || t.trustState = .quarantined

end Store

namespace GrabArgs

/-- The WHERE clause of the grab. -/
def grabbable (a : GrabArgs) (s : Store) (row : Task) : Bool :=
  row.status = .upForGrabs &&
    a.assignee.all (fun x => row.assignee.all (· = x)) &&
    a.workstream.all (row.workstream.name = ·) &&
    a.filter.all (FilterClause.admits row) &&
    s.depsMerged row

/-- The row the grab picks, passing over the `locked` ones. -/
def pick (a : GrabArgs) (locked : List Uuid) (s : Store) : Option (Uuid × Task) :=
  ((s.tasks.select fun id row => a.grabbable s row && !locked.contains id).insertionSort
    (orderBy a.sort · ·)).head?

/-- The transition of the grab. -/
def claim (a : GrabArgs) : TransitionArgs where
  agentId := some a.workerId
  agentType := a.agentType
  expectedFrom := some [.upForGrabs]
  claimedBy := some (some a.workerId)
  setClaimedAt := true
  setHeartbeat := true

end GrabArgs

/-- Grab one grabbable task and move it to `claimed`. -/
def grabTask (a : GrabArgs) (locked : List Uuid) : Tx (Option (Uuid × Task)) := fun s =>
  if s.identityQuarantined a.workerId then .ok (none, s)
  else
    match a.pick locked s with
    | none => .ok (none, s)
    | some (id, _) => do
        let (task, s) ← transition id .claimed a.claim s
        return (task.map (id, ·), s)

/-- **What the pick is**: a grabbable row no one holds. -/
theorem GrabArgs.pick_eq_some {a : GrabArgs} {locked : List Uuid} {s : Store} {id : Uuid}
    {row : Task} (h : a.pick locked s = some (id, row)) :
    s.tasks.find? id = some row ∧ a.grabbable s row = true ∧ id ∉ locked := by
  have hmem := List.mem_of_mem_head? h
  rw [List.mem_insertionSort, Table.mem_select] at hmem
  simpa using hmem

theorem GrabArgs.status_of_grabbable {a : GrabArgs} {s : Store} {row : Task}
    (h : a.grabbable s row = true) : row.status = .upForGrabs := by
  simp only [grabbable, Bool.and_eq_true, decide_eq_true_eq] at h
  exact h.1.1.1.1

/-- The grab of a picked row is a legal move. -/
theorem GrabArgs.moves_of_pick {a : GrabArgs} {locked : List Uuid} {s : Store} {id : Uuid}
    {row : Task} (h : a.pick locked s = some (id, row)) : Moves s id .claimed a.claim row := by
  obtain ⟨hfind, hgrab, -⟩ := a.pick_eq_some h
  have hst := status_of_grabbable hgrab
  refine ⟨hfind, ?_, ?_, Or.inr ?_, rfl⟩ <;> rw [hst] <;> first | rfl | exact nofun

/-- **What a grab can do**: claim the picked row for the worker, or change nothing. -/
theorem grabTask_cases {a : GrabArgs} {locked : List Uuid} {s s' : Store}
    {r : Option (Uuid × Task)} (h : grabTask a locked s = .ok (r, s')) :
    (r = none ∧ s' = s) ∨
      ∃ id row, s.identityQuarantined a.workerId = false ∧
        a.pick locked s = some (id, row) ∧ Moves s id .claimed a.claim row ∧
        r = some (id, a.claim.update s.now .claimed row) ∧
        s' = s.recordTransition id row .claimed a.claim := by
  unfold grabTask at h
  split at h
  · simp only [Except.ok.injEq, Prod.mk.injEq] at h
    exact Or.inl ⟨h.1.symm, h.2.symm⟩
  · rename_i hq
    cases hp : a.pick locked s with
    | none =>
        simp only [hp, Except.ok.injEq, Prod.mk.injEq] at h
        exact Or.inl ⟨h.1.symm, h.2.symm⟩
    | some p =>
        obtain ⟨id, row⟩ := p
        have hm := GrabArgs.moves_of_pick hp
        simp only [hp, hm.transition_eq] at h
        obtain ⟨rfl, rfl⟩ := Prod.mk.inj (Except.ok.inj h)
        exact Or.inr ⟨id, row, by simpa using hq, rfl, hm, rfl, rfl⟩

/-- A grab raises nothing. -/
theorem grabTask_ne_error (a : GrabArgs) (locked : List Uuid) (s : Store) (e : Exn) :
    grabTask a locked s ≠ .error e := by
  unfold grabTask
  split
  · simp
  · cases hp : a.pick locked s with
    | none => simp
    | some p =>
        obtain ⟨id, row⟩ := p
        have hm := GrabArgs.moves_of_pick hp
        simp only [hm.transition_eq]
        exact nofun

end AiStudio.Runtime
