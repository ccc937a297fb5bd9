import AiStudio.Runtime.Store
import Mathlib.Data.List.Sort

/-!
# The approval store

Embeds `runtime/approvals.py`: requests, their resolution, and the one-shot grants.
`request_approval` reads before it inserts, and two of them can read before either
inserts, so the model keeps its two statements apart.
-/

set_option autoImplicit false

namespace AiStudio.Runtime

open AiStudio.Data

namespace Store

/-- Replace the row of an approval. -/
@[simps]
def setApproval (s : Store) (id : Uuid) (row : Approval) : Store :=
  { s with approvals := s.approvals.modify id fun _ => row }

/-- The open rows of a fingerprint, oldest first. -/
def openApprovals (s : Store) (fingerprint : String) : List (Uuid × Approval) :=
  (s.approvals.select fun _ a =>
    a.requestFingerprint = fingerprint && (a.status = .pending || a.status = .approved)).insertionSort
    (fun x y => x.2.createdAt ≤ y.2.createdAt)

end Store

/-- `resolved_at ASC NULLS LAST, created_at ASC`. -/
def resolvedBefore (x y : Uuid × Approval) : Bool :=
  match x.2.resolvedAt, y.2.resolvedAt with
  | none, none => x.2.createdAt ≤ y.2.createdAt
  | none, some _ => false
  | some _, none => true
  | some a, some b => a < b || (a = b && x.2.createdAt ≤ y.2.createdAt)

/-- The keyword arguments of `request_approval`, with the fingerprint computed. -/
structure RequestArgs where
  taskId : Option Uuid
  role : String
  tool : String
  capabilities : List String
  tier : String
  reason : String
  workstream : String := "productivity"
  fingerprint : String

/-- The first statement of `request_approval`: reuse an open row of the action. -/
def selectOpenApproval (fingerprint : String) : Tx (Option (Uuid × Approval)) := fun s =>
  .ok ((s.openApprovals fingerprint).head?, s)

/-- The row a request inserts. -/
def RequestArgs.row (a : RequestArgs) (now : Time) : Approval where
  taskId := a.taskId
  role := a.role
  tool := a.tool
  capabilities := a.capabilities
  tier := a.tier
  reason := a.reason
  requestFingerprint := a.fingerprint
  createdAt := now

/-- The second statement of `request_approval`: a fresh `pending` row and its event. -/
def insertApproval (id : Uuid) (a : RequestArgs) : Tx Approval := fun s =>
  match s.approvals.insert? id (a.row s.now) with
  | none => .error (.integrityError "approvals_pkey")
  | some approvals => do
      let workstream ← requireWorkstream a.workstream
      return (a.row s.now, { s with approvals := approvals }.appendEvent a.taskId workstream
        (.approvalRequested ((a.row s.now).notice id)))

/-- Resolve a pending approval; a conflict or a missing row changes nothing. -/
def resolveApproval (id : Uuid) (decision : ApprovalStatus) (resolver workstream : String) :
    Tx (Option Approval) := fun s =>
  if decision ≠ .approved ∧ decision ≠ .denied then
    .error (.valueError "decision must be 'approved' or 'denied'")
  else
    match (s.approvals.find? id).filter (·.status = .pending) with
    | none => .ok (none, s)
    | some row => do
        let row := { row with
          status := decision, resolvedAt := some s.now, resolver := some resolver }
        let workstream ← requireWorkstream workstream
        return (some row, (s.setApproval id row).appendEvent row.taskId workstream
          (.approvalResolved (row.notice id)))

/-- `get_approval`. -/
def getApproval (id : Uuid) : Tx (Option Approval) := fun s => .ok (s.approvals.find? id, s)

/-- The first approved grant of a fingerprint. -/
def findGrant (fingerprint : String) : Tx (Option (Uuid × Approval)) := fun s =>
  .ok (((s.approvals.select fun _ a =>
    a.requestFingerprint = fingerprint && a.status = .approved).insertionSort
      (resolvedBefore · ·)).head?, s)

/-- Mark an approved grant consumed; a second consumption matches nothing. -/
def consumeGrant (id : Uuid) : Tx (Option Approval) := fun s =>
  match (s.approvals.find? id).filter (·.status = .approved) with
  | none => .ok (none, s)
  | some row =>
      let row := { row with status := .consumed }
      .ok (some row, s.setApproval id row)

/-! ## What the operations can do -/

/-- **What the read of open rows finds.** -/
theorem selectOpenApproval_eq_some {fingerprint : String} {s s' : Store} {id : Uuid}
    {row : Approval} (h : selectOpenApproval fingerprint s = .ok (some (id, row), s')) :
    s.approvals.find? id = some row ∧ row.requestFingerprint = fingerprint ∧
      (row.status = .pending ∨ row.status = .approved) ∧ s' = s := by
  simp only [selectOpenApproval, Except.ok.injEq, Prod.mk.injEq] at h
  have hmem := List.mem_of_mem_head? h.1
  rw [Store.openApprovals, List.mem_insertionSort, Table.mem_select] at hmem
  simp only [Bool.and_eq_true, Bool.or_eq_true, decide_eq_true_eq] at hmem
  exact ⟨hmem.1, hmem.2.1, hmem.2.2, h.2.symm⟩

/-- A read that finds nothing: no row of the fingerprint is open. -/
theorem selectOpenApproval_eq_none {fingerprint : String} {s s' : Store}
    (h : selectOpenApproval fingerprint s = .ok (none, s')) {id : Uuid} {row : Approval}
    (hrow : s.approvals.find? id = some row) (hfp : row.requestFingerprint = fingerprint) :
    row.status ≠ .pending ∧ row.status ≠ .approved := by
  simp only [selectOpenApproval, Except.ok.injEq, Prod.mk.injEq, List.head?_eq_none_iff] at h
  have hnot : (id, row) ∉ s.openApprovals fingerprint := by
    rw [h.1]
    exact List.not_mem_nil
  rw [Store.openApprovals, List.mem_insertionSort, Table.mem_select] at hnot
  constructor
  · intro hpending
    exact hnot ⟨hrow, by simp [hfp, hpending]⟩
  · intro happroved
    exact hnot ⟨hrow, by simp [hfp, happroved]⟩

/-- **What an insertion does.** -/
theorem insertApproval_cases {id : Uuid} {a : RequestArgs} {s s' : Store} {row : Approval}
    (h : insertApproval id a s = .ok (row, s')) :
    ∃ approvals workstream, row = a.row s.now ∧
      s.approvals.insert? id row = some approvals ∧
      s' = { s with approvals := approvals }.appendEvent a.taskId workstream
        (.approvalRequested (row.notice id)) := by
  unfold insertApproval at h
  split at h
  · simp at h
  · rename_i approvals hins
    cases hw : requireWorkstream a.workstream with
    | error e => simp only [hw] at h; cases h
    | ok workstream =>
        simp only [hw] at h
        obtain ⟨rfl, rfl⟩ := Prod.mk.inj (Except.ok.inj h)
        exact ⟨approvals, workstream, rfl, hins, rfl⟩

/-- **What a resolution can do**: decide a pending row, or change nothing. -/
theorem resolveApproval_cases {id : Uuid} {decision : ApprovalStatus}
    {resolver workstream : String} {s s' : Store} {r : Option Approval}
    (h : resolveApproval id decision resolver workstream s = .ok (r, s')) :
    (r = none ∧ s' = s) ∨
      ∃ row row' ws, s.approvals.find? id = some row ∧ row.status = .pending ∧
        (decision = .approved ∨ decision = .denied) ∧
        row' = { row with
          status := decision, resolvedAt := some s.now, resolver := some resolver } ∧
        r = some row' ∧
        s' = (s.setApproval id row').appendEvent row'.taskId ws
          (.approvalResolved (row'.notice id)) := by
  unfold resolveApproval at h
  split at h
  · simp at h
  · rename_i hdec
    split at h
    · simp only [Except.ok.injEq, Prod.mk.injEq] at h
      exact Or.inl ⟨h.1.symm, h.2.symm⟩
    · rename_i row hrow
      rw [Option.filter_eq_some_iff] at hrow
      cases hw : requireWorkstream workstream with
      | error e => simp only [hw] at h; cases h
      | ok ws =>
          simp only [hw] at h
          obtain ⟨rfl, rfl⟩ := Prod.mk.inj (Except.ok.inj h)
          refine Or.inr ⟨row, _, ws, hrow.1, by simpa using hrow.2, ?_, rfl, rfl, rfl⟩
          by_contra hne
          exact hdec (not_or.1 hne)

/-- **What a grant lookup finds**: an approved row of the fingerprint. -/
theorem findGrant_eq_some {fingerprint : String} {s s' : Store} {id : Uuid} {row : Approval}
    (h : findGrant fingerprint s = .ok (some (id, row), s')) :
    s.approvals.find? id = some row ∧ row.requestFingerprint = fingerprint ∧
      row.status = .approved ∧ s' = s := by
  simp only [findGrant, Except.ok.injEq, Prod.mk.injEq] at h
  have hmem := List.mem_of_mem_head? h.1
  rw [List.mem_insertionSort, Table.mem_select] at hmem
  simp only [Bool.and_eq_true, decide_eq_true_eq] at hmem
  exact ⟨hmem.1, hmem.2.1, hmem.2.2, h.2.symm⟩

/-- **What a consumption can do**: spend an approved row, or change nothing. -/
theorem consumeGrant_cases {id : Uuid} {s s' : Store} {r : Option Approval}
    (h : consumeGrant id s = .ok (r, s')) :
    (r = none ∧ s' = s) ∨
      ∃ row, s.approvals.find? id = some row ∧ row.status = .approved ∧
        r = some { row with status := .consumed } ∧
        s' = s.setApproval id { row with status := .consumed } := by
  unfold consumeGrant at h
  split at h
  · simp only [Except.ok.injEq, Prod.mk.injEq] at h
    exact Or.inl ⟨h.1.symm, h.2.symm⟩
  · rename_i row hrow
    rw [Option.filter_eq_some_iff] at hrow
    obtain ⟨rfl, rfl⟩ := Prod.mk.inj (Except.ok.inj h)
    exact Or.inr ⟨row, hrow.1, by simpa using hrow.2, rfl, rfl⟩

end AiStudio.Runtime
