import AiStudio.Runtime.Effects
import AiStudio.Runtime.Enforce

/-!
# Requests for approval

`request_approval` looks for an open row of the action and inserts one if there is none. The
lock of the read covers the rows it finds and the table has no unique index, so nothing
keeps two requests from finding none. `requestsOnce_iff` says when a run keeps one open row
for each action: when no insertion finds another one there.
-/

set_option autoImplicit false

namespace AiStudio.Runtime

open AiStudio.Data AiStudio.Concurrency

/-- The row still stands for its action: a request that waits, or a grant that was not spent. -/
def Approval.isOpen (row : Approval) : Bool := row.status = .pending || row.status = .approved

/-- The payload announces the row. -/
def Payload.isRequestOf (id : Uuid) : Payload → Bool
  | .approvalRequested notice => notice.approvalId = id
  | _ => false

/-- The number of `approval.requested` events of a row. -/
def Store.requests (s : Store) (id : Uuid) : Nat := s.events.countP (·.payload.isRequestOf id)

/-- Every action has at most one open row, and every row one event. -/
structure RequestsOnce (s : Store) : Prop where
  unique : ∀ id₁ id₂ row₁ row₂, s.approvals.find? id₁ = some row₁ →
    s.approvals.find? id₂ = some row₂ → row₁.requestFingerprint = row₂.requestFingerprint →
    row₁.isOpen = true → row₂.isOpen = true → id₁ = id₂
  announced : ∀ id, s.requests id = if (s.approvals.find? id).isSome then 1 else 0

/-- The rows `request_approval` may reuse are the open rows of the fingerprint. -/
theorem Store.mem_openApprovals {s : Store} {fingerprint : String} {id : Uuid} {row : Approval} :
    (id, row) ∈ s.openApprovals fingerprint ↔ s.approvals.find? id = some row ∧
      row.requestFingerprint = fingerprint ∧ row.isOpen = true := by
  rw [openApprovals, List.mem_insertionSort, Table.mem_select, Bool.and_eq_true,
    decide_eq_true_eq]
  rfl

/-! ## One event for each row -/

/-- The call inserts the row. -/
def StoreOp.inserts (o : StoreOp) (id : Uuid) : Bool :=
  match o with
  | .insertApproval id' _ => id' = id
  | _ => false

/-- A call whose events are of another subsystem announces no row. -/
theorem Frame.requests {w : List Region} {s s' : Store} (h : Frame w s s')
    (hw : w.contains .approvals = false) (id : Uuid) : s'.requests id = s.requests id := by
  obtain ⟨es, hes, hregion⟩ := h.events
  have hnone : es.countP (·.payload.isRequestOf id) = 0 := by
    rw [List.countP_eq_zero]
    intro e he hreq
    have hin := hregion e he
    cases hp : e.payload with
    | approvalRequested notice =>
        rw [hp] at hin
        rw [show (w.contains Region.approvals) = true from hin] at hw
        cases hw
    | _ =>
        rw [hp] at hreq
        cases hreq
  rw [Store.requests, hes, List.countP_append, hnone, Nat.add_zero, Store.requests]

/-- **What a call adds to the events of a row.** -/
theorem exec_requests {o : StoreOp} {s s' : Store} {r : o.Res} (h : o.exec s = .ok (r, s'))
    (id : Uuid) : s'.requests id = s.requests id + if o.inserts id then 1 else 0 := by
  cases o with
  | insertApproval id' a =>
      obtain ⟨approvals, ws, rfl, -, rfl⟩ := insertApproval_cases h
      simp [Store.requests, List.countP_singleton, Payload.isRequestOf, Approval.notice,
        StoreOp.inserts]
  | resolveApproval id' decision resolver workstream =>
      rcases resolveApproval_cases h with ⟨-, rfl⟩ | ⟨row, row', ws, -, -, -, -, -, rfl⟩
      · rfl
      · simp [Store.requests, Payload.isRequestOf, StoreOp.inserts]
  | consumeGrant id' =>
      rcases consumeGrant_cases h with ⟨-, rfl⟩ | ⟨row, -, -, -, rfl⟩ <;> rfl
  | _ => exact (exec_frame h).requests rfl id

/-- An insertion makes a row that was not there. -/
theorem exec_inserts {o : StoreOp} {s s' : Store} {r : o.Res} (h : o.exec s = .ok (r, s'))
    {id : Uuid} (hins : o.inserts id = true) :
    s.approvals.find? id = none ∧ (s'.approvals.find? id).isSome := by
  cases o with
  | insertApproval id' a =>
      obtain rfl : id' = id := of_decide_eq_true hins
      obtain ⟨approvals, ws, rfl, hrow, rfl⟩ := insertApproval_cases h
      refine ⟨(Table.insert?_eq_some hrow).1, ?_⟩
      rw [Store.appendEvent_approvals, Table.find?_insert hrow, if_pos rfl]
      rfl
  | _ => cases hins

variable {P α : Type} [DecidableEq P]

/-- **Every row keeps exactly one event**, whatever else runs. -/
theorem announced_step {st : Step database P α} (hf : Fires st)
    (h : ∀ id, st.before.state.requests id =
      if (st.before.state.approvals.find? id).isSome then 1 else 0) (id : Uuid) :
    st.after.state.requests id =
      if (st.after.state.approvals.find? id).isSome then 1 else 0 := by
  rcases exec_or_abort hf with ⟨v, -, hexec⟩ | ⟨e, -, hs⟩
  · rw [exec_requests hexec id, h id]
    cases hins : st.op.inserts id with
    | true =>
        obtain ⟨hnone, hsome⟩ := exec_inserts hexec hins
        simp [hnone, hsome]
    | false =>
        cases exec_approvalEffect hexec id with
        | same row => simp [row]
        | requested a op fresh row => simp [op, StoreOp.inserts] at hins
        | resolved old decision resolver workstream op found pending verdict row =>
            simp [found, row]
        | consumed old op found approved row => simp [found, row]
  · rw [hs]
    exact h id

/-! ## One open row for each action -/

/-- An insertion finds no open row of its action. -/
def StoreOp.insertsAlone (o : StoreOp) (s : Store) : Bool :=
  match o with
  | .insertApproval _ a => (s.openApprovals a.fingerprint).isEmpty
  | _ => true

/-- The step inserts no row next to an open row of the same action. -/
abbrev InsertsAlone (st : Step database P α) : Prop :=
  st.out.isOk = true → st.op.insertsAlone st.before.state = true

/-- An open row was open before the step, or the step inserted it. -/
theorem open_before_or_inserted {st : Step database P α} (hf : Fires st) {id : Uuid}
    {row : Approval} (hrow : st.after.state.approvals.find? id = some row)
    (hopen : row.isOpen = true) :
    (∃ old, st.before.state.approvals.find? id = some old ∧
        old.requestFingerprint = row.requestFingerprint ∧ old.isOpen = true) ∨
      (st.out.isOk = true ∧ st.before.state.approvals.find? id = none ∧
        ∃ a, st.op = .insertApproval id a ∧ row.requestFingerprint = a.fingerprint) := by
  have hback : ∀ {row' : Approval}, st.after.state.approvals.find? id = some row' → row' = row :=
    fun hrow' => Option.some.inj (hrow'.symm.trans hrow)
  cases step_approvalEffect hf id with
  | same hsame =>
      rw [hsame] at hrow
      exact Or.inl ⟨row, hrow, rfl, hopen⟩
  | requested a op fresh hnew =>
      refine Or.inr ⟨?_, fresh, a, op, by rw [← hback hnew]; rfl⟩
      rcases exec_or_abort hf with ⟨v, hv, -⟩ | ⟨e, -, hs⟩
      · rw [hv]
        rfl
      · rw [hs, fresh] at hrow
        cases hrow
  | resolved old decision resolver workstream op found pending verdict hnew =>
      exact Or.inl ⟨old, found, by rw [← hback hnew], by simp [Approval.isOpen, pending]⟩
  | consumed old op found approved hnew =>
      rw [← hback hnew] at hopen
      cases hopen

/-- **When a step keeps one open row for each action**: when it inserts none next to another. -/
theorem requestsOnce_step {st : Step database P α} (hf : Fires st)
    (h : RequestsOnce st.before.state) : RequestsOnce st.after.state ↔ InsertsAlone st := by
  constructor
  · intro hafter hok
    obtain ⟨pid, op, out, before, after⟩ := st
    have hcommit := exec_or_abort hf
    dsimp only at hok hcommit hafter ⊢
    cases op with
    | insertApproval id a => ?_
    | _ => rfl
    change (before.state.openApprovals a.fingerprint).isEmpty = true
    rw [List.isEmpty_iff, List.eq_nil_iff_forall_not_mem]
    rintro ⟨id', row⟩ hmem
    obtain ⟨hrow, hfp, hopen⟩ := Store.mem_openApprovals.1 hmem
    rcases hcommit with ⟨v, -, hexec⟩ | ⟨e, rfl, -⟩
    · obtain ⟨approvals, ws, rfl, hins, hs⟩ := insertApproval_cases hexec
      have hfresh := (Table.insert?_eq_some hins).1
      have hne : id' ≠ id := by
        rintro rfl
        rw [hfresh] at hrow
        cases hrow
      have hfind : ∀ id₁, after.state.approvals.find? id₁ =
          if id₁ = id then some (a.row before.state.now) else before.state.approvals.find? id₁ := by
        intro id₁
        rw [hs]
        exact Table.find?_insert hins id₁
      refine hne (hafter.unique id' id row (a.row before.state.now) ?_ ?_ hfp hopen rfl)
      · rw [hfind, if_neg hne, hrow]
      · rw [hfind, if_pos rfl]
    · cases hok
  · intro halone
    refine ⟨?_, announced_step hf h.announced⟩
    intro id₁ id₂ row₁ row₂ hrow₁ hrow₂ hfp hopen₁ hopen₂
    -- no open row stands next to an inserted one
    have hno : ∀ {id id' : Uuid} {a : RequestArgs} {old : Approval}, st.out.isOk = true →
        st.op = .insertApproval id a → st.before.state.approvals.find? id' = some old →
        old.requestFingerprint = a.fingerprint → old.isOpen = true → False := by
      intro id id' a old hok hop hold hofp holdopen
      have hmem := Store.mem_openApprovals.2 ⟨hold, hofp, holdopen⟩
      have hempty := halone hok
      rw [hop] at hempty
      rw [List.isEmpty_iff.1 hempty] at hmem
      cases hmem
    rcases open_before_or_inserted hf hrow₁ hopen₁ with
      ⟨old₁, hold₁, hfp₁, hopen₁⟩ | ⟨hok, -, a, hop, hfp₁⟩
    · rcases open_before_or_inserted hf hrow₂ hopen₂ with
        ⟨old₂, hold₂, hfp₂, hopen₂⟩ | ⟨hok, -, a, hop, hfp₂⟩
      · exact h.unique id₁ id₂ old₁ old₂ hold₁ hold₂ (by rw [hfp₁, hfp₂, hfp]) hopen₁ hopen₂
      · exact (hno hok hop hold₁ (by rw [hfp₁, hfp, hfp₂]) hopen₁).elim
    · rcases open_before_or_inserted hf hrow₂ hopen₂ with
        ⟨old₂, hold₂, hfp₂, hopen₂⟩ | ⟨-, -, a', hop', -⟩
      · exact (hno hok hop hold₂ (by rw [hfp₂, ← hfp, hfp₁]) hopen₂).elim
      · rw [hop] at hop'
        exact (StoreOp.insertApproval.inj hop').1

/-- The row ids two requests draw. -/
def requestIds : Bool → Uuid
  | true => ⟨"0c8f1f5e-2f0b-4a39-9a70-3f4f0c1d2e11", by decide⟩
  | false => ⟨"0c8f1f5e-2f0b-4a39-9a70-3f4f0c1d2e12", by decide⟩

/-- The request of both. -/
def sameRequest : RequestArgs where
  taskId := none
  role := "builder"
  tool := "shell"
  capabilities := ["fs.delete"]
  tier := "🔴"
  reason := ""
  fingerprint := "f"

/-- Two requests for one action on a database without rows. -/
def twoRequests : Config database Bool (Uuid × Approval) :=
  ⟨Store.initial 0, fun p => requestApproval (requestIds p) sameRequest⟩

theorem requestsOnce_initial (now : Time) : RequestsOnce (Store.initial now) :=
  ⟨fun _ _ _ _ h => (nomatch h), fun _ => rfl⟩

end AiStudio.Runtime
