import AiStudio.Runtime.Transition

/-!
# The decision store

Embeds `runtime/decisions.py`. A request parks its dependent task and records the
question in one transaction, the park first; an answer or a withdrawal records the
outcome and re-queues the task in one transaction.
-/

set_option autoImplicit false

namespace AiStudio.Runtime

open AiStudio.Data

/-- The keyword arguments of `request_decision`; `now` defaults to the database's. -/
structure DecisionArgs where
  workstream : String
  question : String
  options : Option (List String) := none
  dependentTaskId : Option Uuid := none
  defaultChoice : Option String := none
  now : Option Time := none

/-- The transition that parks a task on a decision. -/
def parkArgs (decisionId : Uuid) : TransitionArgs where
  expectedFrom := some [.inProgress]
  result := some (some
    [("blocked_on_decision", .str decisionId.text), ("reason", .str "awaiting_decision")])

/-- The transition that re-queues a parked task: `requeue_blocked_task`, and the resume
of an answered or withdrawn decision. -/
def resumeArgs : TransitionArgs := { expectedFrom := some [.blocked], clearClaim := true }

/-- Park the dependent task of a request, when it names one. -/
def park (id : Uuid) (dependent : Option Uuid) : Tx Unit := fun s =>
  match dependent with
  | none => .ok ((), s)
  | some taskId => do
      let (parked, s) ← transition taskId .blocked (parkArgs id) s
      match parked with
      | none => .error (.decisionParkError ("cannot park task " ++ taskId.text ++
          " for a decision: it is not in_progress (likely re-kicked or already moved); " ++
          "no decision created"))
      | some _ => return ((), s)

/-- The row a request inserts. -/
def DecisionArgs.row (a : DecisionArgs) (workstream : Workstream) (seq : Nat) (now : Time) :
    Decision where
  workstream := workstream
  question := a.question
  options := a.options
  dependentTaskId := a.dependentTaskId
  defaultChoice := a.defaultChoice
  seq := seq
  createdAt := a.now.getD now

/-- Insert the open row of a request and emit `decision.requested`. -/
def recordDecision (id : Uuid) (a : DecisionArgs) (workstream : Workstream) : Tx Decision :=
  fun s =>
    let row := a.row workstream s.decisionSeq s.now
    match s.decisions.insert? id row with
    | none => .error (.integrityError "decisions_pkey")
    | some decisions =>
        let s := { s with decisions := decisions, decisionSeq := s.decisionSeq + 1 }
        .ok (row, s.appendEvent row.dependentTaskId workstream
          (.decisionRequested (row.notice id)))

/-- Raise an open decision; `id` is the fresh `uuid4()`. -/
def requestDecision (id : Uuid) (a : DecisionArgs) : Tx Decision := fun s => do
  let ((), s) ← park id a.dependentTaskId s
  let workstream ← requireWorkstream a.workstream
  recordDecision id a workstream s

/-- Re-queue the dependent task of a decision, when it has one. -/
def resume (dependent : Option Uuid) : Tx Unit := fun s =>
  match dependent with
  | none => .ok ((), s)
  | some taskId => do
      let (_, s) ← transition taskId .upForGrabs resumeArgs s
      return ((), s)

/-- Close an open decision by `f`, re-queue its task, and emit `decision.answered`. -/
def closeDecision (id : Uuid) (f : Time → Decision → Decision) : Tx (Option Decision) :=
  fun s => match (s.decisions.find? id).filter (·.status = .open) with
  | none => .ok (none, s)
  | some row => do
      let row := f s.now row
      let ((), s) ← resume row.dependentTaskId
        { s with decisions := s.decisions.modify id fun _ => row }
      return (some row, s.appendEvent row.dependentTaskId row.workstream
        (.decisionAnswered (row.notice id)))

/-- The row of an answered decision. -/
def Decision.answerWith (answer resolver : String) (at? : Option Time) (now : Time)
    (row : Decision) : Decision :=
  { row with
    status := .answered
    answer := some answer
    answeredBy := some resolver
    answeredAt := some (at?.getD now) }

/-- The row of a withdrawn decision. -/
def Decision.withdrawBy (resolver : String) (at? : Option Time) (now : Time) (row : Decision) :
    Decision :=
  { row with
    status := .withdrawn
    answeredBy := some resolver
    answeredAt := some (at?.getD now) }

/-- Answer an open decision and resume its parked task. -/
def answerDecision (id : Uuid) (answer resolver : String) (at? : Option Time) :
    Tx (Option Decision) :=
  closeDecision id (Decision.answerWith answer resolver at?)

/-- Withdraw an open decision and resume its parked task. -/
def withdrawDecision (id : Uuid) (resolver : String) (at? : Option Time) :
    Tx (Option Decision) :=
  closeDecision id (Decision.withdrawBy resolver at?)

/-- `get_decision`. -/
def getDecision (id : Uuid) : Tx (Option Decision) := fun s => .ok (s.decisions.find? id, s)

/-! ## What the operations can do -/

/-- **What a park does**: nothing without a task, else it moves the task to `blocked`. -/
theorem park_cases {id : Uuid} {dependent : Option Uuid} {s s' : Store}
    (h : park id dependent s = .ok ((), s')) :
    (dependent = none ∧ s' = s) ∨
      ∃ taskId row, dependent = some taskId ∧ Moves s taskId .blocked (parkArgs id) row ∧
        s' = s.recordTransition taskId row .blocked (parkArgs id) := by
  unfold park at h
  split at h
  · exact Or.inl ⟨rfl, (Prod.mk.inj (Except.ok.inj h)).2.symm⟩
  · rename_i taskId
    cases ht : transition taskId .blocked (parkArgs id) s with
    | error e => simp only [ht] at h; cases h
    | ok x =>
        obtain ⟨r, s₁⟩ := x
        simp only [ht] at h
        rcases transition_cases ht with ⟨rfl, -, -⟩ | ⟨row, hm, rfl, rfl⟩
        · cases h
        · exact Or.inr ⟨taskId, row, rfl, hm, (Prod.mk.inj (Except.ok.inj h)).2.symm⟩

theorem recordDecision_cases {id : Uuid} {a : DecisionArgs} {workstream : Workstream}
    {s s' : Store} {row : Decision} (h : recordDecision id a workstream s = .ok (row, s')) :
    ∃ decisions, row = a.row workstream s.decisionSeq s.now ∧
      s.decisions.insert? id row = some decisions ∧
      s' = { s with decisions := decisions, decisionSeq := s.decisionSeq + 1 }.appendEvent
        row.dependentTaskId workstream (.decisionRequested (row.notice id)) := by
  unfold recordDecision at h
  dsimp only at h
  split at h
  · cases h
  · rename_i decisions hins
    obtain ⟨rfl, rfl⟩ := Prod.mk.inj (Except.ok.inj h)
    exact ⟨decisions, rfl, hins, rfl⟩

/-- **What a request does**: the park, then the open row and its event. -/
theorem requestDecision_cases {id : Uuid} {a : DecisionArgs} {s s' : Store} {row : Decision}
    (h : requestDecision id a s = .ok (row, s')) :
    ∃ s₁ workstream, park id a.dependentTaskId s = .ok ((), s₁) ∧
      recordDecision id a workstream s₁ = .ok (row, s') := by
  unfold requestDecision at h
  cases hp : park id a.dependentTaskId s with
  | error e => simp only [hp] at h; cases h
  | ok x =>
      obtain ⟨⟨⟩, s₁⟩ := x
      cases hw : requireWorkstream a.workstream with
      | error e => simp only [hp, hw] at h; cases h
      | ok workstream =>
          simp only [hp, hw] at h
          exact ⟨s₁, workstream, rfl, h⟩

/-- **What a resume can do**: re-queue the blocked task, or change nothing. -/
theorem resume_cases {dependent : Option Uuid} {s s' : Store}
    (h : resume dependent s = .ok ((), s')) :
    (s' = s ∧ ∀ taskId row, dependent = some taskId →
        ¬ Moves s taskId .upForGrabs resumeArgs row) ∨
      ∃ taskId row, dependent = some taskId ∧ Moves s taskId .upForGrabs resumeArgs row ∧
        s' = s.recordTransition taskId row .upForGrabs resumeArgs := by
  unfold resume at h
  split at h
  · exact Or.inl ⟨(Prod.mk.inj (Except.ok.inj h)).2.symm, by simp⟩
  · rename_i taskId
    cases ht : transition taskId .upForGrabs resumeArgs s with
    | error e => simp only [ht] at h; cases h
    | ok x =>
        obtain ⟨r, s₁⟩ := x
        simp only [ht] at h
        obtain rfl : s₁ = s' := (Prod.mk.inj (Except.ok.inj h)).2
        rcases transition_cases ht with ⟨-, rfl, hno⟩ | ⟨row, hm, -, rfl⟩
        · refine Or.inl ⟨rfl, fun id row hid => ?_⟩
          obtain rfl := Option.some.inj hid
          exact hno row
        · exact Or.inr ⟨taskId, row, rfl, hm, rfl⟩

/-- **What closing a decision can do.** -/
theorem closeDecision_cases {id : Uuid} {f : Time → Decision → Decision} {s s' : Store}
    {r : Option Decision} (h : closeDecision id f s = .ok (r, s')) :
    (r = none ∧ s' = s ∧ ∀ row, s.decisions.find? id = some row → row.status ≠ .open) ∨
      ∃ row s₁, s.decisions.find? id = some row ∧ row.status = .open ∧ r = some (f s.now row) ∧
        resume (f s.now row).dependentTaskId
          { s with decisions := s.decisions.modify id fun _ => f s.now row } = .ok ((), s₁) ∧
        s' = s₁.appendEvent (f s.now row).dependentTaskId (f s.now row).workstream
          (.decisionAnswered ((f s.now row).notice id)) := by
  unfold closeDecision at h
  split at h
  · rename_i hnone
    obtain ⟨rfl, rfl⟩ := Prod.mk.inj (Except.ok.inj h)
    refine Or.inl ⟨rfl, rfl, fun row hrow => ?_⟩
    rw [hrow] at hnone
    simpa using hnone
  · rename_i row hrow
    rw [Option.filter_eq_some_iff] at hrow
    cases hr : resume (f s.now row).dependentTaskId
        { s with decisions := s.decisions.modify id fun _ => f s.now row } with
    | error e => simp only [hr] at h; cases h
    | ok x =>
        obtain ⟨⟨⟩, s₁⟩ := x
        simp only [hr] at h
        obtain ⟨rfl, rfl⟩ := Prod.mk.inj (Except.ok.inj h)
        exact Or.inr ⟨row, s₁, hrow.1, by simpa using hrow.2, rfl, hr, rfl⟩

end AiStudio.Runtime
