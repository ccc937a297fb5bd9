import AiStudio.Concurrency.Triple
import AiStudio.Runtime.Rows
import AiStudio.Runtime.Staff

/-!
# Every handler lets its task go

A pass of `run_once` that returns leaves the task it works on terminal or parked, and whatever it
enqueues on the way is of lower rank (`Worker.rested_handle`). Two handlers are exceptions: the
intake that asks for clarification, and the work loop that is given no attempt.
-/

set_option autoImplicit false

namespace AiStudio.Runtime

open AiStudio.Data AiStudio.Concurrency AiStudio.Concurrency.Program

/-! ## What a pass does to the queue -/

/-- The status and the type of a task. -/
def Store.kind? (s : Store) (t : Uuid) : Option (TaskStatus × String) :=
  (s.tasks.find? t).map fun row => (row.status, row.type)

/-- A pass on the task `id` has come from `s₀` to `s`: its task is in the status `st`, and every
other task is as it was, or new, up for grabs and of lower rank. -/
structure Stage (s₀ : Store) (id : Uuid) (type : String) (st : TaskStatus) (s : Store) : Prop where
  own : s.kind? id = some (st, type)
  others : ∀ t, t ≠ id → s.kind? t = s₀.kind? t ∨
    s₀.kind? t = none ∧ ∃ type', s.kind? t = some (.upForGrabs, type') ∧ rank type' < rank type

section Stage

variable {s₀ : Store} {id : Uuid} {type : String} {st : TaskStatus}

/-- A call that moves no task keeps status and type. -/
theorem Rewrites.kind_of_spares {o : StoreOp} {s : Store} {t : Uuid} {row row' : Task}
    (h : Rewrites o s t row row') (hspares : o.sparesQueue = true) :
    row'.status = row.status ∧ row'.type = row.type := by
  cases h with
  | moved m hid makes admits plain =>
      cases o <;> first | exact makes.elim | cases hspares
  | rekicked made op held => subst op; cases hspares
  | escalated reason count retries op held => subst op; cases hspares
  | failed scanned maxRetries op held => subst op; cases hspares
  | _ => exact ⟨rfl, rfl⟩

/-- A call that follows up, seen from one task. -/
theorem kind?_of_followsUp {n : Nat} {o : StoreOp} {s s' : Store} {r : o.Res} (ho : o.FollowsUp n)
    (hexec : o.exec s = .ok (r, s')) (t : Uuid) :
    s'.kind? t = s.kind? t ∨
      s.kind? t = none ∧ ∃ type', s'.kind? t = some (.upForGrabs, type') ∧ rank type' < n := by
  cases exec_rowEffect hexec t with
  | same hrow =>
      refine Or.inl ?_
      rw [Store.kind?, hrow]
      rfl
  | created a ws op fresh hrow =>
      subst op
      refine Or.inr ⟨?_, a.type, ?_, ho⟩
      · rw [Store.kind?, fresh]
        rfl
      · rw [Store.kind?, hrow]
        rfl
  | wrote row row' found rewrites hrow =>
      obtain ⟨hstatus, htype⟩ := rewrites.kind_of_spares ho.spares
      refine Or.inl ?_
      rw [Store.kind?, Store.kind?, hrow, found, Option.map_some, Option.map_some, hstatus, htype]

/-- **A part of a role keeps the stage.** -/
theorem stage_only {α : Type} {n : Nat} {p : Process α} (hp : p.Only (StoreOp.FollowsUp n))
    (hn : n ≤ rank type) :
    Triple (Stage s₀ id type st) p fun _ => Stage s₀ id type st := by
  refine triple_only hp (fun o s r s' ho hstage hexec => ?_) fun _ _ _ hstage => hstage
  have hsome : ∀ t, (s.kind? t).isSome = true → s'.kind? t = s.kind? t := by
    intro t ht
    rcases kind?_of_followsUp ho hexec t with hsame | ⟨hnone, -⟩
    · exact hsame
    · rw [hnone] at ht
      cases ht
  refine ⟨(hsome id (by rw [hstage.own]; rfl)).trans hstage.own, fun t ht => ?_⟩
  rcases hstage.others t ht with hold | ⟨hnew, type', hkind, hrank⟩
  · rcases kind?_of_followsUp ho hexec t with hsame | ⟨hnone, type', hkind, hrank⟩
    · exact Or.inl (hsame.trans hold)
    · exact Or.inr ⟨hold.symm.trans hnone, type', hkind, Nat.lt_of_lt_of_le hrank hn⟩
  · exact Or.inr ⟨hnew, type', (hsome t (by rw [hkind]; rfl)).trans hkind, hrank⟩

/-- Part of a role that enqueues nothing. -/
theorem stage_inner {α : Type} {p : Process α} (hp : p.Only fun o : StoreOp => o.isInner = true) :
    Triple (Stage s₀ id type st) p fun _ => Stage s₀ id type st :=
  stage_only (n := 0) (hp.mono fun _ => Staff.inner_followsUp) (Nat.zero_le _)

/-- A row that a stage has for its task. -/
theorem Stage.row {s : Store} (h : Stage s₀ id type st s) :
    ∃ row, s.tasks.find? id = some row ∧ row.status = st ∧ row.type = type := by
  have hown := h.own
  rw [Store.kind?, Option.map_eq_some_iff] at hown
  obtain ⟨row, hrow, hkind⟩ := hown
  exact ⟨row, hrow, congrArg Prod.fst hkind, congrArg Prod.snd hkind⟩

/-- **A move that the guards accept.** -/
theorem stage_transition (target : TaskStatus) {a : TransitionArgs}
    (haccepts : a.accepts target st = true) :
    Triple (Stage s₀ id type st) (call (.transition id target a)) fun r s =>
      r.isSome = true ∧ Stage s₀ id type target s := by
  refine triple_op fun s r s' hstage hexec => ?_
  obtain ⟨row, hrow, hst, htype⟩ := hstage.row
  have hmoves : Moves s id target a row := by
    rw [moves_iff_accepts hexec hrow, hst]
    exact haccepts
  rcases transition_cases hexec with ⟨-, -, hno⟩ | ⟨row₁, hm, rfl, rfl⟩
  · exact absurd hmoves (hno row)
  · obtain rfl : row = row₁ := Option.some.inj (hrow.symm.trans hm.found)
    refine ⟨rfl, ?_, fun t ht => ?_⟩
    · rw [Store.kind?, s.find?_recordTransition_self id row target a hrow]
      exact congrArg (fun type => some (target, type)) htype
    · rw [Store.kind?, s.find?_recordTransition_ne id row target a ht]
      exact hstage.others t ht

/-- A move that the guards refuse. -/
theorem stage_refused {target : TaskStatus} {a : TransitionArgs}
    (haccepts : a.accepts target st = false) :
    Triple (Stage s₀ id type st) (call (.transition id target a)) fun _ =>
      Stage s₀ id type st := by
  refine triple_op fun s r s' hstage hexec => ?_
  obtain ⟨row, hrow, hst, -⟩ := hstage.row
  rcases transition_cases hexec with ⟨-, rfl, -⟩ | ⟨row₁, hm, rfl, rfl⟩
  · exact hstage
  · obtain rfl : row = row₁ := Option.some.inj (hrow.symm.trans hm.found)
    have hacc := hm.accepts
    rw [hst, haccepts] at hacc
    cases hacc

/-- Finishing a task in progress. -/
theorem stage_completeTask {a : CompleteArgs} (hterminal : a.status.isTerminal = true)
    (hexpected : a.expectedFrom = some [.inProgress]) (hforce : a.force = false) :
    Triple (Stage s₀ id type .inProgress) (completeTask id a) fun _ =>
      Stage s₀ id type a.status := by
  obtain ⟨result, status, spentTokens, expectedFrom, force⟩ := a
  obtain rfl : expectedFrom = some [.inProgress] := hexpected
  obtain rfl : force = false := hforce
  rcases (isTerminal_iff status).1 hterminal with rfl | rfl
  · refine triple_bind (stage_transition .readyForReview rfl) fun submitted => ?_
    refine triple_pure fun hsome => ?_
    obtain ⟨row, rfl⟩ := Option.isSome_iff_exists.1 hsome
    refine triple_bind (stage_transition .approved rfl) fun approved => ?_
    refine triple_pure fun hsome => ?_
    obtain ⟨row, rfl⟩ := Option.isSome_iff_exists.1 hsome
    exact triple_weaken (fun _ h => h) (fun _ _ h => h.2) (stage_transition .merged rfl)
  · exact triple_weaken (fun _ h => h) (fun _ _ h => h.2)
      (stage_transition .abandoned rfl)

end Stage

/-! ## Every handler lets its task go -/

/-- The task is terminal or parked, or it stalls with its worker. -/
def AtRest (stalls : Prop) (st : TaskStatus) : Prop :=
  st.isTerminal = true ∨ st = .blocked ∨ stalls ∧ st = .inProgress

/-- The task is at rest. -/
def Rested (stalls : Prop) (s₀ : Store) (id : Uuid) (type : String) (s : Store) : Prop :=
  ∃ st, AtRest stalls st ∧ Stage s₀ id type st s

section Inner

theorem emitEvent_inner (workstream : String) (taskId : Option Uuid) (payload : SinkPayload) :
    (emitEvent workstream taskId payload).Only fun o : StoreOp => o.isInner = true := by
  unfold emitEvent
  cases requireWorkstream workstream with
  | error e => exact .throw e
  | ok ws => exact .op rfl

theorem requestApproval_inner (newId : Uuid) (a : RequestArgs) :
    (requestApproval newId a).Only fun o : StoreOp => o.isInner = true := by
  refine .bind (.op rfl) fun existing => ?_
  cases existing with
  | some row => exact .ret _
  | none => exact .bind (.op rfl) fun _ => .ret _

theorem execute_inner (a : InvokeArgs) (tool : Tool) (decision : Policy.Decision)
    (fingerprint : String) (approvalId : Option Uuid) :
    (a.execute tool decision fingerprint approvalId).Only fun o : StoreOp => o.isInner = true := by
  refine .bind (emitEvent_inner _ _ _) fun _ => .bind (.op rfl) fun _ => ?_
  unfold InvokeArgs.report
  cases tool.execute a.kwargs with
  | error e => exact .throw e
  | ok result => exact .ret _

theorem invoke_inner (a : InvokeArgs) (sha256 : String → String) (registry : ToolRegistry)
    (config : Policy.PolicyConfig) (newId : Uuid) :
    (a.invoke sha256 registry config newId).Only fun o : StoreOp => o.isInner = true := by
  have hpend : ∀ required decision, (a.pend sha256 required decision newId).Only
      fun o : StoreOp => o.isInner = true :=
    fun _ _ => .bind (requestApproval_inner _ _) fun _ => .ret _
  unfold InvokeArgs.invoke
  cases registry a.toolName with
  | none => exact .bind (emitEvent_inner _ _ _) fun _ => .ret _
  | some tool =>
      refine .bind (emitEvent_inner _ _ _) fun _ => ?_
      unfold InvokeArgs.act
      cases (Policy.decide (a.request (tool.capabilitiesFor a.kwargs)) config).effect with
      | deny => exact .ret _
      | allow => exact execute_inner _ _ _ _ _
      | needsApproval =>
          refine .ite (fun _ => ?_) fun _ => .bind (emitEvent_inner _ _ _) fun _ => .ret _
          refine .bind (.op rfl) fun grant => ?_
          rcases grant with _ | ⟨grantId, row⟩
          · exact hpend _ _
          · refine .bind (.op rfl) fun consumed => ?_
            cases consumed with
            | none => exact hpend _ _
            | some row => exact execute_inner _ _ _ _ _

end Inner

namespace Worker

/-- What the seams of a worker enqueue is of lower rank than the task they work on. -/
structure FollowsUp (w : Worker) : Prop where
  complete : ∀ id row, (w.complete.program id row).Only fun o : StoreOp => o.isInner = true
  verify : ∀ exec id row, ((w.verify exec).program id row).Only fun o : StoreOp => o.isInner = true
  resolveIntensity : ∀ review retro id row,
    ((w.resolveIntensity review retro).program id row).Only fun o : StoreOp => o.isInner = true
  prep : ∀ id row, (w.prep.program id row).Only fun o : StoreOp => o.isInner = true
  commit : ∀ role id row,
    ((w.commit role).program id row).Only (StoreOp.FollowsUp (Handler.commit role).rank)
  replan : ∀ stuckId id row, ((w.replan stuckId).program id row).Only (StoreOp.FollowsUp 3)
  obtainPlan : ∀ id row, (w.obtainPlan.program id row).Only (StoreOp.FollowsUp 3)
  decompose : ∀ plan id row, ((w.decompose plan).program id row).Only (StoreOp.FollowsUp 3)
  triage : ∀ id row, (w.triage.decompose.program id row).Only (StoreOp.FollowsUp 3)

variable {w : Worker} {s₀ : Store} {id : Uuid} {type : String} {row : Task} {stalls : Prop}

theorem beat_inner (w : Worker) (id : Uuid) : (w.beat id).Only fun o : StoreOp => o.isInner = true :=
  .bind (.op rfl) fun _ => .ret _

/-- The end of a handler that finishes its task. -/
theorem rested_complete {α : Type} {a : CompleteArgs} {result : α}
    (hterminal : a.status.isTerminal = true) (hexpected : a.expectedFrom = some [.inProgress])
    (hforce : a.force = false) :
    Triple (Stage s₀ id type .inProgress) ((completeTask id a).bind fun _ => .ret result) fun _ =>
      Rested stalls s₀ id type :=
  triple_bind (stage_completeTask hterminal hexpected hforce) fun _ =>
    triple_ret fun _ h => ⟨a.status, Or.inl hterminal, h⟩

/-- The end of a handler that parks its task. -/
theorem rested_block {α : Type} {result : α} {reason : String} (approvalId : Uuid) :
    Triple (Stage s₀ id type .inProgress) ((blockTask id approvalId reason).bind fun _ => .ret result)
      fun _ => Rested stalls s₀ id type :=
  triple_bind (stage_transition .blocked rfl) fun _ =>
    triple_ret fun _ h => ⟨.blocked, Or.inr (Or.inl rfl), h.2⟩

/-! ### Work -/

theorem stage_enqueueReview (hrank : 2 ≤ rank type) {st : TaskStatus} (row : Task)
    (outcome : RunOutcome) (exec : ExecutorResult) (mode : ReviewMode) :
    Triple (Stage s₀ id type st) (w.maybeEnqueueReview id row outcome exec mode) fun _ =>
      Stage s₀ id type st := by
  refine stage_only (n := 2) (.ite (fun _ => .ret _) fun _ => .bind (.op ?_) fun _ => .op rfl) hrank
  show rank "review" < 2
  decide

theorem stage_enqueueRetro (hrank : 2 ≤ rank type) {st : TaskStatus} (row : Task)
    (outcome : RunOutcome) (detail : String) (mode : RetroMode) :
    Triple (Stage s₀ id type st) (w.maybeEnqueueRetro id row outcome detail mode) fun _ =>
      Stage s₀ id type st := by
  refine stage_only (n := 2) (.ite (fun _ => .ret _) fun _ => .bind (.op ?_) fun _ => .op rfl) hrank
  show rank "retro" < 2
  decide

theorem rested_passed (hrank : 2 ≤ rank type) (row : Task) (exec : ExecutorResult)
    (verdict : Verdict) (review : ReviewMode) (retro : RetroMode) :
    Triple (Stage s₀ id type .readyForReview) (w.passed id row exec verdict review retro) fun _ =>
      Rested stalls s₀ id type := by
  refine triple_bind (stage_transition .approved rfl) fun _ => triple_pure fun _ => ?_
  refine triple_bind (stage_transition .merged rfl) fun _ => triple_pure fun _ => ?_
  refine triple_bind (stage_enqueueRetro hrank _ _ _ _) fun _ => ?_
  refine triple_bind (stage_enqueueReview hrank _ _ _ _) fun _ => ?_
  exact triple_ret fun _ h => ⟨.merged, Or.inl rfl, h⟩

theorem rested_exhausted (hrank : 2 ≤ rank type) (row : Task) (exec : ExecutorResult)
    (verdict : Verdict) (attempt : Nat) (review : ReviewMode) (retro : RetroMode) :
    Triple (Stage s₀ id type .reviewerBlocked) (w.exhausted id row exec verdict attempt review retro)
      fun _ => Rested stalls s₀ id type := by
  refine triple_bind (stage_transition .abandoned rfl) fun _ => triple_pure fun _ => ?_
  refine triple_bind (stage_enqueueRetro hrank _ _ _ _) fun _ => ?_
  refine triple_bind (stage_enqueueReview hrank _ _ _ _) fun _ => ?_
  exact triple_ret fun _ h => ⟨.abandoned, Or.inl rfl, h⟩

/-- Parking a task on the approval its tool call waits for, if it has one. -/
theorem rested_blockOn {α : Type} {result : α} (approvalId : Option Uuid) :
    Triple (Stage s₀ id type .inProgress) ((block id approvalId).bind fun _ => .ret result) fun _ =>
      Rested stalls s₀ id type := by
  cases approvalId with
  | some approvalId => exact rested_block approvalId
  | none =>
      exact triple_bind (stage_transition .blocked rfl) fun _ =>
        triple_ret fun _ h => ⟨.blocked, Or.inr (Or.inl rfl), h.2⟩

variable (hw : w.FollowsUp)

include hw

theorem executor_inner (newId : Uuid) :
    (w.executor.run newId id row).Only fun o : StoreOp => o.isInner = true := by
  refine .bind (hw.complete id row) fun text => .bind (invoke_inner _ _ _ _ _) fun result => ?_
  cases (Executor.marker id row).asStr? with
  | none => exact .throw _
  | some marker => exact .bind (.op rfl) fun _ => .ret _

/-- **The work loop**, by induction on the attempts that are left. -/
theorem rested_attempts (hrank : 2 ≤ rank type) (review : ReviewMode) (retro : RetroMode)
    (attempt left : Nat) (hleft : left = 0 → stalls) :
    Triple (Stage s₀ id type .inProgress) (w.attempts id row review retro attempt left) fun _ =>
      Rested stalls s₀ id type := by
  induction left generalizing attempt with
  | zero => exact triple_ret fun _ h => ⟨.inProgress, Or.inr (Or.inr ⟨hleft rfl, rfl⟩), h⟩
  | succ left ih =>
      unfold attempts
      refine triple_bind (stage_inner (w.beat_inner id)) fun _ => ?_
      refine triple_bind (stage_inner (executor_inner hw _)) fun exec => ?_
      refine triple_ite (fun _ => rested_blockOn _) fun _ => ?_
      refine triple_bind (stage_inner (w.beat_inner id)) fun _ => ?_
      refine triple_bind (stage_transition .readyForReview rfl) fun _ =>
        triple_pure fun _ => ?_
      refine triple_bind (stage_inner (hw.verify exec id row)) fun verdict => ?_
      refine triple_bind (stage_inner (w.beat_inner id)) fun _ => ?_
      refine triple_ite (fun _ => ?_) fun _ => ?_
      · exact triple_bind (rested_passed hrank _ _ _ _ _) fun _ => triple_ret fun _ h => h
      · refine triple_bind (stage_transition .reviewerBlocked rfl) fun _ =>
          triple_pure fun _ => ?_
        cases left with
        | zero => exact triple_bind (rested_exhausted hrank _ _ _ _ _ _) fun _ => triple_ret fun _ h => h
        | succ left =>
            refine triple_bind (stage_transition .inProgress rfl) fun _ =>
              triple_pure fun _ => ?_
            refine triple_bind (stage_inner (.op rfl)) fun _ => ?_
            exact ih (attempt + 1) fun h => by cases h

theorem rested_handleWork (hrank : 2 ≤ rank type) (hstalls : w.maxAttempts = 0 → stalls) :
    Triple (Stage s₀ id type .inProgress) (w.handleWork id row) fun _ =>
      Rested stalls s₀ id type :=
  triple_bind (stage_inner (hw.resolveIntensity _ _ id row)) fun _ =>
    rested_attempts hw hrank _ _ _ _ hstalls

omit hw in
theorem rested_finishCode (row : Task) (result : Option ToolResult) :
    Triple (Stage s₀ id type .inProgress) (finishCode id row result) fun _ =>
      Rested stalls s₀ id type := by
  unfold finishCode
  dsimp only
  cases codeDoc (result.any (·.ok)) result with
  | none => exact triple_throw _
  | some doc =>
      refine rested_complete ?_ rfl rfl
      cases result.any (·.ok) <;> rfl

omit hw in
theorem rested_handleCode (row : Task) :
    Triple (Stage s₀ id type .inProgress) (w.handleCode id row) fun _ =>
      Rested stalls s₀ id type := by
  refine triple_bind (stage_inner (w.beat_inner id)) fun _ => ?_
  refine triple_bind (stage_inner (invoke_inner _ _ _ _ _)) fun result => ?_
  refine triple_bind (stage_inner (w.beat_inner id)) fun _ => ?_
  cases result.status with
  | pending => exact rested_blockOn _
  | denied => exact rested_complete rfl rfl rfl
  | executed => exact rested_finishCode _ _

theorem rested_handleCommit (role : CommitRole) (hrank : (Handler.commit role).rank ≤ rank type) :
    Triple (Stage s₀ id type .inProgress) (w.handleCommit role id row) fun _ =>
      Rested stalls s₀ id type := by
  refine triple_bind (stage_inner (w.beat_inner id)) fun _ => ?_
  refine triple_bind (stage_only (hw.commit role id row) hrank) fun doc => ?_
  refine triple_bind (stage_inner (w.beat_inner id)) fun _ => ?_
  exact rested_complete rfl rfl rfl

theorem rested_handleSpokesmanPrep :
    Triple (Stage s₀ id type .inProgress) (w.handleSpokesmanPrep id row) fun _ =>
      Rested stalls s₀ id type := by
  refine triple_bind (stage_inner (w.beat_inner id)) fun _ => ?_
  refine triple_bind (stage_inner (hw.prep id row)) fun doc => ?_
  exact rested_complete rfl rfl rfl

theorem rested_handleReplan (hrank : 3 ≤ rank type) :
    Triple (Stage s₀ id type .inProgress) (w.handleReplan id row) fun _ =>
      Rested stalls s₀ id type := by
  refine triple_bind (stage_inner (w.beat_inner id)) fun _ => ?_
  cases (Doc.getStr? row.payload "stuck_task_id").map parseUuid with
  | none => exact rested_complete rfl rfl rfl
  | some parsed =>
      cases parsed with
      | error e => exact rested_complete rfl rfl rfl
      | ok stuckId =>
          refine triple_bind (stage_only (hw.replan stuckId id row) hrank) fun doc => ?_
          refine triple_bind (stage_inner (w.beat_inner id)) fun _ => ?_
          exact rested_complete rfl rfl rfl

/-- A tick of the PM moves no task. -/
theorem runTick_followsUp (newId : Uuid) :
    (w.pm.runTick newId id row).Only (StoreOp.FollowsUp 3) := by
  have hgate : ∀ plan, (w.pm.gate plan newId id row).Only (StoreOp.FollowsUp 3) := by
    intro plan
    refine .ite (fun _ => ?_) fun _ => .ite (fun _ => ?_) fun _ => ?_
    · refine .bind (.op rfl) fun _ => .bind (Staff.requestApproval_followsUp _ _ _) fun _ => .ret _
    · exact .bind (.op rfl) fun _ => .ret _
    · exact .bind (hw.decompose plan id row) fun _ => .ret _
  refine .bind (hw.obtainPlan id row) fun plan => .bind (.op rfl) fun grant => ?_
  cases grant with
  | none => exact hgate plan
  | some found =>
      cases parseUuid (w.pm.pushbackFingerprint id row) with
      | error e => exact .throw e
      | ok grantId => exact .bind (.op rfl) fun _ => hgate _

theorem rested_handlePmTick (hrank : 3 ≤ rank type) :
    Triple (Stage s₀ id type .inProgress) (w.handlePmTick id row) fun _ =>
      Rested stalls s₀ id type := by
  refine triple_bind (stage_only (runTick_followsUp hw _) hrank) fun plan => ?_
  refine triple_bind (stage_inner (w.beat_inner id)) fun _ => ?_
  cases (if plan.decision = "pushback" then plan.approvalId else none).map parseUuid with
  | none => exact rested_complete rfl rfl rfl
  | some parsed =>
      cases parsed with
      | error e => exact rested_complete rfl rfl rfl
      | ok approvalId => exact rested_block approvalId

omit hw in
theorem record_inner (fromWs : String) (id : Uuid) (row : Task) (status : String)
    (decision : Option String) (reason : String) (workTaskIds : Option (List String))
    (approvalId : Option String) :
    (Triage.record fromWs id row status decision reason workTaskIds approvalId).Only
      fun o : StoreOp => o.isInner = true :=
  .bind (.op rfl) fun _ => .op rfl

/-- The intake, when the lens does not ask for clarification. -/
theorem rested_settle (hrank : 3 ≤ rank type) (fromWs : String) (decision : TriageDecision)
    (hclear : decision.verdict ≠ .clarify) (newId : Uuid) :
    Triple (Stage s₀ id type .inProgress) (w.triage.settle fromWs decision newId id row) fun _ =>
      Rested stalls s₀ id type := by
  obtain ⟨verdict, reason⟩ := decision
  cases verdict with
  | accept =>
      refine triple_bind (stage_only (hw.triage id row) hrank) fun ids => ?_
      refine triple_bind (stage_inner (record_inner _ _ _ _ _ _ _ _)) fun _ => ?_
      exact rested_complete rfl rfl rfl
  | decline =>
      refine triple_bind (stage_inner (record_inner _ _ _ _ _ _ _ _)) fun _ => ?_
      exact rested_complete rfl rfl rfl
  | clarify => exact absurd rfl hclear
  | escalate =>
      refine triple_bind (stage_inner (requestApproval_inner _ _)) fun r => ?_
      refine triple_bind (stage_inner (record_inner _ _ _ _ _ _ _ _)) fun _ => ?_
      exact rested_block r.1

theorem rested_handleFeatureRequest (hrank : 3 ≤ rank type)
    (hclear : ∀ decision, w.triage.evaluate row = .ok decision → decision.verdict ≠ .clarify) :
    Triple (Stage s₀ id type .inProgress) (w.handleFeatureRequest id row) fun _ =>
      Rested stalls s₀ id type := by
  refine triple_bind (stage_inner (w.beat_inner id)) fun _ => ?_
  refine triple_bind (Q := fun _ => Rested stalls s₀ id type) ?_ fun _ =>
    triple_ret fun _ h => h
  unfold Triage.run
  cases w.triage.fromWorkstream row with
  | error e => exact triple_throw e
  | ok fromWs =>
      refine triple_bind (Q := fun _ => Stage s₀ id type .inProgress) ?_ fun _ => ?_
      · refine triple_bind (stage_refused (by rfl)) fun _ => ?_
        exact triple_bind (stage_refused (by rfl)) fun _ => triple_ret fun _ h => h
      · refine triple_bind (stage_inner (record_inner _ _ _ _ _ _ _ _)) fun _ => ?_
        cases heval : w.triage.evaluate row with
        | error e => exact triple_throw e
        | ok decision => exact rested_settle hw hrank fromWs decision (hclear decision heval) _

/-- **Every handler lets its task go**, the intake unless it asks for clarification. -/
theorem rested_handle {handler : Handler} (hresolve : resolveHandler type = some handler)
    (hclear : handler = .featureRequest → ∀ decision, w.triage.evaluate row = .ok decision →
      decision.verdict ≠ .clarify)
    (hstalls : handler = .work → w.maxAttempts = 0 → stalls) :
    Triple (Stage s₀ id type .inProgress) (w.handle id row handler) fun _ =>
      Rested stalls s₀ id type := by
  have hrank : rank type = handler.rank := by rw [rank, hresolve]; rfl
  have hmap : ∀ {p : Process RunResult},
      Triple (Stage s₀ id type .inProgress) p (fun _ => Rested stalls s₀ id type) →
      Triple (Stage s₀ id type .inProgress) (p.bind fun r => .ret (some r)) fun _ =>
        Rested stalls s₀ id type :=
    fun hp => triple_bind hp fun _ => triple_ret fun _ h => h
  cases handler with
  | pmTick => exact hmap (rested_handlePmTick hw (le_of_eq hrank.symm))
  | spokesmanPrep => exact hmap (rested_handleSpokesmanPrep hw)
  | replan => exact hmap (rested_handleReplan hw (le_of_eq hrank.symm))
  | featureRequest =>
      exact hmap (rested_handleFeatureRequest hw (le_of_eq hrank.symm) (hclear rfl))
  | commit role => exact hmap (rested_handleCommit hw role (le_of_eq hrank.symm))
  | code => exact hmap (rested_handleCode row)
  | work => exact rested_handleWork hw (le_of_eq hrank.symm) (hstalls rfl)

end Worker

end AiStudio.Runtime
