import AiStudio.Runtime.Footprint

/-!
# What a call does to the rows of tasks, approvals and decisions

Every call makes at most one guarded move on at most one task; whatever else it
writes leaves statuses, claims, results, histories and `task.finished` events alone.
`StoreOp.Makes` says which move a call may make and `exec_effect` that it makes no
other; the invariants of the queue are derived from these two. `exec_approvalEffect`
and `exec_decisionEffect` say the same of the rows of approvals and decisions.
-/

set_option autoImplicit false

namespace AiStudio.Runtime

open AiStudio.Data

/-- What the lifecycle of a task is about. -/
structure TaskCore where
  status : TaskStatus
  claimedBy : Option String
  result : Option Doc

/-- The lifecycle part of a row. -/
def Task.core (row : Task) : TaskCore := ⟨row.status, row.claimedBy, row.result⟩

/-- The lifecycle part of the row of a task. -/
def Store.core (s : Store) (id : Uuid) : Option TaskCore := (s.tasks.find? id).map Task.core

/-- The status of a task, if it has a row. -/
def Store.status? (s : Store) (id : Uuid) : Option TaskStatus := (s.core id).map TaskCore.status

theorem Store.core_eq_some {s : Store} {id : Uuid} {c : TaskCore} :
    s.core id = some c ↔ ∃ row, s.tasks.find? id = some row ∧ row.core = c := by
  simp [core]

theorem Store.core_of_find? {s : Store} {id : Uuid} {row : Task}
    (h : s.tasks.find? id = some row) : s.core id = some row.core := by
  simp [core, h]

theorem Store.status?_of_find? {s : Store} {id : Uuid} {row : Task}
    (h : s.tasks.find? id = some row) : s.status? id = some row.status := by
  rw [status?, core_of_find? h]
  rfl

theorem Store.find?_of_status? {s : Store} {id : Uuid} {status : TaskStatus}
    (h : s.status? id = some status) :
    ∃ row, s.tasks.find? id = some row ∧ row.status = status := by
  simpa [status?, core, Task.core] using h

theorem Store.find?_eq_none_iff_status? {s : Store} {id : Uuid} :
    s.tasks.find? id = none ↔ s.status? id = none := by
  simp [status?, core]

/-- Two states agree on the lifecycle of every task. -/
structure SameLifecycle (s s' : Store) : Prop where
  core : ∀ id, s'.core id = s.core id
  history : ∀ id, s'.history id = s.history id
  finished : ∀ id, s'.finished id = s.finished id

namespace SameLifecycle

protected theorem refl (s : Store) : SameLifecycle s s := ⟨fun _ => rfl, fun _ => rfl, fun _ => rfl⟩

protected theorem trans {s₁ s₂ s₃ : Store} (h : SameLifecycle s₁ s₂) (h' : SameLifecycle s₂ s₃) :
    SameLifecycle s₁ s₃ :=
  ⟨fun id => (h'.core id).trans (h.core id), fun id => (h'.history id).trans (h.history id),
    fun id => (h'.finished id).trans (h.finished id)⟩

/-- A call that does not write the queue. -/
theorem of_frame {w : List Region} {s s' : Store} (h : Frame w s s')
    (hw : w.contains .tasks = false) : SameLifecycle s s' := by
  obtain ⟨htasks, htransitions⟩ := h.tasks hw
  obtain ⟨es, hes, hregion⟩ := h.events
  refine ⟨fun id => ?_, fun id => ?_, fun id => ?_⟩
  · rw [Store.core, Store.core, htasks]
  · rw [Store.history, Store.history, htransitions]
  · have hnone : es.filter (fun e => e.taskId = some id ∧ e.payload.isTaskFinished) = [] := by
      rw [List.filter_eq_nil_iff]
      intro e he hfin
      have hr := hregion e he
      cases hp : e.payload <;> simp [hp, Payload.isTaskFinished, Payload.region] at hfin hr
      simp [hr] at hw
    rw [Store.finished, Store.finished, hes, List.filter_append, hnone, List.append_nil]

/-- An event other than `task.finished`. -/
theorem emit {s s' : Store} (h : SameLifecycle s s') {taskId : Option Uuid} {ws : Workstream}
    {p : Payload} (hp : p.isTaskFinished = false) :
    SameLifecycle s (s'.appendEvent taskId ws p) :=
  h.trans ⟨fun _ => rfl, fun _ => rfl, fun id => by simp [Store.finished, hp]⟩

/-- A new row with the same lifecycle part. -/
theorem setTask {s : Store} {id : Uuid} {row row' : Task} (h : s.tasks.find? id = some row)
    (hcore : row'.core = row.core) : SameLifecycle s (s.setTask id row') := by
  refine ⟨fun id' => ?_, fun _ => rfl, fun _ => rfl⟩
  by_cases hid : id' = id
  · subst hid
    rw [Store.core, Store.find?_setTask_self _ _ _ _ h, Store.core_of_find? h, Option.map_some,
      hcore]
  · rw [Store.core, Store.find?_setTask_ne _ _ _ hid, Store.core]

/-- A bookkeeping update of one row. -/
theorem updateTask {s s' : Store} {id : Uuid} {guard : Task → Bool} {f : Task → Task}
    {row' : Task} (h : s.updateTask id guard f = some (row', s'))
    (hf : ∀ row, (f row).core = row.core) : SameLifecycle s s' := by
  obtain ⟨row, hrow, -, rfl, rfl⟩ := Store.updateTask_eq_some h
  exact setTask hrow (hf row)

end SameLifecycle

/-! ## Moves -/

/-- A guarded transition: of which task, to which state, with which arguments. -/
structure Move where
  id : Uuid
  target : TaskStatus
  args : TransitionArgs

/-- The move `m` moves the row `row`. -/
def Move.Admits (m : Move) (s : Store) (row : Task) : Prop := Moves s m.id m.target m.args row

/-- The row after a move. -/
def Move.apply (m : Move) (s : Store) (row : Task) : Task := m.args.update s.now m.target row

/-- The state after a move. -/
def Move.record (m : Move) (s : Store) (row : Task) : Store :=
  s.recordTransition m.id row m.target m.args

/-- The move a call may make on a row. -/
def StoreOp.Makes (o : StoreOp) (s : Store) (m : Move) (row : Task) : Prop :=
  match o with
  | .grabTask a _ =>
      m.target = .claimed ∧ m.args = a.claim ∧ s.identityQuarantined a.workerId = false ∧
        a.grabbable s row = true
  | .transition id target a => m = ⟨id, target, a⟩
  | .rekickTask id _ => m = ⟨id, .upForGrabs, rekickArgs⟩ ∧ row.status.isHeld = true
  | .escalateStuckTask id reason count retries =>
      m = ⟨id, .abandoned, abandonHeld (stuckResult reason count retries)⟩
  | .failExhausted id scanned maxRetries =>
      m = ⟨id, .abandoned, abandonHeld (exhaustedResult scanned.retries maxRetries)⟩
  | .requestDecision d a =>
      a.dependentTaskId = some m.id ∧ m.target = .blocked ∧ m.args = parkArgs d
  | .answerDecision d .. | .withdrawDecision d .. =>
      (∃ dec, s.decisions.find? d = some dec ∧ dec.status = .open ∧
        dec.dependentTaskId = some m.id) ∧ m.target = .upForGrabs ∧ m.args = resumeArgs
  | _ => False

/-- Only a plain transition can be forced. -/
theorem StoreOp.Makes.eq_transition {o : StoreOp} {s : Store} {m : Move} {row : Task}
    (h : o.Makes s m row) (hforce : m.args.force = true) :
    o = .transition m.id m.target m.args := by
  cases o with
  | transition id target a =>
      obtain rfl : m = ⟨id, target, a⟩ := h
      rfl
  | grabTask a locked =>
      rw [h.2.1] at hforce
      cases hforce
  | rekickTask id made =>
      obtain ⟨rfl, -⟩ := h
      cases hforce
  | escalateStuckTask id reason count retries =>
      obtain rfl : m = _ := h
      cases hforce
  | failExhausted id scanned maxRetries =>
      obtain rfl : m = _ := h
      cases hforce
  | requestDecision d a =>
      rw [h.2.2] at hforce
      cases hforce
  | answerDecision d answer resolver at? =>
      rw [h.2.2] at hforce
      cases hforce
  | withdrawDecision d resolver at? =>
      rw [h.2.2] at hforce
      cases hforce
  | _ => exact h.elim

/-- The effect of a committed call on the lifecycle of tasks. -/
inductive Effect (o : StoreOp) (s s' : Store) : Prop where
  | quiet (h : SameLifecycle s s')
  | created (id : Uuid) (a : EnqueueArgs) (ws : Workstream) (tasks : Table Uuid Task)
      (op : o = .enqueueTask id a) (inserted : s.tasks.insert? id (a.row ws s.now) = some tasks)
      (h : SameLifecycle { s with tasks := tasks } s')
  | moved (m : Move) (row : Task) (makes : o.Makes s m row) (admits : m.Admits s row)
      (h : SameLifecycle (m.record s row) s')

/-! ## The effect of every call -/

theorem enqueueTask_effect {id : Uuid} {a : EnqueueArgs} {s s' : Store} {r : Task}
    (h : enqueueTask id a s = .ok (r, s')) : Effect (.enqueueTask id a) s s' := by
  obtain ⟨ws, tasks, rfl, -, hins, rfl⟩ := enqueueTask_cases h
  exact .created id a ws tasks rfl hins ((SameLifecycle.refl _).emit rfl)

theorem grabTask_effect {a : GrabArgs} {locked : List Uuid} {s s' : Store}
    {r : Option (Uuid × Task)} (h : grabTask a locked s = .ok (r, s')) :
    Effect (.grabTask a locked) s s' := by
  rcases grabTask_cases h with ⟨-, rfl⟩ | ⟨id, row, hq, hp, hm, -, rfl⟩
  · exact .quiet (.refl _)
  · exact .moved ⟨id, .claimed, a.claim⟩ row ⟨rfl, rfl, hq, (a.pick_eq_some hp).2.1⟩ hm (.refl _)

theorem transition_effect {id : Uuid} {target : TaskStatus} {a : TransitionArgs} {s s' : Store}
    {r : Option Task} (h : transition id target a s = .ok (r, s')) :
    Effect (.transition id target a) s s' := by
  rcases transition_cases h with ⟨-, rfl, -⟩ | ⟨row, hm, -, rfl⟩
  · exact .quiet (.refl _)
  · exact .moved ⟨id, target, a⟩ row rfl hm (.refl _)

theorem heartbeat_effect {id : Uuid} {workerId : String} {s s' : Store} {r : Option Task}
    (h : heartbeat id workerId s = .ok (r, s')) : SameLifecycle s s' := by
  unfold heartbeat at h
  split at h
  · obtain ⟨-, rfl⟩ := Prod.mk.inj (Except.ok.inj h)
    exact .refl _
  · rename_i hu
    obtain ⟨-, rfl⟩ := Prod.mk.inj (Except.ok.inj h)
    exact .updateTask hu fun _ => rfl

theorem addSpentTokens_effect {id : Uuid} {tokens : Int} {s s' : Store} {r : Option Task}
    (h : addSpentTokens id tokens s = .ok (r, s')) : SameLifecycle s s' := by
  unfold addSpentTokens at h
  split at h
  · cases h
  · split at h
    · obtain ⟨-, rfl⟩ := Prod.mk.inj (Except.ok.inj h)
      exact .refl _
    · rename_i hu
      obtain ⟨-, rfl⟩ := Prod.mk.inj (Except.ok.inj h)
      exact .updateTask hu fun _ => rfl

theorem setRequestStatus_effect {id : Uuid} {status reason : String}
    {workTaskIds : Option (List String)} {s s' : Store}
    (h : setRequestStatus id status reason workTaskIds s = .ok ((), s')) : SameLifecycle s s' := by
  unfold setRequestStatus at h
  split at h
  · obtain ⟨-, rfl⟩ := Prod.mk.inj (Except.ok.inj h)
    exact .refl _
  · rename_i hu
    obtain ⟨-, rfl⟩ := Prod.mk.inj (Except.ok.inj h)
    exact .updateTask hu fun _ => rfl

theorem nudgeTask_effect {id : Uuid} {grace : Time} {s s' : Store} {r : Option Task}
    (h : nudgeTask id grace s = .ok (r, s')) : SameLifecycle s s' := by
  unfold nudgeTask at h
  split at h
  · obtain ⟨-, rfl⟩ := Prod.mk.inj (Except.ok.inj h)
    exact .refl _
  · rename_i hu
    obtain ⟨-, rfl⟩ := Prod.mk.inj (Except.ok.inj h)
    exact (SameLifecycle.updateTask hu fun _ => rfl).emit rfl

/-- **What a re-kick can do**: re-queue a held row, or change nothing. -/
theorem rekickTask_cases {id : Uuid} {made : Option Bool} {s s' : Store} {r : Option Task}
    (h : rekickTask id made s = .ok (r, s')) :
    (r = none ∧ s' = s) ∨
      ∃ row, Moves s id .upForGrabs rekickArgs row ∧ row.status.isHeld = true ∧
        r = some (rekickArgs.update s.now .upForGrabs row) ∧
        SameLifecycle (s.recordTransition id row .upForGrabs rekickArgs) s' := by
  unfold rekickTask at h
  cases hf : s.tasks.find? id with
  | none =>
      simp only [hf] at h
      obtain ⟨rfl, rfl⟩ := Prod.mk.inj (Except.ok.inj h)
      exact Or.inl ⟨rfl, rfl⟩
  | some row =>
      simp only [hf] at h
      split at h
      · obtain ⟨rfl, rfl⟩ := Prod.mk.inj (Except.ok.inj h)
        exact Or.inl ⟨rfl, rfl⟩
      · rename_i hheld
        have hheld : row.status.isHeld = true := by simpa using hheld
        have hm : Moves s id .upForGrabs rekickArgs row := by
          refine ⟨hf, rfl, ?_, Or.inr ?_, rfl⟩ <;>
            rcases (isHeld_iff _).1 hheld with hst | hst <;> rw [hst] <;> decide
        refine Or.inr ⟨row, hm, hheld, ?_⟩
        cases made with
        | none =>
            simp only [hm.transition_eq] at h
            obtain ⟨rfl, rfl⟩ := Prod.mk.inj (Except.ok.inj h)
            exact ⟨rfl, (SameLifecycle.refl _).emit rfl⟩
        | some made =>
            simp only [hm.transition_eq] at h
            obtain ⟨rfl, rfl⟩ := Prod.mk.inj (Except.ok.inj h)
            have hrow := s.find?_recordTransition_self id row .upForGrabs rekickArgs hf
            have hset : SameLifecycle (s.recordTransition id row .upForGrabs rekickArgs)
                ((s.recordTransition id row .upForGrabs rekickArgs).setTask id
                  ((rekickArgs.update s.now .upForGrabs row).watermark made s.now)) :=
              .setTask hrow rfl
            exact ⟨rfl, hset.emit rfl⟩

/-- A move followed by its signal. -/
theorem transition_signal_cases {id : Uuid} {target : TaskStatus} {a : TransitionArgs}
    {s s' : Store} {r : Option Task} {ws : Task → Workstream} {payload : Task → Payload}
    (hp : ∀ task, (payload task).isTaskFinished = false)
    (h : (transition id target a s).map (signal id ws payload) = .ok (r, s')) :
    (r = none ∧ s' = s ∧ ∀ row, ¬ Moves s id target a row) ∨
      ∃ row, Moves s id target a row ∧ r = some (a.update s.now target row) ∧
        SameLifecycle (s.recordTransition id row target a) s' := by
  cases ht : transition id target a s with
  | error e => simp only [ht] at h; cases h
  | ok x =>
      obtain ⟨t, s₁⟩ := x
      rw [ht] at h
      rcases transition_cases ht with ⟨rfl, rfl, hno⟩ | ⟨row, hm, rfl, rfl⟩
      · obtain ⟨rfl, rfl⟩ := Prod.mk.inj (Except.ok.inj h)
        exact Or.inl ⟨rfl, rfl, hno⟩
      · obtain ⟨rfl, rfl⟩ := Prod.mk.inj (Except.ok.inj h)
        exact Or.inr ⟨row, hm, rfl, (SameLifecycle.refl _).emit (hp _)⟩

/-- The stall reason written before an abandon does not show in the move. -/
theorem recordTransition_stall {s : Store} {id : Uuid} {row : Task}
    (hf : s.tasks.find? id = some row) (reason : String) (target : TaskStatus)
    (a : TransitionArgs) :
    SameLifecycle (s.recordTransition id row target a)
      ((s.setTask id (row.stall reason s.now)).recordTransition id (row.stall reason s.now)
        target a) := by
  refine ⟨fun id' => ?_, fun _ => rfl, fun _ => rfl⟩
  by_cases hid : id' = id
  · subst hid
    rw [Store.core_of_find? (Store.find?_recordTransition_self _ _ _ _ _
        (Store.find?_setTask_self _ _ _ _ hf)),
      Store.core_of_find? (Store.find?_recordTransition_self _ _ _ _ _ hf)]
    rfl
  · rw [Store.core, Store.core, Store.find?_recordTransition_ne _ _ _ _ _ hid,
      Store.find?_recordTransition_ne _ _ _ _ _ hid, Store.find?_setTask_ne _ _ _ hid]

theorem escalateStuckTask_effect {id : Uuid} {reason : String} {count retries : Nat}
    {s s' : Store} {r : Option Task}
    (h : escalateStuckTask id reason count retries s = .ok (r, s')) :
    Effect (.escalateStuckTask id reason count retries) s s' := by
  unfold escalateStuckTask at h
  split at h
  · obtain ⟨-, rfl⟩ := Prod.mk.inj (Except.ok.inj h)
    exact .quiet (.refl _)
  · rename_i marked s₁ hu
    obtain ⟨row, hrow, -, rfl, rfl⟩ := Store.updateTask_eq_some hu
    rcases transition_signal_cases (fun _ => rfl) h with ⟨-, rfl, -⟩ | ⟨row', hm, -, hs⟩
    · exact .quiet (.setTask hrow rfl)
    · have hfound := hm.found
      rw [Store.find?_setTask_self _ _ _ _ hrow] at hfound
      obtain rfl := Option.some.inj hfound
      exact .moved ⟨id, .abandoned, _⟩ row rfl
        ⟨hrow, hm.admitted, hm.differs, hm.legal, hm.wellFormed⟩
        ((recordTransition_stall hrow reason _ _).trans hs)

theorem failExhausted_effect {id : Uuid} {scanned : Task} {maxRetries : Nat} {s s' : Store}
    {r : Option Task} (h : failExhausted id scanned maxRetries s = .ok (r, s')) :
    Effect (.failExhausted id scanned maxRetries) s s' := by
  unfold failExhausted at h
  rcases transition_signal_cases (fun _ => rfl) h with ⟨-, rfl, -⟩ | ⟨row, hm, -, hs⟩
  · exact .quiet (.refl _)
  · exact .moved ⟨id, .abandoned, _⟩ row rfl hm hs

theorem rekickTask_effect {id : Uuid} {made : Option Bool} {s s' : Store} {r : Option Task}
    (h : rekickTask id made s = .ok (r, s')) : Effect (.rekickTask id made) s s' := by
  rcases rekickTask_cases h with ⟨-, rfl⟩ | ⟨row, hm, hheld, -, hs⟩
  · exact .quiet (.refl _)
  · exact .moved ⟨id, .upForGrabs, rekickArgs⟩ row ⟨rfl, hheld⟩ hm hs

theorem requestDecision_effect {id : Uuid} {a : DecisionArgs} {s s' : Store} {r : Decision}
    (h : requestDecision id a s = .ok (r, s')) : Effect (.requestDecision id a) s s' := by
  obtain ⟨s₁, ws, hp, hrec⟩ := requestDecision_cases h
  obtain ⟨decisions, -, -, rfl⟩ := recordDecision_cases hrec
  have hs : SameLifecycle s₁ ({ s₁ with
      decisions := decisions, decisionSeq := s₁.decisionSeq + 1 }.appendEvent
        r.dependentTaskId ws (.decisionRequested (r.notice id))) := by
    refine SameLifecycle.emit ?_ rfl
    exact ⟨fun _ => rfl, fun _ => rfl, fun _ => rfl⟩
  rcases park_cases hp with ⟨-, rfl⟩ | ⟨taskId, row, hdep, hm, rfl⟩
  · exact .quiet hs
  · exact .moved ⟨taskId, .blocked, parkArgs id⟩ row ⟨hdep, rfl, rfl⟩ hm hs

/-- A move does not depend on the decision table. -/
theorem Moves.of_tasks_eq {s s' : Store} {id : Uuid} {target : TaskStatus} {a : TransitionArgs}
    {row : Task} (h : Moves s id target a row) (ht : s'.tasks = s.tasks) :
    Moves s' id target a row :=
  ⟨by rw [ht]; exact h.found, h.admitted, h.differs, h.legal, h.wellFormed⟩

/-- Closing a decision re-queues the task it names. -/
theorem closeDecision_effect {id : Uuid} {f : Time → Decision → Decision}
    (hdep : ∀ now row, (f now row).dependentTaskId = row.dependentTaskId) {s s' : Store}
    {r : Option Decision} (h : closeDecision id f s = .ok (r, s')) :
    SameLifecycle s s' ∨ ∃ (m : Move) (row : Task),
      ((∃ dec, s.decisions.find? id = some dec ∧ dec.status = .open ∧
        dec.dependentTaskId = some m.id) ∧ m.target = .upForGrabs ∧ m.args = resumeArgs) ∧
      m.Admits s row ∧ SameLifecycle (m.record s row) s' := by
  rcases closeDecision_cases h with ⟨-, rfl, -⟩ | ⟨dec, s₁, hdec, hopen, -, hr, rfl⟩
  · exact Or.inl (.refl _)
  · rcases resume_cases hr with ⟨rfl, -⟩ | ⟨taskId, row, htask, hm, rfl⟩
    · refine Or.inl (SameLifecycle.emit ?_ rfl)
      exact ⟨fun _ => rfl, fun _ => rfl, fun _ => rfl⟩
    · rw [hdep] at htask
      refine Or.inr ⟨⟨taskId, .upForGrabs, resumeArgs⟩, row, ⟨⟨dec, hdec, hopen, htask⟩, rfl, rfl⟩,
        hm.of_tasks_eq rfl, ?_⟩
      refine SameLifecycle.emit ?_ rfl
      exact ⟨fun _ => rfl, fun _ => rfl, fun _ => rfl⟩

/-- **Every call makes at most one move.** -/
theorem exec_effect {o : StoreOp} {s s' : Store} {r : o.Res} (h : o.exec s = .ok (r, s')) :
    Effect o s s' := by
  cases o with
  | enqueueTask id a => exact enqueueTask_effect h
  | grabTask a locked => exact grabTask_effect h
  | transition id target a => exact transition_effect h
  | heartbeat id workerId => exact .quiet (heartbeat_effect h)
  | addSpentTokens id tokens => exact .quiet (addSpentTokens_effect h)
  | setRequestStatus id status reason workTaskIds => exact .quiet (setRequestStatus_effect h)
  | nudgeTask id grace => exact .quiet (nudgeTask_effect h)
  | rekickTask id made => exact rekickTask_effect h
  | escalateStuckTask id reason count retries => exact escalateStuckTask_effect h
  | failExhausted id scanned maxRetries => exact failExhausted_effect h
  | requestDecision id a => exact requestDecision_effect h
  | answerDecision id answer resolver at? =>
      rcases closeDecision_effect (f := Decision.answerWith answer resolver at?)
        (fun _ _ => rfl) h with hs | ⟨m, row, hmakes, hm, hs⟩
      · exact .quiet hs
      · exact .moved m row hmakes hm hs
  | withdrawDecision id resolver at? =>
      rcases closeDecision_effect (f := Decision.withdrawBy resolver at?)
        (fun _ _ => rfl) h with hs | ⟨m, row, hmakes, hm, hs⟩
      · exact .quiet hs
      · exact .moved m row hmakes hm hs
  -- the rest does not write the queue
  | _ => exact .quiet (.of_frame (exec_frame h) rfl)

/-! ## The effect on one task -/

/-- The effect of a step on the lifecycle of one task. -/
inductive TaskEffect (o : StoreOp) (s s' : Store) (id : Uuid) : Prop where
  | same (core : s'.core id = s.core id) (history : s'.history id = s.history id)
      (finished : s'.finished id = s.finished id)
  | created (a : EnqueueArgs) (op : o = .enqueueTask id a) (fresh : s.core id = none)
      (core : s'.core id = some ⟨.upForGrabs, none, none⟩)
      (history : s'.history id = s.history id) (finished : s'.finished id = s.finished id)
  | moved (m : Move) (row : Task) (hid : m.id = id) (makes : o.Makes s m row)
      (admits : m.Admits s row) (core : s'.core id = some (m.apply s row).core)
      (history : s'.history id = s.history id ++ [s.hop id row m.target m.args])
      (finished : (s'.finished id).length =
        (s.finished id).length + if m.target.isTerminal then 1 else 0)

theorem SameLifecycle.taskEffect {o : StoreOp} {s s' : Store} (h : SameLifecycle s s')
    (id : Uuid) : TaskEffect o s s' id :=
  .same (h.core id) (h.history id) (h.finished id)

/-- **The effect of a call, seen from one task.** -/
theorem Effect.taskEffect {o : StoreOp} {s s' : Store} (h : Effect o s s') (id : Uuid) :
    TaskEffect o s s' id := by
  cases h with
  | quiet h => exact h.taskEffect id
  | created id' a ws tasks op inserted h =>
      have hfind := Table.find?_insert inserted id
      by_cases hid : id = id'
      · subst hid
        refine .created a op ?_ ?_ (h.history id) (h.finished id)
        · rw [Store.core, (Table.insert?_eq_some inserted).1, Option.map_none]
        · rw [h.core id, Store.core, hfind, if_pos rfl]
          rfl
      · refine .same ?_ (h.history id) (h.finished id)
        rw [h.core id, Store.core, hfind, if_neg hid, Store.core]
  | moved m row makes admits h =>
      by_cases hid : id = m.id
      · subst hid
        refine .moved m row rfl makes admits ?_ ?_ ?_
        · rw [h.core, Move.record,
            Store.core_of_find? (s.find?_recordTransition_self _ _ _ _ admits.found)]
          rfl
        · rw [h.history, Move.record, Store.history_recordTransition_self]
        · rw [h.finished, Move.record, Store.length_finished_recordTransition_self]
      · refine .same ?_ ?_ ?_
        · rw [h.core, Move.record, Store.core, Store.find?_recordTransition_ne _ _ _ _ _ hid,
            Store.core]
        · rw [h.history, Move.record, Store.history_recordTransition_ne _ _ _ _ _ hid]
        · rw [h.finished, Move.record, Store.finished_recordTransition_ne _ _ _ _ _ hid]

/-- **The effect of a step of the studio, seen from one task.** -/
theorem step_taskEffect {P α : Type} [DecidableEq P] {st : Concurrency.Step database P α}
    (h : Concurrency.Fires st) (id : Uuid) :
    TaskEffect st.op st.before.state st.after.state id := by
  rcases exec_or_abort h with ⟨v, -, hexec⟩ | ⟨e, -, hs⟩
  · exact (exec_effect hexec).taskEffect id
  · rw [hs]
    exact (SameLifecycle.refl _).taskEffect id

/-! ## The effect on one approval -/

/-- The effect of a step on the row of one approval. -/
inductive ApprovalEffect (o : StoreOp) (s s' : Store) (id : Uuid) : Prop where
  | same (row : s'.approvals.find? id = s.approvals.find? id)
  | requested (a : RequestArgs) (op : o = .insertApproval id a)
      (fresh : s.approvals.find? id = none)
      (row : s'.approvals.find? id = some (a.row s.now))
  | resolved (old : Approval) (decision : ApprovalStatus) (resolver workstream : String)
      (op : o = .resolveApproval id decision resolver workstream)
      (found : s.approvals.find? id = some old) (pending : old.status = .pending)
      (verdict : decision = .approved ∨ decision = .denied)
      (row : s'.approvals.find? id = some { old with
        status := decision, resolvedAt := some s.now, resolver := some resolver })
  | consumed (old : Approval) (op : o = .consumeGrant id)
      (found : s.approvals.find? id = some old) (approved : old.status = .approved)
      (row : s'.approvals.find? id = some { old with status := .consumed })

/-- A write of one row, seen from another. -/
theorem find?_setApproval_ne (s : Store) {id id' : Uuid} (row : Approval) (h : id' ≠ id) :
    (s.setApproval id row).approvals.find? id' = s.approvals.find? id' :=
  Table.find?_modify_ne _ _ h

theorem find?_setApproval_self {s : Store} {id : Uuid} {old : Approval} (row : Approval)
    (h : s.approvals.find? id = some old) :
    (s.setApproval id row).approvals.find? id = some row := by
  rw [Store.setApproval_approvals, Table.find?_modify_self, h]
  rfl

/-- **The effect of a call, seen from one approval.** -/
theorem exec_approvalEffect {o : StoreOp} {s s' : Store} {r : o.Res}
    (h : o.exec s = .ok (r, s')) (id : Uuid) : ApprovalEffect o s s' id := by
  cases o with
  | insertApproval id' a =>
      obtain ⟨approvals, ws, rfl, hins, rfl⟩ := insertApproval_cases h
      have hfind := Table.find?_insert hins id
      by_cases hid : id = id'
      · subst hid
        exact .requested a rfl (Table.insert?_eq_some hins).1 (by simpa using hfind)
      · exact .same (by simpa [hid] using hfind)
  | resolveApproval id' decision resolver workstream =>
      rcases resolveApproval_cases h with ⟨-, rfl⟩ | ⟨old, row, ws, hold, hpending, hverdict,
        rfl, -, rfl⟩
      · exact .same rfl
      · by_cases hid : id = id'
        · subst hid
          exact .resolved old decision resolver workstream rfl hold hpending hverdict
            (find?_setApproval_self _ hold)
        · exact .same (find?_setApproval_ne _ _ hid)
  | consumeGrant id' =>
      rcases consumeGrant_cases h with ⟨-, rfl⟩ | ⟨old, hold, happroved, -, rfl⟩
      · exact .same rfl
      · by_cases hid : id = id'
        · subst hid
          exact .consumed old rfl hold happroved (find?_setApproval_self _ hold)
        · exact .same (find?_setApproval_ne _ _ hid)
  | _ => exact .same (by rw [(exec_frame h).approvals rfl])

/-- **The effect of a step of the studio, seen from one approval.** -/
theorem step_approvalEffect {P α : Type} [DecidableEq P] {st : Concurrency.Step database P α}
    (h : Concurrency.Fires st) (id : Uuid) :
    ApprovalEffect st.op st.before.state st.after.state id := by
  rcases exec_or_abort h with ⟨v, -, hexec⟩ | ⟨e, -, hs⟩
  · exact exec_approvalEffect hexec id
  · rw [hs]
    exact .same rfl

/-! ## The effect on one decision -/

/-- The call answers or withdraws the decision. -/
def StoreOp.closes (o : StoreOp) (id : Uuid) : Bool :=
  match o with
  | .answerDecision d .. => d = id
  | .withdrawDecision d .. => d = id
  | _ => false

/-- The effect of a step on the row of one decision. -/
inductive DecisionEffect (o : StoreOp) (s s' : Store) (id : Uuid) : Prop where
  | same (row : s'.decisions.find? id = s.decisions.find? id)
      (kept : o.closes id = true → ∀ row, s.decisions.find? id = some row → row.status ≠ .open)
  | raised (a : DecisionArgs) (new : Decision) (op : o = .requestDecision id a)
      (fresh : s.decisions.find? id = none) (row : s'.decisions.find? id = some new)
      (dependent : new.dependentTaskId = a.dependentTaskId)
  | closed (old new : Decision) (op : o.closes id = true)
      (found : s.decisions.find? id = some old) (opened : old.status = .open)
      (row : s'.decisions.find? id = some new) (shut : new.status ≠ .open)

theorem resume_decisions {dependent : Option Uuid} {s s' : Store}
    (h : resume dependent s = .ok ((), s')) : s'.decisions = s.decisions := by
  rcases resume_cases h with ⟨rfl, -⟩ | ⟨_, _, -, -, rfl⟩
  · rfl
  · rfl

/-- Closing a decision, seen from one decision. -/
theorem closeDecision_decisionEffect {o : StoreOp} {id' : Uuid} {f : Time → Decision → Decision}
    (hf : ∀ now row, (f now row).status ≠ .open) {s s' : Store} {r : Option Decision}
    (h : closeDecision id' f s = .ok (r, s')) (id : Uuid) (ho : o.closes id = decide (id' = id)) :
    DecisionEffect o s s' id := by
  rcases closeDecision_cases h with ⟨-, rfl, hshut⟩ | ⟨old, s₁, hold, hopen, -, hr, rfl⟩
  · refine .same rfl fun hcloses => ?_
    rw [ho, decide_eq_true_eq] at hcloses
    subst hcloses
    exact hshut
  · have hfind : (s₁.appendEvent (f s.now old).dependentTaskId (f s.now old).workstream
        (.decisionAnswered ((f s.now old).notice id'))).decisions.find? id =
        (s.decisions.modify id' fun _ => f s.now old).find? id := by
      rw [Store.appendEvent_decisions, resume_decisions hr]
    by_cases hid : id = id'
    · subst hid
      refine .closed old (f s.now old) (by simpa using ho) hold hopen ?_ (hf _ _)
      rw [hfind, Table.find?_modify_self, hold]
      rfl
    · refine .same ?_ fun hcloses => ?_
      · rw [hfind, Table.find?_modify_ne _ _ hid]
      · rw [ho, decide_eq_true_eq] at hcloses
        exact absurd hcloses.symm hid

/-- **The effect of a call, seen from one decision.** -/
theorem exec_decisionEffect {o : StoreOp} {s s' : Store} {r : o.Res}
    (h : o.exec s = .ok (r, s')) (id : Uuid) : DecisionEffect o s s' id := by
  cases o with
  | requestDecision id' a =>
      obtain ⟨s₁, ws, hp, hrec⟩ := requestDecision_cases h
      obtain ⟨decisions, hrow, hins, rfl⟩ := recordDecision_cases hrec
      have hsame : s₁.decisions = s.decisions := by
        rcases park_cases hp with ⟨-, rfl⟩ | ⟨_, _, -, -, rfl⟩
        · rfl
        · rfl
      rw [hsame] at hins
      have hfind := Table.find?_insert hins id
      by_cases hid : id = id'
      · subst hid
        exact .raised a r rfl (Table.insert?_eq_some hins).1 (by simpa using hfind)
          (by rw [hrow]; rfl)
      · exact .same (by simpa [hid] using hfind) (fun h => by cases h)
  | answerDecision id' answer resolver at? =>
      exact closeDecision_decisionEffect (fun _ _ => by simp [Decision.answerWith]) h id rfl
  | withdrawDecision id' resolver at? =>
      exact closeDecision_decisionEffect (fun _ _ => by simp [Decision.withdrawBy]) h id rfl
  | _ => exact .same (by rw [((exec_frame h).decisions rfl).1]) (fun h => by cases h)

/-- **The effect of a step of the studio, seen from one decision.** -/
theorem step_decisionEffect {P α : Type} [DecidableEq P] {st : Concurrency.Step database P α}
    (h : Concurrency.Fires st) (id : Uuid) :
    (∃ v, st.out = .ok v ∧ DecisionEffect st.op st.before.state st.after.state id) ∨
      (∃ e, st.out = .error e ∧ st.after.state = st.before.state) := by
  rcases exec_or_abort h with ⟨v, hv, hexec⟩ | ⟨e, he, hs⟩
  · exact Or.inl ⟨v, hv, exec_decisionEffect hexec id⟩
  · exact Or.inr ⟨e, he, hs⟩

end AiStudio.Runtime
