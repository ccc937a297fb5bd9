import AiStudio.Data.Text
import AiStudio.Runtime.Grab

/-!
# The operations of the task queue

Embeds the rest of `runtime/tasks.py` that one transaction makes up, and the
supervisor's `_default_fail_exhausted`: enqueue, heartbeat, the reads, nudge,
re-kick, the two terminal recovery rungs, and the token counter. Functions of
several transactions are programs over these, in `AiStudio.Runtime.Lifecycle`.
-/

set_option autoImplicit false

namespace AiStudio.Runtime

open AiStudio.Data

namespace Store

/-- Replace the row of a task. -/
@[simps]
def setTask (s : Store) (id : Uuid) (row : Task) : Store :=
  { s with tasks := s.tasks.modify id fun _ => row }

theorem find?_setTask_self (s : Store) (id : Uuid) (row row' : Task)
    (h : s.tasks.find? id = some row) : (s.setTask id row').tasks.find? id = some row' := by
  simp [h]

theorem find?_setTask_ne (s : Store) (id : Uuid) (row : Task) {id' : Uuid} (h : id' ≠ id) :
    (s.setTask id row).tasks.find? id' = s.tasks.find? id' := by
  rw [setTask_tasks, Table.find?_modify_ne _ _ h]

/-- `UPDATE tasks SET f WHERE id AND guard RETURNING *`. -/
def updateTask (s : Store) (id : Uuid) (guard : Task → Bool) (f : Task → Task) :
    Option (Task × Store) :=
  match s.tasks.find? id with
  | none => none
  | some row => if guard row then some (f row, s.setTask id (f row)) else none

theorem updateTask_eq_some {s s' : Store} {id : Uuid} {guard : Task → Bool} {f : Task → Task}
    {row' : Task} (h : s.updateTask id guard f = some (row', s')) :
    ∃ row, s.tasks.find? id = some row ∧ guard row = true ∧ row' = f row ∧
      s' = s.setTask id (f row) := by
  unfold updateTask at h
  split at h
  · simp at h
  · rename_i row hf
    split at h
    · rename_i hg
      simp only [Option.some.injEq, Prod.mk.injEq] at h
      exact ⟨row, hf, hg, h.1.symm, h.2.symm⟩
    · simp at h

end Store

/-! ## Enqueue and read -/

/-- `payload.traffic`. -/
inductive Traffic where
  | prod
  | test
  deriving DecidableEq, Repr

namespace Traffic

/-- The wire string of a traffic tag. -/
def value : Traffic → String
  | prod => "prod"
  | test => "test"

/-- `raw.strip().lower()`, when it is a tag. -/
def parse? (raw : String) : Option Traffic :=
  match (strip raw).toLower with
  | "prod" => some prod
  | "test" => some test
  | _ => none

end Traffic

/-- `doc[key] = value`. -/
def setKey (doc : Doc) (key : String) (value : Json Empty) : Doc :=
  if doc.any (·.1 = key) then doc.map fun kv => if kv.1 = key then (key, value) else kv
  else doc ++ [(key, value)]

/-- `tag_payload`: the payload with its `traffic` set if missing. -/
def tagPayload (default : Traffic) (payload : Doc) : Doc :=
  let tag := ((payload.getStr? "traffic").bind Traffic.parse?).getD default
  setKey payload "traffic" (.str tag.value)

/-- The keyword arguments of `enqueue_task`. -/
structure EnqueueArgs where
  workstream : String
  type : String
  payload : Doc := []
  priority : Int := 0
  assignee : Option Assignee := none
  budgetTokens : Option Int := none
  dependsOn : List Uuid := []
  trajectoryId : Option Uuid := none
  traffic : Traffic := .prod

/-- The row of a freshly enqueued task. -/
def EnqueueArgs.row (a : EnqueueArgs) (workstream : Workstream) (now : Time) : Task where
  workstream := workstream
  type := a.type
  payload := tagPayload a.traffic a.payload
  priority := a.priority
  assignee := a.assignee
  budgetTokens := a.budgetTokens
  dependsOn := a.dependsOn
  trajectoryId := a.trajectoryId
  createdAt := now
  updatedAt := now

/-- Create an `up_for_grabs` task; `id` is the fresh id the database draws. -/
def enqueueTask (id : Uuid) (a : EnqueueArgs) : Tx Task := fun s =>
  if a.dependsOn.contains id then
    .error (.dependencyCycle ("task " ++ id.text ++ " depends on itself"))
  else do
    let workstream ← requireWorkstream a.workstream
    let row := a.row workstream s.now
    match s.tasks.insert? id row with
    | none => .error (.integrityError "tasks_pkey")
    | some tasks =>
        return (row, { s with tasks := tasks }.appendEvent (some id) workstream
          (.taskCreated .upForGrabs a.type a.priority))

/-- **What an enqueue does.** -/
theorem enqueueTask_cases {id : Uuid} {a : EnqueueArgs} {s s' : Store} {row : Task}
    (h : enqueueTask id a s = .ok (row, s')) :
    ∃ workstream tasks, row = a.row workstream s.now ∧ id ∉ a.dependsOn ∧
      s.tasks.insert? id row = some tasks ∧
      s' = { s with tasks := tasks }.appendEvent (some id) workstream
        (.taskCreated .upForGrabs a.type a.priority) := by
  unfold enqueueTask at h
  split at h
  · simp at h
  · rename_i hdep
    cases hw : requireWorkstream a.workstream with
    | error e => simp only [hw] at h; cases h
    | ok workstream =>
        simp only [hw] at h
        change (match s.tasks.insert? id (a.row workstream s.now) with
          | none => .error (.integrityError "tasks_pkey")
          | some tasks => .ok (a.row workstream s.now,
              { s with tasks := tasks }.appendEvent (some id) workstream
                (.taskCreated .upForGrabs a.type a.priority)) :
            Except Exn (Task × Store)) = _ at h
        split at h
        · simp at h
        · rename_i tasks hins
          simp only [Except.ok.injEq, Prod.mk.injEq] at h
          obtain ⟨rfl, rfl⟩ := h
          exact ⟨workstream, tasks, rfl, by simpa using hdep, hins, rfl⟩

/-- `get_task`. -/
def getTask (id : Uuid) : Tx (Option Task) := fun s => .ok (s.tasks.find? id, s)

/-- The tasks parked `blocked`, oldest first. -/
def Store.blockedTasks (s : Store) : List (Uuid × Task) :=
  (s.tasks.select fun _ row => row.status = .blocked).insertionSort
    (fun x y => x.2.createdAt ≤ y.2.createdAt)

/-- `find_blocked_tasks`. -/
def findBlockedTasks : Tx (List (Uuid × Task)) := fun s => .ok (s.blockedTasks, s)

theorem Store.mem_blockedTasks (s : Store) (id : Uuid) (row : Task) :
    (id, row) ∈ s.blockedTasks ↔ s.tasks.find? id = some row ∧ row.status = .blocked := by
  rw [blockedTasks, List.mem_insertionSort, Table.mem_select, decide_eq_true_eq]

/-! ## Liveness -/

/-- The row after a heartbeat: alive again, the open nudge closed. -/
def Task.beat (row : Task) (now : Time) : Task :=
  { row with heartbeatAt := some now, updatedAt := now, nudgedAt := none }

/-- Refresh a task's heartbeat; only its claimant, only while it is held. -/
def heartbeat (id : Uuid) (workerId : String) : Tx (Option Task) := fun s =>
  match s.updateTask id (fun row => row.claimedBy = some workerId && row.status.isHeld)
      (·.beat s.now) with
  | none => .ok (none, s)
  | some (row, s) => .ok (some row, s)

/-- The heartbeat of a row is missing or older than the threshold. -/
def Task.isStale (row : Task) (now threshold : Time) : Bool :=
  row.status.isHeld && row.heartbeatAt.all (· < now - threshold)

/-- `heartbeat_at ASC NULLS FIRST`. -/
def heartbeatBefore (x y : Uuid × Task) : Bool :=
  match x.2.heartbeatAt, y.2.heartbeatAt with
  | none, _ => true
  | some _, none => false
  | some a, some b => a ≤ b

/-- The stale held tasks, oldest heartbeat first and missing ones before. -/
def Store.staleTasks (s : Store) (threshold : Time) : List (Uuid × Task) :=
  (s.tasks.select fun _ row => row.isStale s.now threshold).insertionSort (heartbeatBefore · ·)

/-- `find_stale_tasks`. -/
def findStaleTasks (threshold : Time) : Tx (List (Uuid × Task)) := fun s =>
  .ok (s.staleTasks threshold, s)

theorem Store.mem_staleTasks (s : Store) (threshold : Time) (id : Uuid) (row : Task) :
    (id, row) ∈ s.staleTasks threshold ↔
      s.tasks.find? id = some row ∧ row.isStale s.now threshold = true := by
  rw [staleTasks, List.mem_insertionSort, Table.mem_select]

/-- The event records a model call of the task, newer than the watermark. -/
def Event.isModelCallSince (e : Event) (id : Uuid) (since : Option Time) : Bool :=
  e.taskId = some id && since.all (· < e.ts) &&
    match e.payload with
    | .sink (.modelCall ..) => true
    | _ => false

/-- The task made net progress since its watermark. -/
def Store.madeProgress (s : Store) (id : Uuid) : Bool :=
  match s.tasks.find? id with
  | none => false
  | some row =>
      s.events.any (·.isModelCallSince id row.lastProgressAt) ||
        row.trajectoryId.any fun trajectory =>
          s.trajectorySteps.any fun step =>
            step.1 = trajectory && row.lastProgressAt.all (· < step.2)

/-- `task_made_progress`. -/
def taskMadeProgress (id : Uuid) : Tx Bool := fun s => .ok (s.madeProgress id, s)

/-- The row after more tokens were spent on it. -/
def Task.spend (row : Task) (tokens : Int) (now : Time) : Task :=
  { row with spentTokens := row.spentTokens + tokens, updatedAt := now }

/-- `add_spent_tokens`. -/
def addSpentTokens (id : Uuid) (tokens : Int) : Tx (Option Task) := fun s =>
  if tokens < 0 then .error (.valueError "tokens must be non-negative")
  else
    match s.updateTask id (fun _ => true) (·.spend tokens s.now) with
    | none => .ok (none, s)
    | some (row, s) => .ok (some row, s)

/-! ## Feature requests -/

/-- `payload || patch`. -/
def mergeDoc (doc patch : Doc) : Doc := patch.foldl (fun doc kv => setKey doc kv.1 kv.2) doc

/-- The row with a patched payload. -/
def Task.patch (row : Task) (patch : Doc) (now : Time) : Task :=
  { row with payload := mergeDoc row.payload patch, updatedAt := now }

/-- The patch of `set_request_status`. -/
def requestPatch (status reason : String) (workTaskIds : Option (List String)) : Doc :=
  [("request_status", .str status)] ++
    (if reason = "" then [] else [("decision_reason", .str reason)]) ++
    (workTaskIds.elim [] fun ids => [("work_task_ids", .arr (ids.map .str))])

/-- `set_request_status`: the sub-status of a request lives in its payload. -/
def setRequestStatus (id : Uuid) (status reason : String) (workTaskIds : Option (List String)) :
    Tx Unit := fun s =>
  match s.updateTask id (fun _ => true) (·.patch (requestPatch status reason workTaskIds) s.now) with
  | none => .ok ((), s)
  | some (_, s) => .ok ((), s)

/-! ## Recovery -/

/-- The row with a stall episode opened. -/
def Task.nudge (row : Task) (now : Time) : Task :=
  { row with nudgedAt := some now, updatedAt := now }

/-- The cheapest rung: open a stall episode on a held task. -/
def nudgeTask (id : Uuid) (grace : Time) : Tx (Option Task) := fun s =>
  match s.updateTask id (fun row => row.status.isHeld && row.nudgedAt.isNone) (·.nudge s.now) with
  | none => .ok (none, s)
  | some (row, s) =>
      .ok (some row, s.appendEvent (some id) row.workstream (.taskNudge row.status grace))

/-- The transition of a re-kick. -/
def rekickArgs : TransitionArgs := { clearClaim := true, incrementRetries := true }

/-- The row after a re-kick that knows whether progress was made. -/
def Task.watermark (row : Task) (madeProgress : Bool) (now : Time) : Task :=
  { row with
    noProgressRekicks := if madeProgress then 0 else row.noProgressRekicks + 1
    nudgedAt := none
    lastProgressAt := some now
    updatedAt := now }

/-- Re-queue a held task for a fresh worker. -/
def rekickTask (id : Uuid) (madeProgress : Option Bool) : Tx (Option Task) := fun s =>
  match s.tasks.find? id with
  | none => .ok (none, s)
  | some row =>
      if !row.status.isHeld then .ok (none, s)
      else do
        let (task, s) ← transition id .upForGrabs rekickArgs s
        match task.filter (·.status = .upForGrabs) with
        | none => return (none, s)
        | some task =>
            match madeProgress with
            | none =>
                return (some task, s.appendEvent (some id) task.workstream
                  (.taskRekicked task.status task.retries none task.noProgressRekicks))
            | some made =>
                let marked := task.watermark made s.now
                return (some task, (s.setTask id marked).appendEvent (some id) task.workstream
                  (.taskRekicked task.status task.retries (some made)
                    marked.noProgressRekicks))

/-- The states an unforced terminal rung finalizes from. -/
def heldStatuses : List TaskStatus := [.claimed, .inProgress]

/-- `complete_task(ABANDONED, expected_from=(CLAIMED, IN_PROGRESS), result=doc)`. -/
def abandonHeld (result : Doc) : TransitionArgs where
  expectedFrom := some heldStatuses
  result := some (some result)

/-- The result `escalate_stuck_task` leaves. -/
def stuckResult (stallReason : String) (noProgressRekicks retries : Nat) : Doc :=
  [("reason", .str "stuck_needs_replan"), ("stall_reason", .str stallReason),
    ("no_progress_rekicks", .int noProgressRekicks), ("retries", .int retries)]

/-- The row with the reason of its stall. -/
def Task.stall (row : Task) (reason : String) (now : Time) : Task :=
  { row with stallReason := some reason, updatedAt := now }

/-- Emit a signal about a task when a move of it went through. -/
def signal (id : Uuid) (workstream : Task → Workstream) (payload : Task → Payload) :
    Option Task × Store → Option Task × Store
  | (none, s) => (none, s)
  | (some task, s) => (some task, s.appendEvent (some id) (workstream task) (payload task))

/-- Supersede a stuck attempt and signal it. -/
def escalateStuckTask (id : Uuid) (stallReason : String) (noProgressRekicks retries : Nat) :
    Tx (Option Task) := fun s =>
  match s.updateTask id (·.status.isHeld) (·.stall stallReason s.now) with
  | none => .ok (none, s)
  | some (_, s) =>
      (transition id .abandoned
        (abandonHeld (stuckResult stallReason noProgressRekicks retries)) s).map
        (signal id (·.workstream) fun task =>
          .taskStuck task.status stallReason noProgressRekicks retries)

/-- The result `_default_fail_exhausted` leaves. -/
def exhaustedResult (retries maxRetries : Nat) : Doc :=
  [("reason", .str "max_retries_exhausted"), ("retries", .int retries),
    ("max_retries", .int maxRetries)]

/-- Fail a task that exhausted its re-kicks; `scanned` is the row of the sweep's scan. -/
def failExhausted (id : Uuid) (scanned : Task) (maxRetries : Nat) : Tx (Option Task) :=
  fun s =>
    (transition id .abandoned (abandonHeld (exhaustedResult scanned.retries maxRetries)) s).map
      (signal id (fun _ => scanned.workstream) fun _ =>
        .taskFailedExhausted .abandoned scanned.retries maxRetries)

end AiStudio.Runtime
