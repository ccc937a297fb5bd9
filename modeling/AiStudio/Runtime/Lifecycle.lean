import AiStudio.Runtime.Database

/-!
# Lifecycle functions of several transactions

Embeds `start_task`, `claim_task`, `complete_task`, `block_task` and
`requeue_blocked_task` of `runtime/tasks.py` as programs: another process may move
between any two of their transactions.
-/

set_option autoImplicit false

namespace AiStudio.Runtime

open AiStudio.Data AiStudio.Concurrency

/-- The transition of `start_task`. -/
def startArgs (workerId : String) (agentType : Option String) : TransitionArgs where
  agentId := some workerId
  agentType := agentType
  expectedFrom := some [.claimed]
  setHeartbeat := true
  setLastProgress := true

/-- Move a claimed task to `in_progress`. -/
def startTask (id : Uuid) (workerId : String) (agentType : Option String) :
    Process (Option Task) :=
  call (.transition id .inProgress (startArgs workerId agentType))

/-- Grab the next grabbable task and start it. When the start is a no-op the grabbed
row is returned. -/
def claimTask (a : GrabArgs) (locked : List Uuid) : Process (Option (Uuid × Task)) := do
  let grabbed ← call (.grabTask a locked)
  match grabbed with
  | none => return none
  | some (id, row) => do
      let started ← startTask id a.workerId a.agentType
      return some (id, started.getD row)

/-- The keyword arguments of `complete_task`. -/
structure CompleteArgs where
  result : Option Doc := none
  status : TaskStatus := .merged
  spentTokens : Option Int := none
  expectedFrom : Option (List TaskStatus) := some [.inProgress]
  force : Bool := false

/-- The first transition of `complete_task`, which carries its guard and result. -/
def CompleteArgs.firstHop (a : CompleteArgs) : TransitionArgs where
  expectedFrom := if a.force then none else a.expectedFrom
  result := some a.result
  spentTokens := a.spentTokens
  force := a.force

/-- Finalize a task: three transitions to `merged`, or one to `abandoned`. -/
def completeTask (id : Uuid) (a : CompleteArgs) : Process (Option Task) :=
  if !a.status.isTerminal then
    .throw (.valueError "complete_task status must be 'merged' or 'abandoned'")
  else if a.status = .merged then do
    let submitted ← call (.transition id .readyForReview a.firstHop)
    match submitted with
    | none => return none
    | some _ => do
        let approved ← call (.transition id .approved {})
        match approved with
        | none => return none
        | some _ => call (.transition id .merged {})
  else call (.transition id .abandoned a.firstHop)

/-- The result of a task parked on an approval. -/
def blockedResult (approvalId : Uuid) (reason : String) : Doc :=
  [("blocked_on_approval", .str approvalId.text), ("reason", .str reason)]

/-- The transition of `block_task`. -/
def blockArgs (approvalId : Uuid) (reason : String) : TransitionArgs where
  expectedFrom := some [.inProgress]
  result := some (some (blockedResult approvalId reason))

/-- Park an `in_progress` task on an approval. -/
def blockTask (id approvalId : Uuid) (reason : String) : Process (Option Task) :=
  call (.transition id .blocked (blockArgs approvalId reason))

/-- Re-queue a `blocked` task. -/
def requeueBlockedTask (id : Uuid) : Process (Option Task) :=
  call (.transition id .upForGrabs resumeArgs)

/-! ## A database with one task -/

/-- A task. -/
def taskT : Uuid := ⟨"5f6e6b0c-4d0e-4a51-9d2c-0d5a5a7a1f01", by decide⟩

/-- A fresh task. -/
def freshTask (now : Time) : Task where
  workstream := ⟨"productivity", by decide⟩
  type := "work.doc"
  createdAt := now
  updatedAt := now

/-- A database with one fresh task. -/
def oneTask : Store := Store.single taskT (freshTask 0) 0

end AiStudio.Runtime
