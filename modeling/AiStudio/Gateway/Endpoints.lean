import AiStudio.Data.JsonText
import AiStudio.Runtime.Lifecycle

/-!
# The gateway's task endpoints

Embeds the claim, heartbeat, complete and enqueue endpoints of `gateway/app.py`, from the
point where `_gate` has authorized the request. The claim-ownership gate `heldTask`
reads the task in a transaction of its own, before the write it guards.
-/

set_option autoImplicit false

namespace AiStudio.Gateway

open AiStudio.Data AiStudio.Concurrency AiStudio.Runtime

/-- An authorized request: the identity, the workstreams its token is pinned to (none
means any), and the workstream the request resolved to. -/
structure Allowed where
  identity : String
  workstreams : List String := []
  workstream : Option String := none

/-- `Token.allows_workstream` of a task's workstream. -/
def Allowed.allowsWorkstream (allowed : Allowed) (workstream : String) : Bool :=
  allowed.workstreams.isEmpty || allowed.workstreams.contains workstream

/-- `GATEWAY_WORKSTREAM`. -/
def gatewayWorkstream : Workstream := ⟨"gateway", by decide⟩

/-- `workstream or GATEWAY_WORKSTREAM`. -/
def auditWorkstream (workstream : Option String) : Workstream :=
  match workstream with
  | some name => if h : name = "" then gatewayWorkstream else ⟨name, h⟩
  | none => gatewayWorkstream

/-- `_audit`: a failing append never fails the request. -/
def audit (taskId : Option Uuid) (workstream : Option String) (payload : SinkPayload) :
    Process Unit :=
  (call (.emit taskId (auditWorkstream workstream) payload)).tryCatch fun _ => .ret ()

/-- Record an authenticated denial and refuse the request. -/
def deny {α : Type} (allowed : Allowed) (verb scope reason : String) : Process α := do
  let () ← audit none none (.gatewayDenied allowed.identity verb scope 403 (some reason))
  .throw (.httpException 403 reason)

/-- The claim-ownership gate. -/
def heldTask (id : Uuid) (allowed : Allowed) (verb : String) : Process Task := do
  let task ← call (.getTask id)
  match task with
  | none => .throw (.httpException 404 "task not found")
  | some task =>
      if !allowed.allowsWorkstream task.workstream.name then
        deny allowed verb "read" "workstream_denied"
      else if task.claimedBy ≠ some allowed.identity then deny allowed verb "claim" "not_owner"
      else return task

/-- Grab the next offhost task and start it, as the token's identity. -/
def claim (allowed : Allowed) (agentType : Option String) (locked : List Uuid) :
    Process (Option (Uuid × Task)) := do
  let task ← claimTask
    { workerId := allowed.identity
      assignee := some .offhost
      workstream := allowed.workstream
      agentType := some (agentType.getD "remote") } locked
  let () ← audit (task.map Prod.fst)
    ((task.map fun t => t.2.workstream.name) <|> allowed.workstream)
    (.gatewayAccess allowed.identity "claim" "claim" 200 none)
  return task

/-- Refresh the heartbeat of a task the identity holds. -/
def heartbeatTask (id : Uuid) (allowed : Allowed) : Process Task := do
  let held ← heldTask id allowed "heartbeat"
  let beat ← call (.heartbeat id allowed.identity)
  match beat with
  | none => .throw (.httpException 409 "task no longer held (state changed)")
  | some beat => do
      let () ← audit (some id) (some held.workstream.name)
        (.gatewayAccess allowed.identity "heartbeat" "claim" 200 none)
      return beat

/-- The body of a complete request; its validator admits the terminal states only. -/
structure CompleteRequest where
  status : TaskStatus := .merged
  terminal : status.isTerminal = true := by rfl
  result : Option Doc := none
  spentTokens : Option Nat := none

/-- What the complete endpoint hands to `complete_task`. -/
def CompleteRequest.args (req : CompleteRequest) (allowed : Allowed) : CompleteArgs where
  result := some (setKey (req.result.getD []) "completed_by" (.str allowed.identity))
  status := req.status
  spentTokens := req.spentTokens.map Int.ofNat

/-- Finalize a task the identity holds. -/
def complete (id : Uuid) (req : CompleteRequest) (allowed : Allowed) : Process Task := do
  let held ← heldTask id allowed "complete"
  let finished ← completeTask id (req.args allowed)
  match finished with
  | none =>
      .throw (.httpException 409 "task not in_progress (already finalized or re-kicked)")
  | some finished => do
      let () ← audit (some id) (some held.workstream.name)
        (.gatewayAccess allowed.identity "complete" "complete" 200 none)
      return finished

/-! ## Enqueue -/

/-- The bounds of `Settings` on what a remote may enqueue. -/
structure Settings where
  maxPayloadBytes : Nat := 16384
  maxPriority : Nat := 10
  maxBudgetTokens : Nat := 200000

/-- `MAX_DEPENDS_ON`. -/
def maxDependsOn : Nat := 32

/-- The body of an enqueue request, as its validators leave it. -/
structure EnqueueRequest where
  type : String
  payload : Doc := []
  priority : Int := 0
  assignee : Option Assignee := none
  budgetTokens : Option Int := none
  dependsOn : List Uuid := []
  bounded : dependsOn.length ≤ maxDependsOn := by decide

/-- What the endpoint hands to `enqueue_task`: a remote may not outrank host work, nor
mint an unbounded budget. The prerequisites go through as they come. -/
def EnqueueRequest.args (req : EnqueueRequest) (settings : Settings) (allowed : Allowed)
    (workstream : String) : EnqueueArgs where
  workstream := workstream
  type := req.type
  payload := setKey req.payload "enqueued_by" (.str allowed.identity)
  priority := max (-(settings.maxPriority : Int)) (min settings.maxPriority req.priority)
  assignee := req.assignee
  budgetTokens := req.budgetTokens.map fun n => max 0 (min n settings.maxBudgetTokens)
  dependsOn := req.dependsOn

/-- A rejected input is a 422; anything else goes on. -/
def rejectEnqueue : Exn → Process Task
  | .valueError message => .throw (.httpException 422 message)
  | .dependencyCycle message => .throw (.httpException 422 message)
  | e => .throw e

/-- Create an `up_for_grabs` task, under the id `newId` the database draws. -/
def enqueue (newId : Uuid) (settings : Settings) (allowed : Allowed) (req : EnqueueRequest) :
    Process Task :=
  match allowed.workstream with
  | none => .throw (.httpException 422 "workstream_required")
  | some workstream =>
      if settings.maxPayloadBytes < (Json.render (.obj req.payload)).length then
        .throw (.httpException 413
          ("payload exceeds " ++ toString settings.maxPayloadBytes ++ " bytes"))
      else do
        let task ← (call (.enqueueTask newId (req.args settings allowed workstream))).tryCatch
          rejectEnqueue
        let () ← audit (some newId) (some task.workstream.name)
          (.gatewayAccess allowed.identity "enqueue" "enqueue" 201 none)
        return task

end AiStudio.Gateway
