import AiStudio.Runtime.Enforce
import AiStudio.Runtime.Lifecycle

/-!
# The roles that act on their own task

Embeds `run_executor` of `runtime/roles/executor.py`, the confidence gate of
`run_pm_tick`, and `triage_request` of `runtime/roles/pm.py`. What a role does with a
model, its memory and the queue of other tasks is a `Seam`: any program that moves no
task. Free-text records and reasoning trajectories, which nothing here reads, are left
out.
-/

set_option autoImplicit false

namespace AiStudio.Runtime

open AiStudio.Data AiStudio.Concurrency

/-! ## Seams -/

/-- The call moves no task that exists. -/
def StoreOp.sparesQueue : StoreOp → Bool
  | .grabTask .. | .transition .. | .rekickTask .. | .escalateStuckTask .. | .failExhausted ..
  | .requestDecision .. | .answerDecision .. | .withdrawDecision .. => false
  | _ => true

/-- Programs that move no task. -/
def roleOutline {α : Type} : Outline database Unit α where
  allows _ o := o.sparesQueue = true
  next _ _ _ := ()
  ends _ _ := True

/-- A part of a role: a program for a task, which moves no task. -/
structure Seam (α : Type) where
  program : Uuid → Task → Process α
  spares : ∀ id row, roleOutline.Holds () (program id row)

/-- A part that does nothing but answer. -/
def Seam.answer {α : Type} (a : α) : Seam α := ⟨fun _ _ => .ret a, fun _ _ => trivial⟩

/-! ## The executor -/

/-- What the executor hands to the verifier and to the worker. -/
structure ExecutorResult where
  ok : Bool
  artifactPath : Option String := none
  marker : Option String := none
  invokeStatus : InvokeStatus := .denied
  approvalId : Option Uuid := none
  note : String := ""

/-- What `run_executor` is given: the tools, the policy of a workstream, and the model
call with the prompt before it. `str` is `str` of a payload value. -/
structure Executor where
  sha256 : String → String
  str : Json Empty → String
  registry : ToolRegistry
  config : Workstream → Policy.PolicyConfig
  complete : Seam String

namespace Executor

variable (e : Executor)

/-- `payload.get("marker") or f"studio-ok:\x7btask.id\x7d"`. -/
def marker (id : Uuid) (row : Task) : Json Empty :=
  let marker := Doc.getD row.payload "marker" .null
  if marker.truthy then marker else .str ("studio-ok:" ++ id.text)

/-- The file the executor writes. -/
def artifactPath (id : Uuid) : String := "work-" ++ id.text ++ ".txt"

/-- What it writes there, with the text of the model in it. -/
def content (text : String) (id : Uuid) (row : Task) : String :=
  e.str (marker id row) ++ "\ngoal: " ++ e.str (Doc.getD row.payload "goal" (.str "")) ++
    "\nexecutor-note: " ++ text ++ "\n"

/-- The gated call that writes it. -/
def write (text : String) (id : Uuid) (row : Task) : InvokeArgs where
  role := "executor"
  toolName := "filesystem"
  workstream := row.workstream.name
  taskId := some id
  kwargs := [("op", .str "write"), ("path", .str (artifactPath id)),
    ("content", .str (e.content text id row))]

/-- What the executor reports of the call. -/
def report (marker : String) (id : Uuid) (result : InvokeResult) : ExecutorResult :=
  let wrote := result.status = .executed && result.result.any (·.ok)
  { ok := wrote
    artifactPath := if wrote then some (artifactPath id) else none
    marker := some marker
    invokeStatus := result.status
    approvalId := if result.status = .pending then result.approvalId else none
    note := if wrote then "wrote artifact" else "tool call not executed: " ++ result.status.value }

/-- `run_executor`; `newId` is the id the database draws if the call pends. -/
def run (newId id : Uuid) (row : Task) : Process ExecutorResult := do
  let text ← e.complete.program id row
  let result ← (e.write text id row).invoke e.sha256 e.registry (e.config row.workstream) newId
  match (marker id row).asStr? with
  | none => .throw (.valueError "ExecutorResult.marker: Input should be a valid string")
  | some marker => do
      let report := report marker id result
      call (.emit (some id) row.workstream
        (.executorActed report.ok report.invokeStatus.value report.artifactPath))
      return report

end Executor

/-! ## The confidence gate of the PM -/

/-- A plan the model drafted, and whether it clears the threshold with work items. -/
structure Plan where
  feasible : Bool
  executable : Bool
  reason : String
  clarification : String
  confidence : Json Empty
  threshold : Json Empty

/-- What the PM decided on a tick; `facts` are the other fields of the result. -/
structure PlanResult where
  decision : String
  reason : String
  approvalId : Option String := none
  facts : Doc := []

/-- `plan.model_dump()`. -/
def PlanResult.dump (result : PlanResult) : Doc :=
  result.facts ++ [("decision", .str result.decision), ("reason", .str result.reason),
    ("approval_id", .ofOption .str result.approvalId)]

/-- What `run_pm_tick` is given: how it drafts a plan and how it decomposes one. -/
structure Pm where
  sha256 : String → String
  obtainPlan : Seam Plan
  decompose : Plan → Seam Doc

/-- `PUSHBACK_TIER` and `ESCALATION_TIER`. -/
def stopTier : String := "🛑"

/-- The id a text column is compared with; the database refuses a text that is none. -/
def parseUuid (text : String) : Except Exn Uuid :=
  if h : isUuidText text = true then .ok ⟨text, h⟩
  else .error (.dataError "invalid input syntax for type uuid")

/-- A request of a role for its own task: it has no capabilities and no arguments. -/
def roleRequest (sha256 : String → String) (role tool reason : String) (id : Uuid) (row : Task) :
    RequestArgs where
  taskId := some id
  role := role
  tool := tool
  capabilities := []
  tier := stopTier
  reason := reason
  workstream := row.workstream.name
  fingerprint := computeFingerprint sha256 Empty.elim (some id) tool [] (some row.workstream.name)
    none

namespace Pm

variable (pm : Pm)

/-- The fingerprint of a pushback on the tick. -/
def pushbackFingerprint (id : Uuid) (row : Task) : String :=
  computeFingerprint pm.sha256 Empty.elim (some id) "pm.plan" [] (some row.workstream.name)
    (some [])

/-- The gate: push back, ask for clarification, or decompose. -/
def gate (plan : Plan) (newId id : Uuid) (row : Task) : Process PlanResult :=
  if !plan.feasible then do
    call (.emit (some id) row.workstream (.pmPushback plan.confidence))
    let reason := if plan.reason = "" then
      "PM pushback: requirement judged infeasible / out of scope" else plan.reason
    let (approvalId, _) ← requestApproval newId (roleRequest pm.sha256 "pm" "pm.plan" reason id row)
    return { decision := "pushback", reason := plan.reason, approvalId := some approvalId.text }
  else if !plan.executable then do
    call (.emit (some id) row.workstream (.pmNeedsClarification plan.confidence plan.threshold))
    return { decision := "needs_clarification", reason := plan.clarification }
  else do
    let facts ← (pm.decompose plan).program id row
    return { decision := "planned", reason := plan.reason, facts := facts }

/-- `run_pm_tick`, without a critic. The grant of an earlier pushback is consumed under
the fingerprint, where `consume_grant` takes the id of a row. -/
def runTick (newId id : Uuid) (row : Task) : Process PlanResult := do
  let plan ← pm.obtainPlan.program id row
  let grant ← call (.findGrant (pm.pushbackFingerprint id row))
  match grant with
  | none => pm.gate plan newId id row
  | some _ =>
      match parseUuid (pm.pushbackFingerprint id row) with
      | .error e => .throw e
      | .ok grantId => do
          let _ ← call (.consumeGrant grantId)
          pm.gate { plan with feasible := true } newId id row

end Pm

/-! ## The intake of feature requests -/

/-- The verdicts on a feature request. -/
inductive TriageVerdict where
  | accept
  | decline
  | clarify
  | escalate
  deriving DecidableEq, Repr

/-- What the intake decided, and its reason. -/
structure TriageDecision where
  verdict : TriageVerdict
  reason : String := ""

/-- What `triage_request` is given: the request and the verdict it reads off the task, and
how it enqueues the work items of an accepted request. -/
structure Triage where
  sha256 : String → String
  fromWorkstream : Task → Except Exn String
  evaluate : Task → Except Exn TriageDecision
  decompose : Seam (List String)

/-- The sub-status of the request after the verdict. -/
def TriageVerdict.status : TriageVerdict → String
  | accept => "accepted"
  | decline => "declined"
  | clarify => "needs_clarification"
  | escalate => "escalated"

/-- The transition that picks the request up. -/
def pickUpArgs (workerId : String) : TransitionArgs where
  agentId := some workerId
  agentType := some "pm"
  claimedBy := some (some workerId)
  setClaimedAt := true
  setHeartbeat := true
  expectedFrom := some [.upForGrabs]

/-- `_ensure_in_progress`: both hops are no-ops on a task that is in progress. -/
def ensureInProgress (workerId : String) (id : Uuid) : Process Unit := do
  let _ ← call (.transition id .claimed (pickUpArgs workerId))
  let _ ← call (.transition id .inProgress
    { agentId := some workerId, agentType := some "pm", expectedFrom := some [.claimed] })

/-- The transition that returns a request to the board. -/
def clarifyArgs : TransitionArgs := { expectedFrom := some [.inProgress], clearClaim := true }

namespace Triage

variable (t : Triage)

/-- `set_request_status` and `emit_request_event`. -/
def record (fromWs : String) (id : Uuid) (row : Task) (status : String) (decision : Option String)
    (reason : String) (workTaskIds : Option (List String)) (approvalId : Option String) :
    Process Unit := do
  call (.setRequestStatus id status reason workTaskIds)
  call (.emit (some id) row.workstream (.request ("request." ++ status) fromWs
    row.workstream.name status decision reason workTaskIds approvalId))

/-- The state the verdict drives the request to. -/
def settle (fromWs : String) (decision : TriageDecision) (newId id : Uuid) (row : Task) :
    Process TriageVerdict :=
  let status := decision.verdict.status
  match decision.verdict with
  | .accept => do
      let ids ← t.decompose.program id row
      record fromWs id row status (some status) decision.reason (some ids) none
      let _ ← completeTask id
        { result := some [("decision", .str status), ("work_task_ids", .arr (ids.map .str))] }
      return .accept
  | .decline => do
      record fromWs id row status (some status) decision.reason none none
      let _ ← completeTask id
        { result := some [("decision", .str status), ("reason", .str decision.reason)],
          status := .abandoned }
      return .decline
  | .clarify => do
      record fromWs id row status (some status) decision.reason none none
      let _ ← call (.transition id .upForGrabs clarifyArgs)
      return .clarify
  | .escalate => do
      let reason := if decision.reason = "" then
        "cross-workstream portfolio/resource decision" else decision.reason
      let (approvalId, _) ← requestApproval newId
        (roleRequest t.sha256 "pm" "request.escalate" reason id row)
      record fromWs id row status (some status) reason none (some approvalId.text)
      let _ ← blockTask id approvalId reason
      return .escalate

/-- `triage_request`. -/
def run (workerId : String) (newId id : Uuid) (row : Task) : Process TriageVerdict :=
  match t.fromWorkstream row with
  | .error e => .throw e
  | .ok fromWs => do
      ensureInProgress workerId id
      record fromWs id row "under_review" none "" none none
      match t.evaluate row with
      | .error e => .throw e
      | .ok decision => t.settle fromWs decision newId id row

end Triage

end AiStudio.Runtime
