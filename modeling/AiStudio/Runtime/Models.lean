import AiStudio.Data.Json
import AiStudio.Data.Text
import AiStudio.Runtime.Capacity
import AiStudio.Runtime.Policy
import AiStudio.Runtime.TaskState

/-!
# Rows and events

Embeds the row models of `runtime/models.py`, `approvals.py`, `decisions.py` and
`trust.py` with their migrations: tasks, transitions, approvals, decisions, trust
records, claims and the event log. A row does not repeat its primary key, which is
the key of its table. An event's payload is one constructor per event type, so that
a type and its fields cannot disagree.
-/

set_option autoImplicit false

namespace AiStudio.Runtime

open AiStudio.Data

/-- A UUID, under its canonical text: `str(id)` is `id.text`. -/
structure Uuid where
  text : String
  canonical : isUuidText text = true
  deriving DecidableEq, Repr

/-- A timestamp, in microseconds. -/
abbrev Time := Int

/-- A workstream name. `make_event` refuses the empty one, so no committed row has it. -/
structure Workstream where
  name : String
  nonempty : name ≠ ""
  deriving DecidableEq

/-- Where a task is meant to run. -/
inductive Assignee where
  | host
  | offhost
  deriving DecidableEq, Repr

/-- What a call raises. -/
inductive Exn where
  /-- `IllegalTransition` of `assert_transition`. -/
  | illegalTransition (source target : TaskStatus)
  | valueError (message : String)
  | dependencyCycle (message : String)
  | decisionParkError (message : String)
  /-- The database refused the statement. -/
  | integrityError (constraint : String)
  | dataError (message : String)
  /-- The connection was lost, or another failure from outside. -/
  | operationalError (message : String)
  /-- A handler, role or model raised. -/
  | runtimeError (message : String)
  /-- The gateway refuses a request. -/
  | httpException (status : Nat) (detail : String)
  /-- `OverBudget` of `budget.py`: a cap blocks the call. -/
  | overBudget (status : BudgetStatus)
  /-- `ProviderFallback`: the next model of the chain should serve the call. -/
  | providerFallback (message : String)
  deriving DecidableEq, Repr

/-! ## The task queue -/

/-- A row of `tasks`. -/
structure Task where
  workstream : Workstream
  type : String
  status : TaskStatus := .upForGrabs
  priority : Int := 0
  assignee : Option Assignee := none
  payload : Doc := []
  result : Option Doc := none
  heartbeatAt : Option Time := none
  claimedBy : Option String := none
  agentType : Option String := none
  claimedAt : Option Time := none
  dependsOn : List Uuid := []
  budgetTokens : Option Int := none
  spentTokens : Int := 0
  retries : Nat := 0
  lastProgressAt : Option Time := none
  noProgressRekicks : Nat := 0
  stallReason : Option String := none
  nudgedAt : Option Time := none
  createdAt : Time
  updatedAt : Time
  trajectoryId : Option Uuid := none

/-- The approval a task's result says it waits for. -/
def Task.blockedOnApproval (t : Task) : Option String :=
  t.result.bind (·.getStr? "blocked_on_approval")

/-- The decision a task's result says it waits for. -/
def Task.blockedOnDecision (t : Task) : Option String :=
  t.result.bind (·.getStr? "blocked_on_decision")

/-- A row of `task_transitions`. -/
structure TaskTransition where
  taskId : Uuid
  fromStatus : TaskStatus
  toStatus : TaskStatus
  agentId : Option String
  agentType : Option String
  time : Time
  latencyMs : Int
  deriving DecidableEq

/-! ## Approvals, decisions, trust -/

/-- The statuses of an approval row. -/
inductive ApprovalStatus where
  | pending
  | approved
  | denied
  | consumed
  deriving DecidableEq, Repr

/-- A row of `approvals`. -/
structure Approval where
  taskId : Option Uuid
  role : String
  tool : String
  capabilities : List String
  tier : String
  reason : String
  requestFingerprint : String
  status : ApprovalStatus := .pending
  createdAt : Time
  resolvedAt : Option Time := none
  resolver : Option String := none
  deriving DecidableEq

/-- The statuses of a decision row. -/
inductive DecisionStatus where
  | «open»
  | answered
  | withdrawn
  deriving DecidableEq, Repr

/-- A row of `decisions`. -/
structure Decision where
  workstream : Workstream
  question : String
  options : Option (List String) := none
  status : DecisionStatus := .open
  answer : Option String := none
  answeredBy : Option String := none
  dependentTaskId : Option Uuid := none
  defaultChoice : Option String := none
  seq : Nat
  createdAt : Time
  answeredAt : Option Time := none
  deriving DecidableEq

/-- The trust states of an identity. -/
inductive TrustState where
  | trusted
  | quarantined
  | revoked
  deriving DecidableEq, Repr

/-- A row of `identity_trust`, with the column defaults of its migration. -/
structure IdentityTrust where
  trustState : TrustState := .trusted
  humanRelayAllowed : Bool := true
  strikes : Nat := 0
  lastStrikeAt : Option Time := none
  createdAt : Time
  updatedAt : Time
  deriving DecidableEq

/-- The verdicts on a claim. -/
inductive VerificationStatus where
  | verified
  | rejected
  | unverifiable
  deriving DecidableEq, Repr

/-- A row of `comms_claims`. -/
structure CommsClaim where
  messageRef : Option String
  originatingIdentity : String
  statement : String
  evidence : List Doc
  isJudgment : Bool
  verificationStatus : Option VerificationStatus := none
  verifiedBy : Option String := none
  reason : Option String := none
  seq : Nat
  createdAt : Time

/-! ## The event log -/

/-- The facts of an approval that its events carry. -/
structure ApprovalNotice where
  approvalId : Uuid
  taskId : Option Uuid
  role : String
  tool : String
  tier : String
  reason : String
  capabilities : List String
  status : ApprovalStatus
  resolver : Option String
  deriving DecidableEq

/-- The payload of `approvals._emit`. -/
def Approval.notice (a : Approval) (id : Uuid) : ApprovalNotice :=
  ⟨id, a.taskId, a.role, a.tool, a.tier, a.reason, a.capabilities, a.status, a.resolver⟩

/-- The facts of a decision that its events carry: no question, no answer. -/
structure DecisionNotice where
  decisionId : Uuid
  workstream : Workstream
  seq : Nat
  status : DecisionStatus
  hasOptions : Bool
  hasDefault : Bool
  dependentTaskId : Option Uuid
  answeredBy : Option String
  deriving DecidableEq

/-- The payload of `decisions._emit`. -/
def Decision.notice (d : Decision) (id : Uuid) : DecisionNotice :=
  ⟨id, d.workstream, d.seq, d.status, (d.options.getD []) ≠ [], d.defaultChoice.isSome,
    d.dependentTaskId, d.answeredBy⟩

/-- The facts of a `model.call`. -/
structure ModelCallNotice where
  model : String
  provider : String
  role : String
  taskType : String
  taskId : Option Uuid
  inputTokens : Int
  outputTokens : Int
  cachedTokens : Int
  costUsd : ℚ
  latencyMs : Int

/-- What a process appends to the log by itself, through its event sink. -/
inductive SinkPayload where
  | modelRouted (model provider tier taskType quality : String) (downshifted : Bool)
      (reason : String)
  | modelCall (notice : ModelCallNotice)
  | modelCallFailed (errorType model provider role taskType : String) (taskId : Option Uuid)
  | budgetExceeded (reason : String) (status : BudgetNotice)
  | budgetCheckpoint (status : BudgetNotice)
  | budgetWarn (notice : ZoneNotice)
  | budgetThrottle (notice : ZoneNotice)
  | budgetReserve (notice : ZoneNotice)
  /-- The request of an `invoke` without a connection: no row stands behind it. -/
  | approvalRequestedEphemeral (approvalId : Uuid) (argKeys : List String)
      (decision : Policy.Decision)
  | approvalResumed (approvalId status : String)
  | policyDecision (argKeys : List String) (decision : Policy.Decision)
  | toolInvoked (tool role : String) (tier : Policy.ActionTier) (argKeys : List String)
      (approvalId : Option Uuid)
  | executorActed (ok : Bool) (invokeStatus : String) (artifactPath : Option String)
  | workRetry (attempt : Nat)
  | retroTriggered (retroTaskId : Uuid) (outcome mode : String)
  | reviewTriggered (reviewTaskId : Uuid) (outcome mode : String)
  | pmPushback (confidence : Json Empty)
  | pmNeedsClarification (confidence threshold : Json Empty)
  | pmPlanned (confidence : Json Empty) (workTaskIds : List Uuid)
  | taskReplanned (subtaskIds : List Uuid) (replanDepth : Int)
  | taskReplanEscalated (replanDepth maxDepth : Int) (approvalId : Option String)
  /-- A `request.*` event: its type, the request, and its sub-status. -/
  | request (type fromWorkstream toWorkstream status : String) (decision : Option String)
      (reason : String) (workTaskIds : Option (List String)) (approvalId : Option String)
  | gatewayAccess (identity verb scope : String) (status : Nat) (reason : Option String)
  | gatewayDenied (identity verb scope : String) (status : Nat) (reason : Option String)
  | humanMessage (channel : String) (chars : Nat)
  | humanGoal (taskId : Uuid) (source : String)
  | handoffProposed (handoffId approvalId : Uuid) (role : String)
  | handoffActivated (handoffId approvalId : Uuid) (role : String)
  | handoffEnded (handoffId : Uuid) (role : String)
  | skillAdopted (slug source approver : String) (approvalId : Uuid) (reviewed autoAdopted : Bool)
  | reviewFlagged (targetTaskId targetTaskType : Option String) (severity : String)
      (signalCount : Nat) (reasons : List String)
  | reviewAlarm (targetTaskId targetTaskType : Option String) (severity : String)
      (signalCount : Nat) (reasons : List String)
  | spokesmanPrepReady (taskId : String) (questions : Nat) (refreshedAt : String)

/-- What an event carries, one constructor per event type. The lifecycle payloads
carry the task's status after the change. -/
inductive Payload where
  | taskCreated (status : TaskStatus) (type : String) (priority : Int)
  | taskTransition (status source target : TaskStatus) (agentId agentType : Option String)
      (latencyMs : Int)
  | taskFinished (status : TaskStatus) (spentTokens : Int)
  | taskNudge (status : TaskStatus) (grace : Time)
  | taskRekicked (status : TaskStatus) (retries : Nat) (madeProgress : Option Bool)
      (noProgressRekicks : Nat)
  | taskStuck (status : TaskStatus) (stallReason : String) (noProgressRekicks retries : Nat)
  | taskFailedExhausted (status : TaskStatus) (retries maxRetries : Nat)
  | approvalRequested (notice : ApprovalNotice)
  | approvalResolved (notice : ApprovalNotice)
  | decisionRequested (notice : DecisionNotice)
  | decisionAnswered (notice : DecisionNotice)
  | commsClaimVerified (claimId : Uuid) (identity verifiedBy : String)
  | commsClaimRejected (claimId : Uuid) (identity verifiedBy : String)
  | commsProofRequested (identity : String) (claimId : Option String)
  | commsFabricationDetected (identity : String) (claimId : Option String) (kind : String)
      (strikes : Nat)
  | trustStrike (identity : String) (claimId : Option String) (kind : String) (strikes : Nat)
  | trustCapabilityRevoked (identity : String) (claimId : Option String) (kind : String)
  | sink (payload : SinkPayload)

/-- A row of `events`. The position in the log is `seq`. -/
structure Event where
  ts : Time
  taskId : Option Uuid
  workstream : Workstream
  payload : Payload

/-- The payload of a `task.finished`. -/
def Payload.isTaskFinished : Payload → Bool
  | .taskFinished .. => true
  | _ => false

/-- The payload of a `trust.strike` against an identity. -/
def Payload.isStrikeOf (identity : String) : Payload → Bool
  | .trustStrike i .. => i = identity
  | _ => false

end AiStudio.Runtime
