import AiStudio.Gateway.Auth
import AiStudio.Runtime.Prerequisites
import AiStudio.Runtime.Roles
import AiStudio.Spokesman.Notifications

/-!
# Requests to the gateway

Embeds the endpoints of `gateway/app.py` from the request on: the gate with its audited
refusals, the reads, and the writes of `Endpoints` behind them. A request is a program over the
database and the rate limiter; each read is one query.
-/

set_option autoImplicit false

namespace AiStudio.Gateway

open AiStudio.Data AiStudio.Concurrency AiStudio.Runtime AiStudio.Spokesman

/-! ## Rows of the reads -/

/-- The type of an event. -/
def eventType : Payload → String
  | .taskCreated .. => "task.created"
  | .taskTransition .. => "task.transition"
  | .taskFinished .. => "task.finished"
  | .taskNudge .. => "task.nudge"
  | .taskRekicked .. => "task.rekicked"
  | .taskStuck .. => "task.stuck"
  | .taskFailedExhausted .. => "task.failed_exhausted"
  | .approvalRequested _ => "approval.requested"
  | .approvalResolved _ => "approval.resolved"
  | .decisionRequested _ => "decision.requested"
  | .decisionAnswered _ => "decision.answered"
  | .commsClaimVerified .. => "comms.claim_verified"
  | .commsClaimRejected .. => "comms.claim_rejected"
  | .commsProofRequested .. => "comms.proof_requested"
  | .commsFabricationDetected .. => "comms.fabrication_detected"
  | .trustStrike .. => "trust.strike"
  | .trustCapabilityRevoked .. => "trust.capability_revoked"
  | .sink payload =>
      match payload with
      | .modelRouted .. => "model.routed"
      | .modelCall _ => "model.call"
      | .modelCallFailed .. => "model.call.failed"
      | .budgetExceeded .. => "budget.exceeded"
      | .budgetCheckpoint _ => "budget.checkpoint"
      | .budgetWarn _ => "budget.warn"
      | .budgetThrottle _ => "budget.throttle"
      | .budgetReserve _ => "budget.reserve"
      | .approvalRequestedEphemeral .. => "approval.requested"
      | .approvalResumed .. => "approval.resumed"
      | .policyDecision .. => "policy.decision"
      | .toolInvoked .. => "tool.invoked"
      | .executorActed .. => "executor.acted"
      | .workRetry _ => "work.retry"
      | .retroTriggered .. => "retro.triggered"
      | .reviewTriggered .. => "review.triggered"
      | .pmPushback _ => "pm.pushback"
      | .pmNeedsClarification .. => "pm.needs_clarification"
      | .pmPlanned .. => "pm.planned"
      | .taskReplanned .. => "task.replanned"
      | .taskReplanEscalated .. => "task.replan_escalated"
      | .request type .. => type
      | .gatewayAccess .. => "gateway.access"
      | .gatewayDenied .. => "gateway.denied"
      | .humanMessage .. => "human.message"
      | .humanGoal .. => "human.goal"
      | .handoffProposed .. => "handoff.proposed"
      | .handoffActivated .. => "handoff.activated"
      | .handoffEnded .. => "handoff.ended"
      | .skillAdopted .. => "skill.adopted"
      | .reviewFlagged .. => "review.flagged"
      | .reviewAlarm .. => "review.alarm"
      | .spokesmanPrepReady .. => "spokesman.prep_ready"

/-- An event as `events_recent` shows it: types and ids, no bodies. -/
structure EventRow where
  seq : Nat
  type : String
  workstream : String
  taskId : Option Uuid
  ts : Time

/-- A row of the log as the endpoint shows it. -/
def eventRow (r : Nat × Event) : EventRow :=
  ⟨r.1, eventType r.2.payload, r.2.workstream.name, r.2.taskId, r.2.ts⟩

/-- The events of `events_recent`, newest first. -/
def recentEvents (s : Store) (workstream : Option String) (taskId : Option Uuid) (limit : Nat) :
    List EventRow :=
  ((((eventRows s).filter fun r => workstream.all (r.2.workstream.name = ·) &&
    taskId.all (r.2.taskId = some ·)).insertionSort (·.1 ≥ ·.1)).take limit).map eventRow

/-- A task in flight as `agents_status` shows it. -/
structure AgentRow where
  taskId : Uuid
  workstream : String
  type : String
  status : TaskStatus
  agentType : Option String
  identity : Option String
  assignee : Option Assignee
  priority : Int
  heartbeatAt : Option Time
  claimedAt : Option Time
  updatedAt : Time

/-- A task as the endpoint shows it. -/
def agentRow (r : Uuid × Task) : AgentRow where
  taskId := r.1
  workstream := r.2.workstream.name
  type := r.2.type
  status := r.2.status
  agentType := r.2.agentType
  identity := r.2.claimedBy
  assignee := r.2.assignee
  priority := r.2.priority
  heartbeatAt := r.2.heartbeatAt
  claimedAt := r.2.claimedAt
  updatedAt := r.2.updatedAt

/-- `ORDER BY heartbeat_at DESC NULLS LAST, updated_at DESC`. -/
def freshestFirst (x y : Task) : Bool :=
  match x.heartbeatAt, y.heartbeatAt with
  | some a, some b => b < a || a = b && y.updatedAt ≤ x.updatedAt
  | some _, none => true
  | none, some _ => false
  | none, none => y.updatedAt ≤ x.updatedAt

/-- The states of a task that someone works on or waits for. -/
def agentStates : List TaskStatus :=
  [.claimed, .inProgress, .readyForReview, .reviewerBlocked, .approved, .blocked]

/-- The rows of `agents_status`. -/
def agents (s : Store) (workstream : Option String) : List AgentRow :=
  (((s.tasks.select fun _ row => agentStates.contains row.status &&
    workstream.all (row.workstream.name = ·)).insertionSort
      (freshestFirst ·.2 ·.2)).take 200).map agentRow

/-- `list_for_review`, oldest first within a priority. -/
def listForReview (s : Store) (workstream : Option String) (limit : Nat) : List (Uuid × Task) :=
  ((s.tasks.select fun _ row => row.status = .readyForReview &&
    workstream.all (row.workstream.name = ·)).insertionSort
      (orderBy defaultSortTerms · ·)).take limit

/-! ## Calls -/

/-- What the process of the gateway is started with. -/
structure Server extends Settings where
  tokens : TokenRegistry
  /-- `token_digest`. -/
  digest : String → String
  maxLimit : Nat := 100
  /-- `default_traffic()`. -/
  traffic : String

/-- The decision of a request, the opening of a connection, and the reads. -/
inductive GatewayOp where
  | authorize (a : AuthArgs) (now : ℚ)
  | connect
  | readyTasks (workstream : Option String) (limit : Nat)
  | waitingTasks (workstream : Option String)
  | listForReview (workstream : Option String) (limit : Nat)
  | agents (workstream : Option String)
  | studioStatus (workstreams : List String)
  | recentEvents (workstream : Option String) (taskId : Option Uuid) (limit : Nat)

namespace GatewayOp

/-- What a call returns. -/
def Res (server : Server) : GatewayOp → Type
  | authorize a _ => Decision a server.tokens server.digest
  | connect => Unit
  | readyTasks .. => List (Uuid × Task)
  | waitingTasks _ => List WaitingTask
  | listForReview .. => List (Uuid × Task)
  | agents _ => List AgentRow
  | studioStatus _ => StudioStatus
  | recentEvents .. => List EventRow

/-- A call that goes through. -/
def exec (server : Server) : (o : GatewayOp) → Store × RateLimiter →
    Except Exn (o.Res server × (Store × RateLimiter))
  | authorize a now => fun s =>
      let decided := a.authorize server.tokens server.digest s.2 now
      .ok (decided.1, (s.1, decided.2))
  | connect => fun s => .ok ((), s)
  | readyTasks workstream limit => fun s =>
      .ok (s.1.readyTasks none workstream (some limit), s)
  | waitingTasks workstream => fun s => .ok (s.1.waitingTasks workstream, s)
  | listForReview workstream limit => fun s => .ok (Gateway.listForReview s.1 workstream limit, s)
  | agents workstream => fun s => .ok (Gateway.agents s.1 workstream, s)
  | studioStatus workstreams => fun s => .ok (Spokesman.studioStatus s.1 none workstreams, s)
  | recentEvents workstream taskId limit => fun s =>
      .ok (Gateway.recentEvents s.1 workstream taskId limit, s)

end GatewayOp

/-- The database and the rate limiter as the requests see them. -/
abbrev service (server : Server) : Interface (Store × RateLimiter) Exn :=
  database.beside
    { Op := GatewayOp
      Res := GatewayOp.Res server
      exec := GatewayOp.exec server }

variable {server : Server}

/-- A program over them. -/
abbrev Serving (server : Server) (α : Type) := Program (service server) α

/-- One call of the gateway's own. -/
abbrev gatewayCall (o : GatewayOp) : Serving server (o.Res server) := Program.op (I := service server) (.inr o)

/-! ## The gate -/

/-- `_audit_denied`: a refusal without an identity touches no database. -/
def auditDenied (denied : Denied) (verb scope : String) : Serving server Unit :=
  match denied.identity with
  | none => .ret ()
  | some identity =>
      ((gatewayCall .connect).bind fun _ =>
        (audit none none
          (.gatewayDenied identity verb scope denied.status (some denied.reason))).inl).tryCatch
        fun _ => .ret ()

/-- Behind the decision: a refusal is audited and raised. -/
def goOn (verb scope : String) : Except Denied (Token × Allowed) → Serving server (Token × Allowed)
  | .ok admitted => .ret admitted
  | .error denied =>
      (auditDenied denied verb scope).bind fun _ =>
        .throw (.httpException denied.status denied.reason)

/-- `_gate`. -/
def gate (verb : String) (a : AuthArgs) (now : ℚ) : Serving server (Token × Allowed) :=
  (gatewayCall (.authorize a now)).bind fun decision => goOn verb a.scopeText decision.outcome

/-- `_open`: an outage is a 503, whatever the driver says. -/
def openStore : Serving server Unit :=
  (gatewayCall .connect).tryCatch fun _ =>
    .throw (.httpException 503 "runtime store unavailable")

/-- The audit event of a request that went through. -/
def auditAccess (allowed : Allowed) (verb scope : String) (taskId : Option Uuid)
    (workstream : Option String) : Serving server Unit :=
  (audit taskId workstream (.gatewayAccess allowed.identity verb scope 200 none)).inl

/-! ## Requests -/

/-- A request, as the validators of the models leave it. -/
inductive Request where
  | health
  | whoami
  | listReady (workstream : Option String) (limit : Option Int)
  | listWaiting (workstream : Option String)
  | listReview (workstream : Option String) (limit : Option Int)
  | readTask (id : Uuid)
  | enqueue (newId : Uuid) (workstream : Option String) (req : EnqueueRequest)
  | claim (workstream agentType : Option String) (locked : List Uuid)
  | agentsStatus (workstream : Option String)
  | studioStatus
  | eventsRecent (limit : Option Int) (workstream taskId : Option String)
  | agentsEnv
  | heartbeat (id : Uuid)
  | complete (id : Uuid) (req : CompleteRequest)

/-- The body of a reply. A list is sent with its length. -/
inductive Response where
  | health (tokensConfigured : Nat)
  | whoami (identity : String) (scopes workstreams : List String)
      (defaultWorkstream : Option String)
  | tasks (tasks : List (Uuid × Task))
  | waiting (tasks : List WaitingTask)
  | task (id : Uuid) (task : Task)
  | claimed (task : Option (Uuid × Task))
  | agents (agents : List AgentRow)
  | status (status : StudioStatus) (openTasks : Nat) (workstream : Option String)
      (workstreams : List String)
  | events (events : List EventRow)
  | env (traffic identity : String) (scopes : List String) (workstreamPin : Option String)
      (gatewayWorkstream : String)

/-- `sorted` of a set of names. -/
def sorted (names : List String) : List String := names.dedup.insertionSort (· ≤ ·)

/-- `_clamp_limit`. -/
def Server.clampLimit (server : Server) (limit : Option Int) : Nat :=
  match limit with
  | none => server.maxLimit
  | some limit => if limit ≤ 0 then server.maxLimit else min limit.toNat server.maxLimit

/-- The number of events asked for, between 1 and 200. -/
def eventLimit (limit : Option Int) : Nat :=
  let limit := limit.getD 0
  (max 1 (min (if limit = 0 then 50 else limit) 200)).toNat

/-- `UUID(text)`: a URN prefix, braces and hyphens are optional. -/
def readUuid (text : String) : Option Uuid :=
  let hex := ((text.replace "urn:" "").replace "uuid:" "").toList.dropWhile
    (fun c => c = '\x7b' || c = '\x7d')
  let hex := ((hex.rdropWhile fun c => c = '\x7b' || c = '\x7d').filter (· ≠ '-')).map Char.toLower
  let grouped := String.ofList (hex.take 8 ++ '-' :: (hex.drop 8).take 4 ++ '-' ::
    (hex.drop 12).take 4 ++ '-' :: (hex.drop 16).take 4 ++ '-' :: hex.drop 20)
  if h : isUuidText grouped = true then some ⟨grouped, h⟩ else none

/-- The task a request for events asks for; an empty text asks for none. -/
def eventTask (taskId : Option String) : Except Exn (Option Uuid) :=
  match taskId with
  | none => .ok none
  | some text =>
      if text = "" then .ok none
      else
        match readUuid (strip text) with
        | none => .error (.httpException 400 "task_id must be a UUID")
        | some id => .ok (some id)

/-- The refusals of an enqueue that come before a connection is opened. -/
def EnqueueRequest.reachesStore (req : EnqueueRequest) (server : Server) (allowed : Allowed) :
    Bool :=
  allowed.workstream.isSome && (Json.render (.obj req.payload)).length ≤ server.maxPayloadBytes

/-- The opening of the connection an enqueue needs. -/
def EnqueueRequest.openStore (req : EnqueueRequest) (allowed : Allowed) : Serving server Unit :=
  if req.reachesStore server allowed then Gateway.openStore else .ret ()

/-- A list endpoint: the gate, the connection, the query and the audit. -/
def serveList {α : Type} (verb : String) (authorization : Option String)
    (workstream : Option String) (now : ℚ) (query : Option String → Serving server α) :
    Serving server α := do
  let (_, allowed) ← gate verb { authorization, scope := some .read, workstream } now
  openStore
  let rows ← query allowed.workstream
  auditAccess allowed verb "read" none allowed.workstream
  return rows

/-- `GET /v1/tasks/{task_id}`. -/
def serveReadTask (id : Uuid) (authorization : Option String) (now : ℚ) :
    Serving server Response := do
  let (_, allowed) ← gate "read_task"
    { authorization, scope := some .read, workstreamOptional := true } now
  openStore
  match ← (call (.getTask id)).inl with
  | none => .throw (.httpException 404 "task not found")
  | some task =>
      if !allowed.allowsWorkstream task.workstream.name then
        (deny allowed "read_task" "read" "workstream_denied").inl
      else do
        auditAccess allowed "read_task" "read" (some id) (some task.workstream.name)
        return .task id task

/-- `POST /v1/tasks`. -/
def serveEnqueue (newId : Uuid) (workstream : Option String) (req : EnqueueRequest)
    (authorization : Option String) (now : ℚ) : Serving server Response := do
  let (_, allowed) ← gate "enqueue" { authorization, scope := some .enqueue, workstream } now
  req.openStore allowed
  let task ← (enqueue newId server.toSettings allowed req).inl
  return .task newId task

/-- `GET /v1/studio/status`: the scope is all the workstreams the token is pinned to. -/
def serveStatus (authorization : Option String) (now : ℚ) : Serving server Response := do
  let (token, allowed) ← gate "studio_status"
    { authorization, scope := some .read, workstreamOptional := true } now
  openStore
  let pins := sorted token.workstreams
  let status ← gatewayCall (.studioStatus pins)
  auditAccess allowed "studio_status" "read" none allowed.workstream
  return .status status status.openTasks allowed.workstream pins

/-- `GET /v1/events/recent`. -/
def serveEvents (limit : Option Int) (workstream taskId : Option String)
    (authorization : Option String) (now : ℚ) : Serving server Response := do
  let (_, allowed) ← gate "events_recent" { authorization, scope := some .read, workstream } now
  openStore
  match eventTask taskId with
  | .error e => .throw e
  | .ok taskId => do
      let events ← gatewayCall (.recentEvents allowed.workstream taskId (eventLimit limit))
      auditAccess allowed "events_recent" "read" none allowed.workstream
      return .events events

/-- `GET /v1/agents/env`: the audit is made when the store is up. -/
def serveEnv (authorization : Option String) (now : ℚ) : Serving server Response := do
  let (token, allowed) ← gate "agents_env"
    { authorization, scope := some .read, workstreamOptional := true } now
  let () ← (openStore.bind fun _ => auditAccess allowed "agents_env" "read" none none).tryCatch
    fun _ => .ret ()
  return .env server.traffic allowed.identity (sorted (token.scopes.map Scope.value))
    allowed.workstream gatewayWorkstream.name

/-- What a request does, with the credential it shows, at a reading of the limiter's clock. -/
def serve (request : Request) (authorization : Option String) (now : ℚ) :
    Serving server Response :=
  match request with
  | .health => .ret (.health server.tokens.tokens.length)
  | .whoami => do
      let (token, allowed) ← gate "whoami"
        { authorization, scope := none, workstreamOptional := true } now
      return .whoami allowed.identity (sorted (token.scopes.map Scope.value))
        (sorted token.workstreams) allowed.workstream
  | .listReady workstream limit => do
      let tasks ← serveList "list_ready" authorization workstream now fun scope =>
        gatewayCall (.readyTasks scope (server.clampLimit limit))
      return .tasks tasks
  | .listWaiting workstream => do
      let tasks ← serveList "list_waiting" authorization workstream now fun scope =>
        gatewayCall (.waitingTasks scope)
      return .waiting tasks
  | .listReview workstream limit => do
      let tasks ← serveList "list_review" authorization workstream now fun scope =>
        gatewayCall (.listForReview scope (server.clampLimit limit))
      return .tasks tasks
  | .readTask id => serveReadTask id authorization now
  | .enqueue newId workstream req => serveEnqueue newId workstream req authorization now
  | .claim workstream agentType locked => do
      let (_, allowed) ← gate "claim" { authorization, scope := some .claim, workstream } now
      openStore
      let task ← (claim allowed agentType locked).inl
      return .claimed task
  | .agentsStatus workstream => do
      let rows ← serveList "agents_status" authorization workstream now fun scope =>
        gatewayCall (.agents scope)
      return .agents rows
  | .studioStatus => serveStatus authorization now
  | .eventsRecent limit workstream taskId =>
      serveEvents limit workstream taskId authorization now
  | .agentsEnv => serveEnv authorization now
  | .heartbeat id => do
      let (_, allowed) ← gate "heartbeat" { authorization, scope := some .claim } now
      openStore
      let task ← (heartbeatTask id allowed).inl
      return .task id task
  | .complete id req => do
      let (_, allowed) ← gate "complete" { authorization, scope := some .complete } now
      openStore
      let task ← (complete id req allowed).inl
      return .task id task

end AiStudio.Gateway
