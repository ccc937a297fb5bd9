import AiStudio.Runtime.Roles

/-!
# The worker

Embeds `runtime/worker.py`: the handlers, their dispatch by task type, `run_once`, and
the pass over parked tasks. The parts of a role that move no task are seams of the
worker, as they are parameters of `run_once`. The `detail` text of a result, which only
the log reads, is left out.
-/

set_option autoImplicit false

namespace AiStudio.Runtime

open AiStudio.Data AiStudio.Concurrency

/-! ## Configuration -/

/-- When a terminal work task triggers a retro. -/
inductive RetroMode where
  | onFail
  | always
  | off
  deriving DecidableEq, Repr

/-- The wire string of a retro mode. -/
def RetroMode.value : RetroMode → String
  | onFail => "on_fail"
  | always => "always"
  | off => "off"

/-- When a terminal work task triggers a review. -/
inductive ReviewMode where
  | onRisk
  | always
  | off
  deriving DecidableEq, Repr

/-- The wire string of a review mode. -/
def ReviewMode.value : ReviewMode → String
  | onRisk => "on_risk"
  | always => "always"
  | off => "off"

/-- The verdict of the verifier. -/
structure Verdict where
  passed : Bool
  reason : String

/-- The roles whose handler runs them and merges the task with their result. -/
inductive CommitRole where
  | retro
  | research
  | sourcing
  | failureAnalysis
  | curator
  | skillLifecycle
  | review
  | capacity
  deriving DecidableEq, Repr

/-- A worker: its identity and claim filter, the tools and the policy of a workstream,
the base modes, the ids the database draws for it, and the seams of its roles. -/
structure Worker where
  workerId : String
  assignee : Option Assignee := none
  workstream : Option String := none
  sha256 : String → String
  str : Json Empty → String
  registry : ToolRegistry
  config : Workstream → Policy.PolicyConfig
  maxAttempts : Nat := 2
  retroMode : RetroMode := .onFail
  reviewMode : ReviewMode := .onRisk
  approvalId : Nat → Uuid
  retroId : Uuid
  reviewId : Uuid
  complete : Seam String
  verify : ExecutorResult → Seam Verdict
  resolveIntensity : ReviewMode → RetroMode → Seam (ReviewMode × RetroMode)
  commit : CommitRole → Seam Doc
  replan : Uuid → Seam Doc
  prep : Seam Doc
  obtainPlan : Seam Plan
  decompose : Plan → Seam Doc
  triage : Triage

/-- What a pass of `run_once` was about. -/
inductive RunKind where
  | pm
  | replan
  | work
  | code
  | commit (role : CommitRole)
  | spokesmanPrep
  | triage
  | unknown
  deriving DecidableEq, Repr

/-- What became of the task. -/
inductive RunOutcome where
  | done
  | failed
  | blocked
  deriving DecidableEq, Repr

/-- The wire string of an outcome. -/
def RunOutcome.value : RunOutcome → String
  | done => "done"
  | failed => "failed"
  | blocked => "blocked"

/-- What one pass of `run_once` did. -/
structure RunResult where
  taskId : Uuid
  taskType : String
  kind : RunKind
  outcome : RunOutcome

namespace Worker

variable (w : Worker)

/-- The claim of the worker. -/
def grab : GrabArgs where
  workerId := w.workerId
  assignee := w.assignee
  workstream := w.workstream

/-- The executor of the worker. -/
def executor : Executor := ⟨w.sha256, w.str, w.registry, w.config, w.complete⟩

/-- The PM of the worker. -/
def pm : Pm := ⟨w.sha256, w.obtainPlan, w.decompose⟩

/-- A heartbeat between two phases. -/
def beat (id : Uuid) : Process Unit := do
  let _ ← call (.heartbeat id w.workerId)

/-! ## After a terminal work task -/

/-- The episode looks risky: it failed, was re-kicked, or blew its token budget. -/
def episodeIsRisky (row : Task) (outcome : RunOutcome) : Bool :=
  outcome = .failed || 0 < row.retries ||
    row.budgetTokens.any fun budget => budget ≠ 0 && budget < row.spentTokens

/-- `_maybe_enqueue_review`. -/
def maybeEnqueueReview (id : Uuid) (row : Task) (outcome : RunOutcome) (exec : ExecutorResult)
    (mode : ReviewMode) : Process Unit :=
  if mode = .off || mode = .onRisk && !episodeIsRisky row outcome then .ret ()
  else do
    let _ ← call (.enqueueTask w.reviewId {
      workstream := row.workstream.name
      type := "review"
      payload := [("target_task_id", .str id.text), ("target_task_type", .str row.type),
        ("outcome", .str outcome.value), ("artifact_path", .ofOption .str exec.artifactPath),
        ("marker", .ofOption .str exec.marker), ("spent_tokens", .int row.spentTokens),
        ("budget_tokens", .ofOption .int row.budgetTokens), ("retries", .int row.retries)]
      priority := row.priority })
    call (.emit (some id) row.workstream
      (.reviewTriggered w.reviewId outcome.value mode.value))

/-- `_maybe_enqueue_retro`. -/
def maybeEnqueueRetro (id : Uuid) (row : Task) (outcome : RunOutcome) (detail : String)
    (mode : RetroMode) : Process Unit :=
  if mode = .off || mode = .onFail && outcome ≠ .failed then .ret ()
  else do
    let _ ← call (.enqueueTask w.retroId {
      workstream := row.workstream.name
      type := "retro"
      payload := [("target_task_id", .str id.text), ("target_task_type", .str row.type),
        ("outcome", .str outcome.value), ("reason", .str detail)]
      priority := row.priority })
    call (.emit (some id) row.workstream (.retroTriggered w.retroId outcome.value mode.value))

/-! ## Work tasks -/

/-- A hop of the work loop: the role that makes it, and what it records. -/
def hop (agentType : String) (result : Option Doc) : TransitionArgs where
  agentId := some w.workerId
  agentType := some agentType
  result := result.map some

/-- The result of a verdict on an attempt. -/
def verdictDoc (verdict : Verdict) (attempt : Nat) : Doc :=
  [("verified", .bool verdict.passed), ("reason", .str verdict.reason), ("attempt", .int attempt)]

/-- The review passed: `approved`, then `merged`. -/
def passed (id : Uuid) (row : Task) (exec : ExecutorResult) (verdict : Verdict)
    (review : ReviewMode) (retro : RetroMode) : Process RunResult := do
  let _ ← call (.transition id .approved
    (w.hop "verifier" (some [("verified", .bool true), ("reason", .str verdict.reason)])))
  let finished ← call (.transition id .merged (w.hop "verifier" (some
    [("verified", .bool true), ("reason", .str verdict.reason),
      ("artifact_path", .ofOption .str exec.artifactPath)])))
  w.maybeEnqueueRetro id row .done verdict.reason retro
  w.maybeEnqueueReview id (finished.getD row) .done exec review
  return ⟨id, row.type, .work, .done⟩

/-- The last attempt failed its review: `abandoned`. -/
def exhausted (id : Uuid) (row : Task) (exec : ExecutorResult) (verdict : Verdict) (attempt : Nat)
    (review : ReviewMode) (retro : RetroMode) : Process RunResult := do
  let detail := "verify failed after " ++ toString attempt ++ " attempt(s): " ++ verdict.reason
  let finished ← call (.transition id .abandoned
    (w.hop "verifier" (some (verdictDoc verdict attempt))))
  w.maybeEnqueueRetro id row .failed detail retro
  w.maybeEnqueueReview id (finished.getD row) .failed exec review
  return ⟨id, row.type, .work, .failed⟩

/-- Park a task on the approval its tool call waits for; `str(None)` if there is none. -/
def block (id : Uuid) : Option Uuid → Process (Option Task)
  | some approvalId => blockTask id approvalId "awaiting 🔴 approval"
  | none => call (.transition id .blocked {
      expectedFrom := some [.inProgress]
      result := some (some [("blocked_on_approval", .str "None"),
        ("reason", .str "awaiting 🔴 approval")]) })

/-- The attempts of the work loop from `attempt` on, `left` of them. -/
def attempts (id : Uuid) (row : Task) (review : ReviewMode) (retro : RetroMode) (attempt : Nat) :
    Nat → Process (Option RunResult)
  | 0 => .ret none
  | left + 1 => do
      w.beat id
      let exec ← w.executor.run (w.approvalId attempt) id row
      if exec.invokeStatus = .pending then do
        let _ ← block id exec.approvalId
        return some ⟨id, row.type, .work, .blocked⟩
      else do
        w.beat id
        let _ ← call (.transition id .readyForReview (w.hop "executor" (some
          [("artifact_path", .ofOption .str exec.artifactPath), ("attempt", .int attempt)])))
        let verdict ← (w.verify exec).program id row
        w.beat id
        if verdict.passed then do
          let result ← w.passed id row exec verdict review retro
          return some result
        else do
          let _ ← call (.transition id .reviewerBlocked
            (w.hop "verifier" (some (verdictDoc verdict attempt))))
          match left with
          | 0 => do
              let result ← w.exhausted id row exec verdict attempt review retro
              return some result
          | left + 1 => do
              let _ ← call (.transition id .inProgress (w.hop "executor" none))
              call (.emit (some id) row.workstream (.workRetry attempt))
              attempts id row review retro (attempt + 1) (left + 1)

/-- `_dispatch_work` and `_handle_work`: the dev/review loop of a `work.*` task. -/
def handleWork (id : Uuid) (row : Task) : Process (Option RunResult) := do
  let (review, retro) ← (w.resolveIntensity w.reviewMode w.retroMode).program id row
  w.attempts id row review retro 1 w.maxAttempts

/-! ## The other handlers -/

/-- The gated call of a coding task. -/
def codeCall (id : Uuid) (row : Task) : InvokeArgs where
  role := "builder"
  toolName := "coding"
  workstream := row.workstream.name
  taskId := some id
  kwargs := [("goal", .ofPure (Doc.getD row.payload "goal" (.str ""))),
    ("workspace", .ofPure (Doc.getD row.payload "workspace" .null))]

/-- A field of the output of the coding tool. -/
def outputField (result : Option ToolResult) (key : String) : Json PyObject :=
  match result.map ToolResult.output with
  | some (.obj fields) => (fields.lookup key).getD .null
  | _ => .null

/-- What a coding task records of the run of its tool; it has to be JSON. -/
def codeDoc (ok : Bool) (result : Option ToolResult) : Option Doc := do
  let cmd ← ((result.bind (·.metadata.lookup "worker_cmd")).getD .null).pure?
  let files ← (outputField result "produced_files").pure?
  let code ← (outputField result "exit_code").pure?
  return [("worker_ok", .bool ok), ("worker_cmd", cmd), ("produced_files", files),
    ("exit_code", code)]

/-- The coding tool ran: its exit status decides. -/
def finishCode (id : Uuid) (row : Task) (result : Option ToolResult) : Process RunResult :=
  let ok := result.any (·.ok)
  match codeDoc ok result with
  | none => .throw (.runtimeError "result is not JSON serializable")
  | some doc => do
      let _ ← completeTask id
        { result := some doc, status := if ok then .merged else .abandoned }
      return ⟨id, row.type, .code, if ok then .done else .failed⟩

/-- `_handle_code`: one pass of the policy-gated coding tool. -/
def handleCode (id : Uuid) (row : Task) : Process RunResult := do
  w.beat id
  let result ← (codeCall id row).invoke w.sha256 w.registry (w.config row.workstream)
    (w.approvalId 1)
  w.beat id
  match result.status with
  | .pending => do
      let _ ← block id result.approvalId
      return ⟨id, row.type, .code, .blocked⟩
  | .denied => do
      let _ ← completeTask id
        { result := some [("denied", .bool true), ("reason", .str result.decision.reason)],
          status := .abandoned }
      return ⟨id, row.type, .code, .failed⟩
  | .executed => finishCode id row result.result

/-- The handlers of the roles that only run and merge. -/
def handleCommit (role : CommitRole) (id : Uuid) (row : Task) : Process RunResult := do
  w.beat id
  let doc ← (w.commit role).program id row
  w.beat id
  let _ ← completeTask id { result := some doc }
  return ⟨id, row.type, .commit role, .done⟩

/-- `_handle_spokesman_prep`. -/
def handleSpokesmanPrep (id : Uuid) (row : Task) : Process RunResult := do
  w.beat id
  let doc ← w.prep.program id row
  let _ ← completeTask id { result := some doc }
  return ⟨id, row.type, .spokesmanPrep, .done⟩

/-- `repr` of a payload value; texts without quotes and escapes. -/
def repr : Json Empty → String
  | .str s => "'" ++ s ++ "'"
  | value => w.str value

/-- `_handle_replan`: a task without a valid `stuck_task_id` is abandoned. -/
def handleReplan (id : Uuid) (row : Task) : Process RunResult := do
  w.beat id
  match (Doc.getStr? row.payload "stuck_task_id").map parseUuid with
  | some (.ok stuckId) => do
      let doc ← (w.replan stuckId).program id row
      w.beat id
      let _ ← completeTask id { result := some doc }
      return ⟨id, row.type, .replan, .done⟩
  | _ => do
      let _ ← completeTask id
        { result := some [("error", .str ("replan task missing a valid stuck_task_id: " ++
            w.repr (Doc.getD row.payload "stuck_task_id" .null)))],
          status := .abandoned }
      return ⟨id, row.type, .replan, .failed⟩

/-- `_handle_pm_tick`: a pushback parks the tick on its approval. -/
def handlePmTick (id : Uuid) (row : Task) : Process RunResult := do
  let plan ← w.pm.runTick (w.approvalId 1) id row
  w.beat id
  match (if plan.decision = "pushback" then plan.approvalId else none).map parseUuid with
  | some (.ok approvalId) => do
      let _ ← blockTask id approvalId
        (if plan.reason = "" then "PM pushback awaiting human approval" else plan.reason)
      return ⟨id, row.type, .pm, .blocked⟩
  | _ => do
      let _ ← completeTask id { result := some plan.dump }
      return ⟨id, row.type, .pm, .done⟩

/-- `_handle_feature_request`: the intake owns the moves of the request. -/
def handleFeatureRequest (id : Uuid) (row : Task) : Process RunResult := do
  w.beat id
  let verdict ← w.triage.run w.workerId (w.approvalId 1) id row
  return ⟨id, row.type, .triage, if verdict = .escalate then .blocked else .done⟩

/-! ## Dispatch -/

/-- The handlers. -/
inductive Handler where
  | pmTick
  | spokesmanPrep
  | replan
  | featureRequest
  | commit (role : CommitRole)
  | code
  | work
  deriving DecidableEq, Repr

/-- `_EXACT_HANDLERS`. -/
def exactHandler : String → Option Handler
  | "pm.tick" => some .pmTick
  | "spokesman.prep" => some .spokesmanPrep
  | "replan" => some .replan
  | "retro" => some (.commit .retro)
  | "research" => some (.commit .research)
  | "review" => some (.commit .review)
  | "feature_request" => some .featureRequest
  | "research.models" | "sourcing" => some (.commit .sourcing)
  | "analyze.failures" | "failure_analysis" => some (.commit .failureAnalysis)
  | "curate" | "skill_curation" => some (.commit .curator)
  | "skill_lifecycle" | "tune.skills" => some (.commit .skillLifecycle)
  | "capacity.review" => some (.commit .capacity)
  | "work.code" | "prototype" => some .code
  | _ => none

/-- `resolve_handler`: an exact type first, then the `work.` prefix. -/
def resolveHandler (type : String) : Option Handler :=
  match exactHandler type with
  | some handler => some handler
  | none => if "work.".toList.isPrefixOf type.toList then some .work else none

/-- Run a handler. -/
def handle (id : Uuid) (row : Task) : Handler → Process (Option RunResult)
  | .pmTick => some <$> w.handlePmTick id row
  | .spokesmanPrep => some <$> w.handleSpokesmanPrep id row
  | .replan => some <$> w.handleReplan id row
  | .featureRequest => some <$> w.handleFeatureRequest id row
  | .commit role => some <$> w.handleCommit role id row
  | .code => some <$> w.handleCode id row
  | .work => w.handleWork id row

/-- A type without a handler is abandoned. -/
def handleUnknown (id : Uuid) (row : Task) : Process RunResult := do
  let _ ← completeTask id
    { result := some [("error", .str ("no handler for task type '" ++ row.type ++ "'"))],
      status := .abandoned }
  return ⟨id, row.type, .unknown, .failed⟩

/-- `run_once`: claim one task and drive it to a terminal state. -/
def runOnce (locked : List Uuid) : Process (Option RunResult) := do
  let claimed ← claimTask w.grab locked
  match claimed with
  | none => return none
  | some (id, row) =>
      match resolveHandler row.type with
      | none => some <$> handleUnknown id row
      | some handler => w.handle id row handler

end Worker

/-! ## Resuming parked tasks -/

/-- What one pass of `resume_approved` did. -/
structure ResumeResult where
  resumed : List Uuid := []
  failed : List Uuid := []

/-- The result of a task whose approval was denied. -/
def deniedResult (approval : Approval) (approvalId : Uuid) : Doc :=
  [("approved", .bool false), ("reason", .str approval.reason),
    ("blocked_on_approval", .str approvalId.text)]

/-- Re-queue a task whose approval was granted. -/
def resumeGranted (id : Uuid) (row : Task) (approvalId : Uuid) (result : ResumeResult) :
    Process ResumeResult := do
  let requeued ← requeueBlockedTask id
  match requeued with
  | none => return result
  | some _ => do
      call (.emit (some id) row.workstream (.approvalResumed approvalId.text "queued"))
      return { result with resumed := result.resumed ++ [id] }

/-- Fail a task whose approval was denied. -/
def failDenied (id approvalId : Uuid) (approval : Approval) (result : ResumeResult) :
    Process ResumeResult := do
  let failed ← completeTask id
    { result := some (deniedResult approval approvalId), status := .abandoned, force := true }
  match failed with
  | none => return result
  | some _ => return { result with failed := result.failed ++ [id] }

/-- Advance one scanned task by the status of the approval it waits for. -/
def resumeTask (id : Uuid) (row : Task) (result : ResumeResult) : Process ResumeResult :=
  match row.blockedOnApproval with
  | none => .ret result
  | some "" => .ret result
  | some text =>
      match parseUuid text with
      | .error e => .throw e
      | .ok approvalId => do
          let approval ← call (.getApproval approvalId)
          match approval with
          | none => return result
          | some approval =>
              match approval.status with
              | .approved => resumeGranted id row approvalId result
              | .denied => failDenied id approvalId approval result
              | .pending => return result
              | .consumed => return result

/-- The loop of `resume_approved`. -/
def resumeEach (result : ResumeResult) : List (Uuid × Task) → Process ResumeResult
  | [] => .ret result
  | (id, row) :: rest => (resumeTask id row result).bind fun result => resumeEach result rest

/-- One pass over the tasks parked `blocked`. -/
def resumeApproved : Process ResumeResult := do
  let tasks ← call .findBlockedTasks
  resumeEach {} tasks

end AiStudio.Runtime
