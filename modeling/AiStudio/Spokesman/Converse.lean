import AiStudio.Spokesman.Bridge

/-!
# The conversational agent

Embeds `spokesman/converse.py`: the agent's tools, its rounds of model calls, and the
reply. The model is a seam: it may answer with any text, and so with any tool calls.
-/

set_option autoImplicit false

namespace AiStudio.Spokesman

open AiStudio.Data AiStudio.Runtime AiStudio.Concurrency

/-- A Spokesman: its settings, the hashes and readers of the library it runs on, and the
parts of the studio it asks. `newId` gives the ids that are drawn along a path of calls. -/
structure Agent where
  settings : Settings
  sha256 : String → String
  hmacSha256 : String → List UInt8 → String
  hmacSha1 : String → String → String
  isDigit : Char → Bool
  /-- `str` of a parsed value other than a text, and `repr` of a text. -/
  str : Json Empty → String
  repr : String → String
  /-- `type(exc).__name__` and `str(exc)`. -/
  className : Exn → String
  message : Exn → String
  /-- `json.loads` and `json.dumps` without ASCII escapes. -/
  loads : String → Option (Json Empty)
  dumps : Json Empty → String
  newId : List Nat → Uuid
  systemPrompt : String
  studioStatus : Aside String
  statusSummary : Aside String
  brief : Aside String
  refreshPrepCache : Aside Unit
  /-- `call_model`, with or without a connection. -/
  callModel : Bool → List Message → String → Aside String

namespace Agent

variable (agent : Agent)

/-- `str(value)`. -/
def text : Json Empty → String
  | .str s => s
  | value => agent.str value

/-- `str(value or default)`. -/
def textOr (default : String) (value : Json Empty) : String :=
  if value.truthy then agent.text value else default

/-! ## The tools -/

/-- `TOOL_NAMES`. -/
inductive ToolName where
  | studioStatus
  | enqueueGoal
  | requestPrep
  | proposeHandoff
  | endHandoff
  | listPendingApprovals
  | resolveApproval
  deriving DecidableEq, Repr

/-- The name of a tool. -/
def ToolName.value : ToolName → String
  | studioStatus => "studio_status"
  | enqueueGoal => "enqueue_goal"
  | requestPrep => "request_prep"
  | proposeHandoff => "propose_handoff"
  | endHandoff => "end_handoff"
  | listPendingApprovals => "list_pending_approvals"
  | resolveApproval => "resolve_approval"

/-- The tool of a name. -/
def ToolName.parse? (name : String) : Option ToolName :=
  [studioStatus, enqueueGoal, requestPrep, proposeHandoff, endHandoff, listPendingApprovals,
    resolveApproval].find? (·.value = name)

/-- A result that reports an error. -/
def failure (error : String) : Doc := [("ok", .bool false), ("error", .str error)]

/-- `studio_status`. -/
def toolStatus (conn : Bool) : Errand Doc :=
  if conn then do
    let brief ← agent.brief.errand.attempt
    match brief with
    | .ok text => return [("ok", .bool true), ("text", .str text)]
    | .error e => return failure (agent.className e)
  else do
    let text ← agent.statusSummary.errand
    return [("ok", .bool true), ("text", .str text)]

/-- `enqueue_goal`. -/
def toolGoal (conn : Bool) (taskId : Uuid) (args : Doc) : Errand Doc :=
  let goal := strip (agent.textOr "" (Doc.getD args "goal" .null))
  if goal = "" then .ret (failure "missing goal")
  else if !conn then .ret (failure "db unavailable")
  else do
    let _ ← runtime (call (.enqueueTask taskId {
      workstream := "productivity"
      type := "pm.tick"
      payload := [("goal", .str goal), ("source", .str "spokesman"), ("kind", .str "human_goal")]
      priority := 50 }))
    runtime (emitEvent "productivity" (some taskId) (.humanGoal taskId "spokesman"))
    return [("ok", .bool true), ("task_id", .str taskId.text), ("goal", .str goal)]

/-- `args.get("questions") or []`, iterated. -/
def items : Json Empty → Except Exn (List (Json Empty))
  | .str s => .ok [.str s]
  | .arr items => .ok items
  | .obj fields => .ok (fields.map fun kv => .str kv.1)
  | value => if value.truthy then .error typeError else .ok []

/-- `request_prep`. -/
def toolPrep (conn : Bool) (taskId : Uuid) (args : Doc) : Errand Doc :=
  match items (Doc.getD args "questions" .null) with
  | .error e => .throw e
  | .ok items =>
      let questions := ((items.map fun q => strip (agent.text q)).filter (· ≠ "")).take 5
      if questions = [] then .ret (failure "missing questions")
      else if !conn then .ret (failure "db unavailable")
      else do
        let _ ← runtime (call (.enqueueTask taskId {
          workstream := "productivity"
          type := "spokesman.prep"
          payload := [("questions", .arr (questions.map .str)), ("priority", .str "high"),
            ("source", .str "spokesman")]
          priority := 100 }))
        return [("ok", .bool true), ("task_id", .str taskId.text),
          ("questions", .arr (questions.map .str))]

/-- `propose_handoff`. -/
def toolHandoff (approvalId handoffId : Uuid) (args : Doc) : Errand Doc := do
  let role := orText (lower (strip (agent.textOr "pm" (Doc.getD args "role" .null)))) "pm"
  let reason := clip 500 (strip (agent.textOr "Specialist discussion needed."
    (Doc.getD args "reason" .null)))
  let (handoffId, approvalId) ← proposeHandoff agent.sha256 approvalId handoffId role reason
    "productivity"
  return [("ok", .bool true), ("handoff_id", .str handoffId.text),
    ("approval_id", .str approvalId.text), ("role", .str role),
    ("hint", .str ("Human must reply: approve " ++ approvalId.text))]

/-- `end_handoff`. -/
def toolEndHandoff : Errand Doc := do
  let ended ← endHandoff
  match ended with
  | none => return failure "no active handoff"
  | some (id, row) =>
      return [("ok", .bool true), ("handoff_id", .str id.text), ("role", .str row.role)]

/-- `list_pending_approvals`. -/
def toolPending : Errand Doc := do
  let rows ← stmt .pendingApprovalsReal
  let items := (rows.take 20).map fun x => Json.obj
    [("approval_id", .str x.1.text), ("tool", .str x.2.tool), ("role", .str x.2.role),
      ("tier", .str x.2.tier), ("reason", .str (clip 240 x.2.reason)),
      ("task_id", .ofOption (.str ·.text) x.2.taskId)]
  return [("ok", .bool true), ("count", .int items.length), ("approvals", .arr items)]

/-- The wire string of an approval's status. -/
def statusValue : ApprovalStatus → String
  | .pending => "pending"
  | .approved => "approved"
  | .denied => "denied"
  | .consumed => "consumed"

/-- The approval a verbal verdict means: the one it names, or the only one there is. -/
def meant (args : Doc) : Errand (Except Doc String) := do
  let approvalId := strip (agent.textOr "" (Doc.getD args "approval_id" .null))
  if approvalId ≠ "" then return .ok approvalId
  else do
    let pending ← stmt .pendingApprovalsReal
    match pending with
    | [] => return .error (failure "no pending approvals")
    | [(id, _)] => return .ok id.text
    | pending =>
        return .error (failure "ambiguous: multiple pending approvals" ++
          [("approvals", .arr ((pending.take 10).map fun x => Json.obj
            [("approval_id", .str x.1.text), ("tool", .str x.2.tool),
              ("reason", .str (clip 120 x.2.reason))]))])

/-- Activate the handoff an approval stands for, when there is one. -/
def activated (id : Uuid) (approval : Approval) : Errand (Json Empty) :=
  if approval.status = .approved then do
    let handoff ← (activateHandoffForApproval id).attempt
    match handoff with
    | .ok (some (handoffId, _)) => return .str handoffId.text
    | _ => return .null
  else .ret .null

/-- `resolve_approval`. -/
def toolResolve (args : Doc) : Errand Doc := do
  let decision := lower (strip (agent.textOr "" (Doc.getD args "decision" .null)))
  if decision = "" then return failure "missing decision (approve|deny)"
  else do
    let approvalId ← agent.meant args
    match approvalId with
    | .error result => return result
    | .ok approvalId => do
        let approval ← (resolve approvalId decision "spokesman:converse").attempt
        match approval with
        | .error e => if isValueError e then return failure (agent.message e) else .throw e
        | .ok none => return failure "approval not found or already resolved" ++
            [("approval_id", .str approvalId)]
        | .ok (some (id, approval)) => do
            let handoffId ← activated id approval
            return [("ok", .bool true), ("approval_id", .str id.text),
              ("status", .str (statusValue approval.status)), ("handoff_id", handoffId),
              ("resumed", .bool true)]

/-- `_run_tool`. -/
def runTool (conn : Bool) (path : List Nat) (args : Doc) : ToolName → Errand Doc
  | .studioStatus => agent.toolStatus conn
  | .enqueueGoal => agent.toolGoal conn (agent.newId (path ++ [0])) args
  | .requestPrep => agent.toolPrep conn (agent.newId (path ++ [0])) args
  | .proposeHandoff =>
      if conn then agent.toolHandoff (agent.newId (path ++ [0])) (agent.newId (path ++ [1])) args
      else .ret (failure "db unavailable")
  | .endHandoff => if conn then toolEndHandoff else .ret (failure "db unavailable")
  | .listPendingApprovals => if conn then toolPending else .ret (failure "db unavailable")
  | .resolveApproval => if conn then agent.toolResolve args else .ret (failure "db unavailable")

/-! ## The rounds -/

/-- `_parse_agent_json`: the object between the first `\x7b` and the last `\x7d`. The fences
around it hold no braces, so cutting them off first changes nothing. -/
def parseAgentJson (raw : String) : Option Doc :=
  let opened := raw.toList.dropWhile (· ≠ '\x7b')
  let closed := opened.rdropWhile (· ≠ '\x7d')
  match agent.loads (String.ofList closed) with
  | some (.obj fields) => if closed = [] then none else some fields
  | _ => none

/-- `_agent_turn`: one model turn; what is no JSON is taken for the reply. -/
def agentTurn (conn : Bool) (messages : List Message) (userText : String) : Errand Doc := do
  let completion ← (agent.callModel conn messages userText).errand
  let raw := strip completion
  match agent.parseAgentJson raw with
  | some doc => return doc
  | none =>
      if "[dry-run:".toList.isPrefixOf raw.toList then
        return [("tool_calls", .arr []), ("reply", .str ("I heard you: " ++ clip 400 userText ++
          ". (Model dry-run — wire a provider key for full replies.)"))]
      else
        return [("tool_calls", .arr []),
          ("reply", .str (orText (clip 2000 raw) "Sorry — I blanked. Try again?"))]

/-- A tool call that was made. -/
structure ToolTrace where
  name : String
  args : Doc
  result : Doc

/-- One of the tool calls of a turn; what is no object is skipped. -/
def runCall (conn : Bool) (path : List Nat) : Json Empty → Errand (Option ToolTrace)
  | .obj fields => do
      let name := strip (agent.textOr "" (Doc.getD fields "name" .null))
      let args := match Doc.getD fields "args" .null with
        | .obj args => args
        | _ => []
      match ToolName.parse? name with
      | none => return some ⟨name, args, failure ("unknown tool " ++ agent.repr name)⟩
      | some tool => do
          let result ← agent.runTool conn path args tool
          return some ⟨name, args, result⟩
  | _ => .ret none

/-- The tool calls of a turn, in order. -/
def runCalls (conn : Bool) (path : List Nat) : Nat → List (Json Empty) → Errand (List ToolTrace)
  | _, [] => .ret []
  | i, call :: calls =>
      (agent.runCall conn (path ++ [i]) call).bind fun result =>
        (runCalls conn path (i + 1) calls).bind fun results =>
          .ret (result.toList ++ results)

/-- What a conversation has come to. -/
structure Talk where
  messages : List Message
  toolTrace : List ToolTrace := []
  finalReply : Option String := none

/-- The prompt after a turn and its tools. -/
def continued (messages : List Message) (calls : List (Json Empty)) (reply : Json Empty)
    (results : List ToolTrace) : List Message :=
  messages ++
    [⟨"assistant", agent.dumps (.obj [("tool_calls", .arr calls), ("reply", reply)])⟩,
      ⟨"user", "Tool results (JSON). Continue: more tools or final reply.\n" ++
        agent.dumps (.arr (results.map fun t =>
          .obj [("name", .str t.name), ("result", .obj t.result)]))⟩]

/-- The rounds that are left; the last of them ends with a reply of its own. -/
def rounds (conn : Bool) (path : List Nat) (userText : String) : Nat → Talk → Errand Talk
  | 0, talk => .ret { talk with finalReply := some (talk.finalReply.getD
      ("I started looking into that but hit my step limit — " ++
        "ask me to continue or try a narrower question.")) }
  | left + 1, talk => do
      let parsed ← agent.agentTurn conn talk.messages userText
      let calls := match Doc.getD parsed "tool_calls" .null with
        | .arr calls => calls
        | _ => []
      let reply := Doc.getD parsed "reply" .null
      let said := (reply.asStr?.map strip).filter (· ≠ "")
      let talk := { talk with finalReply := said <|> talk.finalReply }
      if calls = [] then return talk
      else do
        let results ← agent.runCalls conn (path ++ [left]) 0 (calls.take 5)
        rounds conn path userText left { talk with
          messages := agent.continued talk.messages calls reply results
          toolTrace := talk.toolTrace ++ results }

/-- One line of `_summarize_tools`. -/
def summary (t : ToolTrace) : String :=
  let field := fun key => Doc.getD t.result key .null
  if (field "ok").truthy then
    match t.name with
    | "studio_status" => strip (agent.textOr "" (field "text"))
    | "enqueue_goal" => "Queued for the PM (task " ++ clip 8 (agent.text (field "task_id")) ++ "…)."
    | "request_prep" => "On it — digging in; I'll follow up."
    | "propose_handoff" => "Proposed handoff to " ++ agent.text (field "role") ++ ". " ++
        agent.textOr "" (field "hint")
    | "end_handoff" => "Handoff ended — back to Spokesman only."
    | "list_pending_approvals" =>
        match field "count" with
        | .int n => if n = 0 then "No pending approvals."
            else agent.str (.int n) ++ " pending approval(s)."
        | _ => "No pending approvals."
    | "resolve_approval" => "Approval " ++ clip 8 (agent.text (field "approval_id")) ++ "… " ++
        agent.text (field "status") ++ " — queued work can resume."
    | _ => ""
  else t.name ++ " failed: " ++ agent.text (field "error")

/-- The reply of a conversation. -/
def replyOf (talk : Talk) : String :=
  talk.finalReply.getD (if talk.toolTrace = [] then "I'm here — what should we focus on?"
    else orText ("\n\n".intercalate ((talk.toolTrace.map agent.summary).filter (· ≠ ""))) "Done.")

/-- The result `handle_inbound_command` gives for a conversation. -/
def converseDoc (talk : Talk) : Doc :=
  [("command", .str "converse"), ("intent", .str "converse"), ("ok", .bool true),
    ("rounds", .int (min 4 (talk.toolTrace.length + 1))),
    ("tools", .arr (talk.toolTrace.map fun t => .str t.name)),
    ("tool_trace", .arr (talk.toolTrace.map fun t => .obj
      [("name", .str t.name), ("args", .obj t.args), ("result", .obj t.result)]))]

/-- The session of a message: its sender, or `web`. -/
def session (sender : Json Empty) : Except Exn String :=
  match sender with
  | .str s => .ok (orText (strip s) "web")
  | sender => if sender.truthy then .error attributeError else .ok "web"

/-- A part that is left out without a connection. -/
def whenConnected {α : Type} (conn : Bool) (errand : Errand α) (default : α) : Errand α :=
  if conn then errand else .ret default

/-- Both turns of an exchange are recorded, if they can be. -/
def remember (session text reply : String) : Errand Unit := do
  let _ ← ((recordTurn session true text).bind fun _ => recordTurn session false reply).attempt
  return ()

/-- What the agent does for a text once its session is known. -/
def converse (path : List Nat) (text session : String) (recipient : Option (Json Empty)) :
    Errand Doc := do
  let connected ← (stmt .connect).attempt
  let conn := connected.isOk
  whenConnected conn (runtime (emitEvent "productivity" none
    (.humanMessage agent.settings.channel.value text.length))) ()
  let history ← whenConnected conn (historyMessages session) []
  let talk ← agent.rounds conn path text 4
    { messages := ⟨"system", agent.systemPrompt⟩ :: history ++ [⟨"user", text⟩] }
  whenConnected conn (remember session text (agent.replyOf talk)) ()
  sendText (agent.replyOf talk) recipient
  return converseDoc talk

/-! ## What a conversation calls -/

theorem toolStatus_only (conn : Bool) : (agent.toolStatus conn).Only Quiet := by
  refine .ite (fun _ => .bind agent.brief.quiet.attempt fun brief => ?_)
    fun _ => .bind agent.statusSummary.quiet fun _ => .ret _
  cases brief with
  | ok text => exact .ret _
  | error e => exact .ret _

theorem toolGoal_only (conn : Bool) (taskId : Uuid) (args : Doc) :
    (agent.toolGoal conn taskId args).Only Quiet := by
  unfold toolGoal
  dsimp only
  exact .ite (fun _ => .ret _) fun _ => .ite (fun _ => .ret _) fun _ =>
    .bind (runtime_op rfl) fun _ => .bind (quiet_emitEvent _ _ _) fun _ => .ret _

theorem toolPrep_only (conn : Bool) (taskId : Uuid) (args : Doc) :
    (agent.toolPrep conn taskId args).Only Quiet := by
  unfold toolPrep
  split
  · exact .throw _
  · exact .ite (fun _ => .ret _) fun _ => .ite (fun _ => .ret _) fun _ =>
      .bind (runtime_op rfl) fun _ => .ret _

theorem toolHandoff_only (approvalId handoffId : Uuid) (args : Doc) :
    (agent.toolHandoff approvalId handoffId args).Only Quiet :=
  .bind (proposeHandoff_only _ _ _ _ _ _) fun _ => .ret _

theorem toolEndHandoff_only : toolEndHandoff.Only Quiet := by
  refine .bind endHandoff_only fun ended => ?_
  cases ended with
  | none => exact .ret _
  | some x => exact .ret _

theorem toolPending_only : toolPending.Only Quiet := .bind (quiet_stmt _) fun _ => .ret _

theorem meant_only (args : Doc) : (agent.meant args).Only Quiet := by
  unfold meant
  dsimp only
  refine .ite (fun _ => .ret _) fun _ => .bind (quiet_stmt _) fun pending => ?_
  split
  · exact .ret _
  · exact .ret _
  · exact .ret _

theorem activated_only (id : Uuid) (approval : Approval) : (activated id approval).Only Quiet := by
  refine .ite (fun _ => .bind (activateHandoff_only id).attempt fun handoff => ?_)
    fun _ => .ret _
  split
  · exact .ret _
  · exact .ret _

/-- **The tool that resolves calls for one verdict.** -/
theorem toolResolve_only (args : Doc) : (agent.toolResolve args).Only Spoken := by
  unfold toolResolve
  dsimp only
  refine .ite (fun _ => .ret _) fun _ => .bind ((agent.meant_only args).mono fun _ => .quiet)
    fun approvalId => ?_
  cases approvalId with
  | error result => exact .ret _
  | ok approvalId =>
      refine .bind (resolve_only _ _ _).attempt fun approval => ?_
      match approval with
      | .error e => exact .ite (fun _ => .ret _) fun _ => .throw _
      | .ok none => exact .ret _
      | .ok (some (id, approval)) =>
          exact .bind ((activated_only id approval).mono fun _ => .quiet) fun _ => .ret _

theorem runTool_only (conn : Bool) (path : List Nat) (args : Doc) (tool : ToolName) :
    (agent.runTool conn path args tool).Only Spoken := by
  cases tool with
  | studioStatus => exact (agent.toolStatus_only conn).mono fun _ => .quiet
  | enqueueGoal =>
      rw [runTool]
      exact (agent.toolGoal_only conn _ args).mono fun _ => .quiet
  | requestPrep =>
      rw [runTool]
      exact (agent.toolPrep_only conn _ args).mono fun _ => .quiet
  | proposeHandoff =>
      exact .ite (fun _ => (agent.toolHandoff_only _ _ args).mono fun _ => .quiet) fun _ => .ret _
  | endHandoff => exact .ite (fun _ => toolEndHandoff_only.mono fun _ => .quiet) fun _ => .ret _
  | listPendingApprovals =>
      exact .ite (fun _ => toolPending_only.mono fun _ => .quiet) fun _ => .ret _
  | resolveApproval => exact .ite (fun _ => agent.toolResolve_only args) fun _ => .ret _

theorem agentTurn_only (conn : Bool) (messages : List Message) (userText : String) :
    (agent.agentTurn conn messages userText).Only Quiet := by
  refine .bind (agent.callModel conn messages userText).quiet fun completion => ?_
  dsimp only
  split
  · exact .ret _
  · exact .ite (fun _ => .ret _) fun _ => .ret _

theorem runCall_only (conn : Bool) (path : List Nat) (call : Json Empty) :
    (agent.runCall conn path call).Only Spoken := by
  unfold runCall
  split
  · dsimp only
    split
    · exact .ret _
    · exact .bind (agent.runTool_only _ _ _ _) fun _ => .ret _
  · exact .ret _

theorem runCalls_only (conn : Bool) (path : List Nat) (i : Nat) (calls : List (Json Empty)) :
    (agent.runCalls conn path i calls).Only Spoken := by
  induction calls generalizing i with
  | nil => exact .ret _
  | cons call calls ih =>
      exact .bind (agent.runCall_only _ _ _) fun _ => .bind (ih (i + 1)) fun _ => .ret _

theorem rounds_only (conn : Bool) (path : List Nat) (userText : String) (left : Nat) (talk : Talk) :
    (agent.rounds conn path userText left talk).Only Spoken := by
  induction left generalizing talk with
  | zero => exact .ret _
  | succ left ih =>
      refine .bind ((agent.agentTurn_only _ _ _).mono fun _ => .quiet) fun parsed => ?_
      exact .ite (fun _ => .ret _) fun _ => .bind (agent.runCalls_only _ _ _ _) fun _ => ih _

theorem whenConnected_only {α : Type} {A : spokesman.Op → Prop} {errand : Errand α}
    (h : errand.Only A) (conn : Bool) (default : α) : (whenConnected conn errand default).Only A :=
  .ite (fun _ => h) fun _ => .ret _

theorem remember_only (session text reply : String) : (remember session text reply).Only Quiet :=
  .bind (.attempt (.bind (recordTurn_only _ _ _) fun _ => recordTurn_only _ _ _)) fun _ => .ret _

/-- **Whatever the model says, a conversation only asks, enqueues, and gives verdicts.** -/
theorem converse_only (path : List Nat) (text session : String)
    (recipient : Option (Json Empty)) :
    (agent.converse path text session recipient).Only Spoken := by
  have quiet {α : Type} {p : Errand α} (h : p.Only Quiet) : p.Only Spoken := h.mono fun _ => .quiet
  refine .bind (quiet (quiet_stmt _).attempt) fun connected => ?_
  refine .bind (quiet (whenConnected_only (quiet_emitEvent _ _ _) _ _)) fun _ => ?_
  refine .bind (quiet (whenConnected_only (historyMessages_only _) _ _)) fun history => ?_
  refine .bind (agent.rounds_only _ _ _ _ _) fun talk => ?_
  refine .bind (quiet (whenConnected_only (remember_only _ _ _) _ _)) fun _ => ?_
  exact .bind (quiet (quiet_sendText _ _)) fun _ => .ret _

end Agent

end AiStudio.Spokesman
