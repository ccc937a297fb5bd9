import AiStudio.Spokesman.Converse

/-!
# The webhook

Embeds `handle_inbound_command` and the `POST /webhook` endpoint of `spokesman/app.py`.
The public webhook never authorizes host operations, so a message that starts with `ops`
is conversation. What is done for a message is tagged with that message.
-/

set_option autoImplicit false

namespace AiStudio.Spokesman

open AiStudio.Data AiStudio.Runtime AiStudio.Concurrency

/-- A delivery to the webhook, as the web framework has parsed it. -/
structure Request where
  body : List UInt8
  form : Form
  hubSignature : Option String
  twilioSignature : Option String
  forwardedProto : Option String
  forwardedHost : Option String
  host : Option String
  path : String
  url : String
  /-- The JSON value of the body, when it has one. -/
  json : Option (Json Empty)

/-- The answer to a delivery. -/
inductive Response where
  | plain (status : Nat) (content : String)
  | json (status : Nat) (content : Doc)

/-- The calls of the webhook: each is made for a message, or for the delivery itself. -/
abbrev webhook : Interface (Store × Surface) Exn := spokesman.tagged (Option InboundMessage)

/-- The address Twilio signed. -/
def Request.publicUrl (req : Request) : String :=
  let host := match req.forwardedHost with
    | none => req.host
    | some "" => req.host
    | some host => some host
  match req.forwardedProto, host with
  | some proto, some host =>
      if proto = "" || host = "" then req.url else proto ++ "://" ++ host ++ req.path
  | _, _ => req.url

namespace Agent

variable (agent : Agent)

/-! ## Commands -/

/-- The result of a command that failed. -/
def refused (verb error : String) : Doc :=
  [("command", .str verb), ("ok", .bool false), ("error", .str error)]

/-- The result of a command that was carried out. -/
def carriedOut (verb status : String) : Doc :=
  [("command", .str verb), ("ok", .bool true), ("status", .str status)]

/-- The live summary; the prep cache is refreshed on the way, if it can be. -/
def liveStatus : Errand String := do
  stmt .connect
  let summary ← agent.studioStatus.errand
  let _ ← agent.refreshPrepCache.errand.attempt
  return summary

/-- `status`: the live summary, or the file of the last one. -/
def statusCommand (recipient : Option (Json Empty)) : Errand Doc := do
  let summary ← agent.liveStatus.tryCatch fun _ => agent.statusSummary.errand
  sendText summary recipient
  return [("command", .str "status")]

/-- The handoff an approval activates, told to the human; a failure is only logged. -/
def handoffReply (verb approvalId : String) (recipient : Option (Json Empty)) (id : Uuid)
    (approval : Approval) : Errand (Option Doc) :=
  if verb = "approve" && approval.status = .approved then
    (do
      let handoff ← activateHandoffForApproval id
      match handoff with
      | none => return none
      | some (handoffId, row) => do
          let role := upper row.role
          sendText ("Approval " ++ approvalId ++ " approved. Handoff to " ++ role ++
            " is active (messages tagged [" ++ role ++ "]). Say 'end handoff' when done.") recipient
          return some (carriedOut verb (statusValue approval.status) ++
            ([("handoff_id", .str handoffId.text)] : Doc))).tryCatch fun _ => .ret none
  else .ret none

/-- The part of `approve` and `deny` that talks to the database. -/
def tryResolve (verb approvalId resolver : String) (recipient : Option (Json Empty)) :
    Errand (Option (Approval × Option Doc)) := do
  stmt .connect
  let approval ← resolve approvalId verb resolver
  match approval with
  | none => return none
  | some (id, approval) => do
      let reply ← handoffReply verb approvalId recipient id approval
      return some (approval, reply)

/-- What the human is told about a verdict that raised. -/
def failed (verb invalid : String) (recipient : Option (Json Empty)) (e : Exn) : Errand Doc :=
  if isValueError e then do
    sendText invalid recipient
    return refused verb "invalid id"
  else do
    sendText "Could not reach the runtime; try again shortly." recipient
    return refused verb "db unavailable"

/-- `approve <id>` and `deny <id>`. -/
def resolveCommand (verb : String) (parts : List String) (resolver : Except Exn String)
    (recipient : Option (Json Empty)) : Errand Doc :=
  match parts with
  | approvalId :: _ =>
      match resolver with
      | .error e => .throw e
      | .ok resolver => do
          let outcome ← (tryResolve verb approvalId resolver recipient).attempt
          match outcome with
          | .error e => failed verb ("Invalid approval id: " ++ approvalId) recipient e
          | .ok none => do
              sendText ("Approval " ++ approvalId ++ " not found or already resolved.") recipient
              return refused verb "not pending"
          | .ok (some (_, some reply)) => return reply
          | .ok (some (approval, none)) => do
              sendText ("Approval " ++ approvalId ++ " " ++ statusValue approval.status ++ ".")
                recipient
              return carriedOut verb (statusValue approval.status)
  | [] => do
      sendText ("Usage: " ++ verb ++ " <approval-id>") recipient
      return refused verb "missing id"

/-- The wire string of a decision's status. -/
def decisionValue : DecisionStatus → String
  | .open => "open"
  | .answered => "answered"
  | .withdrawn => "withdrawn"

/-- `decide <id> <answer>`: the answer is the rest of the text. -/
def decideCommand (text : String) (parts : List String) (resolver : Except Exn String)
    (recipient : Option (Json Empty)) : Errand Doc :=
  match parts with
  | decisionId :: _ :: _ =>
      match resolver with
      | .error e => .throw e
      | .ok resolver => do
          let outcome ← (do
            stmt .connect
            answer decisionId (afterTwoWords text) resolver : Errand (Option Decision)).attempt
          match outcome with
          | .error e => failed "decide" ("Invalid decision id: " ++ decisionId) recipient e
          | .ok none => do
              sendText ("Decision " ++ decisionId ++ " not found or already answered.") recipient
              return refused "decide" "not open"
          | .ok (some decision) => do
              sendText ("Decision " ++ decisionId ++ " answered.") recipient
              return carriedOut "decide" (decisionValue decision.status)
  | _ => do
      sendText "Usage: decide <decision-id> <answer>" recipient
      return refused "decide" "missing id/answer"

/-- Who a verdict is recorded for: the channel and the masked number. -/
def resolver (sender : Json Empty) : Except Exn String :=
  (maskNumber agent.str sender).map fun masked => agent.settings.channel.value ++ ":" ++ masked

/-- `handle_inbound_command` on a channel that authorizes no host operations. -/
def handleInboundCommand (path : List Nat) (msg : InboundMessage) : Errand (Option Doc) :=
  match msg.text with
  | .str text =>
      let recipient := if msg.sender.truthy then some msg.sender else none
      match words (strip text) with
      | [] => .ret none
      | word :: parts =>
          let verb := lower word
          let command :=
            if verb = "status" then agent.statusCommand recipient
            else if verb = "approve" || verb = "approved" || verb = "deny" || verb = "denied" then
              resolveCommand verb parts (agent.resolver msg.sender) recipient
            else if verb = "decide" then
              decideCommand text parts (agent.resolver msg.sender) recipient
            else
              match session msg.sender with
              | .error e => .throw e
              | .ok session => agent.converse path (strip text) session recipient
          command.bind fun doc => .ret (some doc)
  | _ => .throw attributeError

/-! ## Deliveries -/

/-- `msg.text[:MAX_STORED_TEXT]`. -/
def storedText : Json Empty → Except Exn (Json Empty)
  | .str s => .ok (.str (clip 4000 s))
  | .arr items => .ok (.arr (items.take 4000))
  | _ => .error typeError

/-- The line of the inbox for a message. -/
def record (msg : InboundMessage) : Except Exn (Time → InboundRecord) := do
  let sender ← maskNumber agent.str msg.sender
  let text ← storedText msg.text
  return fun now => ⟨now, agent.settings.channel, msg.messageId, sender, text, msg.timestamp⟩

/-- `record_inbound`. -/
def recordInbound : List InboundMessage → Program webhook Unit
  | [] => .ret ()
  | msg :: msgs =>
      match agent.record msg with
      | .error e => .throw e
      | .ok record =>
          ((stmt (.appendInbox record)).tag none : Program webhook Unit).bind fun _ =>
            recordInbound msgs

/-- The messages of a delivery, one after the other; how many were answered. -/
def handleAll (path : Nat) : List InboundMessage → Program webhook Nat
  | [] => .ret 0
  | msg :: msgs =>
      ((agent.handleInboundCommand [path] msg).tag (some msg)).bind fun reply =>
        (handleAll (path + 1) msgs).bind fun replies =>
          .ret (if reply.isSome then replies + 1 else replies)

/-- The messages of a delivery that the webhook lets through, or its refusal. -/
def admitted (req : Request) : Except Exn (Except Response (List InboundMessage)) :=
  match agent.settings.channel with
  | .twilioSms =>
      if !verifyTwilioSignature agent.hmacSha1 agent.settings.twilioAuthToken req.publicUrl req.form
          req.twilioSignature && !agent.settings.dryRun then
        .ok (.error (.plain 403 "invalid signature"))
      else .ok (.ok (iterTwilioInbound agent.isDigit req.form))
  | .whatsapp =>
      if !verifySignature agent.hmacSha256 req.body req.hubSignature agent.settings.appSecret then
        .ok (.error (.json 403 [("error", .str "invalid signature")]))
      else
        match req.json with
        | none => .ok (.error (.json 400 [("error", .str "invalid json")]))
        | some payload => (iterInboundMessages payload).map .ok

/-- The answer to a delivery whose messages were handled. -/
def accepted (received replies : Nat) : Response :=
  match agent.settings.channel with
  | .twilioSms => .plain 200 ""
  | .whatsapp => .json 200 [("received", .int received), ("replies", .int replies)]

/-- `receive_webhook`: admit the delivery, record its messages, and handle each. -/
def receiveWebhook (req : Request) : Program webhook Response :=
  match agent.admitted req with
  | .error e => .throw e
  | .ok (.error response) => .ret response
  | .ok (.ok msgs) =>
      (agent.recordInbound msgs).bind fun _ =>
        (agent.handleAll 0 msgs).bind fun replies =>
          .ret (agent.accepted msgs.length replies)

/-! ## What a delivery calls -/

theorem liveStatus_only : agent.liveStatus.Only Quiet :=
  .bind (quiet_stmt _) fun _ => .bind agent.studioStatus.quiet fun _ =>
    .bind agent.refreshPrepCache.quiet.attempt fun _ => .ret _

theorem statusCommand_only (recipient : Option (Json Empty)) :
    (agent.statusCommand recipient).Only Quiet :=
  .bind (agent.liveStatus_only.tryCatch fun _ => agent.statusSummary.quiet) fun _ =>
    .bind (quiet_sendText _ _) fun _ => .ret _

theorem handoffReply_only (verb approvalId : String) (recipient : Option (Json Empty)) (id : Uuid)
    (approval : Approval) : (handoffReply verb approvalId recipient id approval).Only Quiet := by
  refine .ite (fun _ => .tryCatch (.bind (activateHandoff_only id) fun handoff => ?_)
    fun _ => .ret _) fun _ => .ret _
  cases handoff with
  | none => exact .ret _
  | some x => exact .bind (quiet_sendText _ _) fun _ => .ret _

theorem tryResolve_only (verb approvalId resolver : String) (recipient : Option (Json Empty)) :
    (tryResolve verb approvalId resolver recipient).Only Spoken := by
  refine .bind ((quiet_stmt _).mono fun _ => .quiet) fun _ => .bind (resolve_only _ _ _)
    fun approval => ?_
  cases approval with
  | none => exact .ret _
  | some x =>
      exact .bind ((handoffReply_only _ _ _ _ _).mono fun _ => .quiet) fun _ => .ret _

theorem failed_only (verb invalid : String) (recipient : Option (Json Empty)) (e : Exn) :
    (failed verb invalid recipient e).Only Quiet :=
  .ite (fun _ => .bind (quiet_sendText _ _) fun _ => .ret _)
    fun _ => .bind (quiet_sendText _ _) fun _ => .ret _

theorem resolveCommand_only (verb : String) (parts : List String) (resolver : Except Exn String)
    (recipient : Option (Json Empty)) :
    (resolveCommand verb parts resolver recipient).Only Spoken := by
  have reply {text : String} {doc : Doc} : (do sendText text recipient; return doc
      : Errand Doc).Only Spoken :=
    .bind ((quiet_sendText _ _).mono fun _ => .quiet) fun _ => .ret _
  cases parts with
  | nil => exact reply
  | cons approvalId parts =>
      cases resolver with
      | error e => exact .throw _
      | ok resolver =>
          refine .bind (tryResolve_only _ _ _ _).attempt fun outcome => ?_
          match outcome with
          | .error e => exact (failed_only _ _ _ _).mono fun _ => .quiet
          | .ok none => exact reply
          | .ok (some (_, some doc)) => exact .ret _
          | .ok (some (approval, none)) => exact reply

theorem decideCommand_only (text : String) (parts : List String) (resolver : Except Exn String)
    (recipient : Option (Json Empty)) :
    (decideCommand text parts resolver recipient).Only Spoken := by
  have reply {text : String} {doc : Doc} : (do sendText text recipient; return doc
      : Errand Doc).Only Spoken :=
    .bind ((quiet_sendText _ _).mono fun _ => .quiet) fun _ => .ret _
  match parts with
  | [] => exact reply
  | [_] => exact reply
  | decisionId :: _ :: _ =>
      cases resolver with
      | error e => exact .throw _
      | ok resolver =>
          have hask : (do stmt .connect; answer decisionId (afterTwoWords text) resolver
              : Errand (Option Decision)).Only Spoken :=
            .bind ((quiet_stmt _).mono fun _ => .quiet) fun _ => answer_only _ _ _
          refine .bind hask.attempt fun outcome => ?_
          match outcome with
          | .error e => exact (failed_only _ _ _ _).mono fun _ => .quiet
          | .ok none => exact reply
          | .ok (some decision) => exact reply

/-- **Every verb and every conversation** of a message gives verdicts only by `resolve` and
`answer`. -/
theorem handleInboundCommand_only (path : List Nat) (msg : InboundMessage) :
    (agent.handleInboundCommand path msg).Only Spoken := by
  unfold handleInboundCommand
  split
  · dsimp only
    split
    · exact .ret _
    · refine .bind ?_ fun _ => .ret _
      refine .ite (fun _ => (agent.statusCommand_only _).mono fun _ => .quiet) fun _ =>
        .ite (fun _ => resolveCommand_only _ _ _ _) fun _ =>
          .ite (fun _ => decideCommand_only _ _ _ _) fun _ => ?_
      split
      · exact .throw _
      · exact agent.converse_only _ _ _ _
  · exact .throw _

/-- What a delivery calls: verdicts only for a message. -/
inductive Traced : webhook.Op → Prop where
  | quiet {made : Option InboundMessage} {o : spokesman.Op} (h : Quiet o) : Traced (made, o)
  | spoken {msg : InboundMessage} {o : spokesman.Op} (h : Spoken o) : Traced (some msg, o)

theorem recordInbound_only (msgs : List InboundMessage) :
    (agent.recordInbound msgs).Only Traced := by
  induction msgs with
  | nil => exact .ret _
  | cons msg msgs ih =>
      unfold recordInbound
      split
      · exact .throw _
      · exact .bind ((quiet_stmt _).tag fun _ => .quiet) fun _ => ih

theorem handleAll_only (path : Nat) (msgs : List InboundMessage) :
    (agent.handleAll path msgs).Only Traced := by
  induction msgs generalizing path with
  | nil => exact .ret _
  | cons msg msgs ih =>
      exact .bind ((agent.handleInboundCommand_only _ _).tag fun _ => .spoken) fun _ =>
        .bind (ih _) fun _ => .ret _

/-- **A delivery gives verdicts only by `resolve` and `answer`, and only for a message of its
own.** -/
theorem receiveWebhook_only (req : Request) : (agent.receiveWebhook req).Only Traced := by
  unfold receiveWebhook
  split
  · exact .throw _
  · exact .ret _
  · exact .bind (agent.recordInbound_only _) fun _ =>
      .bind (agent.handleAll_only _ _) fun _ => .ret _

end Agent

end AiStudio.Spokesman
