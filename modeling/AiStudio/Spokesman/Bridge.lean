import AiStudio.Runtime.Worker
import AiStudio.Spokesman.Noise

/-!
# The Spokesman's bridge to the runtime

Embeds `spokesman/runtime_bridge.py`, `handoff.py` and `noise.py`, as far as inbound
messages use them. The Spokesman's own tables, its inbox and what it sends stand beside
the runtime's database; each of its statements is a call. Every call carries the message
it is made for, so that a step of a run can be traced to the person who wrote it.
-/

set_option autoImplicit false

namespace AiStudio.Spokesman

open AiStudio.Data AiStudio.Runtime AiStudio.Concurrency

/-! ## Rows -/

/-- The statuses of a handoff. -/
inductive HandoffStatus where
  | proposed
  | active
  | ended
  deriving DecidableEq, Repr

/-- A row of `spokesman_handoffs`. -/
structure Handoff where
  approvalId : Uuid
  role : String
  status : HandoffStatus := .proposed
  workstream : String
  reason : String
  expiresAt : Time
  activatedAt : Option Time := none
  endedAt : Option Time := none

/-- A turn of a conversation, and whose it is. -/
structure Turn where
  human : Bool
  content : String

/-- A line of the inbox: the sender is masked, the text cut. -/
structure InboundRecord where
  receivedAt : Time
  channel : Channel
  messageId : Json Empty
  sender : String
  text : Json Empty
  timestamp : Json Empty

/-- What the Spokesman keeps beside the runtime's database. -/
structure Surface where
  inbox : List InboundRecord
  handoffs : Table Uuid Handoff
  /-- The turns of each session, oldest first. -/
  turns : List (String × Turn)
  sent : List (String × Option (Json Empty))

/-- A Spokesman that has heard and said nothing. -/
def Surface.initial : Surface := ⟨[], .empty, [], []⟩

/-- `real_task_sql`, of a row of `tasks`: the task is a stakeholder's. -/
def isReal (row : Task) : Bool := realTaskSql (some row.workstream.name) row.type row.payload

/-! ## Calls -/

/-- The statements of the Spokesman on its own rows and files, and what it sends. -/
inductive SurfaceOp where
  | connect
  | appendInbox (record : Time → InboundRecord)
  | sendText (text : String) (recipient : Option (Json Empty))
  | pendingApprovalsReal
  | insertHandoff (id : Uuid) (row : Time → Handoff)
  | activateHandoff (approvalId : Uuid)
  | endHandoff
  | endHandoffById (id : Uuid)
  | insertTurn (session : String) (turn : Turn)
  | selectTurns (session : String) (limit : Nat)

namespace SurfaceOp

/-- What a statement returns. -/
def Res : SurfaceOp → Type
  | pendingApprovalsReal => List (Uuid × Approval)
  | activateHandoff .. => Option (Uuid × Handoff)
  | endHandoff => Option (Uuid × Handoff)
  | endHandoffById _ => Option (Uuid × Handoff)
  | selectTurns .. => List Turn
  | _ => Unit

/-- `_pending_approvals_real`: the pending approvals of real tasks, oldest first. -/
def pendingReal (s : Store) : List (Uuid × Approval) :=
  (s.approvals.select fun _ a => a.status = .pending &&
    ((a.taskId.bind s.tasks.find?).any isReal)).insertionSort fun x y => x.2.createdAt ≤ y.2.createdAt

/-- The transaction of a statement. -/
def exec : (o : SurfaceOp) → Store × Surface → Except Exn (o.Res × (Store × Surface))
  | connect => fun s => .ok ((), s)
  | appendInbox record => fun s =>
      .ok ((), s.1, { s.2 with inbox := s.2.inbox ++ [record s.1.now] })
  | sendText text recipient => fun s =>
      .ok ((), s.1, { s.2 with sent := s.2.sent ++ [(text, recipient)] })
  | pendingApprovalsReal => fun s => .ok (pendingReal s.1, s)
  | insertHandoff id row => fun s =>
      match s.2.handoffs.insert? id (row s.1.now) with
      | none => .error (.integrityError "spokesman_handoffs_pkey")
      | some handoffs => .ok ((), s.1, { s.2 with handoffs := handoffs })
  | activateHandoff approvalId => fun s =>
      let proposed := fun (_ : Uuid) (h : Handoff) =>
        decide (h.approvalId = approvalId ∧ h.status = .proposed)
      let activate := fun (h : Handoff) =>
        { h with status := .active, activatedAt := some s.1.now }
      .ok ((s.2.handoffs.select proposed).head?.map fun x => (x.1, activate x.2), s.1,
        { s.2 with handoffs := s.2.handoffs.modifyWhere proposed activate })
  | endHandoff => fun s =>
      let active := fun (_ : Uuid) (h : Handoff) => decide (h.status = .active)
      let close := fun (h : Handoff) => { h with status := .ended, endedAt := some s.1.now }
      .ok ((s.2.handoffs.select active).head?.map fun x => (x.1, close x.2), s.1,
        { s.2 with handoffs := s.2.handoffs.modifyWhere active close })
  | endHandoffById id => fun s =>
      let active := fun (k : Uuid) (h : Handoff) => decide (k = id ∧ h.status = .active)
      let close := fun (h : Handoff) => { h with status := .ended, endedAt := some s.1.now }
      .ok ((s.2.handoffs.select active).head?.map fun x => (x.1, close x.2), s.1,
        { s.2 with handoffs := s.2.handoffs.modifyWhere active close })
  | insertTurn session turn => fun s =>
      .ok ((), s.1, { s.2 with turns := s.2.turns ++ [(session, turn)] })
  | selectTurns session limit => fun s =>
      .ok (((s.2.turns.filter (·.1 = session)).map Prod.snd).reverse.take limit, s)

/-- **A statement of the Spokesman leaves the runtime's database alone.** -/
theorem exec_store {o : SurfaceOp} {s s' : Store × Surface} {r : o.Res}
    (h : o.exec s = .ok (r, s')) : s'.1 = s.1 := by
  cases o with
  | insertHandoff id row =>
      simp only [exec] at h
      split at h
      · cases h
      · exact (congrArg (·.2.1) (Except.ok.inj h)).symm
  | _ => exact (congrArg (·.2.1) (Except.ok.inj h)).symm

end SurfaceOp

/-- The statements of the Spokesman beside the transactions of the runtime. -/
abbrev surface : Interface (Store × Surface) Exn where
  Op := SurfaceOp
  Res := SurfaceOp.Res
  exec := SurfaceOp.exec

/-- The database as the Spokesman sees it. -/
abbrev spokesman : Interface (Store × Surface) Exn := database.beside surface

/-- A program of the Spokesman. -/
abbrev Errand (α : Type) := Program spokesman α

/-- One statement of the Spokesman. -/
abbrev stmt (o : SurfaceOp) : Errand o.Res := Program.op (I := spokesman) (.inr o)

/-- A program of the runtime, run by the Spokesman. -/
abbrev runtime {α : Type} (p : Process α) : Errand α := p.inl

/-- `client.send_text`. -/
def sendText (text : String) (recipient : Option (Json Empty)) : Errand Unit :=
  stmt (.sendText text recipient)

/-- The call decides no approval and no decision, nor spends a grant. -/
def sparesVerdicts : StoreOp → Bool
  | .resolveApproval .. | .consumeGrant .. | .answerDecision .. | .withdrawDecision .. => false
  | _ => true

/-- The call leaves every approval as it is, and every verdict. -/
def sparesApprovals : StoreOp → Bool
  | .insertApproval .. => false
  | o => sparesVerdicts o

/-- The calls of the Spokesman that leave every verdict as it is. -/
def Quiet : spokesman.Op → Prop
  | .inl o => sparesVerdicts o = true
  | .inr _ => True

/-- An errand the Spokesman runs between its own steps: it leaves every verdict alone. -/
structure Aside (α : Type) where
  errand : Errand α
  quiet : errand.Only Quiet

/-- An aside that only answers. -/
def Aside.answer {α : Type} (a : α) : Aside α := ⟨.ret a, .ret a⟩

/-! ## Verdicts -/

/-- `normalize_decision`. -/
def normalizeDecision (word : String) : Option ApprovalStatus :=
  match lower (strip word) with
  | "approve" | "approved" | "yes" => some .approved
  | "deny" | "denied" | "no" | "reject" => some .denied
  | _ => none

/-- The exceptions of a class below `ValueError`. -/
def isValueError : Exn → Bool
  | .illegalTransition .. | .valueError _ | .dependencyCycle _ => true
  | _ => false

/-- `uuid.UUID(text)`, which raises. -/
def parseId (text : String) : Except Exn Uuid :=
  match uuid? text with
  | some id => .ok id
  | none => .error (.valueError "badly formed hexadecimal UUID string")

/-- `resolve`: decide a pending approval and resume what waits for it. -/
def resolve (approvalId decision resolver : String) : Errand (Option (Uuid × Approval)) :=
  match normalizeDecision decision with
  | none => .throw (.valueError "decision must be approve/deny (or approved/denied)")
  | some canonical =>
      match parseId approvalId with
      | .error e => .throw e
      | .ok id => do
          let approval ← runtime (call (.resolveApproval id canonical resolver "productivity"))
          match approval with
          | none => return none
          | some approval => do
              let _ ← runtime resumeApproved
              return some (id, approval)

/-- `answer`: answer an open decision, which resumes its task. -/
def answer (decisionId text resolver : String) : Errand (Option Decision) :=
  match parseId decisionId with
  | .error e => .throw e
  | .ok id => runtime (call (.answerDecision id text resolver none))

/-! ## Handoffs -/

/-- `DEFAULT_HANDOFF_HOURS`, in microseconds. -/
def defaultHandoff : Time := 4 * 3600 * 1000000

/-- The first characters of a text. -/
def clip (n : Nat) (s : String) : String := String.ofList (s.toList.take n)

/-- The request for a handoff: its arguments are the role. -/
def handoffRequest (sha256 : String → String) (role reason workstream : String) : RequestArgs where
  taskId := none
  role := "spokesman"
  tool := "handoff.propose"
  capabilities := []
  tier := "red"
  reason := "Handoff to " ++ role ++ ": " ++ clip 200 reason
  workstream := workstream
  fingerprint := computeFingerprint sha256 Empty.elim none "handoff.propose" []
    (some workstream) (some [("handoff_role", .str role)])

/-- `text or default`. -/
def orText (text default : String) : String := if text = "" then default else text

/-- `propose_handoff`: an approval to ask for, and the handoff that waits for it. -/
def proposeHandoff (sha256 : String → String) (approvalId handoffId : Uuid)
    (role reason workstream : String) : Errand (Uuid × Uuid) := do
  let role := orText (lower (strip (orText role "pm"))) "pm"
  let reason := clip 500 (strip (orText reason "Specialist back-and-forth needed."))
  let (approvalId, _) ← runtime (requestApproval approvalId
    (handoffRequest sha256 role reason workstream))
  stmt (.insertHandoff handoffId fun now =>
    ⟨approvalId, role, .proposed, workstream, reason, now + defaultHandoff, none, none⟩)
  runtime (emitEvent workstream none (.handoffProposed handoffId approvalId role))
  return (handoffId, approvalId)

/-- `activate_handoff_for_approval`. -/
def activateHandoffForApproval (approvalId : Uuid) : Errand (Option (Uuid × Handoff)) := do
  let handoff ← stmt (.activateHandoff approvalId)
  match handoff with
  | none => return none
  | some (id, row) => do
      runtime (emitEvent row.workstream none (.handoffActivated id approvalId row.role))
      return some (id, row)

/-- `end_handoff` of whatever handoff is active. -/
def endHandoff : Errand (Option (Uuid × Handoff)) := do
  let ended ← stmt .endHandoff
  match ended with
  | none => return none
  | some (id, row) => do
      runtime (emitEvent row.workstream none (.handoffEnded id row.role))
      return some (id, row)

/-- `end_handoff` of one handoff. -/
def endHandoffById (id : Uuid) : Errand (Option (Uuid × Handoff)) := do
  let ended ← stmt (.endHandoffById id)
  match ended with
  | none => return none
  | some (id, row) => do
      runtime (emitEvent row.workstream none (.handoffEnded id row.role))
      return some (id, row)

/-! ## Conversations -/

/-- A message of a prompt. -/
structure Message where
  role : String
  content : String

/-- `Turn.as_message`. -/
def Turn.asMessage (turn : Turn) : Message :=
  ⟨if turn.human then "user" else "assistant", turn.content⟩

/-- `record_turn`: a blank turn is not recorded. -/
def recordTurn (session : String) (human : Bool) (content : String) : Errand Unit :=
  let content := strip content
  if session = "" || content = "" then .ret ()
  else stmt (.insertTurn session ⟨human, clip 4000 content⟩)

/-- The newest turns that fit into `max_chars`; the first of them always does. -/
def keepTurns (maxChars used : Nat) (first : Bool) : List Turn → List Turn
  | [] => []
  | turn :: turns =>
      let used := used + turn.content.length
      if !first && maxChars < used then []
      else turn :: keepTurns maxChars used false turns

/-- `history_messages`: the turns of the session before this one, oldest first. -/
def historyMessages (session : String) : Errand (List Message) :=
  if session = "" then .ret []
  else
    (do
      let turns ← stmt (.selectTurns session 12)
      return ((keepTurns 8000 0 true turns).reverse.map Turn.asMessage)).tryCatch fun _ => .ret []

/-! ## What the errands call -/

/-- What the Spokesman calls for a message: beside what leaves the verdicts alone, it
resolves approvals and answers decisions. -/
inductive Spoken : spokesman.Op → Prop where
  | quiet {o : spokesman.Op} (h : Quiet o) : Spoken o
  | resolve (id : Uuid) (decision : ApprovalStatus) (resolver : String) :
      Spoken (.inl (.resolveApproval id decision resolver "productivity"))
  | answer (id : Uuid) (text resolver : String) :
      Spoken (.inl (.answerDecision id text resolver none))

section Calls

variable {α : Type}

theorem quiet_runtime {p : Process α} (h : p.Only (sparesVerdicts · = true)) :
    (runtime p).Only Quiet :=
  h.inl fun _ ho => ho

theorem sparesVerdicts_of_spares {o : StoreOp} (h : sparesApprovals o = true) :
    sparesVerdicts o = true := by
  cases o with
  | insertApproval => rfl
  | _ => exact h

theorem runtime_op {A : spokesman.Op → Prop} {o : StoreOp} (h : A (.inl o)) :
    (runtime (call o)).Only A := by
  have hcall : (call o).Only (· = o) := .op rfl
  exact hcall.inl fun o' (ho : o' = o) => by rw [ho]; exact h

theorem quiet_stmt (o : SurfaceOp) : (stmt o).Only Quiet := Program.Only.op trivial

theorem quiet_sendText (text : String) (recipient : Option (Json Empty)) :
    (sendText text recipient).Only Quiet :=
  quiet_stmt _

theorem emitEvent_only (workstream : String) (taskId : Option Uuid) (payload : SinkPayload) :
    (emitEvent workstream taskId payload).Only (sparesApprovals · = true) := by
  unfold emitEvent
  cases requireWorkstream workstream with
  | error e => exact .throw _
  | ok workstream => exact .op rfl

theorem quiet_emitEvent (workstream : String) (taskId : Option Uuid) (payload : SinkPayload) :
    (runtime (emitEvent workstream taskId payload)).Only Quiet :=
  quiet_runtime ((emitEvent_only _ _ _).mono fun _ => sparesVerdicts_of_spares)

theorem requestApproval_only (newId : Uuid) (a : RequestArgs) :
    (requestApproval newId a).Only (sparesVerdicts · = true) := by
  refine .bind (.op rfl) fun existing => ?_
  cases existing with
  | some row => exact .ret _
  | none => exact .bind (.op rfl) fun _ => .ret _

theorem completeTask_only (id : Uuid) (a : CompleteArgs) :
    (completeTask id a).Only (sparesApprovals · = true) := by
  refine .ite (fun _ => .throw _) fun _ => .ite (fun _ => ?_) fun _ => .op rfl
  refine .bind (.op rfl) fun submitted => ?_
  cases submitted with
  | none => exact .ret _
  | some row =>
      refine .bind (.op rfl) fun approved => ?_
      cases approved with
      | none => exact .ret _
      | some row => exact .op rfl

theorem resumeGranted_only (id : Uuid) (row : Task) (approvalId : Uuid) (result : ResumeResult) :
    (resumeGranted id row approvalId result).Only (sparesApprovals · = true) := by
  refine .bind (.op rfl) fun requeued => ?_
  cases requeued with
  | none => exact .ret _
  | some row => exact .bind (.op rfl) fun _ => .ret _

theorem failDenied_only (id approvalId : Uuid) (approval : Approval) (result : ResumeResult) :
    (failDenied id approvalId approval result).Only (sparesApprovals · = true) := by
  refine .bind (completeTask_only _ _) fun failed => ?_
  cases failed with
  | none => exact .ret _
  | some row => exact .ret _

theorem resumeTask_only (id : Uuid) (row : Task) (result : ResumeResult) :
    (resumeTask id row result).Only (sparesApprovals · = true) := by
  unfold resumeTask
  split
  · exact .ret _
  · exact .ret _
  · split
    · exact .throw _
    · refine .bind (.op rfl) fun approval => ?_
      cases approval with
      | none => exact .ret _
      | some approval =>
          dsimp only
          split
          · exact resumeGranted_only _ _ _ _
          · exact failDenied_only _ _ _ _
          · exact .ret _
          · exact .ret _

theorem resumeEach_only (result : ResumeResult) (tasks : List (Uuid × Task)) :
    (resumeEach result tasks).Only (sparesApprovals · = true) := by
  induction tasks generalizing result with
  | nil => exact .ret _
  | cons task tasks ih => exact .bind (resumeTask_only _ _ _) fun result => ih result

/-- **A pass over the parked tasks decides nothing.** -/
theorem resumeApproved_only : resumeApproved.Only (sparesApprovals · = true) :=
  .bind (.op rfl) fun tasks => resumeEach_only _ tasks

/-- **`resolve` calls for a verdict, and then for nothing but the resumption.** -/
theorem resolve_only (approvalId decision resolver : String) :
    (resolve approvalId decision resolver).Only Spoken := by
  unfold resolve
  cases normalizeDecision decision with
  | none => exact .throw _
  | some canonical =>
      cases parseId approvalId with
      | error e => exact .throw _
      | ok id =>
          refine .bind (runtime_op (.resolve id canonical resolver)) fun approval => ?_
          cases approval with
          | none => exact .ret _
          | some approval =>
              exact .bind ((quiet_runtime (resumeApproved_only.mono fun _ =>
                sparesVerdicts_of_spares)).mono fun _ => .quiet) fun _ => .ret _

theorem answer_only (decisionId text resolver : String) :
    (answer decisionId text resolver).Only Spoken := by
  unfold answer
  cases parseId decisionId with
  | error e => exact .throw _
  | ok id =>
      exact runtime_op (.answer id text resolver)

theorem proposeHandoff_only (sha256 : String → String) (approvalId handoffId : Uuid)
    (role reason workstream : String) :
    (proposeHandoff sha256 approvalId handoffId role reason workstream).Only Quiet :=
  .bind (quiet_runtime (requestApproval_only _ _)) fun _ =>
    .bind (quiet_stmt _) fun _ => .bind (quiet_emitEvent _ _ _) fun _ => .ret _

theorem activateHandoff_only (approvalId : Uuid) :
    (activateHandoffForApproval approvalId).Only Quiet := by
  refine .bind (quiet_stmt _) fun handoff => ?_
  cases handoff with
  | none => exact .ret _
  | some x => exact .bind (quiet_emitEvent _ _ _) fun _ => .ret _

theorem endHandoff_only : endHandoff.Only Quiet := by
  refine .bind (quiet_stmt _) fun ended => ?_
  cases ended with
  | none => exact .ret _
  | some x => exact .bind (quiet_emitEvent _ _ _) fun _ => .ret _

theorem recordTurn_only (session : String) (human : Bool) (content : String) :
    (recordTurn session human content).Only Quiet := by
  exact .ite (fun _ => .ret _) fun _ => quiet_stmt _

theorem historyMessages_only (session : String) : (historyMessages session).Only Quiet := by
  exact .ite (fun _ => .ret _) fun _ =>
    .tryCatch (.bind (quiet_stmt _) fun _ => .ret _) fun _ => .ret _

end Calls

end AiStudio.Spokesman
