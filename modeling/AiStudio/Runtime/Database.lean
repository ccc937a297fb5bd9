import AiStudio.Concurrency.Schedule
import AiStudio.Runtime.Approvals
import AiStudio.Runtime.Decisions
import AiStudio.Runtime.Tasks
import AiStudio.Runtime.Trust

/-!
# The calls of a process

Every transaction of the runtime as one call of an `Interface`: the processes of the
studio (workers, the supervisor, the gateway, humans at the Spokesman) are programs
over it. A process that waits for a row lock waits before its transaction, so a
transaction is one step; ids a transaction draws are parameters of its call.
-/

set_option autoImplicit false

namespace AiStudio.Runtime

open AiStudio.Concurrency

/-- The transactions of the runtime, the effects of tools, and the clock. -/
inductive StoreOp where
  | enqueueTask (id : Uuid) (a : EnqueueArgs)
  | getTask (id : Uuid)
  | grabTask (a : GrabArgs) (locked : List Uuid)
  | transition (id : Uuid) (target : TaskStatus) (a : TransitionArgs)
  | heartbeat (id : Uuid) (workerId : String)
  | findBlockedTasks
  | findStaleTasks (threshold : Time)
  | taskMadeProgress (id : Uuid)
  | addSpentTokens (id : Uuid) (tokens : Int)
  | setRequestStatus (id : Uuid) (status reason : String) (workTaskIds : Option (List String))
  | nudgeTask (id : Uuid) (grace : Time)
  | rekickTask (id : Uuid) (madeProgress : Option Bool)
  | escalateStuckTask (id : Uuid) (stallReason : String) (noProgressRekicks retries : Nat)
  | failExhausted (id : Uuid) (scanned : Task) (maxRetries : Nat)
  | selectOpenApproval (fingerprint : String)
  | insertApproval (id : Uuid) (a : RequestArgs)
  | resolveApproval (id : Uuid) (decision : ApprovalStatus) (resolver workstream : String)
  | getApproval (id : Uuid)
  | findGrant (fingerprint : String)
  | consumeGrant (id : Uuid)
  | requestDecision (id : Uuid) (a : DecisionArgs)
  | answerDecision (id : Uuid) (answer resolver : String) (at? : Option Time)
  | withdrawDecision (id : Uuid) (resolver : String) (at? : Option Time)
  | getDecision (id : Uuid)
  | getTrust (identity : String)
  | recordStrike (identity : String) (claimId : Option String) (kind : String)
      (at? : Option Time)
  | recordClaim (id : Uuid) (a : ClaimArgs)
  | setClaimVerification (id : Uuid) (status : VerificationStatus) (verifiedBy : String)
      (reason : Option String)
  | recordProofRequest (identity : String) (claimId : Option String)
  | emit (taskId : Option Uuid) (workstream : Workstream) (payload : SinkPayload)
  | executeTool (run : ToolRun)
  | tick (elapsed : Nat)

namespace StoreOp

/-- What a call returns. -/
def Res : StoreOp → Type
  | enqueueTask .. => Task
  | getTask .. => Option Task
  | grabTask .. => Option (Uuid × Task)
  | transition .. => Option Task
  | heartbeat .. => Option Task
  | findBlockedTasks => List (Uuid × Task)
  | findStaleTasks .. => List (Uuid × Task)
  | taskMadeProgress .. => Bool
  | addSpentTokens .. => Option Task
  | setRequestStatus .. => Unit
  | nudgeTask .. => Option Task
  | rekickTask .. => Option Task
  | escalateStuckTask .. => Option Task
  | failExhausted .. => Option Task
  | selectOpenApproval .. => Option (Uuid × Approval)
  | insertApproval .. => Approval
  | resolveApproval .. => Option Approval
  | getApproval .. => Option Approval
  | findGrant .. => Option (Uuid × Approval)
  | consumeGrant .. => Option Approval
  | requestDecision .. => Decision
  | answerDecision .. => Option Decision
  | withdrawDecision .. => Option Decision
  | getDecision .. => Option Decision
  | getTrust .. => IdentityTrust
  | recordStrike .. => IdentityTrust
  | recordClaim .. => Unit
  | setClaimVerification .. => Option CommsClaim
  | recordProofRequest .. => Unit
  | emit .. => Unit
  | executeTool .. => Unit
  | tick .. => Unit

/-- The transaction of a call. -/
def exec : (o : StoreOp) → Tx o.Res
  | enqueueTask id a => Runtime.enqueueTask id a
  | getTask id => Runtime.getTask id
  | grabTask a locked => Runtime.grabTask a locked
  | transition id target a => Runtime.transition id target a
  | heartbeat id workerId => Runtime.heartbeat id workerId
  | findBlockedTasks => Runtime.findBlockedTasks
  | findStaleTasks threshold => Runtime.findStaleTasks threshold
  | taskMadeProgress id => Runtime.taskMadeProgress id
  | addSpentTokens id tokens => Runtime.addSpentTokens id tokens
  | setRequestStatus id status reason workTaskIds =>
      Runtime.setRequestStatus id status reason workTaskIds
  | nudgeTask id grace => Runtime.nudgeTask id grace
  | rekickTask id made => Runtime.rekickTask id made
  | escalateStuckTask id reason count retries =>
      Runtime.escalateStuckTask id reason count retries
  | failExhausted id scanned maxRetries => Runtime.failExhausted id scanned maxRetries
  | selectOpenApproval fingerprint => Runtime.selectOpenApproval fingerprint
  | insertApproval id a => Runtime.insertApproval id a
  | resolveApproval id decision resolver workstream =>
      Runtime.resolveApproval id decision resolver workstream
  | getApproval id => Runtime.getApproval id
  | findGrant fingerprint => Runtime.findGrant fingerprint
  | consumeGrant id => Runtime.consumeGrant id
  | requestDecision id a => Runtime.requestDecision id a
  | answerDecision id answer resolver at? => Runtime.answerDecision id answer resolver at?
  | withdrawDecision id resolver at? => Runtime.withdrawDecision id resolver at?
  | getDecision id => Runtime.getDecision id
  | getTrust identity => Runtime.getTrust identity
  | recordStrike identity claimId kind at? => Runtime.recordStrike identity claimId kind at?
  | recordClaim id a => Runtime.recordClaim id a
  | setClaimVerification id status verifiedBy reason =>
      Runtime.setClaimVerification id status verifiedBy reason
  | recordProofRequest identity claimId => Runtime.recordProofRequest identity claimId
  | emit taskId workstream payload => fun s =>
      .ok ((), s.appendEvent taskId workstream (.sink payload))
  | executeTool run => fun s => .ok ((), { s with toolRuns := s.toolRuns ++ [run] })
  | tick elapsed => fun s => .ok ((), { s with now := s.now + elapsed })

end StoreOp

/-- The database as the processes see it. A call that raises changes nothing. -/
abbrev database : Interface Store Exn where
  Op := StoreOp
  Res := StoreOp.Res
  exec := StoreOp.exec

/-- A process of the studio. -/
abbrev Process (α : Type) := Program database α

/-- One call of a process. -/
abbrev call (o : StoreOp) : Process o.Res := Program.op (I := database) o

/-- **What a step of the studio is**: a committed transaction, or nothing. -/
theorem exec_or_abort {P α : Type} [DecidableEq P] {st : Step database P α} (h : Fires st) :
    (∃ v, st.out = .ok v ∧ st.op.exec st.before.state = .ok (v, st.after.state)) ∨
      (∃ e, st.out = .error e ∧ st.after.state = st.before.state) := by
  rcases h.committed with ⟨v, hv, -, hexec⟩ | ⟨e, he, hs⟩
  · exact Or.inl ⟨v, hv, hexec⟩
  · exact Or.inr ⟨e, he, hs⟩

/-- A committed step runs the transaction of its call. -/
theorem exec_of_committed {P α : Type} [DecidableEq P] {st : Step database P α} (h : Fires st)
    (hok : ∃ v, st.out = .ok v) {o : StoreOp} (hop : st.op = o) :
    ∃ v, o.exec st.before.state = .ok (v, st.after.state) := by
  subst hop
  rcases exec_or_abort h with ⟨v, -, hexec⟩ | ⟨e, he, -⟩
  · exact ⟨v, hexec⟩
  · obtain ⟨v, hv⟩ := hok
    rw [he] at hv
    cases hv

end AiStudio.Runtime
