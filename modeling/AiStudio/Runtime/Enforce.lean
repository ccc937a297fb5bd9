import AiStudio.Runtime.Database
import AiStudio.Runtime.Fingerprint

/-!
# Enforced invocation

Embeds `invoke` of `runtime/enforce.py` with the production sink, which appends to the
event log, and `request_approval`. Every statement of the approval loop is a call of
its own. The registry maps names to tools; a tool's body acts outside the database, so
its run is recorded by `executeTool` and its result is the tool's.
-/

set_option autoImplicit false

namespace AiStudio.Runtime

open AiStudio.Data AiStudio.Concurrency Policy

/-- The outcome of a tool's body. -/
structure ToolResult where
  ok : Bool
  output : Json PyObject := .null
  error : Option String := none
  metadata : Kwargs PyObject := []

/-- A tool: the capabilities a call of it needs, and its body. -/
structure Tool where
  capabilitiesFor : Kwargs PyObject → Finset Capability
  execute : Kwargs PyObject → Except Exn ToolResult

/-- The tools by name. -/
abbrev ToolRegistry := String → Option Tool

/-- The outcomes of `invoke`. -/
inductive InvokeStatus where
  | executed
  | denied
  | pending
  deriving DecidableEq, Repr

/-- The wire string of an outcome. -/
def InvokeStatus.value : InvokeStatus → String
  | executed => "executed"
  | denied => "denied"
  | pending => "pending"

/-- What an enforced invocation returns. -/
structure InvokeResult where
  status : InvokeStatus
  decision : Policy.Decision
  tool : String
  result : Option ToolResult := none
  approvalId : Option Uuid := none

/-- The keyword arguments of `invoke`; `conn` tells whether it has a connection. -/
structure InvokeArgs where
  role : String
  toolName : String
  conn : Bool := true
  workstream : String := "productivity"
  budget : Option BudgetContext := none
  taskId : Option Uuid := none
  kwargs : Kwargs PyObject := []

/-- `_arg_keys`: which arguments were passed, not their values. -/
def argKeys (kwargs : Kwargs PyObject) : List String :=
  (kwargs.map Prod.fst).insertionSort (· ≤ ·)

/-- `events.emit(make_event(..))`. -/
def emitEvent (workstream : String) (taskId : Option Uuid) (payload : SinkPayload) :
    Process Unit :=
  match requireWorkstream workstream with
  | .error e => .throw e
  | .ok workstream => call (.emit taskId workstream payload)

/-- `request_approval`, under the row id it draws. -/
def requestApproval (newId : Uuid) (a : RequestArgs) : Process (Uuid × Approval) := do
  let existing ← call (.selectOpenApproval a.fingerprint)
  match existing with
  | some row => return row
  | none => do
      let row ← call (.insertApproval newId a)
      return (newId, row)

namespace InvokeArgs

variable (a : InvokeArgs)

/-- The fingerprint of the call, which needs the capabilities `required`. -/
def fingerprint (sha256 : String → String) (required : Finset Capability) : String :=
  computeFingerprint sha256 PyObject.str a.taskId a.toolName (sortedValues required)
    (some a.workstream) (some a.kwargs)

/-- The request the policy engine decides. -/
def request (required : Finset Capability) : PolicyRequest where
  role := a.role
  tool := a.toolName
  requiredCapabilities := required
  budget := a.budget

/-- The verdict on a tool the registry does not have. -/
def unknownTool : Policy.Decision where
  effect := .deny
  tier := .red
  reason := "unknown tool: '" ++ a.toolName ++ "'"
  role := a.role
  tool := a.toolName

/-- The request for a human decision on the call. -/
def approvalRequest (sha256 : String → String) (required : Finset Capability)
    (decision : Policy.Decision) : RequestArgs where
  taskId := a.taskId
  role := a.role
  tool := a.toolName
  capabilities := sortedValues required
  tier := decision.tier.value
  reason := decision.reason
  workstream := a.workstream
  fingerprint := a.fingerprint sha256 required

/-- `_emit_decision`. -/
def emitDecision (decision : Policy.Decision) : Process Unit :=
  emitEvent a.workstream a.taskId (.policyDecision (argKeys a.kwargs) decision)

/-- The result of the tool's body, once it has run. -/
def report (tool : Tool) (decision : Policy.Decision) (approvalId : Option Uuid) :
    Process InvokeResult :=
  match tool.execute a.kwargs with
  | .error e => .throw e
  | .ok result => .ret ⟨.executed, decision, a.toolName, some result, approvalId⟩

/-- `_execute`: the event, then the tool. `approvalId` is the grant that authorized the
run. -/
def execute (tool : Tool) (decision : Policy.Decision) (fingerprint : String)
    (approvalId : Option Uuid) : Process InvokeResult := do
  emitEvent a.workstream a.taskId
    (.toolInvoked a.toolName a.role decision.tier (argKeys a.kwargs) approvalId)
  call (.executeTool ⟨a.toolName, a.role, a.kwargs, fingerprint, decision.effect, approvalId⟩)
  a.report tool decision approvalId

/-- The request of a call that no grant authorizes. -/
def pend (sha256 : String → String) (required : Finset Capability)
    (decision : Policy.Decision) (newId : Uuid) : Process InvokeResult := do
  let (id, _) ← requestApproval newId (a.approvalRequest sha256 required decision)
  return ⟨.pending, decision, a.toolName, none, some id⟩

/-- A call that needs approval: spend a live grant, else ask for one. -/
def approvalLoop (sha256 : String → String) (tool : Tool) (required : Finset Capability)
    (decision : Policy.Decision) (newId : Uuid) : Process InvokeResult := do
  let grant ← call (.findGrant (a.fingerprint sha256 required))
  match grant with
  | none => a.pend sha256 required decision newId
  | some (grantId, _) => do
      let consumed ← call (.consumeGrant grantId)
      match consumed with
      | none => a.pend sha256 required decision newId
      | some _ => a.execute tool decision (a.fingerprint sha256 required) (some grantId)

/-- A call without a connection pends with no row behind it. -/
def pendEphemeral (decision : Policy.Decision) (newId : Uuid) : Process InvokeResult := do
  emitEvent a.workstream a.taskId
    (.approvalRequestedEphemeral newId (argKeys a.kwargs) decision)
  return ⟨.pending, decision, a.toolName, none, some newId⟩

/-- What the verdict on a call leads to. -/
def act (sha256 : String → String) (tool : Tool) (required : Finset Capability)
    (decision : Policy.Decision) (newId : Uuid) : Process InvokeResult :=
  match decision.effect with
  | .deny => .ret ⟨.denied, decision, a.toolName, none, none⟩
  | .needsApproval =>
      if a.conn then a.approvalLoop sha256 tool required decision newId
      else a.pendEphemeral decision newId
  | .allow => a.execute tool decision (a.fingerprint sha256 required) none

/-- `invoke`: decide, record the decision, and act on it. -/
def invoke (sha256 : String → String) (registry : ToolRegistry) (config : PolicyConfig)
    (newId : Uuid) : Process InvokeResult :=
  match registry a.toolName with
  | none => do
      a.emitDecision a.unknownTool
      return ⟨.denied, a.unknownTool, a.toolName, none, none⟩
  | some tool => do
      let required := tool.capabilitiesFor a.kwargs
      let decision := decide (a.request required) config
      a.emitDecision decision
      a.act sha256 tool required decision newId

end InvokeArgs

end AiStudio.Runtime
