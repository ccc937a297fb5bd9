import AiStudio.Runtime.Budget
import AiStudio.Runtime.Registry

/-!
# The model call

Embeds `call_model` of `runtime/model/call.py`, with a connection: route, gate, dispatch to
a provider, re-gate and dispatch once more when the provider falls back, record, and release
every reservation whatever happened. What a provider answers is a parameter.
-/

set_option autoImplicit false

namespace AiStudio.Runtime

open AiStudio.Data AiStudio.Concurrency

/-- What a provider returns. -/
structure Completion where
  text : String
  usage : Usage

/-- How a provider answers: with a completion, with `ProviderFallback`, or by dying. -/
inductive ProviderOutcome where
  | completed (completion : Completion)
  | fallback (message : String)
  | died (errorType message : String)

/-- A provider adapter. -/
structure Provider where
  name : String
  complete : String → ProviderOutcome

/-- `messages_char_len`, over the contents. -/
def messagesCharLen (messages : List String) : Nat := (messages.map String.length).sum

/-- `estimate_call_io_tokens`. -/
def estimateCallIoTokens (messages : List String) : Nat × Nat :=
  let inputTokens := max 1 (messagesCharLen messages / 4)
  (inputTokens, max 1 (inputTokens / 4))

/-- The arguments of `call_model`, the providers it is given at each of its two dispatches, and
the row ids its two gates would draw. -/
structure ModelCall where
  role : String
  taskType : String
  messages : List String
  quality : String := "standard"
  registry : Registry
  budgetCtx : Option Policy.BudgetContext := none
  taskId : Option Uuid := none
  workstream : String := "productivity"
  purpose : String := "normal"
  sha256 : String → String
  selectProvider : Bool → ModelSpec → Provider
  approvalId : Bool → Uuid
  latencyMs : Int

namespace ModelCall

variable (c : ModelCall)

def estTokens : Int :=
  ((estimateCallIoTokens c.messages).1 + (estimateCallIoTokens c.messages).2 : Nat)

/-- The estimate for a model. -/
def estUsd (spec : ModelSpec) : ℚ :=
  costUsd spec
    { inputTokens := (estimateCallIoTokens c.messages).1
      outputTokens := (estimateCallIoTokens c.messages).2 }

/-- The gate of a dispatch; the second dispatch is the fallback's. -/
def gateArgs (again : Bool) (spec : ModelSpec) : EnforceArgs where
  workstream := c.workstream
  estUsd := c.estUsd spec
  estTokens := c.estTokens
  purpose := c.purpose
  role := c.role
  taskId := c.taskId
  sha256 := c.sha256
  approvalId := c.approvalId again

/-- `_emit_call_failed`, and the re-raise. -/
def fail (spec : ModelSpec) (provider : Provider) (errorType : String) (e : Exn) :
    Payer Completion :=
  (emitEvent c.workstream c.taskId (.modelCallFailed errorType spec.id provider.name c.role
    c.taskType c.taskId)).inl.bind fun _ => .throw e

/-- The facts of a completion. -/
def notice (spec : ModelSpec) (provider : Provider) (completion : Completion) :
    ModelCallNotice where
  model := spec.id
  provider := provider.name
  role := c.role
  taskType := c.taskType
  taskId := c.taskId
  inputTokens := completion.usage.inputTokens
  outputTokens := completion.usage.outputTokens
  cachedTokens := completion.usage.cachedTokens
  costUsd := costUsd spec completion.usage
  latencyMs := c.latencyMs

/-- Steps 5 to 7: the cost, the `model.call` event, and the tokens of the task. -/
def record (spec : ModelSpec) (provider : Provider) (completion : Completion) :
    Payer Completion :=
  (emitEvent c.workstream c.taskId (.modelCall (c.notice spec provider completion))).inl.bind
    fun _ =>
      match c.taskId with
      | none => .ret completion
      | some id =>
          (call (.addSpentTokens id completion.usage.totalTokens)).inl.bind fun _ =>
            .ret completion

/-- The `finally` of `call_model`: release in the order of the reservations. -/
def releaseAll : List (ℚ × Int) → Payer Unit
  | [] => .ret ()
  | (estUsd, estTokens) :: reservations =>
      (releaseReservation c.workstream estUsd estTokens).bind fun _ => releaseAll reservations

/-- The reservation of a gate that has let the call pass. -/
def reservation (spec : ModelSpec) : ℚ × Int := (c.estUsd spec, c.estTokens)

/-- The dispatch to the fallback: its death is final. -/
def dispatchFallback (spec : ModelSpec) : Payer Completion :=
  let provider := c.selectProvider true spec
  match provider.complete spec.id with
  | .completed completion => c.record spec provider completion
  | .fallback message => c.fail spec provider "ProviderFallback" (.providerFallback message)
  | .died errorType message => c.fail spec provider errorType (.runtimeError message)

/-- The re-gate of the fallback, and its dispatch. -/
def retry (routed spec : ModelSpec) : Payer Completion :=
  (c.gateArgs true spec).enforce.attempt.bind fun gated =>
    match gated with
    | .error e => (c.releaseAll [c.reservation routed]).bind fun _ => .throw e
    | .ok _ =>
        (c.dispatchFallback spec).tryFinally
          (c.releaseAll [c.reservation routed, c.reservation spec])

/-- The dispatch to the routed model. -/
def dispatch (spec : ModelSpec) : Payer Completion :=
  let provider := c.selectProvider false spec
  let release := c.releaseAll [c.reservation spec]
  match provider.complete spec.id with
  | .completed completion => (c.record spec provider completion).tryFinally release
  | .died errorType message =>
      (c.fail spec provider errorType (.runtimeError message)).tryFinally release
  | .fallback message =>
      match c.registry.nextCandidate spec.tier spec.id with
      | none => release.bind fun _ => .throw (.providerFallback message)
      | some fallback => c.retry spec fallback

/-- `call_model`. -/
def callModel : Payer Completion :=
  match routeDecision c.registry c.budgetCtx c.taskType c.quality with
  | .error e => .throw e
  | .ok decision =>
      (emitEvent c.workstream c.taskId decision.toPayload).inl.bind fun _ =>
        (c.gateArgs false decision.model).enforce.bind fun _ => c.dispatch decision.model

/-! ## Estimates -/

theorem estTokens_pos : 0 < c.estTokens := by
  simp only [estTokens, estimateCallIoTokens]
  omega

theorem estUsd_nonneg (spec : ModelSpec) : 0 ≤ c.estUsd spec :=
  costUsd_nonneg spec (Int.natCast_nonneg _) (Int.natCast_nonneg _)

end ModelCall

end AiStudio.Runtime
