import AiStudio.Runtime.Models

/-!
# The model registry and the router

Embeds `runtime/model/registry.py` and `router.py`: the catalog with its prices, the
routing policy, the cost of a call, and the choice of a model for a task type and a
quality, with the next candidate of the chain when a provider fails.
-/

set_option autoImplicit false

namespace AiStudio.Runtime

/-- The quality bands of models. -/
inductive Tier where
  | pm
  | mid
  | cheap
  | coding
  | embedding
  deriving DecidableEq, Repr

namespace Tier

/-- The wire string of a tier. -/
def value : Tier → String
  | pm => "pm"
  | mid => "mid"
  | cheap => "cheap"
  | coding => "coding"
  | embedding => "embedding"

/-- `Tier(name)`. -/
def ofName (name : String) : Except Exn Tier :=
  match [pm, mid, cheap, coding, embedding].find? (·.value = name) with
  | some tier => .ok tier
  | none => .error (.valueError ("'" ++ name ++ "' is not a valid Tier"))

end Tier

/-- One catalog entry. Prices are USD per million tokens, and no model pays its caller. -/
structure ModelSpec where
  id : String
  provider : String
  tier : Tier
  priceIn : ℚ
  priceOut : ℚ
  cacheReadMultiplier : ℚ := 1 / 10
  priceIn_nonneg : 0 ≤ priceIn
  priceOut_nonneg : 0 ≤ priceOut

/-- The tokens of one call; the cached ones are among the input. -/
structure Usage where
  inputTokens : Int := 0
  outputTokens : Int := 0
  cachedTokens : Int := 0

def Usage.totalTokens (u : Usage) : Int := u.inputTokens + u.outputTokens

/-- `cost_usd`: tokens at the registry price. -/
def costUsd (spec : ModelSpec) (usage : Usage) : ℚ :=
  let cached := max 0 (min usage.cachedTokens usage.inputTokens)
  let freshIn := usage.inputTokens - cached
  let perMillion := freshIn * spec.priceIn + cached * spec.priceIn * spec.cacheReadMultiplier +
    usage.outputTokens * spec.priceOut
  perMillion / 1000000

/-- The router's rules, as data. -/
structure RoutingPolicy where
  taskTypes : List (String × List (String × String)) := []
  default : List (String × String) := []
  tiers : List (String × List String) := []
  downshift : List (String × String) := []

namespace RoutingPolicy

variable (policy : RoutingPolicy)

/-- The tier of a task type and a quality. -/
def tierFor (taskType quality : String) : Except Exn Tier :=
  let byType := (policy.taskTypes.lookup taskType).bind (·.lookup quality)
  match byType.or (policy.default.lookup quality) with
  | some name => Tier.ofName name
  | none =>
      .error (.runtimeError ("no tier mapping for task_type='" ++ taskType ++ "' quality='" ++
        quality ++ "' (and no default) — check the routing policy"))

/-- The fallback chain of a tier. -/
def candidates (tier : Tier) : List String := (policy.tiers.lookup tier.value).getD []

/-- The tier to fall to when over budget. -/
def cheaperTier (tier : Tier) : Except Exn (Option Tier) :=
  match policy.downshift.lookup tier.value with
  | none => .ok none
  | some name => if name = tier.value then .ok none else (Tier.ofName name).map some

end RoutingPolicy

/-- The loaded catalog and policy. -/
structure Registry where
  models : List (String × ModelSpec)
  policy : RoutingPolicy

namespace Registry

variable (registry : Registry)

def get (modelId : String) : Option ModelSpec := registry.models.lookup modelId

/-- The catalog models of a tier. -/
def byTier (tier : Tier) : List ModelSpec := (registry.models.map Prod.snd).filter (·.tier = tier)

/-- `_first_available`: the first of the chain that the catalog has, else any of the tier. -/
def firstAvailable (tier : Tier) : Option ModelSpec :=
  ((registry.policy.candidates tier).findSome? registry.get).or (registry.byTier tier).head?

/-- `next_candidate`: the next model of the chain after one that failed. -/
def nextCandidate (tier : Tier) (afterModelId : String) : Option ModelSpec :=
  (((registry.policy.candidates tier).dropWhile (· ≠ afterModelId)).drop 1).findSome? registry.get

end Registry

/-- The router's answer. -/
structure RouteDecision where
  model : ModelSpec
  tier : Tier
  reason : String
  taskType : String
  quality : String
  downshifted : Bool := false

/-- `to_payload`. -/
def RouteDecision.toPayload (d : RouteDecision) : SinkPayload :=
  .modelRouted d.model.id d.model.provider d.tier.value d.taskType d.quality d.downshifted d.reason

/-- `None`, or the number. -/
def showOption (n : Option Int) : String := n.elim "None" toString

/-- `_VALID_QUALITY`, sorted. -/
def validQuality : List String := ["high", "low", "standard"]

/-- What the router says of a budget it cannot meet. -/
def overTokens (b : Policy.BudgetContext) : String :=
  toString b.spentTokens ++ "+" ++ toString b.estimatedTokens ++ " > " ++ showOption b.budgetTokens

/-- The cheaper model for a call that would exceed its budget; without one the router raises
its own `OverBudget`. -/
def downshift (registry : Registry) (taskType quality : String) (tier : Tier)
    (b : Policy.BudgetContext) : Except Exn RouteDecision := do
  let cheaper ← registry.policy.cheaperTier tier
  match cheaper.bind fun t => (registry.firstAvailable t).map fun spec => (t, spec) with
  | none =>
      .error (.runtimeError ("over budget at cheapest available tier '" ++ tier.value ++ "': " ++
        overTokens b))
  | some (cheaper, spec) =>
      return {
        model := spec
        tier := cheaper
        reason := "task_type='" ++ taskType ++ "' quality='" ++ quality ++ "': over budget (" ++
          overTokens b ++ ") -> downshift to tier '" ++ cheaper.value ++ "'"
        taskType := taskType
        quality := quality
        downshifted := true }

/-- `route_decision`. -/
def routeDecision (registry : Registry) (budgetCtx : Option Policy.BudgetContext)
    (taskType quality : String) : Except Exn RouteDecision := do
  if quality ∉ validQuality then
    .error (.valueError ("quality must be one of " ++ Policy.reprStrings validQuality ++
      ", got '" ++ quality ++ "'"))
  else
    let tier ← registry.policy.tierFor taskType quality
    match registry.firstAvailable tier with
    | none => .error (.runtimeError ("no model available for tier '" ++ tier.value ++ "'"))
    | some spec =>
        match budgetCtx.filter (·.wouldExceed) with
        | some b => downshift registry taskType quality tier b
        | none =>
            return {
              model := spec
              tier := tier
              reason := "task_type='" ++ taskType ++ "' quality='" ++ quality ++ "' -> tier '" ++
                tier.value ++ "'"
              taskType := taskType
              quality := quality }

/-! ## What the router raises -/

/-- A bad argument or a gap in the policy; never a verdict on a budget row. -/
def Exn.IsRouting (e : Exn) : Prop := (∃ m, e = .valueError m) ∨ ∃ m, e = .runtimeError m

theorem Tier.isRouting_of_ofName {name : String} {e : Exn} (h : Tier.ofName name = .error e) :
    e.IsRouting := by
  unfold Tier.ofName at h
  split at h
  · cases h
  · exact Or.inl ⟨_, (Except.error.inj h).symm⟩

theorem RoutingPolicy.isRouting_of_tierFor {policy : RoutingPolicy} {taskType quality : String}
    {e : Exn} (h : policy.tierFor taskType quality = .error e) : e.IsRouting := by
  unfold RoutingPolicy.tierFor at h
  dsimp only at h
  split at h
  · exact Tier.isRouting_of_ofName h
  · exact Or.inr ⟨_, (Except.error.inj h).symm⟩

theorem RoutingPolicy.isRouting_of_cheaperTier {policy : RoutingPolicy} {tier : Tier} {e : Exn}
    (h : policy.cheaperTier tier = .error e) : e.IsRouting := by
  unfold RoutingPolicy.cheaperTier at h
  split at h
  · cases h
  · rename_i name _
    split at h
    · cases h
    · cases hname : Tier.ofName name with
      | ok t => rw [hname] at h; cases h
      | error e' =>
          rw [hname] at h
          rw [← Except.error.inj h]
          exact Tier.isRouting_of_ofName hname

theorem isRouting_of_downshift {registry : Registry} {taskType quality : String} {tier : Tier}
    {b : Policy.BudgetContext} {e : Exn}
    (h : downshift registry taskType quality tier b = .error e) : e.IsRouting := by
  unfold downshift at h
  cases hcheaper : registry.policy.cheaperTier tier with
  | error e' =>
      rw [hcheaper] at h
      rw [← Except.error.inj h]
      exact RoutingPolicy.isRouting_of_cheaperTier hcheaper
  | ok cheaper =>
      rw [hcheaper] at h
      simp only [bind, Except.bind] at h
      split at h
      · exact Or.inr ⟨_, (Except.error.inj h).symm⟩
      · cases h

/-- **What the router raises.** -/
theorem isRouting_of_routeDecision {registry : Registry} {budgetCtx : Option Policy.BudgetContext}
    {taskType quality : String} {e : Exn}
    (h : routeDecision registry budgetCtx taskType quality = .error e) : e.IsRouting := by
  unfold routeDecision at h
  split at h
  · exact Or.inl ⟨_, (Except.error.inj h).symm⟩
  · cases htier : registry.policy.tierFor taskType quality with
    | error e' =>
        rw [htier] at h
        rw [← Except.error.inj h]
        exact RoutingPolicy.isRouting_of_tierFor htier
    | ok tier =>
        rw [htier] at h
        simp only [bind, Except.bind] at h
        split at h
        · exact Or.inr ⟨_, (Except.error.inj h).symm⟩
        · split at h
          · exact isRouting_of_downshift h
          · cases h

/-! ## Prices -/

/-- A usage of no negative amount costs no negative amount. -/
theorem costUsd_nonneg (spec : ModelSpec) {inputTokens outputTokens : Int}
    (hin : 0 ≤ inputTokens) (hout : 0 ≤ outputTokens) :
    0 ≤ costUsd spec { inputTokens := inputTokens, outputTokens := outputTokens } := by
  have hcached : max 0 (min 0 inputTokens) = 0 := by omega
  have hinq : (0 : ℚ) ≤ inputTokens := by exact_mod_cast hin
  have houtq : (0 : ℚ) ≤ outputTokens := by exact_mod_cast hout
  have hprice := mul_nonneg hinq spec.priceIn_nonneg
  have hprice' := mul_nonneg houtq spec.priceOut_nonneg
  simp only [costUsd, hcached, sub_zero, Int.cast_zero, zero_mul, add_zero]
  exact div_nonneg (add_nonneg hprice hprice') (by norm_num)

end AiStudio.Runtime
