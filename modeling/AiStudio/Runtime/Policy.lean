import Mathlib.Data.Finset.Basic
import Mathlib.Data.Rat.Init

/-!
# The policy engine

Embeds `runtime/capabilities.py` and `runtime/policy.py`: capabilities, their action
tiers, and `decide`, which answers a request for a tool call with `allow`, `deny` or
`needsApproval`.
-/

set_option autoImplicit false

namespace AiStudio.Runtime.Policy

/-- A side-effect permission a tool call may require. -/
inductive Capability where
  | fsRead
  | fsWrite
  | fsDelete
  | shellExec
  | codeRun
  | gitWrite
  | netFetch
  | secretUse
  | spendMoney
  | deploy
  | commsHumanRelay
  deriving DecidableEq, Repr

/-- The wire string of a capability. -/
def Capability.value : Capability → String
  | fsRead => "fs.read"
  | fsWrite => "fs.write"
  | fsDelete => "fs.delete"
  | shellExec => "shell.exec"
  | codeRun => "code.run"
  | gitWrite => "git.write"
  | netFetch => "net.fetch"
  | secretUse => "secret.use"
  | spendMoney => "spend.money"
  | deploy => "deploy"
  | commsHumanRelay => "comms.human_relay"

/-- Every capability, in the order of the wire strings. -/
def Capability.sorted : List Capability :=
  [codeRun, commsHumanRelay, deploy, fsDelete, fsRead, fsWrite, gitWrite, netFetch,
    secretUse, shellExec, spendMoney]

/-- The members of a set of capabilities, in the order of the wire strings. -/
def members (caps : Finset Capability) : List Capability :=
  Capability.sorted.filter (· ∈ caps)

/-- `sorted(c.value for c in caps)`. -/
def sortedValues (caps : Finset Capability) : List String := (members caps).map Capability.value

theorem mem_members (caps : Finset Capability) (c : Capability) :
    c ∈ members caps ↔ c ∈ caps := by
  have hall : c ∈ Capability.sorted := by cases c <;> decide
  simp [members, hall]

/-! ## Tiers -/

/-- The risk tier of an action. -/
inductive ActionTier where
  | green
  | yellow
  | red
  deriving DecidableEq, Repr

namespace ActionTier

/-- The wire string of a tier. -/
def value : ActionTier → String
  | green => "green"
  | yellow => "yellow"
  | red => "red"

/-- `tier_rank`. -/
def rank : ActionTier → Nat
  | green => 0
  | yellow => 1
  | red => 2

end ActionTier

/-- `DEFAULT_CAPABILITY_TIER`. -/
def defaultCapabilityTier : Capability → ActionTier
  | .fsRead => .green
  | .netFetch => .green
  | .fsWrite => .yellow
  | .gitWrite => .yellow
  | .secretUse => .yellow
  | .commsHumanRelay => .yellow
  | .fsDelete => .red
  | .shellExec => .red
  | .codeRun => .red
  | .spendMoney => .red
  | .deploy => .red

/-- The tier of one capability; an override of the configuration wins. -/
def tierForCapability (overrides : List (Capability × ActionTier)) (cap : Capability) :
    ActionTier :=
  (overrides.lookup cap).getD (defaultCapabilityTier cap)

/-- The most restrictive tier of a set; the empty set is green. -/
def effectiveTier (overrides : List (Capability × ActionTier)) (caps : Finset Capability) :
    ActionTier :=
  (members caps).foldl
    (fun tier cap =>
      let capTier := tierForCapability overrides cap
      if capTier.rank > tier.rank then capTier else tier)
    .green

/-! ## Requests and decisions -/

/-- The cost context of a call; a cap that is `none` does not constrain. -/
structure BudgetContext where
  spentTokens : Int := 0
  budgetTokens : Option Int := none
  estimatedTokens : Int := 0
  spentUsd : ℚ := 0
  budgetUsd : Option ℚ := none
  estimatedUsd : ℚ := 0

namespace BudgetContext

variable (b : BudgetContext)

/-- The token cap would be broken. -/
def exceedsTokens : Bool :=
  match b.budgetTokens with
  | some cap => b.spentTokens + b.estimatedTokens > cap
  | none => false

/-- The cost cap would be broken. -/
def exceedsUsd : Bool :=
  match b.budgetUsd with
  | some cap => b.spentUsd + b.estimatedUsd > cap
  | none => false

/-- Committing the estimate would break a cap. -/
def wouldExceed : Bool := b.exceedsTokens || b.exceedsUsd

/-- `f"{x:.6f}"`, rounding half up. -/
def fixedSix (x : ℚ) : String :=
  let n := (x * 1000000 + 1 / 2).floor.natAbs
  let digits := toString (n % 1000000)
  (if x < 0 then "-" else "") ++ toString (n / 1000000) ++ "." ++
    String.ofList (List.replicate (6 - digits.length) '0') ++ digits

/-- Which cap would be broken, in numbers. -/
def exceedReason : String :=
  let tokens :=
    match b.budgetTokens, b.exceedsTokens with
    | some cap, true =>
        ["tokens " ++ toString b.spentTokens ++ "+" ++ toString b.estimatedTokens ++
          " > " ++ toString cap]
    | _, _ => []
  let usd :=
    match b.budgetUsd, b.exceedsUsd with
    | some cap, true =>
        ["usd " ++ fixedSix b.spentUsd ++ "+" ++ fixedSix b.estimatedUsd ++ " > " ++
          fixedSix cap]
    | _, _ => []
  match tokens ++ usd with
  | [] => "within budget"
  | parts => "; ".intercalate parts

end BudgetContext

/-- The outcomes of the policy engine. -/
inductive Effect where
  | allow
  | deny
  | needsApproval
  deriving DecidableEq, Repr

/-- A single authorization question. -/
structure PolicyRequest where
  role : String
  tool : String
  requiredCapabilities : Finset Capability
  budget : Option BudgetContext := none

/-- The engine's answer. -/
structure Decision where
  effect : Effect
  tier : ActionTier
  reason : String
  role : String
  tool : String
  requiredCapabilities : Finset Capability := ∅
  missingCapabilities : Finset Capability := ∅
  logged : Bool := false
  deriving DecidableEq

/-- The rules as data: grants by role, and tier overrides. -/
structure PolicyConfig where
  roles : List (String × Finset Capability) := []
  tierOverrides : List (Capability × ActionTier) := []

/-- The capabilities a role is granted; an unknown role has none. -/
def PolicyConfig.granted (config : PolicyConfig) (role : String) : Finset Capability :=
  (config.roles.lookup role).getD ∅

/-- `{sorted(values)}` as Python prints a list of strings. -/
def reprStrings (values : List String) : String :=
  "[" ++ ", ".intercalate (values.map fun v => "'" ++ v ++ "'") ++ "]"

/-- Authorize one tool call: least privilege, then budget, then tier. -/
def decide (request : PolicyRequest) (config : PolicyConfig) : Decision :=
  let tier := effectiveTier config.tierOverrides request.requiredCapabilities
  let missing := request.requiredCapabilities \ config.granted request.role
  let common : Decision :=
    { effect := .allow, tier := tier, reason := "🟢 green-tier action auto-allowed",
      role := request.role, tool := request.tool,
      requiredCapabilities := request.requiredCapabilities }
  if missing.Nonempty then
    { common with
      effect := .deny
      reason := "role '" ++ request.role ++ "' lacks capabilities: " ++
        reprStrings (sortedValues missing)
      missingCapabilities := missing }
  else
    match request.budget.filter (·.wouldExceed) with
    | some b =>
        { common with
          effect := .needsApproval
          reason := "budget would be exceeded: " ++ b.exceedReason }
    | none =>
        match tier with
        | .red =>
            { common with
              effect := .needsApproval
              reason := "🔴 red-tier action requires human approval" }
        | .yellow =>
            { common with
              reason := "🟡 yellow-tier action auto-allowed (logged)"
              logged := true }
        | .green => common

end AiStudio.Runtime.Policy
