import AiStudio.Runtime.Policy
import Mathlib.Algebra.Order.Field.Rat
import Mathlib.Tactic.Linarith

/-!
# Capacity

Embeds the value models of `runtime/budget.py`: periods, purposes, zones, and
`BudgetStatus`, the verdict of one cap on one pending call. Amounts are rationals.
`zone_fits` and `zone_below_reserve` say what a verdict promises about the level of
the cap once the call has reserved its estimate.
-/

set_option autoImplicit false

namespace AiStudio.Runtime

/-- `ORG_WORKSTREAM`. -/
def orgWorkstream : String := "__org__"

/-- `RAISE_BUDGET_TIER`. -/
def raiseBudgetTier : String := "🛑"

/-- `VALID_PERIODS`. -/
inductive Period where
  | daily
  | monthly
  | rolling30d
  | allTime
  deriving DecidableEq, Repr

/-- The wire string of a period. -/
def Period.value : Period → String
  | daily => "daily"
  | monthly => "monthly"
  | rolling30d => "rolling_30d"
  | allTime => "all_time"

/-- The zones of a cap; `ZONE_OVER` is `overCap`. -/
inductive Zone where
  | ok
  | warn
  | throttle
  | reserve
  | overCap
  deriving DecidableEq, Repr

/-- The wire string of a zone. -/
def Zone.value : Zone → String
  | ok => "ok"
  | warn => "warn"
  | throttle => "throttle"
  | reserve => "reserve"
  | overCap => "over"

/-- `ok < warn < throttle < reserve < over`. -/
def Zone.severity : Zone → Nat
  | ok => 0
  | warn => 1
  | throttle => 2
  | reserve => 3
  | overCap => 4

/-- `VALID_PURPOSES`. -/
def validPurposes : List String := ["normal", "wind_down", "escalation"]

/-- `RESERVE_PURPOSES`. -/
def reservePurposes : List String := ["wind_down", "escalation"]

/-- Real accrued spend within a window. -/
structure Spend where
  costUsd : ℚ := 0
  tokens : Int := 0
  calls : Nat := 0

/-- A cap, what is spent and reserved under it, and the estimate of a pending call. -/
structure BudgetStatus where
  workstream : String
  period : Period
  capUsd : Option ℚ
  capTokens : Option Int
  spentUsd : ℚ
  spentTokens : Int
  estUsd : ℚ := 0
  estTokens : Int := 0
  warnFrac : Option ℚ := none
  throttleFrac : Option ℚ := none
  reserveFrac : Option ℚ := none
  reservedUsd : ℚ := 0
  reservedTokens : Int := 0
  deriving DecidableEq, Repr

/-- `round(x, 6)`, to even. -/
def roundSix (x : ℚ) : ℚ :=
  let scaled := x * 1000000
  let below := scaled.floor
  let rest := scaled - below
  (if rest < 1 / 2 ∨ (rest = 1 / 2 ∧ below % 2 = 0) then below else below + 1 : Int) / 1000000

/-- The payload of `to_payload`. -/
structure BudgetNotice where
  workstream : String
  period : Period
  capUsd : Option ℚ
  capTokens : Option Int
  spentUsd : ℚ
  spentTokens : Int
  estUsd : ℚ
  estTokens : Int
  remainingUsd : Option ℚ
  remainingTokens : Option Int

/-- The payload of `zone_payload`. The last three fields are those of a reserve event. -/
structure ZoneNotice where
  status : BudgetNotice
  zone : Zone
  spentFrac : Option ℚ
  purpose : Option String
  reserveFrac : Option ℚ := none
  reserveHeadroomUsd : Option ℚ := none
  reserveHeadroomTokens : Option Int := none

namespace BudgetStatus

variable (st : BudgetStatus)

/-- The cost context of the policy engine, the reservations among the estimates. -/
def context : Policy.BudgetContext where
  spentTokens := st.spentTokens
  budgetTokens := st.capTokens
  estimatedTokens := st.estTokens + st.reservedTokens
  spentUsd := st.spentUsd
  budgetUsd := st.capUsd
  estimatedUsd := st.estUsd + st.reservedUsd

/-- Committing the estimate would break a cap. -/
def wouldExceed : Bool := st.context.wouldExceed

def remainingUsd : Option ℚ := st.capUsd.map (· - st.spentUsd)

def remainingTokens : Option Int := st.capTokens.map (· - st.spentTokens)

/-- Which cap would be broken, in numbers. -/
def exceedReason : String := st.context.exceedReason

/-- The projected fraction of the cost cap; a cap of zero has none. -/
def usdFraction : Option ℚ :=
  (st.capUsd.filter (0 < ·)).map fun cap => (st.spentUsd + st.reservedUsd + st.estUsd) / cap

/-- The projected fraction of the token cap. -/
def tokensFraction : Option ℚ :=
  (st.capTokens.filter (0 < ·)).map fun cap =>
    ((st.spentTokens + st.reservedTokens + st.estTokens : Int) : ℚ) / cap

/-- The fraction of the tightest resource. -/
def fraction : Option ℚ :=
  match st.usdFraction, st.tokensFraction with
  | some usd, some tokens => some (max usd tokens)
  | some usd, none => some usd
  | none, tokens => tokens

/-- The zone of the projected call: `over` wins, then the tightest threshold reached. -/
def zone : Zone :=
  if st.wouldExceed then .overCap
  else
    match st.fraction with
    | none => .ok
    | some frac =>
        if st.reserveFrac.any (· ≤ frac) then .reserve
        else if st.throttleFrac.any (· ≤ frac) then .throttle
        else if st.warnFrac.any (· ≤ frac) then .warn
        else .ok

def reserveHeadroomUsd : Option ℚ :=
  if st.reserveFrac.isNone then none else st.remainingUsd

def reserveHeadroomTokens : Option Int :=
  if st.reserveFrac.isNone then none else st.remainingTokens

/-- `to_payload`. -/
def toPayload : BudgetNotice where
  workstream := st.workstream
  period := st.period
  capUsd := st.capUsd
  capTokens := st.capTokens
  spentUsd := roundSix st.spentUsd
  spentTokens := st.spentTokens
  estUsd := roundSix st.estUsd
  estTokens := st.estTokens
  remainingUsd := st.remainingUsd.map roundSix
  remainingTokens := st.remainingTokens

/-- `zone_payload`. -/
def zonePayload (purpose : Option String) : ZoneNotice :=
  let common : ZoneNotice :=
    { status := st.toPayload, zone := st.zone, spentFrac := st.fraction.map roundSix,
      purpose := purpose }
  if st.zone = .reserve then
    { common with
      reserveFrac := st.reserveFrac
      reserveHeadroomUsd := st.reserveHeadroomUsd.map roundSix
      reserveHeadroomTokens := st.reserveHeadroomTokens }
  else common

/-! ## What a verdict promises -/

/-- The level of the cost cap once the call has reserved its estimate. -/
def levelUsd : ℚ := st.spentUsd + st.reservedUsd + st.estUsd

/-- The level of the token cap once the call has reserved its estimate. -/
def levelTokens : Int := st.spentTokens + st.reservedTokens + st.estTokens

theorem wouldExceed_of_ne_overCap {st : BudgetStatus} (h : st.zone ≠ .overCap) :
    st.wouldExceed = false := by
  by_contra hne
  rw [Bool.not_eq_false] at hne
  exact h (by rw [zone, if_pos hne])

/-- **A cap that is not over fits the call.** -/
theorem zone_fits {st : BudgetStatus} (h : st.zone ≠ .overCap) :
    (∀ cap, st.capUsd = some cap → st.levelUsd ≤ cap) ∧
      ∀ cap, st.capTokens = some cap → st.levelTokens ≤ cap := by
  have hfits := wouldExceed_of_ne_overCap h
  simp only [wouldExceed, Policy.BudgetContext.wouldExceed, Bool.or_eq_false_iff] at hfits
  obtain ⟨htokens, husd⟩ := hfits
  constructor
  · intro cap hcap
    simp only [Policy.BudgetContext.exceedsUsd, context, hcap, decide_eq_false_iff_not,
      not_lt] at husd
    rw [levelUsd]
    linarith
  · intro cap hcap
    simp only [Policy.BudgetContext.exceedsTokens, context, hcap, decide_eq_false_iff_not,
      not_lt] at htokens
    rw [levelTokens]
    omega

theorem usdFraction_le {st : BudgetStatus} {usd : ℚ} (h : st.usdFraction = some usd) :
    ∃ frac, st.fraction = some frac ∧ usd ≤ frac := by
  cases ht : st.tokensFraction with
  | none => exact ⟨usd, by rw [fraction, h, ht], le_refl usd⟩
  | some tokens => exact ⟨max usd tokens, by rw [fraction, h, ht], le_max_left usd tokens⟩

theorem tokensFraction_le {st : BudgetStatus} {tokens : ℚ} (h : st.tokensFraction = some tokens) :
    ∃ frac, st.fraction = some frac ∧ tokens ≤ frac := by
  cases hu : st.usdFraction with
  | none => exact ⟨tokens, by rw [fraction, h, hu], le_refl tokens⟩
  | some usd => exact ⟨max usd tokens, by rw [fraction, h, hu], le_max_right usd tokens⟩

/-- Below the reserve threshold lies every fraction of a cap in no blocking zone. -/
theorem fraction_lt_of_zone {st : BudgetStatus} (hover : st.zone ≠ .overCap)
    (hreserve : st.zone ≠ .reserve) {threshold frac : ℚ}
    (hthreshold : st.reserveFrac = some threshold) (hfrac : st.fraction = some frac) :
    frac < threshold := by
  by_contra hle
  rw [not_lt] at hle
  apply hreserve
  rw [zone, wouldExceed_of_ne_overCap hover, if_neg Bool.false_ne_true, hfrac, hthreshold]
  simp [hle]

/-- **A cap in no blocking zone keeps the call out of its reserve.** -/
theorem zone_below_reserve {st : BudgetStatus} (hover : st.zone ≠ .overCap)
    (hreserve : st.zone ≠ .reserve) {threshold : ℚ} (hthreshold : st.reserveFrac = some threshold)
    (hone : threshold ≤ 1) :
    (∀ cap, st.capUsd = some cap → st.levelUsd ≤ threshold * cap) ∧
      ∀ cap : Int, st.capTokens = some cap → (st.levelTokens : ℚ) ≤ threshold * cap := by
  constructor
  · intro cap hcap
    rcases lt_or_ge 0 cap with hpos | hneg
    · have husd : st.usdFraction = some (st.levelUsd / cap) := by
        simp [usdFraction, levelUsd, hcap, hpos]
      obtain ⟨frac, hfrac, hle⟩ := usdFraction_le husd
      have hlt := lt_of_le_of_lt hle (fraction_lt_of_zone hover hreserve hthreshold hfrac)
      exact le_of_lt ((div_lt_iff₀ hpos).1 hlt)
    · -- a cap without a fraction is at its level already
      have hfits := (zone_fits hover).1 cap hcap
      have hcap : cap ≤ threshold * cap := by
        have := mul_le_mul_of_nonpos_right hone hneg
        rwa [one_mul] at this
      exact le_trans hfits hcap
  · intro cap hcap
    rcases lt_or_ge 0 cap with hpos | hneg
    · have hposq : (0 : ℚ) < cap := by exact_mod_cast hpos
      have hkeep : (some cap).filter (0 < ·) = some cap := by simp [Option.filter, hpos]
      have htokens : st.tokensFraction = some ((st.levelTokens : ℚ) / cap) := by
        rw [tokensFraction, hcap, hkeep]
        rfl
      obtain ⟨frac, hfrac, hle⟩ := tokensFraction_le htokens
      have hlt := lt_of_le_of_lt hle (fraction_lt_of_zone hover hreserve hthreshold hfrac)
      exact le_of_lt ((div_lt_iff₀ hposq).1 hlt)
    · have hfits : (st.levelTokens : ℚ) ≤ cap := by exact_mod_cast (zone_fits hover).2 cap hcap
      have hnegq : (cap : ℚ) ≤ 0 := by exact_mod_cast hneg
      have hcap : (cap : ℚ) ≤ threshold * cap := by
        have := mul_le_mul_of_nonpos_right hone hnegq
        rwa [one_mul] at this
      exact le_trans hfits hcap

/-! ## Severity -/

/-- A threshold that the projected fraction has reached. -/
def reached (threshold : Option ℚ) : Bool :=
  st.fraction.any fun frac => threshold.any (· ≤ frac)

/-- The zone reads the thresholds only through which of them are reached. -/
theorem zone_eq (st : BudgetStatus) : st.zone =
    if st.wouldExceed then .overCap
    else if st.reached st.reserveFrac then .reserve
    else if st.reached st.throttleFrac then .throttle
    else if st.reached st.warnFrac then .warn
    else .ok := by
  cases hfrac : st.fraction <;> simp [zone, reached, hfrac]

/-- `over` is the verdict of the policy predicate. -/
theorem zone_eq_overCap_iff (st : BudgetStatus) :
    st.zone = .overCap ↔ st.context.wouldExceed = true := by
  rw [zone_eq, wouldExceed]
  split_ifs with hexceed <;> simp [hexceed]

/-- Both caps leave room for something. -/
structure PositiveCaps : Prop where
  usd : ∀ cap, st.capUsd = some cap → 0 < cap
  tokens : ∀ cap, st.capTokens = some cap → 0 < cap

/-- No threshold lies below zero. -/
structure NonnegThresholds : Prop where
  warn : ∀ t, st.warnFrac = some t → 0 ≤ t
  throttle : ∀ t, st.throttleFrac = some t → 0 ≤ t
  reserve : ∀ t, st.reserveFrac = some t → 0 ≤ t

/-- The same thresholds under tighter caps, with more spent, reserved or estimated. -/
structure Tightens (st st' : BudgetStatus) : Prop where
  capUsd : ∀ cap, st.capUsd = some cap → ∃ cap', st'.capUsd = some cap' ∧ cap' ≤ cap
  capTokens : ∀ cap, st.capTokens = some cap → ∃ cap', st'.capTokens = some cap' ∧ cap' ≤ cap
  spentUsd : st.spentUsd ≤ st'.spentUsd
  spentTokens : st.spentTokens ≤ st'.spentTokens
  reservedUsd : st.reservedUsd ≤ st'.reservedUsd
  reservedTokens : st.reservedTokens ≤ st'.reservedTokens
  estUsd : st.estUsd ≤ st'.estUsd
  estTokens : st.estTokens ≤ st'.estTokens
  warnFrac : st'.warnFrac = st.warnFrac
  throttleFrac : st'.throttleFrac = st.throttleFrac
  reserveFrac : st'.reserveFrac = st.reserveFrac

/-- A smaller positive cap keeps a threshold reached, unless a negative level meets a negative
threshold. -/
theorem le_div_of_tighter {threshold level level' cap cap' : ℚ} (hcap' : 0 < cap')
    (hcap : cap' ≤ cap) (hlevel : level ≤ level') (hreached : threshold ≤ level / cap)
    (hsign : cap' = cap ∨ 0 ≤ level' ∨ 0 ≤ threshold) : threshold ≤ level' / cap' := by
  have hpos : 0 < cap := lt_of_lt_of_le hcap' hcap
  have hgrown : level / cap ≤ level' / cap := div_le_div_of_nonneg_right hlevel hpos.le
  rcases hsign with rfl | hlevel' | hthreshold
  · exact le_trans hreached hgrown
  · exact le_trans hreached (le_trans hgrown (div_le_div_of_nonneg_left hlevel' hcap' hcap))
  · -- a threshold that is not negative was reached by a level that is not negative
    have hfrac : 0 ≤ level / cap := le_trans hthreshold hreached
    have hlevel₀ : 0 ≤ level := by
      have hmul := mul_nonneg hfrac hpos.le
      rwa [div_mul_cancel₀ level hpos.ne'] at hmul
    exact le_trans hreached (le_trans hgrown
      (div_le_div_of_nonneg_left (le_trans hlevel₀ hlevel) hcap' hcap))

theorem usdFraction_eq_some {st : BudgetStatus} (hcaps : st.PositiveCaps) {frac : ℚ} :
    st.usdFraction = some frac ↔ ∃ cap, st.capUsd = some cap ∧ frac = st.levelUsd / cap := by
  cases hcap : st.capUsd with
  | none => simp [usdFraction, hcap]
  | some cap =>
      have hkeep : (some cap).filter (0 < ·) = some cap := by
        simp [Option.filter, hcaps.usd cap hcap]
      rw [usdFraction, hcap, hkeep]
      simp [levelUsd, eq_comm]

theorem tokensFraction_eq_some {st : BudgetStatus} (hcaps : st.PositiveCaps) {frac : ℚ} :
    st.tokensFraction = some frac ↔
      ∃ cap : Int, st.capTokens = some cap ∧ frac = (st.levelTokens : ℚ) / cap := by
  cases hcap : st.capTokens with
  | none => simp [tokensFraction, hcap]
  | some cap =>
      have hkeep : (some cap).filter (0 < ·) = some cap := by
        simp [Option.filter, hcaps.tokens cap hcap]
      rw [tokensFraction, hcap, hkeep]
      simp [levelTokens, eq_comm]

/-- A threshold is reached exactly if one resource has reached it. -/
theorem reached_iff {st : BudgetStatus} {threshold : ℚ} : st.reached (some threshold) = true ↔
    (∃ usd, st.usdFraction = some usd ∧ threshold ≤ usd) ∨
      ∃ tokens, st.tokensFraction = some tokens ∧ threshold ≤ tokens := by
  cases husd : st.usdFraction with
  | none =>
      cases htokens : st.tokensFraction with
      | none => simp [reached, fraction, husd, htokens]
      | some tokens => simp [reached, fraction, husd, htokens]
  | some usd =>
      cases htokens : st.tokensFraction with
      | none => simp [reached, fraction, husd, htokens]
      | some tokens => simp [reached, fraction, husd, htokens]

namespace Tightens

variable {st st' : BudgetStatus} (h : Tightens st st')

include h

theorem levelUsd : st.levelUsd ≤ st'.levelUsd := by
  have hspent := h.spentUsd
  have hreserved := h.reservedUsd
  have hest := h.estUsd
  simp only [BudgetStatus.levelUsd]
  linarith

theorem levelTokens : st.levelTokens ≤ st'.levelTokens := by
  have hspent := h.spentTokens
  have hreserved := h.reservedTokens
  have hest := h.estTokens
  simp only [BudgetStatus.levelTokens]
  omega

/-- What breaks a cap breaks a tighter one. -/
theorem wouldExceed (hexceed : st.wouldExceed = true) : st'.wouldExceed = true := by
  simp only [BudgetStatus.wouldExceed, Policy.BudgetContext.wouldExceed, Bool.or_eq_true]
    at hexceed ⊢
  rcases hexceed with htokens | husd
  · left
    cases hcap : st.capTokens with
    | none => simp [Policy.BudgetContext.exceedsTokens, context, hcap] at htokens
    | some cap =>
        obtain ⟨cap', hcap', hle⟩ := h.capTokens cap hcap
        have hlevel := h.levelTokens
        simp only [Policy.BudgetContext.exceedsTokens, context, hcap, hcap', decide_eq_true_eq,
          BudgetStatus.levelTokens] at htokens hlevel ⊢
        omega
  · right
    cases hcap : st.capUsd with
    | none => simp [Policy.BudgetContext.exceedsUsd, context, hcap] at husd
    | some cap =>
        obtain ⟨cap', hcap', hle⟩ := h.capUsd cap hcap
        have hlevel := h.levelUsd
        simp only [Policy.BudgetContext.exceedsUsd, context, hcap, hcap', decide_eq_true_eq,
          BudgetStatus.levelUsd] at husd hlevel ⊢
        linarith

/-- A reached threshold stays reached. -/
theorem reached (hcaps' : st'.PositiveCaps) {threshold : Option ℚ}
    (husd : st'.capUsd = st.capUsd ∨ 0 ≤ st'.levelUsd ∨ ∀ t, threshold = some t → 0 ≤ t)
    (htokens : st'.capTokens = st.capTokens ∨ 0 ≤ st'.levelTokens ∨
      ∀ t, threshold = some t → 0 ≤ t)
    (hreached : st.reached threshold = true) : st'.reached threshold = true := by
  have hcaps : st.PositiveCaps := by
    refine ⟨fun cap hcap => ?_, fun cap hcap => ?_⟩
    · obtain ⟨cap', hcap', hle⟩ := h.capUsd cap hcap
      exact lt_of_lt_of_le (hcaps'.usd cap' hcap') hle
    · obtain ⟨cap', hcap', hle⟩ := h.capTokens cap hcap
      exact lt_of_lt_of_le (hcaps'.tokens cap' hcap') hle
  cases threshold with
  | none => cases hfrac : st.fraction <;> simp [BudgetStatus.reached, hfrac] at hreached
  | some t =>
      rw [reached_iff] at hreached ⊢
      rcases hreached with ⟨frac, hfrac, hle⟩ | ⟨frac, hfrac, hle⟩
      · left
        obtain ⟨cap, hcap, rfl⟩ := (usdFraction_eq_some hcaps).1 hfrac
        obtain ⟨cap', hcap', htight⟩ := h.capUsd cap hcap
        refine ⟨_, (usdFraction_eq_some hcaps').2 ⟨cap', hcap', rfl⟩,
          le_div_of_tighter (hcaps'.usd cap' hcap') htight h.levelUsd hle ?_⟩
        rcases husd with heq | hlevel | hthreshold
        · rw [hcap, hcap'] at heq
          exact .inl (Option.some.inj heq)
        · exact .inr (.inl hlevel)
        · exact .inr (.inr (hthreshold t rfl))
      · right
        obtain ⟨cap, hcap, rfl⟩ := (tokensFraction_eq_some hcaps).1 hfrac
        obtain ⟨cap', hcap', htight⟩ := h.capTokens cap hcap
        have hpos : (0 : ℚ) < cap' := by exact_mod_cast hcaps'.tokens cap' hcap'
        have htightq : (cap' : ℚ) ≤ cap := by exact_mod_cast htight
        have hlevelq : (st.levelTokens : ℚ) ≤ st'.levelTokens := by exact_mod_cast h.levelTokens
        refine ⟨_, (tokensFraction_eq_some hcaps').2 ⟨cap', hcap', rfl⟩,
          le_div_of_tighter hpos htightq hlevelq hle ?_⟩
        rcases htokens with heq | hlevel | hthreshold
        · rw [hcap, hcap'] at heq
          exact .inl (by rw [Option.some.inj heq])
        · exact .inr (.inl (by exact_mod_cast hlevel))
        · exact .inr (.inr (hthreshold t rfl))

end Tightens

/-- What the severity of a zone reads is monotone in the four verdicts. -/
theorem severity_le_of_imp {beyond beyond' reserve reserve' throttle throttle' warn warn' : Bool}
    (hbeyond : beyond = true → beyond' = true) (hreserve : reserve = true → reserve' = true)
    (hthrottle : throttle = true → throttle' = true) (hwarn : warn = true → warn' = true) :
    (if beyond then Zone.overCap else if reserve then .reserve else if throttle then .throttle
      else if warn then .warn else .ok).severity ≤
    (if beyond' then Zone.overCap else if reserve' then .reserve else if throttle' then .throttle
      else if warn' then .warn else .ok).severity := by
  revert hbeyond hreserve hthrottle hwarn
  cases beyond <;> cases beyond' <;> cases reserve <;> cases reserve' <;> cases throttle <;>
    cases throttle' <;> cases warn <;> cases warn' <;> simp [Zone.severity]

/-- **Zones are monotone.** More spent, reserved or estimated, or a smaller cap, never lowers the
severity of a zone: a cap may shrink wherever its level or the thresholds are not negative. And
`over` is the verdict of the policy predicate. -/
theorem zone_monotone (st st' : BudgetStatus) (hcaps : st'.PositiveCaps) (h : Tightens st st')
    (husd : st'.capUsd = st.capUsd ∨ 0 ≤ st'.levelUsd ∨ st.NonnegThresholds)
    (htokens : st'.capTokens = st.capTokens ∨ 0 ≤ st'.levelTokens ∨ st.NonnegThresholds) :
    st.zone.severity ≤ st'.zone.severity ∧
      (st.zone = .overCap ↔ st.context.wouldExceed = true) := by
  refine ⟨?_, zone_eq_overCap_iff st⟩
  rw [zone_eq st, zone_eq st', h.warnFrac, h.throttleFrac, h.reserveFrac]
  refine severity_le_of_imp h.wouldExceed ?_ ?_ ?_
  · exact h.reached hcaps (husd.imp_right (.imp_right (·.reserve)))
      (htokens.imp_right (.imp_right (·.reserve)))
  · exact h.reached hcaps (husd.imp_right (.imp_right (·.throttle)))
      (htokens.imp_right (.imp_right (·.throttle)))
  · exact h.reached hcaps (husd.imp_right (.imp_right (·.warn)))
      (htokens.imp_right (.imp_right (·.warn)))

/-- One cost cap, the amount spent under it, and a threshold for the warning. -/
def inDollars (spent warn cap : ℚ) : BudgetStatus where
  workstream := "productivity"
  period := .monthly
  capUsd := some cap
  capTokens := none
  spentUsd := spent
  spentTokens := 0
  warnFrac := some warn

theorem inDollars_positiveCaps (spent warn : ℚ) {cap : ℚ} (hcap : 0 < cap) :
    (inDollars spent warn cap).PositiveCaps :=
  ⟨fun cap' heq => by rwa [← Option.some.inj heq], fun cap' heq => by cases heq⟩

theorem inDollars_tightens (spent warn : ℚ) {cap cap' : ℚ} (hcap : cap' ≤ cap) :
    Tightens (inDollars spent warn cap) (inDollars spent warn cap') where
  capUsd := fun c heq => ⟨cap', rfl, by rwa [← Option.some.inj heq]⟩
  capTokens := fun c heq => by cases heq
  spentUsd := le_refl _
  spentTokens := le_refl _
  reservedUsd := le_refl _
  reservedTokens := le_refl _
  estUsd := le_refl _
  estTokens := le_refl _
  warnFrac := rfl
  throttleFrac := rfl
  reserveFrac := rfl

/-- A workstream that has spent one dollar goes from a cap of two dollars to one of one. -/
theorem spent_monotone :
    (inDollars 1 (7 / 10) 2).zone.severity ≤ (inDollars 1 (7 / 10) 1).zone.severity ∧
      ((inDollars 1 (7 / 10) 2).zone = .overCap ↔
        (inDollars 1 (7 / 10) 2).context.wouldExceed = true) :=
  zone_monotone (inDollars 1 (7 / 10) 2) (inDollars 1 (7 / 10) 1)
    (inDollars_positiveCaps 1 (7 / 10) (by norm_num))
    (inDollars_tightens 1 (7 / 10) (by norm_num))
    (.inr (.inl (by norm_num [levelUsd, inDollars]))) (.inl rfl)

/-- With a dollar refunded and a threshold below zero, a smaller cap lowers the severity. -/
theorem refunded_severity_drops :
    (inDollars (-1) (-3 / 4) 2).PositiveCaps ∧ (inDollars (-1) (-3 / 4) 1).PositiveCaps ∧
      Tightens (inDollars (-1) (-3 / 4) 2) (inDollars (-1) (-3 / 4) 1) ∧
      (inDollars (-1) (-3 / 4) 2).zone = .warn ∧ (inDollars (-1) (-3 / 4) 1).zone = .ok ∧
      (inDollars (-1) (-3 / 4) 1).zone.severity < (inDollars (-1) (-3 / 4) 2).zone.severity :=
  ⟨inDollars_positiveCaps (-1) (-3 / 4) (by norm_num),
    inDollars_positiveCaps (-1) (-3 / 4) (by norm_num),
    inDollars_tightens (-1) (-3 / 4) (by norm_num), by decide +kernel, by decide +kernel,
    by decide +kernel⟩

end BudgetStatus

end AiStudio.Runtime
