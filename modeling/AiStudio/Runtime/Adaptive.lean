import AiStudio.Runtime.Capacity
import AiStudio.Runtime.Worker
import Mathlib.Algebra.Order.Field.Basic
import Mathlib.Order.Nat

/-!
# Adaptive intensity

Embeds the decision core of `runtime/adaptive.py`: how much review, retro and research an episode
gets, from the recent error rate, the recent activity and the remaining budget. Rates and
fractions are rationals, the readings of the event log are counts.

- `ladder`: the rules that review, retro and research share.
- `ladder_le_iff`: more errors lower the mode in one case only, where a tight budget swaps a base
  above the guard mode for the guard mode.
-/

set_option autoImplicit false

namespace AiStudio.Runtime

/-! ## Modes -/

/-- The cadences of external research. -/
inductive ResearchMode where
  | off
  | normal
  | eager
  deriving DecidableEq

/-- The place of a review mode, from no review to a review of every episode. -/
def ReviewMode.rank : ReviewMode → Nat
  | .off => 0
  | .onRisk => 1
  | .always => 2

/-- The place of a retro mode. -/
def RetroMode.rank : RetroMode → Nat
  | .off => 0
  | .onFail => 1
  | .always => 2

/-- The place of a research cadence. -/
def ResearchMode.rank : ResearchMode → Nat
  | .off => 0
  | .normal => 1
  | .eager => 2

instance : LinearOrder ReviewMode :=
  LinearOrder.lift' ReviewMode.rank fun a b => by cases a <;> cases b <;> decide

instance : LinearOrder RetroMode :=
  LinearOrder.lift' RetroMode.rank fun a b => by cases a <;> cases b <;> decide

instance : LinearOrder ResearchMode :=
  LinearOrder.lift' ResearchMode.rank fun a b => by cases a <;> cases b <;> decide

/-! ## Configuration and facts -/

/-- The thresholds of `AdaptiveConfig` that the decision reads. -/
structure AdaptiveConfig where
  enabled : Bool := false
  highErrorRate : ℚ := 1 / 2
  lowErrorRate : ℚ := 1 / 10
  budgetTight : ℚ := 3 / 20
  budgetCritical : ℚ := 1 / 20
  highActivity : Int := 8

/-- `_clamp01`. -/
def clamp01 (x : ℚ) : ℚ := if x < 0 then 0 else if 1 < x then 1 else x

/-- What `budget_fraction` is given: nothing, a truth value, a number, a status, or an object
without the attributes of one. -/
inductive Headroom where
  | unknown
  | flag (b : Bool)
  | number (x : ℚ)
  | status (st : BudgetStatus)
  | object

/-- What is left of a cap that is not zero, as a fraction of it. -/
def leftOf (cap remaining : Option ℚ) : List ℚ :=
  match cap, remaining with
  | some cap, some remaining => if cap ≠ 0 then [remaining / cap] else []
  | _, _ => []

/-- The fractions left under the caps of a status. -/
def BudgetStatus.fractions (st : BudgetStatus) : List ℚ :=
  leftOf st.capUsd st.remainingUsd ++
    leftOf (st.capTokens.map fun n => (n : ℚ)) (st.remainingTokens.map fun n => (n : ℚ))

/-- `budget_fraction`. -/
def budgetFraction : Headroom → Option ℚ
  | .unknown => none
  | .flag _ => none
  | .number x => some (clamp01 x)
  | .status st => st.fractions.min?.map clamp01
  | .object => none

/-- What the event log says of the recent episodes. -/
structure Telemetry where
  episodes : Nat
  errored : Nat
  activity : Nat

/-- `recent_error_rate`. -/
def Telemetry.errorRate (t : Telemetry) : ℚ :=
  if t.episodes = 0 then 0 else clamp01 (t.errored / t.episodes)

/-- The facts a decision is made on. -/
structure Facts where
  errorRate : ℚ
  activity : Int

/-- The facts of a reading. -/
def Telemetry.facts (t : Telemetry) : Facts := ⟨t.errorRate, t.activity⟩

/-! ## The decision -/

/-- The rules of an intensity: a critical budget turns it off, a surge raises it, to the guard mode
only when the budget is tight, and calm turns it off when the budget is tight. -/
def ladder {M : Type} (tight critical surge calm : Bool) (base escalateMode guardMode offMode : M) :
    M :=
  if critical then offMode
  else if surge then (if tight then guardMode else escalateMode)
  else if calm && tight then offMode
  else base

namespace AdaptiveConfig

variable (cfg : AdaptiveConfig)

/-- The fraction is at most the threshold for a tight budget. -/
def tight (frac : Option ℚ) : Bool := frac.any fun f => f ≤ cfg.budgetTight

/-- The fraction is at most the threshold for a nearly exhausted budget. -/
def critical (frac : Option ℚ) : Bool := frac.any fun f => f ≤ cfg.budgetCritical

/-- `_scale`. -/
def scale {M : Type} (base : M) (errorRate : ℚ) (frac : Option ℚ)
    (escalateMode guardMode offMode : M) : M :=
  ladder (cfg.tight frac) (cfg.critical frac) (cfg.highErrorRate ≤ errorRate)
    (errorRate ≤ cfg.lowErrorRate) base escalateMode guardMode offMode

/-- `_scale_research`. -/
def scaleResearch (base : ResearchMode) (facts : Facts) (frac : Option ℚ) : ResearchMode :=
  ladder (cfg.tight frac) (cfg.critical frac)
    (cfg.highActivity ≤ facts.activity || cfg.highErrorRate ≤ facts.errorRate)
    (facts.errorRate ≤ cfg.lowErrorRate && facts.activity < cfg.highActivity)
    base .eager .normal .off

end AdaptiveConfig

/-- The modes the worker is configured with. -/
structure BaseModes where
  review : ReviewMode
  retro : RetroMode
  research : ResearchMode := .normal

/-- `IntensityDecision`: the modes of an episode, and the facts behind them. -/
structure IntensityDecision where
  review : ReviewMode
  retro : RetroMode
  research : ResearchMode
  errorRate : ℚ
  budgetFraction : Option ℚ
  activity : Int
  adaptive : Bool

namespace AdaptiveConfig

variable (cfg : AdaptiveConfig) (base : BaseModes)

/-- The decision on the facts that were read; without adaptive intensity none are. -/
def decideOn (facts : Facts) (frac : Option ℚ) : IntensityDecision :=
  if cfg.enabled then
    { review := cfg.scale base.review facts.errorRate frac .always .onRisk .off
      retro := cfg.scale base.retro facts.errorRate frac .always .onFail .off
      research := cfg.scaleResearch base.research facts frac
      errorRate := facts.errorRate
      budgetFraction := frac
      activity := facts.activity
      adaptive := true }
  else
    { review := base.review, retro := base.retro, research := base.research
      errorRate := 0, budgetFraction := none, activity := 0, adaptive := false }

/-- `resolve_modes`. -/
def resolveModes (telemetry : Telemetry) (budgetRemaining : Headroom) : IntensityDecision :=
  cfg.decideOn base telemetry.facts (budgetFraction budgetRemaining)

end AdaptiveConfig

/-! ## More errors, less budget -/

section Ladder

variable {M : Type} [LinearOrder M] {base escalateMode guardMode offMode : M}

/-- **More errors lower a mode** only where a tight budget swaps a higher base for the guard
mode. -/
theorem ladder_le_iff (hoff : ∀ m, offMode ≤ m) (hescalate : ∀ m, m ≤ escalateMode)
    {tight critical surge calm surge' calm' : Bool} (hsurge : surge = true → surge' = true)
    (hcalm : calm' = true → calm = true) :
    ladder tight critical surge calm base escalateMode guardMode offMode ≤
        ladder tight critical surge' calm' base escalateMode guardMode offMode ↔
      ¬ (tight = true ∧ critical = false ∧ surge = false ∧ calm = false ∧ surge' = true ∧
        guardMode < base) := by
  unfold ladder
  cases critical with
  | true => simp
  | false =>
      cases surge with
      | true => simp [hsurge rfl]
      | false =>
          cases tight with
          | false =>
              cases surge' with
              | true => simp [hescalate]
              | false => simp
          | true =>
              cases calm with
              | true => simp [hoff]
              | false =>
                  have hcalm' : calm' = false := by
                    cases calm' with
                    | true => exact absurd (hcalm rfl) (by decide)
                    | false => rfl
                  cases surge' with
                  | true => simp
                  | false => simp [hcalm']

/-- Less budget never raises a mode. -/
theorem ladder_le_of_tighter (hoff : ∀ m, offMode ≤ m) (hescalate : ∀ m, m ≤ escalateMode)
    {tight critical tight' critical' surge calm : Bool} (htight : tight' = true → tight = true)
    (hcritical : critical' = true → critical = true) :
    ladder tight critical surge calm base escalateMode guardMode offMode ≤
      ladder tight' critical' surge calm base escalateMode guardMode offMode := by
  unfold ladder
  cases critical with
  | true => exact hoff _
  | false =>
      have hcritical' : critical' = false := by
        cases critical' with
        | true => exact absurd (hcritical rfl) (by decide)
        | false => rfl
      rw [hcritical']
      cases tight with
      | false =>
          have htight' : tight' = false := by
            cases tight' with
            | true => exact absurd (htight rfl) (by decide)
            | false => rfl
          rw [htight']
      | true =>
          cases tight' with
          | true => exact le_rfl
          | false =>
              cases surge with
              | true => exact hescalate _
              | false =>
                  cases calm with
                  | true => exact hoff _
                  | false => exact le_rfl

end Ladder

/-! ## The remaining budget -/

/-- At most as much is left; an unknown budget is ample. -/
def Tighter : Option ℚ → Option ℚ → Prop
  | some left, some left' => left ≤ left'
  | none, some _ => False
  | _, none => True

/-- The same caps, with at least as much spent. -/
structure SpendsMore (st st' : BudgetStatus) : Prop where
  capUsd : st'.capUsd = st.capUsd
  capTokens : st'.capTokens = st.capTokens
  usd : 0 ≤ st.spentUsd ∧ st.spentUsd ≤ st'.spentUsd
  tokens : 0 ≤ st.spentTokens ∧ st.spentTokens ≤ st'.spentTokens

theorem clamp01_eq (x : ℚ) : clamp01 x = max 0 (min 1 x) := by
  unfold clamp01
  split
  next h => rw [min_eq_right (by linarith), max_eq_left h.le]
  next h =>
    split
    next h' => rw [min_eq_left h'.le, max_eq_right zero_le_one]
    next h' => rw [min_eq_right (not_lt.1 h'), max_eq_right (not_lt.1 h)]

/-- More spent under a cap leaves a smaller part of it; a negative cap is always full. -/
theorem min_one_div_le {cap spent spent' : ℚ} (hcap : cap ≠ 0) (hspent : 0 ≤ spent)
    (hmore : spent ≤ spent') : min 1 ((cap - spent') / cap) ≤ min 1 ((cap - spent) / cap) := by
  rcases lt_or_gt_of_ne hcap with hneg | hpos
  · have hfull : ∀ s : ℚ, 0 ≤ s → 1 ≤ (cap - s) / cap := fun s hs => by
      rw [one_le_div_of_neg hneg]
      linarith
    rw [min_eq_left (hfull spent hspent), min_eq_left (hfull spent' (hspent.trans hmore))]
  · exact min_le_min_left _ (div_le_div_of_nonneg_right (by linarith) hpos.le)

/-- What is left of a cap: nothing that counts, or less than before. -/
theorem leftOf_le {cap : Option ℚ} {spent spent' : ℚ} (hspent : 0 ≤ spent)
    (hmore : spent ≤ spent') :
    List.Forall₂ (fun left' left => min 1 left' ≤ min 1 left)
      (leftOf cap (cap.map (· - spent'))) (leftOf cap (cap.map (· - spent))) := by
  cases cap with
  | none => exact .nil
  | some cap =>
      by_cases hcap : cap = 0
      · simp [leftOf, hcap]
      · simpa [leftOf, hcap] using min_one_div_le hcap hspent hmore

theorem fractions_le {st st' : BudgetStatus} (h : SpendsMore st st') :
    List.Forall₂ (fun left' left => min 1 left' ≤ min 1 left) st'.fractions st.fractions := by
  have htokens : ∀ t : BudgetStatus, (t.remainingTokens.map fun n => (n : ℚ)) =
      (t.capTokens.map fun n => (n : ℚ)).map (· - (t.spentTokens : ℚ)) := fun t => by
    cases hcap : t.capTokens <;> simp [BudgetStatus.remainingTokens, hcap]
  rw [BudgetStatus.fractions, BudgetStatus.fractions, htokens, htokens, BudgetStatus.remainingUsd,
    BudgetStatus.remainingUsd, h.capUsd, h.capTokens]
  exact List.rel_append (leftOf_le h.usd.1 h.usd.2)
    (leftOf_le (by exact_mod_cast h.tokens.1) (by exact_mod_cast h.tokens.2))

/-- The least of pairwise smaller fractions, cut off at one, is smaller. -/
theorem min_foldl_le {xs ys : List ℚ} {x y : ℚ} (hfirst : min 1 x ≤ min 1 y)
    (h : List.Forall₂ (fun x y => min 1 x ≤ min 1 y) xs ys) :
    min 1 (xs.foldl min x) ≤ min 1 (ys.foldl min y) := by
  induction h generalizing x y with
  | nil => exact hfirst
  | @cons a b _ _ hab _ ih =>
      refine ih ?_
      have hx : min 1 (min x a) = min (min 1 x) (min 1 a) := by
        rw [min_min_min_comm, min_self]
      have hy : min 1 (min y b) = min (min 1 y) (min 1 b) := by
        rw [min_min_min_comm, min_self]
      rw [hx, hy]
      exact min_le_min hfirst hab

/-- **Spending more leaves less.** -/
theorem budgetFraction_tighter {st st' : BudgetStatus} (h : SpendsMore st st') :
    Tighter (budgetFraction (.status st')) (budgetFraction (.status st)) := by
  have hle := fractions_le h
  change Tighter (st'.fractions.min?.map clamp01) (st.fractions.min?.map clamp01)
  generalize st.fractions = lefts, st'.fractions = lefts' at hle ⊢
  cases hle with
  | nil => trivial
  | cons hfirst hrest =>
      simp only [List.min?_cons', Option.map_some]
      change clamp01 _ ≤ clamp01 _
      rw [clamp01_eq, clamp01_eq]
      exact max_le_max_left _ (min_foldl_le hfirst hrest)

/-! ## The law -/

namespace AdaptiveConfig

variable (cfg : AdaptiveConfig) (base : BaseModes)

/-- No mode of the first decision is above that of the second. -/
structure NoMore (d d' : IntensityDecision) : Prop where
  review : d.review ≤ d'.review
  retro : d.retro ≤ d'.retro
  research : d.research ≤ d'.research

/-- More errors and more activity never lower a mode, less budget and more spending never raise
one. -/
structure IntensityLaw (facts facts' : Facts) (frac : Option ℚ) : Prop where
  errors : NoMore (cfg.decideOn base facts frac) (cfg.decideOn base facts' frac)
  budget : ∀ less, Tighter less frac →
    NoMore (cfg.decideOn base facts less) (cfg.decideOn base facts frac)
  spending : ∀ st st', SpendsMore st st' →
    Tighter (budgetFraction (.status st')) (budgetFraction (.status st)) ∧
      NoMore (cfg.decideOn base facts (budgetFraction (.status st')))
        (cfg.decideOn base facts (budgetFraction (.status st)))

/-- The budget is tight, though not critical, and the error rate comes from between its
thresholds to the upper one. -/
def errorsSurge (facts facts' : Facts) (frac : Option ℚ) : Bool :=
  cfg.tight frac && !cfg.critical frac && cfg.lowErrorRate < facts.errorRate &&
    facts.errorRate < cfg.highErrorRate && cfg.highErrorRate ≤ facts'.errorRate

/-- The same for the research cadence, which also looks at the activity. -/
def researchSurges (facts facts' : Facts) (frac : Option ℚ) : Bool :=
  cfg.tight frac && !cfg.critical frac && cfg.lowErrorRate < facts.errorRate &&
    facts.errorRate < cfg.highErrorRate && facts.activity < cfg.highActivity &&
    (cfg.highActivity ≤ facts'.activity || cfg.highErrorRate ≤ facts'.errorRate)

/-- A base above the guard mode meets a surge under a tight budget. -/
def overridden (facts facts' : Facts) (frac : Option ℚ) : Bool :=
  cfg.enabled &&
    ((cfg.errorsSurge facts facts' frac && (base.review = .always || base.retro = .always)) ||
      (cfg.researchSurges facts facts' frac && base.research = .eager))

variable {cfg}

theorem tight_of_tighter {less frac : Option ℚ} (h : Tighter less frac)
    (htight : cfg.tight frac = true) : cfg.tight less = true := by
  cases frac with
  | none => cases htight
  | some f =>
      cases less with
      | none => exact h.elim
      | some l =>
          have hf : f ≤ cfg.budgetTight := by simpa [tight] using htight
          simpa [tight] using h.trans hf

theorem critical_of_tighter {less frac : Option ℚ} (h : Tighter less frac)
    (hcritical : cfg.critical frac = true) : cfg.critical less = true := by
  cases frac with
  | none => cases hcritical
  | some f =>
      cases less with
      | none => exact h.elim
      | some l =>
          have hf : f ≤ cfg.budgetCritical := by simpa [critical] using hcritical
          simpa [critical] using h.trans hf

theorem off_le_review (m : ReviewMode) : .off ≤ m := by cases m <;> decide
theorem review_le_always (m : ReviewMode) : m ≤ .always := by cases m <;> decide
theorem off_le_retro (m : RetroMode) : .off ≤ m := by cases m <;> decide
theorem retro_le_always (m : RetroMode) : m ≤ .always := by cases m <;> decide
theorem off_le_research (m : ResearchMode) : .off ≤ m := by cases m <;> decide
theorem research_le_eager (m : ResearchMode) : m ≤ .eager := by cases m <;> decide

/-- Less budget never raises a mode of the decision. -/
theorem decideOn_noMore_of_tighter (facts : Facts) {less frac : Option ℚ} (h : Tighter less frac) :
    NoMore (cfg.decideOn base facts less) (cfg.decideOn base facts frac) := by
  unfold decideOn
  cases cfg.enabled with
  | false => exact ⟨le_rfl, le_rfl, le_rfl⟩
  | true =>
      exact
        { review := ladder_le_of_tighter off_le_review review_le_always (tight_of_tighter h)
            (critical_of_tighter h)
          retro := ladder_le_of_tighter off_le_retro retro_le_always (tight_of_tighter h)
            (critical_of_tighter h)
          research := ladder_le_of_tighter off_le_research research_le_eager (tight_of_tighter h)
            (critical_of_tighter h) }

section Facts

variable {facts facts' : Facts} {frac : Option ℚ} (hrate : facts.errorRate ≤ facts'.errorRate)

include hrate

/-- A mode of `_scale` is lowered only by a surge of errors. -/
theorem scale_le_iff {M : Type} [LinearOrder M] {mode escalateMode guardMode offMode : M}
    (hoff : ∀ m, offMode ≤ m) (hescalate : ∀ m, m ≤ escalateMode) :
    cfg.scale mode facts.errorRate frac escalateMode guardMode offMode ≤
        cfg.scale mode facts'.errorRate frac escalateMode guardMode offMode ↔
      ¬ (cfg.errorsSurge facts facts' frac = true ∧ guardMode < mode) := by
  rw [scale, scale, ladder_le_iff hoff hescalate]
  · simp only [errorsSurge, Bool.and_eq_true, decide_eq_true_eq, decide_eq_false_iff_not, not_le,
      Bool.not_eq_true']
    tauto
  · simpa using fun h => h.trans hrate
  · simpa using fun h => hrate.trans h

theorem scaleResearch_le_iff (hactivity : facts.activity ≤ facts'.activity) :
    cfg.scaleResearch base.research facts frac ≤ cfg.scaleResearch base.research facts' frac ↔
      ¬ (cfg.researchSurges facts facts' frac = true ∧ .normal < base.research) := by
  rw [scaleResearch, scaleResearch, ladder_le_iff off_le_research research_le_eager]
  · simp only [researchSurges, Bool.and_eq_true, Bool.or_eq_true, decide_eq_true_eq,
      decide_eq_false_iff_not, not_le, Bool.not_eq_true', Bool.or_eq_false_iff,
      Bool.and_eq_false_iff, not_lt]
    constructor
    · rintro hnot ⟨⟨⟨⟨⟨⟨h1, h2⟩, h3⟩, h4⟩, h5⟩, h6⟩, h7⟩
      exact hnot ⟨h1, h2, ⟨h5, h4⟩, .inl h3, h6, h7⟩
    · rintro hnot ⟨h1, h2, ⟨h5, h4⟩, h3, h6, h7⟩
      have hlow := h3.resolve_right (not_le.2 h5)
      exact hnot ⟨⟨⟨⟨⟨⟨h1, h2⟩, hlow⟩, h4⟩, h5⟩, h6⟩, h7⟩
  · intro h
    rw [Bool.or_eq_true, decide_eq_true_eq, decide_eq_true_eq] at h ⊢
    exact h.imp (fun h => h.trans hactivity) fun h => h.trans hrate
  · intro h
    rw [Bool.and_eq_true, decide_eq_true_eq, decide_eq_true_eq] at h ⊢
    exact ⟨hrate.trans h.1, hactivity.trans_lt h.2⟩

/-- **Intensity is monotone** exactly where no surge under a tight budget overrides a base above
the guard mode. -/
theorem intensityLaw_iff (hactivity : facts.activity ≤ facts'.activity) :
    IntensityLaw cfg base facts facts' frac ↔ cfg.overridden base facts facts' frac = false := by
  have hreview : ReviewMode.onRisk < base.review ↔ base.review = .always := by
    cases base.review <;> decide
  have hretro : RetroMode.onFail < base.retro ↔ base.retro = .always := by
    cases base.retro <;> decide
  have hresearch : ResearchMode.normal < base.research ↔ base.research = .eager := by
    cases base.research <;> decide
  have hfacts : NoMore (cfg.decideOn base facts frac) (cfg.decideOn base facts' frac) ↔
      cfg.overridden base facts facts' frac = false := by
    cases henabled : cfg.enabled with
    | false =>
        simp only [decideOn, overridden, henabled, Bool.false_and, iff_true, Bool.false_eq_true,
          if_false]
        exact ⟨le_rfl, le_rfl, le_rfl⟩
    | true =>
        have hsplit : NoMore (cfg.decideOn base facts frac) (cfg.decideOn base facts' frac) ↔
            _ ∧ _ ∧ _ :=
          ⟨fun h => ⟨h.review, h.retro, h.research⟩, fun h => ⟨h.1, h.2.1, h.2.2⟩⟩
        rw [hsplit]
        simp only [decideOn, henabled, if_true]
        rw [scale_le_iff hrate off_le_review review_le_always,
          scale_le_iff hrate off_le_retro retro_le_always,
          scaleResearch_le_iff base hrate hactivity, hreview, hretro, hresearch]
        simp only [overridden, henabled, Bool.true_and, Bool.or_eq_false_iff,
          Bool.and_eq_false_iff, decide_eq_false_iff_not]
        cases cfg.errorsSurge facts facts' frac <;> cases cfg.researchSurges facts facts' frac <;>
          simp [and_assoc]
  refine ⟨fun h => hfacts.1 h.errors, fun h => ⟨hfacts.2 h, ?_, ?_⟩⟩
  · exact fun less hless => decideOn_noMore_of_tighter base facts hless
  · exact fun st st' hspend => ⟨budgetFraction_tighter hspend,
      decideOn_noMore_of_tighter base facts (budgetFraction_tighter hspend)⟩

end Facts

/-- With the default thresholds and the default bases, more errors bring more review. -/
theorem intensityLaw_defaults :
    IntensityLaw { enabled := true } { review := .onRisk, retro := .onFail } ⟨3 / 10, 2⟩
      ⟨6 / 10, 2⟩ (some (1 / 10)) := by
  refine Iff.mpr (intensityLaw_iff _ ?_ ?_) ?_
  · norm_num
  · decide
  · decide +kernel

/-- A worker that reviews every episode, with a tenth of its budget left: at three errors in ten
it goes on to, at six in ten it reviews the risky ones only. -/
theorem review_lowered_by_errors :
    ¬ IntensityLaw { enabled := true } { review := .always, retro := .onFail } ⟨3 / 10, 2⟩
      ⟨6 / 10, 2⟩ (some (1 / 10)) := by
  intro h
  exact absurd h.errors.review (by decide +kernel)

end AdaptiveConfig

end AiStudio.Runtime
