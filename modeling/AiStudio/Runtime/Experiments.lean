import AiStudio.Runtime.Models
import Mathlib.Algebra.Order.Field.Basic
import Mathlib.Data.Rat.Defs
import Mathlib.Tactic.Linarith

/-!
# The verdict of an experiment

Embeds the rule of `runtime/experiment/models.py` and the evidence `runtime/experiment/api.py`
reads for it: the spend of the tasks tagged with the experiment, and the observed value of the
metric, which for a cost metric is that spend. The arithmetic is that of an ordered field.

- `SuccessMetric.Beats`: the value passes the target by the margin of the scale factor.
- `scaled_sound_iff`: when a verdict to scale means that, and needs evidence.
-/

set_option autoImplicit false

namespace AiStudio.Runtime

/-- The verdicts, `ExperimentDecision`. -/
inductive ExperimentDecision where
  | kept
  | scaled
  | killed
  deriving DecidableEq, Repr

section Metric

variable {K : Type} [Field K] [LinearOrder K]

/-! ## Comparators and aggregates -/

/-- `COMPARATORS`. -/
def comparators : List (String × (K → K → Bool)) :=
  [(">=", fun value target => target ≤ value), (">", fun value target => target < value),
    ("<=", fun value target => value ≤ target), ("<", fun value target => value < target),
    ("==", fun value target => value = target)]

/-- `_HIGHER_IS_BETTER`. -/
def higherIsBetter : List String := [">=", ">"]

/-- `_LOWER_IS_BETTER`. -/
def lowerIsBetter : List String := ["<=", "<"]

/-- `AGGREGATES`, of a first value and the values after it. -/
def aggregates : List (String × (K → List K → K)) :=
  [("last", fun x xs => (x :: xs).getLast (List.cons_ne_nil x xs)), ("first", fun x _ => x),
    ("sum", fun x xs => (x :: xs).sum), ("max", fun x xs => xs.foldl max x),
    ("min", fun x xs => xs.foldl min x),
    ("mean", fun x xs => (x :: xs).sum / ((x :: xs).length : K))]

/-- How numbers and strings are written in a message. -/
structure Rendering (K : Type) where
  str : K → String
  repr : String → String

/-- `SuccessMetric`. -/
structure SuccessMetric (K : Type) where
  name : String
  target : K
  comparator : String := ">="
  aggregate : String := "last"

/-- `validate_spec`. -/
def SuccessMetric.validateSpec (r : Rendering K) (metric : SuccessMetric K) :
    Except Exn (SuccessMetric K) :=
  if ((comparators (K := K)).lookup metric.comparator).isNone then
    .error (.valueError ("unknown comparator " ++ r.repr metric.comparator ++
      " (allowed: ['<', '<=', '==', '>', '>='])"))
  else if ((aggregates (K := K)).lookup metric.aggregate).isNone then
    .error (.valueError ("unknown aggregate " ++ r.repr metric.aggregate ++
      " (allowed: ['first', 'last', 'max', 'mean', 'min', 'sum'])"))
  else .ok metric

/-- `metric_meets`. -/
def metricMeets (r : Rendering K) (value target : K) (comparator : String) : Except Exn Bool :=
  match comparators.lookup comparator with
  | none => .error (.valueError ("unknown comparator " ++ r.repr comparator ++
      " (allowed: ['<', '<=', '==', '>', '>='])"))
  | some op => .ok (op value target)

/-- `is_strongly_met`. -/
def isStronglyMet (r : Rendering K) (value target : K) (comparator : String) (scaleFactor : K) :
    Except Exn Bool :=
  if scaleFactor < 1 then .error (.valueError "scale_factor must be >= 1")
  else do
    if !(← metricMeets r value target comparator) then return false
    else if comparator ∈ higherIsBetter then return target * scaleFactor ≤ value
    else if comparator ∈ lowerIsBetter then
      -- A non-positive ceiling has no multiplicative margin.
      if target ≤ 0 then return value ≤ target else return value ≤ target / scaleFactor
    else return false

/-! ## The rule -/

/-- `Evaluation`. -/
structure Evaluation (K : Type) where
  decision : ExperimentDecision
  reason : String
  observedValue : Option K
  overBudget : Bool
  spentTokens : Int
  spentUsd : K

/-- `is_over_budget`. -/
def isOverBudget (spentTokens : Int) (spentUsd : K) (budgetTokens : Option Int)
    (budgetUsd : Option K) : Bool :=
  budgetTokens.any (· < spentTokens) || budgetUsd.any (· < spentUsd)

/-- `DEFAULT_SCALE_FACTOR`. -/
def defaultScaleFactor : K := ((5 : ℕ) : K) / ((4 : ℕ) : K)

/-- `decide_outcome`: the budget is a hard gate, then comes the metric. -/
def decideOutcome (r : Rendering K) (metric : SuccessMetric K) (observedValue : Option K)
    (spentTokens : Int) (spentUsd : K) (budgetTokens : Option Int) (budgetUsd : Option K)
    (scaleFactor : K := defaultScaleFactor) : Except Exn (Evaluation K) :=
  if isOverBudget spentTokens spentUsd budgetTokens budgetUsd then
    .ok { decision := .killed
          reason := "over budget: measured spend exceeded the declared ceiling"
          observedValue, overBudget := true, spentTokens, spentUsd }
  else
    match observedValue with
    | none =>
        .ok { decision := .killed, reason := "no evidence: no metric observations recorded"
              observedValue := none, overBudget := false, spentTokens, spentUsd }
    | some value => do
        let terms := metric.comparator ++ " " ++ r.str metric.target
        if !(← metricMeets r value metric.target metric.comparator) then
          return { decision := .killed
                   reason := "metric missed: " ++ metric.name ++ "=" ++ r.str value ++ " not " ++ terms
                   observedValue, overBudget := false, spentTokens, spentUsd }
        else if ← isStronglyMet r value metric.target metric.comparator scaleFactor then
          return { decision := .scaled
                   reason := "metric strongly met: " ++ metric.name ++ "=" ++ r.str value ++
                     " beyond " ++ terms ++ " within budget"
                   observedValue, overBudget := false, spentTokens, spentUsd }
        else
          return { decision := .kept
                   reason := "metric met: " ++ metric.name ++ "=" ++ r.str value ++ " " ++ terms ++
                     " within budget"
                   observedValue, overBudget := false, spentTokens, spentUsd }

/-! ## The evidence -/

/-- The spend a cost metric reads. -/
inductive CostKind where
  | usd
  | tokens
  deriving DecidableEq, Repr

/-- `_COST_METRICS`. -/
def costMetrics : List (String × CostKind) :=
  [("cost_usd", .usd), ("spent_usd", .usd), ("total_tokens", .tokens), ("spent_tokens", .tokens),
    ("tokens", .tokens)]

/-- What the log and the queue hold of an experiment: what `task_cost` gives for each task tagged
with it, and the values observed, in the order they were recorded. -/
structure Evidence (K : Type) where
  costs : List (Int × K)
  observations : List K

/-- `_measure_spend`. -/
def Evidence.measureSpend (e : Evidence K) : Int × K :=
  ((e.costs.map Prod.fst).sum, (e.costs.map Prod.snd).sum)

/-- `_observed_value`. -/
def Evidence.observedValue (e : Evidence K) (metric : SuccessMetric K) : Except Exn (Option K) :=
  match costMetrics.lookup metric.name with
  | some .usd => .ok (some e.measureSpend.2)
  | some .tokens => .ok (some (e.measureSpend.1 : K))
  | none =>
      match e.observations with
      | [] => .ok none
      | x :: xs =>
          match aggregates.lookup metric.aggregate with
          | none => .error (.runtimeError "KeyError")
          | some fold => .ok (some (fold x xs))

/-- The verdict of `evaluate_experiment`. -/
def evaluateExperiment (r : Rendering K) (metric : SuccessMetric K) (e : Evidence K)
    (budgetTokens : Option Int) (budgetUsd : Option K) (scaleFactor : K := defaultScaleFactor) :
    Except Exn (Evaluation K) := do
  let observed ← e.observedValue metric
  decideOutcome r metric observed e.measureSpend.1 e.measureSpend.2 budgetTokens budgetUsd scaleFactor

/-! ## What a verdict to scale rests on -/

/-- The value is on the right side of the target, or at it. -/
inductive MeetsTarget (value target : K) : String → Prop where
  | ge (h : target ≤ value) : MeetsTarget value target ">="
  | gt (h : target < value) : MeetsTarget value target ">"
  | le (h : value ≤ target) : MeetsTarget value target "<="
  | lt (h : value < target) : MeetsTarget value target "<"
  | eq (h : value = target) : MeetsTarget value target "=="

/-- The value passes the target, and by the margin of the scale factor. -/
def SuccessMetric.Beats (metric : SuccessMetric K) (value scaleFactor : K) : Prop :=
  (metric.comparator ∈ higherIsBetter ∧ metric.target < value ∧
      metric.target * scaleFactor ≤ value) ∨
    (metric.comparator ∈ lowerIsBetter ∧ value < metric.target ∧
      value ≤ metric.target / scaleFactor)

section Verdict

variable {r : Rendering K} {metric : SuccessMetric K} {e : Evidence K} {value target scaleFactor : K}
  {comparator : String} {op : K → K → Bool}

omit [Field K] in
/-- A comparator is one of the list, or unknown. -/
theorem comparator_cases (K : Type) [LinearOrder K] (comparator : String) :
    comparator = ">=" ∨ comparator = ">" ∨ comparator = "<=" ∨ comparator = "<" ∨
      comparator = "==" ∨ (comparators (K := K)).lookup comparator = none := by
  by_cases hknown : comparator ∈ [">=", ">", "<=", "<", "=="]
  · simp only [List.mem_cons, List.not_mem_nil, or_false] at hknown
    tauto
  · simp only [List.mem_cons, List.not_mem_nil, or_false, not_or] at hknown
    obtain ⟨hge, hgt, hle, hlt, heq⟩ := hknown
    iterate 5 right
    simp [List.lookup_eq_none_iff, comparators, hge, hgt, hle, hlt, heq]

omit [Field K] in
theorem metricMeets_iff :
    metricMeets r value target comparator = .ok true ↔ MeetsTarget value target comparator := by
  constructor
  · intro h
    rcases comparator_cases K comparator with rfl | rfl | rfl | rfl | rfl | hunknown
    · exact .ge (by simpa [metricMeets, comparators] using h)
    · exact .gt (by simpa [metricMeets, comparators, List.lookup_cons] using h)
    · exact .le (by simpa [metricMeets, comparators, List.lookup_cons] using h)
    · exact .lt (by simpa [metricMeets, comparators, List.lookup_cons] using h)
    · exact .eq (by simpa [metricMeets, comparators, List.lookup_cons] using h)
    · rw [metricMeets, hunknown] at h
      cases h
  · intro h
    cases h <;> simp [metricMeets, comparators, List.lookup_cons, *]

/-- The margin of a met metric. -/
def hasMargin (value target : K) (comparator : String) (scaleFactor : K) : Bool :=
  if comparator ∈ higherIsBetter then target * scaleFactor ≤ value
  else if comparator ∈ lowerIsBetter then
    if target ≤ 0 then value ≤ target else value ≤ target / scaleFactor
  else false

theorem isStronglyMet_eq (hfactor : 1 ≤ scaleFactor) {met : Bool}
    (hmeets : metricMeets r value target comparator = .ok met) :
    isStronglyMet r value target comparator scaleFactor =
      .ok (met && hasMargin value target comparator scaleFactor) := by
  rw [isStronglyMet, if_neg (not_lt.2 hfactor), hmeets]
  cases met with
  | false => rfl
  | true =>
      change (if comparator ∈ higherIsBetter then _ else _ : Except Exn Bool) = _
      rw [Bool.true_and, hasMargin]
      split_ifs <;> rfl

/-- A strongly met metric is met, with its margin. -/
theorem isStronglyMet_iff (hfactor : 1 ≤ scaleFactor) :
    isStronglyMet r value target comparator scaleFactor = .ok true ↔
      MeetsTarget value target comparator ∧ hasMargin value target comparator scaleFactor = true := by
  rw [← metricMeets_iff (r := r)]
  cases hmeets : metricMeets r value target comparator with
  | error e =>
      rw [isStronglyMet, if_neg (not_lt.2 hfactor), hmeets]
      constructor
      · intro h
        cases h
      · rintro ⟨h, -⟩
        cases h
  | ok met =>
      rw [isStronglyMet_eq hfactor hmeets]
      simp

/-- The verdict on a value within the budget. -/
theorem decideOutcome_some {spentTokens : Int} {spentUsd : K} {budgetTokens : Option Int}
    {budgetUsd : Option K} (hfactor : 1 ≤ scaleFactor)
    (hbudget : isOverBudget spentTokens spentUsd budgetTokens budgetUsd = false) :
    (∃ ev, decideOutcome r metric (some value) spentTokens spentUsd budgetTokens budgetUsd
        scaleFactor = .ok ev ∧ ev.decision = .scaled) ↔
      MeetsTarget value metric.target metric.comparator ∧
        hasMargin value metric.target metric.comparator scaleFactor = true := by
  rw [← isStronglyMet_iff (r := r) hfactor, decideOutcome, hbudget]
  cases hmeets : metricMeets r value metric.target metric.comparator with
  | error e =>
      rw [isStronglyMet, if_neg (not_lt.2 hfactor), hmeets]
      constructor
      · rintro ⟨ev, h, -⟩
        cases h
      · intro h
        cases h
  | ok met =>
      rw [isStronglyMet_eq hfactor hmeets]
      cases met with
      | false =>
          constructor
          · rintro ⟨ev, h, hdecision⟩
            cases h
            cases hdecision
          · intro h
            cases h
      | true =>
          cases hasMargin value metric.target metric.comparator scaleFactor with
          | false =>
              constructor
              · rintro ⟨ev, h, hdecision⟩
                cases h
                cases hdecision
              · intro h
                cases h
          | true => exact ⟨fun _ => rfl, fun _ => ⟨_, rfl, rfl⟩⟩

/-- A verdict on no value, or over the budget, is never to scale. -/
theorem decideOutcome_killed (r : Rendering K) (metric : SuccessMetric K) (scaleFactor : K)
    {observed : Option K} {spentTokens : Int} {spentUsd : K} {budgetTokens : Option Int}
    {budgetUsd : Option K}
    (h : isOverBudget spentTokens spentUsd budgetTokens budgetUsd = true ∨ observed = none) :
    ∃ ev, decideOutcome r metric observed spentTokens spentUsd budgetTokens budgetUsd scaleFactor =
      .ok ev ∧ ev.decision = .killed := by
  cases hover : isOverBudget spentTokens spentUsd budgetTokens budgetUsd with
  | true => exact ⟨_, if_pos hover, rfl⟩
  | false =>
      obtain rfl := h.resolve_left (by simp [hover])
      exact ⟨_, if_neg (by simp [hover]), rfl⟩

/-- **A verdict to scale** is for a value that meets the target with its margin, within the
budget. -/
theorem evaluateExperiment_scaled_iff (r : Rendering K) (metric : SuccessMetric K) (e : Evidence K)
    (budgetTokens : Option Int) (budgetUsd : Option K) (hfactor : 1 ≤ scaleFactor) :
    (∃ ev, evaluateExperiment r metric e budgetTokens budgetUsd scaleFactor = .ok ev ∧
        ev.decision = .scaled) ↔
      isOverBudget e.measureSpend.1 e.measureSpend.2 budgetTokens budgetUsd = false ∧
        ∃ value, e.observedValue metric = .ok (some value) ∧
          MeetsTarget value metric.target metric.comparator ∧
            hasMargin value metric.target metric.comparator scaleFactor = true := by
  rw [evaluateExperiment]
  cases hobserved : e.observedValue metric with
  | error err =>
      constructor
      · rintro ⟨ev, h, -⟩
        cases h
      · rintro ⟨-, value, h, -⟩
        cases h
  | ok observed =>
      change (∃ ev, decideOutcome r metric observed _ _ budgetTokens budgetUsd scaleFactor = _ ∧ _) ↔ _
      by_cases hkilled : isOverBudget e.measureSpend.1 e.measureSpend.2 budgetTokens budgetUsd =
          true ∨ observed = none
      · obtain ⟨ev, hev, hdecision⟩ := decideOutcome_killed r metric scaleFactor hkilled
        constructor
        · rintro ⟨ev', hev', hscaled⟩
          rw [Except.ok.inj (hev.symm.trans hev'), hscaled] at hdecision
          cases hdecision
        · rintro ⟨hbudget, value, hvalue, -⟩
          rcases hkilled with hover | rfl
          · rw [hbudget] at hover
            cases hover
          · cases hvalue
      · obtain ⟨hover, hsome⟩ := not_or.1 hkilled
        obtain ⟨value, rfl⟩ := Option.ne_none_iff_exists'.1 hsome
        have hbudget := Bool.eq_false_iff.2 hover
        rw [decideOutcome_some hfactor hbudget]
        simp [hbudget]

theorem hasMargin_high (h : comparator ∈ higherIsBetter) :
    hasMargin value target comparator scaleFactor = true ↔ target * scaleFactor ≤ value := by
  simp [hasMargin, h]

/-- No comparator goes both ways. -/
theorem not_high_of_low (h : comparator ∈ lowerIsBetter) : comparator ∉ higherIsBetter := by
  intro hhigh
  simp only [lowerIsBetter, higherIsBetter, List.mem_cons, List.not_mem_nil, or_false] at h hhigh
  rcases h with rfl | rfl <;> simp at hhigh

theorem hasMargin_low (h : comparator ∈ lowerIsBetter) :
    hasMargin value target comparator scaleFactor = true ↔
      if target ≤ 0 then value ≤ target else value ≤ target / scaleFactor := by
  by_cases htarget : target ≤ 0 <;> simp [hasMargin, h, not_high_of_low h, htarget]

/-- A metric that is to be equal to its target has no margin. -/
theorem hasMargin_eq : hasMargin value target "==" scaleFactor = false := by
  simp [hasMargin, higherIsBetter, lowerIsBetter]

/-! ## Sound verdicts -/

section Sound

variable [IsStrictOrderedRing K] {budgetTokens : Option Int} {budgetUsd : Option K}

theorem mul_le_self_iff (hfactor : 1 < scaleFactor) : target * scaleFactor ≤ target ↔ target ≤ 0 := by
  constructor
  · intro h
    by_contra hpos
    exact absurd h (not_le.2 (lt_mul_of_one_lt_right (not_le.1 hpos) hfactor))
  · intro h
    simpa using mul_le_mul_of_nonpos_left hfactor.le h

theorem le_div_self_iff (hfactor : 1 < scaleFactor) : target ≤ target / scaleFactor ↔ target ≤ 0 := by
  rw [le_div_iff₀ (zero_lt_one.trans hfactor), mul_le_self_iff hfactor]

/-- A value above a ceiling that leaves no margin is below the scaled one too. -/
theorem low_margin_iff (hfactor : 1 < scaleFactor) (hvalue : value < target) :
    (if target ≤ 0 then value ≤ target else value ≤ target / scaleFactor) ↔
      value ≤ target / scaleFactor := by
  split_ifs with htarget
  · exact ⟨fun _ => hvalue.le.trans ((le_div_self_iff hfactor).2 htarget), fun _ => hvalue.le⟩
  · exact Iff.rfl

/-- What meets the target with its margin passes it by the factor, unless it only reaches a target
that leaves no margin. -/
theorem beats_or_reaches (hfactor : 1 < scaleFactor)
    (hmeets : MeetsTarget value metric.target metric.comparator)
    (hmargin : hasMargin value metric.target metric.comparator scaleFactor = true) :
    metric.Beats value scaleFactor ∨
      metric.comparator ∈ [">=", "<="] ∧ metric.target ≤ 0 ∧ value = metric.target := by
  obtain ⟨name, target, comparator, aggregate⟩ := metric
  simp only [SuccessMetric.Beats] at hmeets hmargin ⊢
  cases hmeets with
  | ge h =>
      have hhigh : ">=" ∈ higherIsBetter := by decide
      have hscaled := (hasMargin_high hhigh).1 hmargin
      rcases h.lt_or_eq with hlt | rfl
      · exact .inl (.inl ⟨hhigh, hlt, hscaled⟩)
      · exact .inr ⟨by simp, (mul_le_self_iff hfactor).1 hscaled, rfl⟩
  | gt h =>
      have hhigh : ">" ∈ higherIsBetter := by decide
      exact .inl (.inl ⟨hhigh, h, (hasMargin_high hhigh).1 hmargin⟩)
  | le h =>
      have hlow : "<=" ∈ lowerIsBetter := by decide
      have hscaled := (hasMargin_low hlow).1 hmargin
      rcases h.lt_or_eq with hlt | rfl
      · exact .inl (.inr ⟨hlow, hlt, (low_margin_iff hfactor hlt).1 hscaled⟩)
      · refine .inr ⟨by simp, ?_, rfl⟩
        by_contra hpos
        rw [if_neg hpos] at hscaled
        exact hpos ((le_div_self_iff hfactor).1 hscaled)
  | lt h =>
      have hlow : "<" ∈ lowerIsBetter := by decide
      exact .inl (.inr ⟨hlow, h, (low_margin_iff hfactor h).1 ((hasMargin_low hlow).1 hmargin)⟩)
  | eq h =>
      rw [hasMargin_eq] at hmargin
      cases hmargin

/-- Reaching a target that leaves no margin counts as a margin. -/
theorem reaches_scales (hfactor : 1 < scaleFactor) (hcomparator : comparator ∈ [">=", "<="])
    (htarget : target ≤ 0) :
    MeetsTarget target target comparator ∧
      hasMargin target target comparator scaleFactor = true := by
  simp only [List.mem_cons, List.not_mem_nil, or_false] at hcomparator
  rcases hcomparator with rfl | rfl
  · exact ⟨.ge le_rfl, (hasMargin_high (by decide)).2 ((mul_le_self_iff hfactor).2 htarget)⟩
  · exact ⟨.le le_rfl, (hasMargin_low (by decide)).2 (by rw [if_pos htarget])⟩

/-- A spend of nothing that meets the target has its margin. -/
theorem zero_scales (hfactor : 1 < scaleFactor) (hcomparator : comparator ≠ "==")
    (h : MeetsTarget 0 target comparator) : hasMargin 0 target comparator scaleFactor = true := by
  cases h with
  | ge h => exact (hasMargin_high (by decide)).2 (((mul_le_self_iff hfactor).2 h).trans h)
  | gt h => exact (hasMargin_high (by decide)).2 (((mul_le_self_iff hfactor).2 h.le).trans h.le)
  | le h =>
      refine (hasMargin_low (by decide)).2 ?_
      split_ifs
      · exact h
      · exact div_nonneg h (zero_le_one.trans hfactor.le)
  | lt h =>
      refine (hasMargin_low (by decide)).2 ?_
      split_ifs
      · exact h.le
      · exact div_nonneg h.le (zero_le_one.trans hfactor.le)
  | eq h => exact absurd rfl hcomparator

/-- Nothing was observed, and nothing was spent. -/
def Evidence.Empty (e : Evidence K) : Prop := e.observations = [] ∧ e.measureSpend = (0, 0)

omit [IsStrictOrderedRing K] in
/-- Without evidence a cost metric reads zero. -/
theorem observedValue_of_empty (hempty : e.Empty) (hcost : (costMetrics.lookup metric.name).isSome) :
    e.observedValue metric = .ok (some 0) := by
  obtain ⟨kind, hkind⟩ := Option.isSome_iff_exists.1 hcost
  rw [Evidence.observedValue, hkind, hempty.2]
  cases kind with
  | usd => rfl
  | tokens => simp

omit [IsStrictOrderedRing K] in
/-- Without evidence only a cost metric has a value. -/
theorem cost_of_empty (hempty : e.Empty) (hvalue : e.observedValue metric = .ok (some value)) :
    (costMetrics.lookup metric.name).isSome ∧ value = 0 := by
  cases hkind : costMetrics.lookup metric.name with
  | none =>
      rw [Evidence.observedValue, hkind, hempty.1] at hvalue
      cases hvalue
  | some kind =>
      have hcost : (costMetrics.lookup metric.name).isSome := by simp [hkind]
      have hzero := observedValue_of_empty hempty hcost
      exact ⟨rfl, Option.some.inj (Except.ok.inj (hvalue.symm.trans hzero))⟩

/-- A verdict to scale is on a value that passes the target by the margin, and on evidence. -/
def ScaledSound (r : Rendering K) (metric : SuccessMetric K) (e : Evidence K)
    (budgetTokens : Option Int) (budgetUsd : Option K) (scaleFactor : K) : Prop :=
  ∀ ev, evaluateExperiment r metric e budgetTokens budgetUsd scaleFactor = .ok ev →
    ev.decision = .scaled →
      (∃ value, e.observedValue metric = .ok (some value) ∧ metric.Beats value scaleFactor) ∧
        ¬ e.Empty

/-- The value reaches a target that leaves no margin, or the metric reads a spend of nothing. -/
def Unsupported (metric : SuccessMetric K) (e : Evidence K) : Prop :=
  metric.comparator ∈ [">=", "<="] ∧ metric.target ≤ 0 ∧
      e.observedValue metric = .ok (some metric.target) ∨
    e.Empty ∧ (costMetrics.lookup metric.name).isSome ∧ metric.comparator ≠ "==" ∧
      MeetsTarget 0 metric.target metric.comparator

/-- **Sound verdicts**: a verdict to scale rests on a passed target and on evidence exactly when
the spend is over the budget, or the value neither just reaches a target of zero or below nor is
the zero of a cost metric with no spend and no observation. -/
theorem scaled_sound_iff (hfactor : 1 < scaleFactor) :
    ScaledSound r metric e budgetTokens budgetUsd scaleFactor ↔
      isOverBudget e.measureSpend.1 e.measureSpend.2 budgetTokens budgetUsd = true ∨
        ¬ Unsupported metric e := by
  have hscales := evaluateExperiment_scaled_iff r metric e budgetTokens budgetUsd hfactor.le
  constructor
  · intro hsound
    by_contra! hcontra
    obtain ⟨hbudget, hunsupported⟩ := hcontra
    have hwithin := Bool.eq_false_iff.2 hbudget
    rcases hunsupported with ⟨hcomparator, htarget, hobserved⟩ | ⟨hempty, hcost, hne, hmeets⟩
    · obtain ⟨hmeets, hmargin⟩ := reaches_scales hfactor hcomparator htarget
      obtain ⟨ev, hev, hdecision⟩ := hscales.2 ⟨hwithin, _, hobserved, hmeets, hmargin⟩
      obtain ⟨⟨value, hvalue, hbeats⟩, -⟩ := hsound ev hev hdecision
      obtain rfl : metric.target = value := Option.some.inj (Except.ok.inj (hobserved.symm.trans hvalue))
      rcases hbeats with ⟨-, hlt, -⟩ | ⟨-, hlt, -⟩
      · exact lt_irrefl _ hlt
      · exact lt_irrefl _ hlt
    · obtain ⟨ev, hev, hdecision⟩ := hscales.2
        ⟨hwithin, 0, observedValue_of_empty hempty hcost, hmeets, zero_scales hfactor hne hmeets⟩
      exact (hsound ev hev hdecision).2 hempty
  · intro hsupported ev hev hdecision
    obtain ⟨hwithin, value, hobserved, hmeets, hmargin⟩ := hscales.1 ⟨ev, hev, hdecision⟩
    have hnot : ¬ Unsupported metric e := hsupported.resolve_left (by simp [hwithin])
    refine ⟨⟨value, hobserved, ?_⟩, fun hempty => ?_⟩
    · rcases beats_or_reaches hfactor hmeets hmargin with hbeats | ⟨hcomparator, htarget, rfl⟩
      · exact hbeats
      · exact absurd (.inl ⟨hcomparator, htarget, hobserved⟩) hnot
    · -- Without an observation only a cost metric has a value, and it is zero.
      obtain ⟨hcost, rfl⟩ := cost_of_empty hempty hobserved
      refine hnot (.inr ⟨hempty, hcost, fun heq => ?_, hmeets⟩)
      rw [heq, hasMargin_eq] at hmargin
      cases hmargin

end Sound

end Verdict

end Metric

/-! ## Two verdicts on nothing -/

/-- Numbers as fractions, strings in single quotes. -/
def fractions : Rendering ℚ where
  str x := toString x
  repr s := "'" ++ s ++ "'"

/-- The experiment may cost ten dollars. -/
def cheapMetric : SuccessMetric ℚ := { name := "cost_usd", target := 10, comparator := "<=" }

/-- The experiment may lose no user. -/
def growthMetric : SuccessMetric ℚ := { name := "net_users", target := 0 }

/-- An experiment nothing was spent on and nothing observed of is scaled as a cheap one, and so is
one whose growth of zero only meets its target. -/
theorem scaled_without_evidence_or_margin :
    ¬ ScaledSound fractions cheapMetric ⟨[], []⟩ none none (5 / 4) ∧
      ¬ ScaledSound fractions growthMetric ⟨[], [0]⟩ none none (5 / 4) := by
  constructor
  · intro h
    obtain ⟨ev, hev, hdecision⟩ := (evaluateExperiment_scaled_iff fractions cheapMetric ⟨[], []⟩
      none none (by norm_num : (1 : ℚ) ≤ 5 / 4)).2 ⟨rfl, 0, rfl, .le (by decide), by decide +kernel⟩
    exact (h ev hev hdecision).2 ⟨rfl, rfl⟩
  · intro h
    obtain ⟨ev, hev, hdecision⟩ := (evaluateExperiment_scaled_iff fractions growthMetric ⟨[], [0]⟩
      none none (by norm_num : (1 : ℚ) ≤ 5 / 4)).2 ⟨rfl, 0, rfl, .ge (by decide), by decide +kernel⟩
    obtain ⟨⟨value, hvalue, hbeats⟩, -⟩ := h ev hev hdecision
    obtain rfl : (0 : ℚ) = value := Option.some.inj (Except.ok.inj hvalue)
    rcases hbeats with ⟨-, hlt, -⟩ | ⟨-, hlt, -⟩
    · exact lt_irrefl _ hlt
    · exact lt_irrefl _ hlt

/-- A spend of eight dollars of ten. -/
theorem cheapMetric_sound :
    ScaledSound fractions cheapMetric ⟨[(1200, 3), (500, 5)], []⟩ (some 4000) none (5 / 4) := by
  refine (scaled_sound_iff (by norm_num)).2 (.inr ?_)
  rintro (⟨-, htarget, -⟩ | ⟨⟨-, hspend⟩, -⟩)
  · exact absurd htarget (by decide)
  · exact absurd hspend (by decide)

end AiStudio.Runtime
