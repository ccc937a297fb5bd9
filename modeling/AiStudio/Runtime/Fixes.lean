import AiStudio.Data.Pieces
import AiStudio.Data.Traverse
import AiStudio.Runtime.Experiments
import AiStudio.Runtime.Failures
import Mathlib.Data.List.ReduceOption

/-!
# Fix experiments

Embeds the detector of `runtime/roles/failure_analyst.py`, the metric it registers a fix experiment
under, and `observe_and_evaluate_fix`, which reads the rate of the pattern back from the failure
report of a later window, records it and has the experiment evaluated.

- `patternRateFromReport_metric`: the metric's name is read back as the pattern it was made of.
- `evaluateExperiment_last`: the verdict of an experiment whose last observation is to be at most
  its target.
-/

set_option autoImplicit false

namespace AiStudio.Runtime.Fixes

open AiStudio.Data AiStudio.Data.Wilson AiStudio.Runtime

variable {K : Type} [Field K] [LinearOrder K]

/-! ## Patterns -/

/-- `KIND_MODEL_CALL_ERROR`. -/
def kindModelCallError : String := "model_call_error"

/-- `KIND_TASK_STALL`. -/
def kindTaskStall : String := "task_stall"

/-- `METRIC_PREFIX`. -/
def metricPrefix : String := "failure_rate"

/-- `MAX_PATTERNS`. -/
def maxPatterns : Nat := 4

/-- `FailurePattern`. -/
structure FailurePattern (K : Type) where
  patternId : String
  kind : String
  key : String
  rate : K
  successes : Nat
  n : Nat
  ci95 : K × K
  threshold : K
  minSample : Int

/-- `_fires`. -/
def fires (share : RateCi K) (threshold : K) (minSample : Int) : Bool :=
  minSample ≤ share.n && share.ci95.any fun ci => threshold < ci.1

/-- The pattern of an entry of a breakdown, if it has a key and fires. -/
def patternOf (kind : String) (threshold : K) (minSample : Int) (entry : Share K) :
    Except Exn (Option (FailurePattern K)) :=
  match entry.value with
  | none => .ok none
  | some key =>
      if key = "" || !fires entry.share threshold minSample then .ok none
      else
        match entry.share.rate, entry.share.ci95 with
        | some rate, some ci95 =>
            .ok (some {
              patternId := kind ++ ":" ++ key
              kind
              key
              rate
              successes := entry.share.successes
              n := entry.share.n
              ci95
              threshold
              minSample })
        | _, _ => .error (.runtimeError "TypeError")

/-- The order of the patterns: the stronger evidence first. -/
def stronger (p q : FailurePattern K) : Bool :=
  q.ci95.1 < p.ci95.1 || q.ci95.1 = p.ci95.1 && q.rate ≤ p.rate

/-- `detect_patterns`. -/
def detectPatterns (report : FailureReport K) (threshold : K) (minSample : Int) :
    Except Exn (List (FailurePattern K)) := do
  let errors ← report.byErrorType.mapM (patternOf kindModelCallError threshold minSample)
  let stalls ← report.byStallReason.mapM (patternOf kindTaskStall threshold minSample)
  return ((errors ++ stalls).reduceOption.mergeSort stronger).take maxPatterns

/-! ## The metric -/

/-- `metric_name_for`. -/
def metricNameFor (patternId : String) : String := metricPrefix ++ ":" ++ patternId

/-- The count of a value in a breakdown. -/
def countOf (entries : List (Share K)) (key : String) : Nat :=
  ((entries.filter fun entry => entry.value = some key).map Share.count).sum

/-- `pattern_rate_from_report`. -/
def patternRateFromReport (a : Arithmetic K) (r : Rendering K) (report : FailureReport K)
    (metricName : String) : Except Exn (Option K) :=
  let (marker, patternId) := partition ':' metricName
  if marker ≠ metricPrefix || patternId = "" then
    .error (.valueError ("not a failure-fix metric: " ++ r.repr metricName))
  else
    let (kind, key) := partition ':' patternId
    if kind = kindModelCallError then
      .ok (ratio a (countOf report.byErrorType key) report.modelCallsTotal)
    else if kind = kindTaskStall then
      .ok (ratio a (countOf report.byStallReason key) report.tasksTerminal)
    else
      .error (.valueError ("unknown pattern kind " ++ r.repr kind ++ " in metric " ++
        r.repr metricName))

/-- The success metric `run_failure_analysis` registers for a pattern. -/
def fixMetric (pattern : FailurePattern K) (target : K) : SuccessMetric K where
  name := metricNameFor pattern.patternId
  target := target
  comparator := "<="
  aggregate := "last"

/-- `observe_and_evaluate_fix`, of a running experiment: what it has of evidence, its budgets, and
the log. -/
def observeAndEvaluateFix (a : Arithmetic K) (r : Rendering K) (metric : SuccessMetric K)
    (evidence : Evidence K) (budgetTokens : Option Int) (budgetUsd : Option K) (log : List LogRow)
    (workstream : String) (sinceSeq : Option Int) : Except Exn (Evaluation K) := do
  let report ← failureReport a log (some workstream) sinceSeq 0
  let rate ← patternRateFromReport a r report metric.name
  evaluateExperiment r metric
    { evidence with observations := evidence.observations ++ rate.toList } budgetTokens budgetUsd

/-! ## The law -/

/-- The events of a pattern in a window. -/
def patternEvents (rows : List LogRow) (pattern : FailurePattern K) : Nat :=
  if pattern.kind = kindModelCallError then
    countField rows "model.call.failed" "error_type" (some pattern.key)
  else countField rows "task.stuck" "stall_reason" (some pattern.key)

/-- The events they are a proportion of: all model calls, or the tasks that reached their end. -/
def denominatorEvents (rows : List LogRow) (pattern : FailurePattern K) : Nat :=
  if pattern.kind = kindModelCallError then
    countType rows "model.call" + countType rows "model.call.failed"
  else terminal rows

/-- The exact proportion. -/
def proportion (rows : List LogRow) (pattern : FailurePattern K) : K :=
  (patternEvents rows pattern : K) / denominatorEvents rows pattern

/-- The fix worked: there are denominator events, and the proportion is at most the target. -/
def Effective (rows : List LogRow) (pattern : FailurePattern K) (target : K) : Prop :=
  0 < denominatorEvents rows pattern ∧ proportion rows pattern ≤ target

/-- The experiment ends kept or scaled when the fix worked, and killed otherwise. -/
def VerdictLaw (rows : List LogRow) (pattern : FailurePattern K) (target : K)
    (outcome : Except Exn (Evaluation K)) : Prop :=
  ∃ evaluation, outcome = .ok evaluation ∧
    (Effective rows pattern target →
      evaluation.decision = .kept ∨ evaluation.decision = .scaled) ∧
    (¬Effective rows pattern target → evaluation.decision = .killed)

/-- The target lies between the two, at the lower one or above it. -/
def Separates (target x y : K) : Prop := min x y ≤ target ∧ target < max x y

/-- The report of the window is there; if it has no denominator event, no earlier observation is
the last one and at most the target; and otherwise the target does not lie between the proportion
and its rounding. -/
structure Factual (a : Arithmetic K) (rows : List LogRow) (pattern : FailurePattern K) (target : K)
    (observations : List K) : Prop where
  covered : Covered rows
  silent : denominatorEvents rows pattern = 0 → ∀ last ∈ observations.getLast?, target < last
  rounded : denominatorEvents rows pattern ≠ 0 →
    ¬Separates target (proportion rows pattern) (a.round (proportion rows pattern))

/-! ## Reading the metric back -/

section Report

variable {a : Arithmetic K} {r : Rendering K} {rows : List LogRow} {report : FailureReport K}
  {workstream : Option String} {sinceSeq : Option Int} {lookback : Int}

/-- The breakdown of groups has their counts under their values. -/
theorem countOf_shares {n : Nat} {groups : List (Option String × Nat)} {entries : List (Share K)}
    (h : shares a n groups = .ok entries) (key : String) :
    countOf entries key = ((groups.filter fun g => g.1 = some key).map Prod.snd).sum := by
  have hall := mapM_eq_ok_iff.1 h
  clear h
  induction hall with
  | nil => rfl
  | @cons g entry groups entries hentry _ ih =>
      have heq : entry.value = g.1 ∧ entry.count = g.2 := by
        cases hshare : rateCi a g.2 n with
        | error e =>
            rw [hshare] at hentry
            cases hentry
        | ok share =>
            rw [hshare] at hentry
            obtain rfl := Except.ok.inj hentry
            exact ⟨rfl, rfl⟩
      unfold countOf at ih ⊢
      by_cases hkey : g.1 = some key
      · rw [List.filter_cons_of_pos (by simp [heq.1, hkey]),
          List.filter_cons_of_pos (by simp [hkey]), List.map_cons, List.map_cons, List.sum_cons,
          List.sum_cons, ih, heq.2]
      · rw [List.filter_cons_of_neg (by simp [heq.1, hkey]),
          List.filter_cons_of_neg (by simp [hkey]), ih]

omit [Field K] [LinearOrder K] in
/-- One element of a list without its repetitions is summed once. -/
theorem sum_map_filter_dedup {α : Type} [DecidableEq α] {l : List α} {x : α} {p : α → Bool}
    (hp : ∀ y, p y = true ↔ y = x) (f : α → Nat) :
    ((l.dedup.filter p).map f).sum = if x ∈ l then f x else 0 := by
  have hfilter : l.dedup.filter p = l.dedup.filter (· = x) :=
    List.filter_congr fun y _ => by rw [Bool.eq_iff_iff, hp, decide_eq_true_eq]
  rw [hfilter, List.filter_eq, List.count_dedup]
  split_ifs
  · simp
  · rfl

omit [Field K] [LinearOrder K] in
/-- A value has one group, if it has any rows. -/
theorem sum_groupCounts_filter (type field key : String) :
    (((groupCounts rows type field).filter fun g => g.1 = some key).map Prod.snd).sum =
      countField rows type field (some key) := by
  have hgroup : ((groupCounts rows type field).filter fun g => g.1 = some key).Perm
      (((((rows.filter fun row => row.type = type).map fun row => row.field field).dedup.filter
        fun value => value = some key)).map fun value =>
          (value, countField rows type field value)) := by
    unfold groupCounts
    rw [show (fun value : Option String => decide (value = some key)) =
      (fun g : Option String × Nat => decide (g.1 = some key)) ∘
        (fun value => (value, countField rows type field value)) from rfl, ← List.filter_map]
    exact (List.mergeSort_perm _ groupLe).filter _
  rw [(hgroup.map Prod.snd).sum_eq, List.map_map,
    sum_map_filter_dedup (x := some key) (by simp)]
  split_ifs with hmem
  · rfl
  · refine (List.countP_eq_zero.2 fun row hrow => ?_).symm
    simp only [Bool.and_eq_true, decide_eq_true_eq, not_and]
    intro htype hvalue
    exact hmem (List.mem_map.2 ⟨row, List.mem_filter.2 ⟨hrow, by simpa using htype⟩, hvalue⟩)

/-- What the report holds of a window, when it is there. -/
theorem reportOn_eq_ok (h : reportOn a workstream sinceSeq lookback rows = .ok report) :
    report.modelCallsTotal = countType rows "model.call" + countType rows "model.call.failed" ∧
      report.tasksTerminal = terminal rows ∧
      rateCi a (countType rows "task.rekicked") (terminal rows) = .ok report.rekickRate ∧
      shares a (countType rows "model.call" + countType rows "model.call.failed")
        (groupCounts rows "model.call.failed" "error_type") = .ok report.byErrorType ∧
      shares a (terminal rows) (groupCounts rows "task.stuck" "stall_reason") =
        .ok report.byStallReason := by
  unfold reportOn at h
  cases hcalls : rateCi a (countType rows "model.call.failed")
      (countType rows "model.call" + countType rows "model.call.failed") with
  | error e =>
      simp only [hcalls] at h
      cases h
  | ok callRate =>
      cases hrekicks : rateCi a (countType rows "task.rekicked") (terminal rows) with
      | error e =>
          simp only [hcalls, hrekicks] at h
          cases h
      | ok rekickRate =>
          cases herror : rateCi a (countMoved rows "abandoned" + countType rows "verify.failed")
              (terminal rows + countType rows "verify.passed" +
                countType rows "verify.failed") with
          | error e =>
              simp only [hcalls, hrekicks, herror] at h
              cases h
          | ok errorRate =>
              cases herrors : shares a
                  (countType rows "model.call" + countType rows "model.call.failed")
                  (groupCounts rows "model.call.failed" "error_type") with
              | error e =>
                  simp only [hcalls, hrekicks, herror, herrors] at h
                  cases h
              | ok errors =>
                  cases hstalls : shares a (terminal rows)
                      (groupCounts rows "task.stuck" "stall_reason") with
                  | error e =>
                      simp only [hcalls, hrekicks, herror, herrors, hstalls] at h
                      cases h
                  | ok stalls =>
                      simp only [hcalls, hrekicks, herror, herrors, hstalls] at h
                      obtain rfl := Except.ok.inj h
                      exact ⟨rfl, rfl, rfl, rfl, rfl⟩

theorem covered_of_reportOn (h : reportOn a workstream sinceSeq lookback rows = .ok report) :
    Covered rows := by
  obtain ⟨-, -, hrekicks, -, hstalls⟩ := reportOn_eq_ok h
  refine covered_iff.2 ⟨?_, ?_⟩
  · rcases rateCi_cases a (countType rows "task.rekicked") (terminal rows) with
      ⟨hle, -⟩ | ⟨-, e, herror⟩
    · exact hle
    · rw [hrekicks] at herror
      cases herror
  · rcases shares_cases (a := a) (terminal rows)
        (groupCounts rows "task.stuck" "stall_reason") with ⟨hle, -⟩ | ⟨-, e, herror⟩
    · exact hle
    · rw [hstalls] at herror
      cases herror

/-- A pattern under its own name: its kind is one of the two, and it has a key. -/
structure Named (pattern : FailurePattern K) : Prop where
  patternId : pattern.patternId = pattern.kind ++ ":" ++ pattern.key
  kind : pattern.kind = kindModelCallError ∨ pattern.kind = kindTaskStall
  key : pattern.key ≠ ""

omit [Field K] [LinearOrder K] in
/-- The name of a metric is parted into its kind and its key, which may hold the separator too. -/
theorem partition_metricNameFor {pattern : FailurePattern K} (hp : Named pattern) :
    partition ':' (metricNameFor pattern.patternId) = (metricPrefix, pattern.patternId) ∧
      partition ':' pattern.patternId = (pattern.kind, pattern.key) := by
  constructor
  · rw [metricNameFor, String.append_assoc]
    refine partition_append ?_ (by decide)
    rw [String.toList_append]
    rfl
  · rw [hp.patternId, String.append_assoc]
    refine partition_append ?_ ?_
    · rw [String.toList_append]
      rfl
    · rcases hp.kind with hkind | hkind <;> rw [hkind] <;> decide

/-- **The metric reads its pattern back**, at the rate of the window. -/
theorem patternRateFromReport_metric {pattern : FailurePattern K} (hp : Named pattern)
    (h : reportOn a workstream sinceSeq lookback rows = .ok report) :
    patternRateFromReport a r report (metricNameFor pattern.patternId) =
      .ok (ratio a (patternEvents rows pattern) (denominatorEvents rows pattern)) := by
  obtain ⟨htotal, hterminal, -, herrors, hstalls⟩ := reportOn_eq_ok h
  obtain ⟨hname, hid⟩ := partition_metricNameFor hp
  have hne : pattern.patternId ≠ "" := by
    intro heq
    have hlength := congrArg (fun s : String => s.toList.length) (hp.patternId.symm.trans heq)
    simp [String.toList_append] at hlength
  have hmarker : (decide (metricPrefix ≠ metricPrefix) || decide (pattern.patternId = "")) =
      false := by
    simp [hne]
  simp only [patternRateFromReport, hname, hid, hmarker, Bool.false_eq_true, if_false]
  rcases hp.kind with hkind | hkind
  · rw [if_pos hkind, patternEvents, if_pos hkind, denominatorEvents, if_pos hkind,
      countOf_shares herrors, sum_groupCounts_filter, htotal]
  · have hother : ¬pattern.kind = kindModelCallError := by
      rw [hkind]
      decide
    rw [if_neg hother, if_pos hkind, patternEvents, if_neg hother, denominatorEvents,
      if_neg hother, countOf_shares hstalls, sum_groupCounts_filter, hterminal]

end Report

/-! ## The verdict -/

section Verdict

variable [IsStrictOrderedRing K] {r : Rendering K} {metric : SuccessMetric K} {e : Evidence K}
  {budgetTokens : Option Int} {budgetUsd : Option K}

theorem one_le_defaultScaleFactor : (1 : K) ≤ defaultScaleFactor := by
  rw [defaultScaleFactor, le_div_iff₀ (by norm_num)]
  norm_num

omit [Field K] [IsStrictOrderedRing K] in
theorem metricMeets_atMost (r : Rendering K) (value target : K) :
    metricMeets r value target "<=" = .ok (decide (value ≤ target)) := by
  simp [metricMeets, comparators, List.lookup_cons]

/-- Within the budget, a value is killed when it is above a target it is to be at most. -/
theorem decideOutcome_atMost (r : Rendering K) (value : K) {spentTokens : Int} {spentUsd : K}
    (hcomparator : metric.comparator = "<=")
    (hbudget : isOverBudget spentTokens spentUsd budgetTokens budgetUsd = false) :
    ∃ ev, decideOutcome r metric (some value) spentTokens spentUsd budgetTokens budgetUsd = .ok ev ∧
      (ev.decision = .killed ↔ metric.target < value) := by
  have hmeets := metricMeets_atMost r value metric.target
  have hstrong := isStronglyMet_eq (r := r) one_le_defaultScaleFactor hmeets
  rw [decideOutcome, hbudget, hcomparator]
  by_cases hle : value ≤ metric.target
  · rw [decide_eq_true hle, Bool.true_and] at hstrong
    cases hmargin : hasMargin value metric.target "<=" defaultScaleFactor with
    | true =>
        simp only [hmeets, hstrong, hmargin, hle]
        exact ⟨_, rfl, iff_of_false (fun h => by cases h) (not_lt.2 hle)⟩
    | false =>
        simp only [hmeets, hstrong, hmargin, hle]
        exact ⟨_, rfl, iff_of_false (fun h => by cases h) (not_lt.2 hle)⟩
  · simp only [hmeets, hle]
    exact ⟨_, rfl, iff_of_true rfl (not_le.1 hle)⟩

omit [IsStrictOrderedRing K] in
theorem observedValue_last (hname : costMetrics.lookup metric.name = none)
    (haggregate : metric.aggregate = "last") :
    e.observedValue metric = .ok e.observations.getLast? := by
  unfold Evidence.observedValue
  rw [hname]
  cases e.observations with
  | nil => rfl
  | cons x xs =>
      rw [haggregate, List.getLast?_eq_getLast_of_ne_nil (List.cons_ne_nil x xs)]
      rfl

/-- **The verdict on the last observation**: killed when there is none, or when it is above the
target. -/
theorem evaluateExperiment_last (r : Rendering K) (metric : SuccessMetric K) (e : Evidence K)
    (hname : costMetrics.lookup metric.name = none)
    (haggregate : metric.aggregate = "last") (hcomparator : metric.comparator = "<=")
    (hbudget : isOverBudget e.measureSpend.1 e.measureSpend.2 budgetTokens budgetUsd = false) :
    ∃ ev, evaluateExperiment r metric e budgetTokens budgetUsd = .ok ev ∧
      (ev.decision = .killed ↔ ∀ last ∈ e.observations.getLast?, metric.target < last) := by
  rw [evaluateExperiment, observedValue_last hname haggregate]
  cases hlast : e.observations.getLast? with
  | none =>
      obtain ⟨ev, hev, hkilled⟩ : ∃ ev, decideOutcome r metric none e.measureSpend.1
          e.measureSpend.2 budgetTokens budgetUsd = .ok ev ∧ ev.decision = .killed :=
        decideOutcome_killed r metric defaultScaleFactor (.inr rfl)
      exact ⟨ev, hev, iff_of_true hkilled fun last h => absurd h (by simp)⟩
  | some value =>
      obtain ⟨ev, hev, hkilled⟩ := decideOutcome_atMost r value hcomparator hbudget
      refine ⟨ev, hev, hkilled.trans ⟨fun h last hmem => ?_, fun h => h value rfl⟩⟩
      obtain rfl := Option.some.inj hmem
      exact h

end Verdict

/-! ## Fixes -/

section Fixes

variable [IsStrictOrderedRing K] {a : Arithmetic K} {r : Rendering K}
  {pattern : FailurePattern K} {target : K} {evidence : Evidence K} {budgetTokens : Option Int}
  {budgetUsd : Option K} {log : List LogRow} {workstream : String} {sinceSeq : Option Int}

omit [Field K] [LinearOrder K] [IsStrictOrderedRing K] in
/-- No metric of a pattern is a cost metric. -/
theorem costMetrics_metricNameFor (patternId : String) :
    costMetrics.lookup (metricNameFor patternId) = none := by
  have hhead : (metricNameFor patternId).toList.head? = some 'f' := by
    rw [metricNameFor, String.toList_append, String.toList_append]
    rfl
  refine List.lookup_eq_none_iff.2 fun entry hentry => ?_
  rw [bne_iff_ne]
  intro heq
  rw [heq] at hhead
  simp only [costMetrics, List.mem_cons, List.not_mem_nil, or_false] at hentry
  rcases hentry with rfl | rfl | rfl | rfl | rfl <;> cases hhead

omit [Field K] [IsStrictOrderedRing K] in
/-- A pattern that was detected is under its own name. -/
theorem named_of_patternOf {kind : String} {threshold : K} {minSample : Int} {entry : Share K}
    (hkind : kind = kindModelCallError ∨ kind = kindTaskStall)
    (h : patternOf kind threshold minSample entry = .ok (some pattern)) : Named pattern := by
  unfold patternOf at h
  cases hvalue : entry.value with
  | none =>
      rw [hvalue] at h
      cases h
  | some key =>
      simp only [hvalue] at h
      split_ifs at h with hskip
      · cases h
      rw [Bool.or_eq_true, not_or, decide_eq_true_eq] at hskip
      cases hrate : entry.share.rate with
      | none =>
          simp only [hrate] at h
          cases h
      | some rate =>
          cases hci : entry.share.ci95 with
          | none =>
              simp only [hrate, hci] at h
              cases h
          | some ci95 =>
              simp only [hrate, hci] at h
              obtain rfl := Option.some.inj (Except.ok.inj h)
              exact ⟨rfl, hkind, hskip.1⟩

omit [Field K] [IsStrictOrderedRing K] in
theorem named_of_detectPatterns {report : FailureReport K} {threshold : K} {minSample : Int}
    {patterns : List (FailurePattern K)}
    (h : detectPatterns report threshold minSample = .ok patterns) (hmem : pattern ∈ patterns) :
    Named pattern := by
  unfold detectPatterns at h
  cases herrors : report.byErrorType.mapM (patternOf kindModelCallError threshold minSample) with
  | error e =>
      rw [herrors] at h
      cases h
  | ok errors =>
      cases hstalls : report.byStallReason.mapM (patternOf kindTaskStall threshold minSample) with
      | error e =>
          rw [herrors, hstalls] at h
          cases h
      | ok stalls =>
          rw [herrors, hstalls] at h
          obtain rfl := Except.ok.inj h
          have hfound := List.reduceOption_mem_iff.1
            (List.mem_mergeSort.1 (List.mem_of_mem_take hmem))
          rcases List.mem_append.1 hfound with hfound | hfound
          · obtain ⟨entry, -, hentry⟩ := exists_mem_of_forall₂ (mapM_eq_ok_iff.1 herrors) hfound
            exact named_of_patternOf (.inl rfl) hentry
          · obtain ⟨entry, -, hentry⟩ := exists_mem_of_forall₂ (mapM_eq_ok_iff.1 hstalls) hfound
            exact named_of_patternOf (.inr rfl) hentry

omit [Field K] [IsStrictOrderedRing K] in
/-- Rounding changes the verdict exactly when the target lies between. -/
theorem not_separates_iff {x y : K} :
    ¬Separates target x y ↔ (target < y ↔ ¬x ≤ target) := by
  unfold Separates
  rw [min_le_iff, lt_max_iff, not_le]
  constructor
  · intro h
    constructor
    · intro hy
      by_contra hx
      exact h ⟨.inl (not_lt.1 hx), .inr hy⟩
    · intro hx
      by_contra hy
      exact h ⟨.inr (not_lt.1 hy), .inl hx⟩
  · rintro h ⟨hle, hlt⟩
    by_cases hx : target < x
    · have hy := h.2 hx
      rcases hle with hle | hle
      · exact absurd hx (not_lt.2 hle)
      · exact absurd hy (not_lt.2 hle)
    · exact hlt.elim hx fun hy => hx (h.1 hy)

omit [IsStrictOrderedRing K] in
/-- The verdict is a fact when it is to kill exactly the fix that did not work. -/
theorem verdictLaw_iff {rows : List LogRow} {ev : Evaluation K} :
    VerdictLaw rows pattern target (.ok ev) ↔
      (ev.decision = .killed ↔ ¬Effective rows pattern target) := by
  have hcases : (ev.decision = .kept ∨ ev.decision = .scaled) ↔ ¬ev.decision = .killed := by
    cases ev.decision <;> simp
  constructor
  · rintro ⟨evaluation, hok, hkeeps, hkills⟩
    obtain rfl := Except.ok.inj hok
    refine ⟨fun hkilled heffective => ?_, hkills⟩
    exact hcases.1 (hkeeps heffective) hkilled
  · intro h
    exact ⟨ev, rfl, fun heffective => hcases.2 fun hkilled => h.1 hkilled heffective, h.2⟩

/-- What comes of a covered window. -/
theorem observeAndEvaluateFix_covered (a : Arithmetic K) (r : Rendering K) (target : K)
    (hp : Named pattern)
    (hbudget : isOverBudget evidence.measureSpend.1 evidence.measureSpend.2 budgetTokens budgetUsd =
      false)
    (hcovered : Covered (window log (some workstream) sinceSeq 0)) :
    ∃ ev, observeAndEvaluateFix a r (fixMetric pattern target) evidence budgetTokens budgetUsd log
        workstream sinceSeq = .ok ev ∧
      (ev.decision = .killed ↔ ∀ last ∈ (evidence.observations ++
        (ratio a (patternEvents (window log (some workstream) sinceSeq 0) pattern)
          (denominatorEvents (window log (some workstream) sinceSeq 0) pattern)).toList).getLast?,
          target < last) := by
  obtain ⟨report, hreport, -⟩ :=
    (reportOn_iff (a := a) (some workstream) sinceSeq 0).2 hcovered
  have hrate := patternRateFromReport_metric (r := r) hp hreport
  obtain ⟨ev, hev, hkilled⟩ := evaluateExperiment_last r (fixMetric pattern target)
    { evidence with observations := evidence.observations ++
      (ratio a (patternEvents (window log (some workstream) sinceSeq 0) pattern)
        (denominatorEvents (window log (some workstream) sinceSeq 0) pattern)).toList }
    (costMetrics_metricNameFor pattern.patternId) rfl rfl hbudget
  refine ⟨ev, ?_, hkilled⟩
  have hname : (fixMetric pattern target).name = metricNameFor pattern.patternId := rfl
  simp only [observeAndEvaluateFix, failureReport, lt_irrefl, if_false, hreport, bind, Except.bind,
    hname, hrate]
  exact hev

/-- **A fix experiment's verdict is a fact** exactly when the report of the window is there, a
window without denominator events finds no earlier observation to go by, and the rounding of the
rate does not cross the target. -/
theorem observeAndEvaluateFix_factual {report : FailureReport K} {threshold : K} {minSample : Int}
    {patterns : List (FailurePattern K)}
    (hdetected : detectPatterns report threshold minSample = .ok patterns)
    (hpattern : pattern ∈ patterns)
    (hbudget : isOverBudget evidence.measureSpend.1 evidence.measureSpend.2 budgetTokens budgetUsd =
      false) :
    VerdictLaw (window log (some workstream) sinceSeq 0) pattern target
        (observeAndEvaluateFix a r (fixMetric pattern target) evidence budgetTokens budgetUsd log
          workstream sinceSeq) ↔
      Factual a (window log (some workstream) sinceSeq 0) pattern target evidence.observations := by
  have hp := named_of_detectPatterns hdetected hpattern
  by_cases hcovered : Covered (window log (some workstream) sinceSeq 0)
  · obtain ⟨ev, hev, hkilled⟩ := observeAndEvaluateFix_covered a r target
      hp hbudget hcovered
    rw [hev, verdictLaw_iff, hkilled]
    by_cases hnone : denominatorEvents (window log (some workstream) sinceSeq 0) pattern = 0
    · -- Nothing is recorded, and the last observation is an earlier one.
      have hineffective :
          ¬Effective (window log (some workstream) sinceSeq 0) pattern target := by
        rintro ⟨hpos, -⟩
        omega
      rw [ratio, if_pos hnone, Option.toList_none, List.append_nil]
      constructor
      · intro h
        exact ⟨hcovered, fun _ => h.2 hineffective, fun hne => absurd hnone hne⟩
      · intro h
        exact ⟨fun _ => hineffective, fun _ => h.silent hnone⟩
    · have heffective : Effective (window log (some workstream) sinceSeq 0) pattern target ↔
          proportion (window log (some workstream) sinceSeq 0) pattern ≤ target :=
        ⟨fun h => h.2, fun h => ⟨Nat.pos_of_ne_zero hnone, h⟩⟩
      rw [ratio, if_neg hnone, Option.toList_some, List.getLast?_concat, heffective]
      have hlast : (∀ last ∈ some (a.round
            ((patternEvents (window log (some workstream) sinceSeq 0) pattern : K) /
              denominatorEvents (window log (some workstream) sinceSeq 0) pattern)),
          target < last) ↔
            target < a.round (proportion (window log (some workstream) sinceSeq 0) pattern) :=
        ⟨fun h => h _ rfl, fun h last hmem => Option.some.inj hmem ▸ h⟩
      rw [hlast, ← not_separates_iff]
      constructor
      · intro h
        exact ⟨hcovered, fun hzero => absurd hzero hnone, fun _ => h⟩
      · intro h
        exact h.rounded hnone
  · refine iff_of_false ?_ fun h => hcovered h.covered
    rintro ⟨ev, hev, -⟩
    unfold observeAndEvaluateFix failureReport at hev
    cases hreport : reportOn a (some workstream) sinceSeq 0
        (window log (some workstream) sinceSeq 0) with
    | error e =>
        simp only [lt_irrefl, if_false, hreport, bind, Except.bind] at hev
        cases hev
    | ok report => exact hcovered (covered_of_reportOn hreport)

end Fixes

/-! ## Rate limits -/

/-- Half of sixty calls. -/
noncomputable def halfShare : RateCi ℝ :=
  ⟨some (1 / 2 : ℚ), 30, 60, some ((3774 / 10000 : ℚ), (6226 / 10000 : ℚ)), false⟩

/-- Half of sixty calls hit a rate limit. -/
noncomputable def rateLimitReport : FailureReport ℝ where
  workstream := some "productivity"
  sinceSeq := none
  lookback := 0
  modelCallsOk := 30
  modelCallsFailed := 30
  modelCallsTotal := 60
  rekicks := 0
  stucks := 0
  tasksTerminal := 0
  verifyPassed := 0
  verifyFailed := 0
  modelCallErrorRate := halfShare
  rekickRate := ⟨none, 0, 0, none, true⟩
  errorRate := ⟨none, 0, 0, none, true⟩
  byErrorType := [⟨some "RateLimitError", 30, halfShare⟩]
  byStallReason := []

/-- The pattern of the rate limit. -/
noncomputable def rateLimited : FailurePattern ℝ where
  patternId := "model_call_error:RateLimitError"
  kind := "model_call_error"
  key := "RateLimitError"
  rate := (1 / 2 : ℚ)
  successes := 30
  n := 60
  ci95 := ((3774 / 10000 : ℚ), (6226 / 10000 : ℚ))
  threshold := (1 / 5 : ℚ)
  minSample := 30

theorem rateLimited_detected :
    detectPatterns rateLimitReport (1 / 5) 30 = .ok [rateLimited] := by
  have hfifth : (1 / 5 : ℝ) = (1 / 5 : ℚ) := by norm_num
  have hfires : fires halfShare (1 / 5) 30 = true := by
    simp only [fires, halfShare, Option.any_some, Bool.and_eq_true, decide_eq_true_eq]
    constructor <;> norm_num
  have hpattern : patternOf kindModelCallError (1 / 5 : ℝ) 30 ⟨some "RateLimitError", 30, halfShare⟩ =
      .ok (some rateLimited) := by
    simp only [patternOf, hfires]
    rw [hfifth]
    rfl
  rw [detectPatterns, rateLimitReport, List.mapM_cons, hpattern, List.mapM_nil, List.mapM_nil]
  change Except.ok (([rateLimited].mergeSort stronger).take maxPatterns) = _
  rw [List.mergeSort_singleton]
  rfl

/-- A call that goes through, and one that hits the rate limit. -/
def servedRow (seq : Int) : LogRow := ⟨seq, "productivity", "model.call", fun _ => none⟩

def limitedRow (seq : Int) : LogRow :=
  ⟨seq, "productivity", "model.call.failed", fun key =>
    if key = "error_type" then some "RateLimitError" else none⟩

/-- Messages without values. -/
def silent : Rendering ℝ := ⟨fun _ => "", id⟩

/-- Of four calls after the fix one hits the limit, which is less than three in ten. -/
theorem rateLimited_factual :
    VerdictLaw (window [limitedRow 7, servedRow 11, servedRow 12, limitedRow 13, servedRow 14]
        (some "productivity") (some 10) 0) rateLimited (3 / 10)
      (observeAndEvaluateFix fourPlaces silent (fixMetric rateLimited (3 / 10)) ⟨[], [1 / 2]⟩ none
        none [limitedRow 7, servedRow 11, servedRow 12, limitedRow 13, servedRow 14]
          "productivity" (some 10)) := by
  have hevents : patternEvents (window [limitedRow 7, servedRow 11, servedRow 12, limitedRow 13,
      servedRow 14] (some "productivity") (some 10) 0) rateLimited = 1 := by decide
  have hdenominator : denominatorEvents (window [limitedRow 7, servedRow 11, servedRow 12,
      limitedRow 13, servedRow 14] (some "productivity") (some 10) 0) rateLimited = 4 := by decide
  have hproportion : proportion (window [limitedRow 7, servedRow 11, servedRow 12, limitedRow 13,
      servedRow 14] (some "productivity") (some 10) 0) rateLimited = 1 / 4 := by
    rw [proportion, hevents, hdenominator]
    norm_num
  have hround : fourPlaces.round (1 / 4) = 1 / 4 := by
    have hscaled : (1 / 4 : ℝ) * 10000 = ((2500 : ℤ) : ℝ) := by norm_num
    simp only [fourPlaces, hscaled, round_intCast]
    norm_num
  refine (observeAndEvaluateFix_factual rateLimited_detected List.mem_cons_self ?_).2
    ⟨.inl (by decide), fun hzero => ?_, fun _ => ?_⟩
  · simp [isOverBudget]
  · rw [hdenominator] at hzero
    cases hzero
  · rw [hproportion, hround]
    rintro ⟨hle, hlt⟩
    rw [max_self] at hlt
    norm_num at hlt

/-- No call was made after the fix, and the experiment is not killed: an earlier observation
decides. -/
theorem silence_not_killed :
    ¬∀ patterns, detectPatterns rateLimitReport (1 / 5) 30 = .ok patterns →
      ∀ pattern ∈ patterns, VerdictLaw (window [] (some "productivity") (some 10) 0) pattern (1 / 5)
        (observeAndEvaluateFix fourPlaces silent (fixMetric pattern (1 / 5)) ⟨[], [1 / 10]⟩ none none
          [] "productivity" (some 10)) := by
  intro h
  have hlaw := h _ rateLimited_detected rateLimited List.mem_cons_self
  have hcovered : Covered (window [] (some "productivity") (some 10) 0) := .inl rfl
  have hbudget : isOverBudget (⟨[], [1 / 10]⟩ : Evidence ℝ).measureSpend.1
      (⟨[], [1 / 10]⟩ : Evidence ℝ).measureSpend.2 none none = false := by simp [isOverBudget]
  obtain ⟨ev, hev, hkilled⟩ := observeAndEvaluateFix_covered fourPlaces silent (1 / 5)
    (named_of_detectPatterns rateLimited_detected List.mem_cons_self) hbudget hcovered
  rw [hev, verdictLaw_iff, hkilled] at hlaw
  have hlast := hlaw.2 (fun heffective => absurd heffective.1 (by decide)) (1 / 10) (by rfl)
  norm_num at hlast

end AiStudio.Runtime.Fixes
