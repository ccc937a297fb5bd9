import AiStudio.Data.Wilson
import AiStudio.Gateway.Requests

/-!
# The failure report

Embeds `wilson_interval`, `_rate_ci` and `failure_report` of `runtime/quality.py` over the rows of
the event log. The interval of a rate is defined for as many successes as trials at most, and the
report takes two rates of counts that no trial bounds: re-kicks, and stuck tasks of one reason,
each per task that reached its end in the window. The report is there, and honest, exactly when
those counts stay below the number of such tasks, or there is no such task
(`failure_report_honest_iff`).

The arithmetic is that of an ordered field: the rounding errors of floats are not modelled.
-/

set_option autoImplicit false

namespace AiStudio.Runtime

open AiStudio.Data AiStudio.Data.Wilson AiStudio.Concurrency AiStudio.Gateway

/-! ## Rates -/

variable {K : Type} [Field K] [LinearOrder K]

/-- `_ratio`. -/
def ratio (a : Arithmetic K) (num den : Nat) : Option K :=
  if den = 0 then none else some (a.round (num / den))

/-- The confidence level of `wilson_interval`, for 95%. -/
def confidence : K := 196 / 100

/-- `wilson_interval`. -/
def wilsonInterval (a : Arithmetic K) (successes n : Nat) : Except Exn (Option (K × K)) :=
  if n = 0 then .ok none
  else if n < successes then
    .error (.valueError ("successes=" ++ toString successes ++ " out of range for n=" ++ toString n))
  else .ok (some (lower a confidence (successes / n) n, upper a confidence (successes / n) n))

/-- A rate with its sample size and its interval. -/
structure RateCi (K : Type) where
  rate : Option K
  successes : Nat
  n : Nat
  ci95 : Option (K × K)
  insufficientSample : Bool

/-- `MIN_TRUSTWORTHY_SAMPLE`. -/
def minTrustworthySample : Nat := 30

/-- `_rate_ci`. -/
def rateCi (a : Arithmetic K) (successes n : Nat) : Except Exn (RateCi K) := do
  let ci95 ← wilsonInterval a successes n
  return { rate := ratio a successes n, successes := successes, n := n, ci95 := ci95
           insufficientSample := n < minTrustworthySample }

/-- A rate that is there lies in the unit interval, and within its own. -/
def RateCi.Honest (r : RateCi K) : Prop :=
  ∀ rate, r.rate = some rate → 0 ≤ rate ∧ rate ≤ 1 ∧
    ∃ lower upper, r.ci95 = some (lower, upper) ∧ 0 ≤ lower ∧ lower ≤ rate ∧ rate ≤ upper ∧
      upper ≤ 1

/-- **`_rate_ci` refuses more successes than trials**, and no other numbers. -/
theorem rateCi_cases (a : Arithmetic K) (successes n : Nat) :
    (n = 0 ∨ successes ≤ n) ∧ (∃ r, rateCi a successes n = .ok r) ∨
      ¬ (n = 0 ∨ successes ≤ n) ∧ ∃ e, rateCi a successes n = .error e := by
  unfold rateCi wilsonInterval
  by_cases hn : n = 0
  · rw [if_pos hn]
    exact .inl ⟨.inl hn, _, rfl⟩
  · rw [if_neg hn]
    by_cases hlt : n < successes
    · rw [if_pos hlt]
      exact .inr ⟨by omega, _, rfl⟩
    · rw [if_neg hlt]
      exact .inl ⟨.inr (by omega), _, rfl⟩

/-- **A rate that `_rate_ci` gives is honest.** -/
theorem honest_of_rateCi [IsStrictOrderedRing K] {a : Arithmetic K} {successes n : Nat}
    {r : RateCi K} (h : rateCi a successes n = .ok r) : r.Honest := by
  unfold rateCi wilsonInterval at h
  by_cases hn : n = 0
  · rw [if_pos hn] at h
    obtain rfl := Except.ok.inj h
    intro rate hrate
    simp [ratio, hn] at hrate
  · rw [if_neg hn] at h
    by_cases hlt : n < successes
    · rw [if_pos hlt] at h
      cases h
    · rw [if_neg hlt] at h
      obtain rfl := Except.ok.inj h
      have hpos : (0 : K) < n := by exact_mod_cast Nat.pos_of_ne_zero hn
      have hle : (successes : K) ≤ n := by exact_mod_cast Nat.le_of_not_lt hlt
      have hp : (0 : K) ≤ successes / n := by positivity
      have hp' : (successes : K) / n ≤ 1 := (div_le_one hpos).2 hle
      have hz : (0 : K) ≤ confidence := by
        unfold confidence
        positivity
      intro rate hrate
      simp only [ratio, if_neg hn, Option.some.injEq] at hrate
      subst hrate
      obtain ⟨hlow, hlow'⟩ := lower_le (a := a) hpos hz hp hp'
      obtain ⟨hhigh, hhigh'⟩ := le_upper (a := a) hpos hz hp hp'
      exact ⟨hlow.trans hlow', hhigh.trans hhigh', _, _, rfl, hlow, hlow', hhigh, hhigh'⟩

/-! ## The rows of the log -/

/-- A row of `events` as a query sees it; `field` is `payload->>key`. -/
structure LogRow where
  seq : Int
  workstream : String
  type : String
  field : String → Option String

/-- The wire string of a status. -/
def TaskStatus.value : TaskStatus → String
  | upForGrabs => "up_for_grabs"
  | claimed => "claimed"
  | inProgress => "in_progress"
  | blocked => "blocked"
  | readyForReview => "ready_for_review"
  | reviewerBlocked => "reviewer_blocked"
  | approved => "approved"
  | merged => "merged"
  | abandoned => "abandoned"

/-- The fields of a payload that the report reads. -/
def payloadField : Payload → String → Option String
  | .taskTransition _ _ target .., "to" => some target.value
  | .taskStuck _ stallReason .., "stall_reason" => some stallReason
  | .sink (.modelCallFailed errorType ..), "error_type" => some errorType
  | _, _ => none

/-- The row of an event. -/
def logRow (seq : Nat) (e : Event) : LogRow where
  seq := seq
  workstream := e.workstream.name
  type := eventType e.payload
  field := payloadField e.payload

/-- The log of a database; the first row has the number one. -/
def Store.log (s : Store) : List LogRow := s.events.mapIdx fun i e => logRow (i + 1) e

/-- The lower end of the window: the cursor, less the overlap. -/
def windowFloor (sinceSeq : Option Int) (lookback : Int) : Option Int :=
  sinceSeq.map fun since => max 0 (since - lookback)

/-- The rows of a workstream in the window, `none` for all of them. -/
def window (log : List LogRow) (workstream : Option String) (sinceSeq : Option Int)
    (lookback : Int) : List LogRow :=
  log.filter fun row => workstream.all (row.workstream = ·) &&
    (windowFloor sinceSeq lookback).all (· < row.seq)

/-- `count(*) FILTER (WHERE type = ...)`. -/
def countType (rows : List LogRow) (type : String) : Nat := rows.countP fun row => row.type = type

/-- The transitions to a status. -/
def countMoved (rows : List LogRow) (status : String) : Nat :=
  rows.countP fun row => row.type = "task.transition" && row.field "to" = some status

/-- The tasks that reached their end. -/
def terminal (rows : List LogRow) : Nat := countMoved rows "merged" + countMoved rows "abandoned"

/-- The rows of a type with this value of a field. -/
def countField (rows : List LogRow) (type key : String) (value : Option String) : Nat :=
  rows.countP fun row => row.type = type && row.field key = value

/-- The order of the groups: the larger first, then by value, NULL last. -/
def groupLe (x y : Option String × Nat) : Bool :=
  y.2 < x.2 || x.2 = y.2 &&
    match x.1, y.1 with
    | some value, some value' => value ≤ value'
    | some _, none => true
    | none, some _ => false
    | none, none => true

/-- `GROUP BY payload->>key` over the rows of a type, with the size of each group. -/
def groupCounts (rows : List LogRow) (type key : String) : List (Option String × Nat) :=
  ((((rows.filter fun row => row.type = type).map fun row => row.field key).dedup).map fun value =>
    (value, countField rows type key value)).mergeSort groupLe

/-! ## The report -/

/-- An entry of a breakdown. -/
structure Share (K : Type) where
  value : Option String
  count : Nat
  share : RateCi K

/-- `failure_report`, as it is returned. -/
structure FailureReport (K : Type) where
  workstream : Option String
  sinceSeq : Option Int
  lookback : Int
  modelCallsOk : Nat
  modelCallsFailed : Nat
  modelCallsTotal : Nat
  rekicks : Nat
  stucks : Nat
  tasksTerminal : Nat
  verifyPassed : Nat
  verifyFailed : Nat
  modelCallErrorRate : RateCi K
  rekickRate : RateCi K
  errorRate : RateCi K
  byErrorType : List (Share K)
  byStallReason : List (Share K)

/-- The shares of the groups, each of `n`. -/
def shares (a : Arithmetic K) (n : Nat) (groups : List (Option String × Nat)) :
    Except Exn (List (Share K)) :=
  groups.mapM fun group => do
    let share ← rateCi a group.2 n
    return { value := group.1, count := group.2, share := share }

/-- The report on the rows of a window. -/
def reportOn (a : Arithmetic K) (workstream : Option String) (sinceSeq : Option Int)
    (lookback : Int) (rows : List LogRow) : Except Exn (FailureReport K) := do
  let ok := countType rows "model.call"
  let failed := countType rows "model.call.failed"
  let rekicks := countType rows "task.rekicked"
  let abandoned := countMoved rows "abandoned"
  let passed := countType rows "verify.passed"
  let notPassed := countType rows "verify.failed"
  let modelCallErrorRate ← rateCi a failed (ok + failed)
  let rekickRate ← rateCi a rekicks (terminal rows)
  let errorRate ← rateCi a (abandoned + notPassed) (terminal rows + passed + notPassed)
  let byErrorType ← shares a (ok + failed) (groupCounts rows "model.call.failed" "error_type")
  let byStallReason ← shares a (terminal rows) (groupCounts rows "task.stuck" "stall_reason")
  return { workstream := workstream, sinceSeq := sinceSeq, lookback := lookback
           modelCallsOk := ok, modelCallsFailed := failed, modelCallsTotal := ok + failed
           rekicks := rekicks, stucks := countType rows "task.stuck"
           tasksTerminal := terminal rows, verifyPassed := passed, verifyFailed := notPassed
           modelCallErrorRate := modelCallErrorRate, rekickRate := rekickRate
           errorRate := errorRate, byErrorType := byErrorType, byStallReason := byStallReason }

/-- `failure_report`. -/
def failureReport (a : Arithmetic K) (log : List LogRow) (workstream : Option String)
    (sinceSeq : Option Int) (lookback : Int) : Except Exn (FailureReport K) :=
  if lookback < 0 then
    .error (.valueError ("lookback must be >= 0, got " ++ toString lookback))
  else reportOn a workstream sinceSeq lookback (window log workstream sinceSeq lookback)

/-- The report is honest: its rates are, and the groups make up what they break down. -/
structure FailureReport.Honest (report : FailureReport K) : Prop where
  rates : ∀ r ∈ [report.modelCallErrorRate, report.rekickRate, report.errorRate], r.Honest
  shares : ∀ entry ∈ report.byErrorType ++ report.byStallReason, entry.share.Honest
  byErrorType : (report.byErrorType.map Share.count).sum = report.modelCallsFailed
  byStallReason : (report.byStallReason.map Share.count).sum = report.stucks

/-! ## When the report is there -/

variable {a : Arithmetic K}

/-- **The shares of groups** are there when no group has more members than there are trials. -/
theorem shares_cases (n : Nat) (groups : List (Option String × Nat)) :
    (∀ g ∈ groups, n = 0 ∨ g.2 ≤ n) ∧ (∃ entries, shares a n groups = .ok entries ∧
        entries.map Share.count = groups.map Prod.snd ∧
        ∀ entry ∈ entries, rateCi a entry.count n = .ok entry.share) ∨
      ¬ (∀ g ∈ groups, n = 0 ∨ g.2 ≤ n) ∧ ∃ e, shares a n groups = .error e := by
  induction groups with
  | nil => exact .inl ⟨List.forall_mem_nil _, [], rfl, rfl, List.forall_mem_nil _⟩
  | cons g groups ih =>
      unfold shares at ih ⊢
      rw [List.mapM_cons, List.forall_mem_cons]
      rcases rateCi_cases a g.2 n with ⟨hg, r, hr⟩ | ⟨hg, e, hr⟩
      · rcases ih with ⟨hall, entries, hentries, hcounts, hrates⟩ | ⟨hall, e, hentries⟩
        · refine .inl ⟨⟨hg, hall⟩, ⟨g.1, g.2, r⟩ :: entries, ?_, ?_, ?_⟩
          · rw [hr, hentries]
            rfl
          · rw [List.map_cons, List.map_cons, hcounts]
          · exact List.forall_mem_cons.2 ⟨hr, hrates⟩
        · refine .inr ⟨fun h => hall h.2, e, ?_⟩
          rw [hr, hentries]
          rfl
      · refine .inr ⟨fun h => hg h.1, e, ?_⟩
        rw [hr]
        rfl

variable {rows : List LogRow}

/-- The groups of a breakdown are the values of the field, each with its count. -/
theorem mem_groupCounts {type key : String} {g : Option String × Nat}
    (h : g ∈ groupCounts rows type key) : g.2 = countField rows type key g.1 := by
  rw [groupCounts, List.mem_mergeSort] at h
  obtain ⟨value, -, rfl⟩ := List.mem_map.1 h
  rfl

/-- A value that rows of the type have is a group. -/
theorem exists_group {type key : String} {value : Option String}
    (h : 0 < countField rows type key value) :
    (value, countField rows type key value) ∈ groupCounts rows type key := by
  obtain ⟨row, hrow, hvalue⟩ := List.countP_pos_iff.1 h
  rw [Bool.and_eq_true, decide_eq_true_eq, decide_eq_true_eq] at hvalue
  rw [groupCounts, List.mem_mergeSort]
  refine List.mem_map_of_mem (List.mem_dedup.2 ?_)
  rw [← hvalue.2]
  exact List.mem_map_of_mem (List.mem_filter.2 ⟨hrow, by simpa using hvalue.1⟩)

/-- A count of a value is one of occurrences, however values are compared. -/
theorem countField_eq_count [BEq (Option String)] [LawfulBEq (Option String)] (type key : String)
    (value : Option String) : countField rows type key value =
      ((rows.filter fun row => row.type = type).map fun row => row.field key).count value := by
  rw [countField, List.count, List.countP_map, List.countP_filter]
  refine List.countP_congr fun row _ => ?_
  simp [and_comm]

/-- **The groups make up the rows of the type.** -/
theorem sum_groupCounts (type key : String) :
    ((groupCounts rows type key).map Prod.snd).sum = countType rows type := by
  have hlength := List.sum_map_count_dedup_eq_length
    ((rows.filter fun row => row.type = type).map fun row => row.field key)
  rw [List.length_map, ← List.countP_eq_length_filter] at hlength
  unfold groupCounts
  rw [((List.mergeSort_perm _ groupLe).map Prod.snd).sum_eq, List.map_map]
  refine (congrArg List.sum (List.map_congr_left fun value _ => ?_)).trans hlength
  exact @countField_eq_count rows instBEqOfDecidableEq inferInstance type key value

/-- No task reached its end in the window, or as many did as there were re-kicks, and as many as
got stuck for any one reason. -/
def Covered (rows : List LogRow) : Prop :=
  terminal rows = 0 ∨ countType rows "task.rekicked" ≤ terminal rows ∧
    ∀ reason, countField rows "task.stuck" "stall_reason" reason ≤ terminal rows

/-- The groups of stuck tasks, each against the tasks that reached their end. -/
theorem covered_iff : Covered rows ↔
    (terminal rows = 0 ∨ countType rows "task.rekicked" ≤ terminal rows) ∧
      ∀ g ∈ groupCounts rows "task.stuck" "stall_reason",
        terminal rows = 0 ∨ g.2 ≤ terminal rows := by
  constructor
  · rintro (hnone | ⟨hrekicks, hstucks⟩)
    · exact ⟨.inl hnone, fun g _ => .inl hnone⟩
    · refine ⟨.inr hrekicks, fun g hg => .inr ?_⟩
      rw [mem_groupCounts hg]
      exact hstucks g.1
  · rintro ⟨hrekicks, hgroups⟩
    by_cases hnone : terminal rows = 0
    · exact .inl hnone
    · refine .inr ⟨hrekicks.resolve_left hnone, fun reason => ?_⟩
      by_cases hpos : 0 < countField rows "task.stuck" "stall_reason" reason
      · exact (hgroups _ (exists_group hpos)).resolve_left hnone
      · omega

/-- A group of failed calls is one of all calls. -/
theorem countField_le_countType (type key : String) (value : Option String) :
    countField rows type key value ≤ countType rows type := by
  refine List.countP_mono_left fun row _ h => ?_
  rw [Bool.and_eq_true] at h
  exact h.1

variable [IsStrictOrderedRing K]

/-- **The report on a window is there, and honest, exactly when the window is covered.** -/
theorem reportOn_iff (workstream : Option String) (sinceSeq : Option Int) (lookback : Int) :
    (∃ report, reportOn a workstream sinceSeq lookback rows = .ok report ∧ report.Honest) ↔
      Covered rows := by
  rw [covered_iff]
  have hcalls : ∀ g ∈ groupCounts rows "model.call.failed" "error_type",
      countType rows "model.call" + countType rows "model.call.failed" = 0 ∨
        g.2 ≤ countType rows "model.call" + countType rows "model.call.failed" := by
    intro g hg
    have hle := @countField_le_countType rows "model.call.failed" "error_type" g.1
    rw [← mem_groupCounts hg] at hle
    omega
  have habandoned : countMoved rows "abandoned" ≤ terminal rows := Nat.le_add_left _ _
  obtain ⟨hcall, callRate, hcallRate⟩ | ⟨hcall, -⟩ := rateCi_cases a
    (countType rows "model.call.failed")
    (countType rows "model.call" + countType rows "model.call.failed")
  swap
  · exact absurd (.inr (Nat.le_add_left _ _)) hcall
  obtain ⟨herror, errorRate, herrorRate⟩ | ⟨herror, -⟩ := rateCi_cases a
    (countMoved rows "abandoned" + countType rows "verify.failed")
    (terminal rows + countType rows "verify.passed" + countType rows "verify.failed")
  swap
  · exact absurd (.inr (by omega)) herror
  obtain ⟨-, errors, herrors, herrorCounts, herrorShares⟩ | ⟨hnot, -⟩ :=
    shares_cases (a := a) (countType rows "model.call" + countType rows "model.call.failed")
      (groupCounts rows "model.call.failed" "error_type")
  swap
  · exact absurd hcalls hnot
  obtain ⟨hrekick, rekickRate, hrekickRate⟩ | ⟨hrekick, e, hrekickRate⟩ := rateCi_cases a
    (countType rows "task.rekicked") (terminal rows)
  · obtain ⟨hgroups, stalls, hstalls, hstallCounts, hstallShares⟩ | ⟨hgroups, e, hstalls⟩ :=
      shares_cases (a := a) (terminal rows) (groupCounts rows "task.stuck" "stall_reason")
    · have hreport : ∃ report, reportOn a workstream sinceSeq lookback rows = .ok report ∧
          [report.modelCallErrorRate, report.rekickRate, report.errorRate] =
            [callRate, rekickRate, errorRate] ∧
          report.byErrorType = errors ∧ report.byStallReason = stalls ∧
          report.modelCallsFailed = countType rows "model.call.failed" ∧
          report.stucks = countType rows "task.stuck" := by
        unfold reportOn
        simp only [hcallRate, hrekickRate, herrorRate, herrors, hstalls]
        exact ⟨_, rfl, rfl, rfl, rfl, rfl, rfl⟩
      obtain ⟨report, hok, hrates, hbyError, hbyStall, hfailed, hstucks⟩ := hreport
      refine iff_of_true ⟨report, hok, ?_⟩ ⟨hrekick, hgroups⟩
      constructor
      · rw [hrates]
        intro r hr
        simp only [List.mem_cons, List.not_mem_nil, or_false] at hr
        rcases hr with rfl | rfl | rfl
        · exact honest_of_rateCi hcallRate
        · exact honest_of_rateCi hrekickRate
        · exact honest_of_rateCi herrorRate
      · rw [hbyError, hbyStall]
        intro entry hentry
        rcases List.mem_append.1 hentry with hentry | hentry
        · exact honest_of_rateCi (herrorShares entry hentry)
        · exact honest_of_rateCi (hstallShares entry hentry)
      · rw [hbyError, hfailed, herrorCounts, sum_groupCounts]
      · rw [hbyStall, hstucks, hstallCounts, sum_groupCounts]
    · refine iff_of_false ?_ fun h => hgroups h.2
      rintro ⟨report, hreport, -⟩
      unfold reportOn at hreport
      simp only [hcallRate, hrekickRate, herrorRate, herrors, hstalls] at hreport
      cases hreport
  · refine iff_of_false ?_ fun h => hrekick h.1
    rintro ⟨report, hreport, -⟩
    unfold reportOn at hreport
    simp only [hcallRate, hrekickRate] at hreport
    cases hreport

/-- **When the failure report is there and honest**, on any log: where no task reached its end in
the window, or as many did as there were re-kicks, and as many as got stuck for any one reason. -/
theorem failure_report_honest_iff (a : Arithmetic K) (log : List LogRow)
    (workstream : Option String) (sinceSeq : Option Int) {lookback : Int} (h : 0 ≤ lookback) :
    (∃ report, failureReport a log workstream sinceSeq lookback = .ok report ∧ report.Honest) ↔
      Covered (window log workstream sinceSeq lookback) := by
  rw [failureReport, if_neg (not_lt.2 h)]
  exact reportOn_iff workstream sinceSeq lookback

/-! ## A task that was re-kicked twice -/

def stalledTask : Uuid := ⟨"6d0b3a4e-51c7-4a0e-9f0e-7a1d2c3b4e21", by decide⟩

/-- A task loses its worker twice and is merged by the third. -/
def rekickedRun : Config database Unit Unit :=
  ⟨Store.initial 0, fun _ => do
    let _ ← call (.enqueueTask stalledTask { workstream := "productivity", type := "work.doc" })
    let _ ← claimTask { workerId := "w1" } []
    let _ ← call (.rekickTask stalledTask none)
    let _ ← claimTask { workerId := "w2" } []
    let _ ← call (.rekickTask stalledTask none)
    let _ ← claimTask { workerId := "w3" } []
    let _ ← completeTask stalledTask {}
    return ()⟩

/-- **Two re-kicks and one task merged**: the report raises. -/
theorem rekicked_report_raises :
    ¬ ∀ τ c', Reach rekickedRun τ c' → ∃ report,
      failureReport fourPlaces c'.state.log none none 0 = .ok report ∧ report.Honest := by
  intro hall
  obtain ⟨report, hreport, hhonest⟩ :=
    hall _ _ (Reach.of_run rekickedRun (List.replicate 20 ((), none)))
  have hcovered := (reportOn_iff none none 0).1 ⟨report, hreport, hhonest⟩
  have hterminal : terminal (window
      (rekickedRun.run (List.replicate 20 ((), none))).state.log none none 0) = 1 := by
    decide
  have hrekicks : countType (window
      (rekickedRun.run (List.replicate 20 ((), none))).state.log none none 0) "task.rekicked" =
        2 := by decide
  rw [Covered, hterminal, hrekicks] at hcovered
  rcases hcovered with hnone | ⟨hle, -⟩
  · cases hnone
  · omega

/-- In a window that begins after the first re-kick the report is there. -/
theorem late_window_reported :
    ∃ report, failureReport fourPlaces
      (rekickedRun.run (List.replicate 20 ((), none))).state.log none (some 5) 0 = .ok report ∧
        report.Honest := by
  refine (failure_report_honest_iff fourPlaces _ none (some 5) le_rfl).2 (.inr ⟨?_, ?_⟩)
  · have hterminal : terminal (window
        (rekickedRun.run (List.replicate 20 ((), none))).state.log none (some 5) 0) = 1 := by
      decide
    have hrekicks : countType (window
        (rekickedRun.run (List.replicate 20 ((), none))).state.log none (some 5) 0)
          "task.rekicked" = 1 := by decide
    rw [hterminal, hrekicks]
  · intro reason
    have hstucks : countType (window
        (rekickedRun.run (List.replicate 20 ((), none))).state.log none (some 5) 0)
          "task.stuck" = 0 := by decide
    have hle := @countField_le_countType (window
      (rekickedRun.run (List.replicate 20 ((), none))).state.log none (some 5) 0)
        "task.stuck" "stall_reason" reason
    omega

end AiStudio.Runtime
