import AiStudio.Gateway.Requests
import AiStudio.Runtime.Failures
import AiStudio.Runtime.Ladder

/-!
# What a review finds

Embeds the verdict of `runtime/roles/reviewer.py`: the facts of an episode, as
`_gather_facts_from_trail` folds them from the events of the task, the signals of `assess_risks`,
and the worst of them. `severity_mono` is about any two records of facts, `rekicks_of_reach` about
the events and the counter that a run leaves behind, and `review_law` puts them together.
-/

set_option autoImplicit false

namespace AiStudio.Runtime

open AiStudio.Concurrency AiStudio.Gateway

/-! ## Facts and signals -/

/-- The severities, `_SEVERITY_RANK` in order. -/
inductive Severity where
  | none
  | low
  | medium
  | high
  deriving DecidableEq, Repr

/-- `_SEVERITY_RANK`. -/
def Severity.rank : Severity → Nat
  | none => 0
  | low => 1
  | medium => 2
  | high => 3

/-- `ReviewFacts`. -/
structure ReviewFacts where
  claimsSuccess : Bool := false
  artifactExpected : Bool := false
  artifactChecked : Bool := false
  artifactOk : Bool := false
  spentTokens : Int := 0
  budgetTokens : Option Int := none
  retries : Int := 0
  failSignals : Int := 0
  denyCount : Int := 0
  pendCount : Int := 0

/-- `RiskSignal`. -/
structure RiskSignal where
  severity : Severity
  reason : String

/-- `0.9 * budget` in floating point numbers: it does not fall as the budget grows. -/
structure NearBudget where
  value : Int → ℚ
  monotone : Monotone value

/-- The product without rounding. -/
def NearBudget.exact : NearBudget where
  value budget := 9 / 10 * budget
  monotone := by
    intro b b' hle
    have hcast : (b : ℚ) ≤ b' := by exact_mod_cast hle
    change 9 / 10 * (b : ℚ) ≤ 9 / 10 * b'
    linarith

/-- `_worst`: the first of the highest rank. -/
def worst : List Severity → Severity
  | [] => .none
  | s :: rest => rest.foldl (fun best s => if best.rank < s.rank then s else best) s

/-- 1. Hallucinated success. -/
def successSignals (facts : ReviewFacts) : List RiskSignal :=
  if facts.claimsSuccess then
    if !facts.artifactExpected then
      [⟨.high, "success claimed but no artifact was produced (unbacked done claim)"⟩]
    else if facts.artifactChecked && !facts.artifactOk then
      [⟨.high, "success claimed but the real artifact does not back it " ++
        "(missing / unreadable / success marker absent)"⟩]
    else []
  else []

/-- 2. Budget blowout. -/
def budgetSignals (near : NearBudget) (facts : ReviewFacts) : List RiskSignal :=
  match facts.budgetTokens with
  | none => []
  | some budget =>
      if budget ≤ 0 then []
      else if budget < facts.spentTokens then
        [⟨.high, "token spend " ++ toString facts.spentTokens ++ " exceeded budget " ++
          toString budget⟩]
      else if near.value budget ≤ facts.spentTokens then
        [⟨.medium, "token spend " ++ toString facts.spentTokens ++ " near budget " ++
          toString budget ++ " (>=90%)"⟩]
      else []

/-- `fail_score`. -/
def failScore (facts : ReviewFacts) : Int := facts.failSignals + facts.retries

/-- 3. Repeated failures and re-kicks. -/
def failureSignals (facts : ReviewFacts) : List RiskSignal :=
  if 4 ≤ failScore facts then
    [⟨.high, "repeated failures/re-kicks in the episode (" ++ toString (failScore facts) ++
      " signals)"⟩]
  else if 2 ≤ failScore facts then
    [⟨.medium, "multiple failures/re-kicks in the episode (" ++ toString (failScore facts) ++
      " signals)"⟩]
  else []

/-- 4. Recurring policy denials. -/
def denialSignals (facts : ReviewFacts) : List RiskSignal :=
  if 2 ≤ facts.denyCount then
    [⟨.medium, "recurring policy denials in the episode (" ++ toString facts.denyCount ++ ")"⟩]
  else if facts.denyCount = 1 then [⟨.low, "a policy denial occurred in the episode (1)"⟩]
  else []

/-- 5. Costly or irreversible actions that were gated. -/
def gatedSignals (facts : ReviewFacts) : List RiskSignal :=
  if 2 ≤ facts.pendCount then
    [⟨.medium, "recurring approval-gated 🔴 (costly/irreversible) actions (" ++
      toString facts.pendCount ++ ")"⟩]
  else if facts.pendCount = 1 then
    [⟨.low, "an approval-gated 🔴 (costly/irreversible) action was attempted (1)"⟩]
  else []

/-- `assess_risks`. -/
def assessRisks (near : NearBudget) (facts : ReviewFacts) : List RiskSignal :=
  successSignals facts ++ budgetSignals near facts ++ failureSignals facts ++
    denialSignals facts ++ gatedSignals facts

/-- The severity of a review. -/
def severityOf (near : NearBudget) (facts : ReviewFacts) : Severity :=
  worst ((assessRisks near facts).map RiskSignal.severity)

/-- An event of a trail: its type, and the texts of its payload that the fold reads. -/
structure TrailEvent where
  type : String
  status : Option String := none
  effect : Option String := none

/-- What the review knows beside the trail. -/
structure ReviewedEpisode where
  outcome : String
  artifactExpected : Bool
  artifactChecked : Bool
  artifactOk : Bool
  spentTokens : Int
  budgetTokens : Option Int
  retries : Int

/-- `types.count`. -/
def typeCount (events : List TrailEvent) (type : String) : Nat := (events.map (·.type)).count type

/-- `_gather_facts_from_trail`. -/
def gatherFactsFromTrail (events : List TrailEvent) (episode : ReviewedEpisode) : ReviewFacts :=
  let finishedDone := events.any fun e => e.type = "task.finished" && e.status = some "done"
  { claimsSuccess := episode.outcome = "done" ||
      (events.map (·.type)).contains "verify.passed" || finishedDone
    artifactExpected := episode.artifactExpected
    artifactChecked := episode.artifactChecked
    artifactOk := episode.artifactOk
    spentTokens := episode.spentTokens
    budgetTokens := episode.budgetTokens
    retries := episode.retries
    failSignals := typeCount events "verify.failed" + typeCount events "work.retry" +
      typeCount events "task.rekicked"
    denyCount := events.countP fun e => e.type = "policy.decision" && e.effect = some "deny"
    pendCount := typeCount events "approval.requested" }

/-- **The score of an episode**: its failures, its re-kicks, and its re-kicks again. -/
theorem failScore_gather (events : List TrailEvent) (episode : ReviewedEpisode) :
    failScore (gatherFactsFromTrail events episode) =
      typeCount events "verify.failed" + typeCount events "work.retry" +
        typeCount events "task.rekicked" + episode.retries := rfl

/-! ## Severity and evidence -/

/-- The second record holds at least the evidence of the first. -/
structure Worse (facts facts' : ReviewFacts) : Prop where
  claimsSuccess : facts'.claimsSuccess = facts.claimsSuccess
  artifactExpected : facts'.artifactExpected = facts.artifactExpected
  artifactChecked : facts'.artifactChecked = facts.artifactChecked
  artifactOk : facts'.artifactOk = true → facts.artifactOk = true
  spentTokens : facts.spentTokens ≤ facts'.spentTokens
  budgetTokens : facts'.budgetTokens = facts.budgetTokens ∨
    ∃ budget budget', facts.budgetTokens = some budget ∧ facts'.budgetTokens = some budget' ∧
      0 < budget' ∧ budget' ≤ budget
  retries : facts.retries ≤ facts'.retries
  failSignals : facts.failSignals ≤ facts'.failSignals
  denyCount : facts.denyCount ≤ facts'.denyCount
  pendCount : facts.pendCount ≤ facts'.pendCount

/-- The loop of `_worst` ends at one of the severities, and no lower than any of them. -/
theorem foldl_worst (severities : List Severity) (best : Severity) :
    let last := severities.foldl (fun best s => if best.rank < s.rank then s else best) best
    last ∈ best :: severities ∧ ∀ s ∈ best :: severities, s.rank ≤ last.rank := by
  induction severities generalizing best with
  | nil => simp
  | cons s severities ih =>
      dsimp only at ih ⊢
      rw [List.foldl_cons]
      split
      · rename_i hlt
        obtain ⟨hmem, hall⟩ := ih s
        refine ⟨List.mem_cons_of_mem _ hmem, ?_⟩
        rw [List.forall_mem_cons]
        exact ⟨hlt.le.trans (hall s List.mem_cons_self), hall⟩
      · rename_i hle
        obtain ⟨hmem, hall⟩ := ih best
        rw [List.forall_mem_cons] at hall
        refine ⟨?_, ?_⟩
        · rcases List.mem_cons.1 hmem with hbest | hrest
          · exact List.mem_cons.2 (.inl hbest)
          · exact List.mem_cons_of_mem _ (List.mem_cons_of_mem _ hrest)
        · rw [List.forall_mem_cons, List.forall_mem_cons]
          exact ⟨hall.1, (Nat.le_of_not_lt hle).trans hall.1, hall.2⟩

/-- The worst severity is one of them, if there is any. -/
theorem worst_mem {severities : List Severity} (h : severities ≠ []) :
    worst severities ∈ severities := by
  cases severities with
  | nil => exact absurd rfl h
  | cons s severities => exact (foldl_worst severities s).1

theorem rank_le_worst {severities : List Severity} {s : Severity} (h : s ∈ severities) :
    s.rank ≤ (worst severities).rank := by
  cases severities with
  | nil => cases h
  | cons s' severities => exact (foldl_worst severities s').2 s h

/-- Every signal is matched by one that is as severe. -/
def Matched (signals signals' : List RiskSignal) : Prop :=
  ∀ signal ∈ signals, ∃ signal' ∈ signals', signal.severity.rank ≤ signal'.severity.rank

theorem Matched.append {signals₁ signals₁' signals₂ signals₂' : List RiskSignal}
    (h₁ : Matched signals₁ signals₁') (h₂ : Matched signals₂ signals₂') :
    Matched (signals₁ ++ signals₂) (signals₁' ++ signals₂') := by
  intro signal hsignal
  rcases List.mem_append.1 hsignal with hsignal | hsignal
  · obtain ⟨signal', hmem, hle⟩ := h₁ signal hsignal
    exact ⟨signal', List.mem_append_left _ hmem, hle⟩
  · obtain ⟨signal', hmem, hle⟩ := h₂ signal hsignal
    exact ⟨signal', List.mem_append_right _ hmem, hle⟩

theorem Matched.worst_le {signals signals' : List RiskSignal} (h : Matched signals signals') :
    (worst (signals.map RiskSignal.severity)).rank ≤
      (worst (signals'.map RiskSignal.severity)).rank := by
  by_cases hnil : signals.map RiskSignal.severity = []
  · rw [hnil]
    exact Nat.zero_le _
  · obtain ⟨signal, hsignal, hworst⟩ := List.mem_map.1 (worst_mem hnil)
    obtain ⟨signal', hsignal', hle⟩ := h signal hsignal
    rw [← hworst]
    exact hle.trans (rank_le_worst (List.mem_map_of_mem hsignal'))

/-- Nothing is matched by anything. -/
theorem Matched.nil (signals : List RiskSignal) : Matched [] signals := by
  intro signal hsignal
  cases hsignal

theorem Matched.singleton {severity severity' : Severity} {reason reason' : String}
    (h : severity.rank ≤ severity'.rank) :
    Matched [⟨severity, reason⟩] [⟨severity', reason'⟩] := by
  intro signal hsignal
  obtain rfl := List.mem_singleton.1 hsignal
  exact ⟨_, List.mem_singleton_self _, h⟩

section Mono

variable {near : NearBudget} {facts facts' : ReviewFacts}

theorem matched_success (h : Worse facts facts') :
    Matched (successSignals facts) (successSignals facts') := by
  unfold successSignals
  rw [h.claimsSuccess, h.artifactExpected, h.artifactChecked]
  by_cases hok : facts'.artifactOk = true
  · rw [hok, h.artifactOk hok]
    exact fun signal hsignal => ⟨signal, hsignal, le_rfl⟩
  · rw [eq_false_of_ne_true hok]
    cases facts.claimsSuccess with
    | false => exact .nil _
    | true =>
        cases facts.artifactExpected with
        | false => exact .singleton le_rfl
        | true =>
            cases facts.artifactChecked with
            | false => exact .nil _
            | true =>
                cases facts.artifactOk with
                | false => exact .singleton le_rfl
                | true => exact .nil _

/-- Spend against a cap and against one that is lower. -/
theorem matched_budget (h : Worse facts facts') :
    Matched (budgetSignals near facts) (budgetSignals near facts') := by
  have hspent := h.spentTokens
  have hcap : ∀ budget budget' : Int, facts.budgetTokens = some budget →
      facts'.budgetTokens = some budget' → (0 < budget → 0 < budget' ∧ budget' ≤ budget) →
        Matched (budgetSignals near facts) (budgetSignals near facts') := by
    intro budget budget' hb hb' hlower
    unfold budgetSignals
    simp only [hb, hb']
    by_cases hzero : budget ≤ 0
    · rw [if_pos hzero]
      exact .nil _
    · obtain ⟨hpos, hle⟩ := hlower (by omega)
      rw [if_neg hzero, if_neg (not_le.2 hpos)]
      by_cases hover : budget < facts.spentTokens
      · rw [if_pos hover, if_pos (by omega)]
        exact .singleton le_rfl
      · rw [if_neg hover]
        by_cases hnear : near.value budget ≤ facts.spentTokens
        · rw [if_pos hnear]
          by_cases hover' : budget' < facts'.spentTokens
          · rw [if_pos hover']
            exact .singleton (by decide)
          · have hspent' : (facts.spentTokens : ℚ) ≤ facts'.spentTokens := by exact_mod_cast hspent
            rw [if_neg hover', if_pos ((near.monotone hle).trans (hnear.trans hspent'))]
            exact .singleton le_rfl
        · rw [if_neg hnear]
          exact .nil _
  rcases h.budgetTokens with hsame | ⟨budget, budget', hb, hb', hpos, hle⟩
  · cases hb : facts.budgetTokens with
    | none =>
        unfold budgetSignals
        rw [hb]
        exact .nil _
    | some budget => exact hcap budget budget hb (hsame.trans hb) fun hpos => ⟨hpos, le_rfl⟩
  · exact hcap budget budget' hb hb' fun _ => ⟨hpos, hle⟩

/-- A count against two bounds, of which the higher one gives the more severe signal. -/
theorem matched_failures (h : Worse facts facts') :
    Matched (failureSignals facts) (failureSignals facts') := by
  have hscore : failScore facts ≤ failScore facts' := add_le_add h.failSignals h.retries
  unfold failureSignals
  by_cases hhigh : 4 ≤ failScore facts
  · rw [if_pos hhigh, if_pos (hhigh.trans hscore)]
    exact .singleton le_rfl
  · rw [if_neg hhigh]
    by_cases hmedium : 2 ≤ failScore facts
    · rw [if_pos hmedium, if_pos (hmedium.trans hscore)]
      split
      · exact .singleton (by decide)
      · exact .singleton le_rfl
    · rw [if_neg hmedium]
      exact .nil _

/-- A count of which one gives a low signal, and more a medium one. -/
theorem matched_count {count count' : Int} {many many' one one' : String} (h : count ≤ count') :
    Matched
      (if 2 ≤ count then [⟨.medium, many⟩] else if count = 1 then [⟨.low, one⟩] else [])
      (if 2 ≤ count' then [⟨.medium, many'⟩] else if count' = 1 then [⟨.low, one'⟩] else []) := by
  by_cases hmany : 2 ≤ count
  · rw [if_pos hmany, if_pos (hmany.trans h)]
    exact .singleton le_rfl
  · rw [if_neg hmany]
    by_cases hone : count = 1
    · rw [if_pos hone]
      by_cases hmany' : 2 ≤ count'
      · rw [if_pos hmany']
        exact .singleton (by decide)
      · rw [if_neg hmany', if_pos (by omega)]
        exact .singleton le_rfl
    · rw [if_neg hone]
      exact .nil _

/-- **More evidence is never judged less severe.** -/
theorem severity_mono (near : NearBudget) (h : Worse facts facts') :
    (severityOf near facts).rank ≤ (severityOf near facts').rank := by
  refine Matched.worst_le ?_
  refine ((((matched_success h).append (matched_budget h)).append
    (matched_failures h)).append ?_).append ?_
  · exact matched_count h.denyCount
  · exact matched_count h.pendCount

end Mono

/-! ## Trails of runs -/

/-- The wire string of an effect. -/
def effectValue : Policy.Effect → String
  | .allow => "allow"
  | .deny => "deny"
  | .needsApproval => "needs_approval"

/-- An event as the review reads it. -/
def trailEvent (e : Event) : TrailEvent where
  type := eventType e.payload
  status := match e.payload with
    | .taskFinished status _ => some status.value
    | _ => none
  effect := match e.payload with
    | .sink (.policyDecision _ decision) => some (effectValue decision.effect)
    | _ => none

/-- `read_events` of a task. -/
def Store.trail (s : Store) (id : Uuid) : List TrailEvent :=
  (s.events.filter fun e => e.taskId = some id).map trailEvent

/-- Only `rekick_task` counts a re-kick and reports one: no other call asks a transition to count,
and no sink is handed the event. -/
def StoreOp.isRegular (id : Uuid) : StoreOp → Bool
  | .transition id' _ a => id' ≠ id || !a.incrementRetries
  | .emit _ _ payload => eventType (.sink payload) ≠ "task.rekicked"
  | _ => true

/-- Only events other than re-kicks are appended. -/
def Silent (s s' : Store) : Prop :=
  ∃ es, s'.events = s.events ++ es ∧ ∀ e ∈ es, eventType e.payload ≠ "task.rekicked"

namespace Silent

variable {s s' s'' : Store}

theorem of_events_eq (h : s'.events = s.events) : Silent s s' :=
  ⟨[], by rw [h, List.append_nil], List.forall_mem_nil _⟩

theorem trans (h : Silent s s') (h' : Silent s' s'') : Silent s s'' := by
  obtain ⟨es, hes, hall⟩ := h
  obtain ⟨es', hes', hall'⟩ := h'
  refine ⟨es ++ es', by rw [hes', hes, List.append_assoc], ?_⟩
  intro e he
  rcases List.mem_append.1 he with he | he
  · exact hall e he
  · exact hall' e he

theorem emit (taskId : Option Uuid) (ws : Workstream) {p : Payload}
    (hp : eventType p ≠ "task.rekicked") : Silent s (s.appendEvent taskId ws p) := by
  refine ⟨_, rfl, ?_⟩
  intro e he
  obtain rfl := List.mem_singleton.1 he
  exact hp

theorem record (id : Uuid) (row : Task) (target : TaskStatus) (a : TransitionArgs) :
    Silent s (s.recordTransition id row target a) := by
  refine ⟨_, rfl, ?_⟩
  intro e he
  unfold Store.transitionEvents at he
  rcases List.mem_cons.1 he with rfl | he
  · exact of_decide_eq_true rfl
  · split at he
    · obtain rfl := List.mem_singleton.1 he
      exact of_decide_eq_true rfl
    · cases he

theorem updateTask {id : Uuid} {guard : Task → Bool} {f : Task → Task} {row : Task}
    (h : s.updateTask id guard f = some (row, s')) : Silent s s' := by
  obtain ⟨row', -, -, -, rfl⟩ := Store.updateTask_eq_some h
  exact of_events_eq rfl

theorem transition {id : Uuid} {target : TaskStatus} {a : TransitionArgs} {r : Option Task}
    (h : Runtime.transition id target a s = .ok (r, s')) : Silent s s' := by
  obtain ⟨-, rfl, -⟩ | ⟨row, -, -, rfl⟩ := transition_cases h
  · exact of_events_eq rfl
  · exact .record id row target a

/-- A move and its signal. -/
theorem signal {id : Uuid} {target : TaskStatus} {a : TransitionArgs} {r : Option Task}
    {ws : Task → Workstream} {payload : Task → Payload}
    (hp : ∀ task, eventType (payload task) ≠ "task.rekicked")
    (h : (Runtime.transition id target a s).map (Runtime.signal id ws payload) = .ok (r, s')) :
    Silent s s' := by
  cases ht : Runtime.transition id target a s with
  | error e =>
      rw [ht] at h
      cases h
  | ok x =>
      obtain ⟨t, s₁⟩ := x
      rw [ht] at h
      have hmove : Silent s s₁ := .transition ht
      cases t with
      | none =>
          obtain ⟨-, rfl⟩ := Prod.mk.inj (Except.ok.inj h)
          exact hmove
      | some task =>
          obtain ⟨-, rfl⟩ := Prod.mk.inj (Except.ok.inj h)
          exact hmove.trans (.emit _ _ (hp task))

theorem park {id : Uuid} {dependent : Option Uuid} (h : Runtime.park id dependent s = .ok ((), s')) :
    Silent s s' := by
  obtain ⟨-, rfl⟩ | ⟨taskId, row, -, -, rfl⟩ := park_cases h
  · exact of_events_eq rfl
  · exact .record taskId row _ _

theorem closeDecision {id : Uuid} {f : Time → Decision → Decision} {r : Option Decision}
    (h : Runtime.closeDecision id f s = .ok (r, s')) : Silent s s' := by
  obtain ⟨-, rfl, -⟩ | ⟨row, s₁, -, -, -, hresume, rfl⟩ := closeDecision_cases h
  · exact of_events_eq rfl
  · have hresumed : Silent s s₁ := by
      obtain ⟨rfl, -⟩ | ⟨taskId, row', -, -, rfl⟩ := resume_cases hresume
      · exact of_events_eq rfl
      · exact .record taskId row' _ _
    exact hresumed.trans (.emit _ _ (of_decide_eq_true rfl))

/-- A call that writes no task and no event of its process. -/
theorem of_frame {w : List Region} (h : Frame w s s') (htasks : w.contains .tasks = false)
    (hlog : w.contains .log = false) : Silent s s' := by
  obtain ⟨es, hes, hregion⟩ := h.events
  refine ⟨es, hes, ?_⟩
  intro e he htype
  have hin := hregion e he
  cases hp : e.payload with
  | sink payload =>
      rw [hp, Payload.region, hlog] at hin
      cases hin
  | taskRekicked status retries made count =>
      rw [hp, Payload.region, htasks] at hin
      cases hin
  | _ =>
      rw [hp] at htype
      exact absurd htype (of_decide_eq_true rfl)

end Silent

/-- **Any call but a re-kick is silent.** -/
theorem exec_silent {id : Uuid} {o : StoreOp} {s s' : Store} {r : o.Res}
    (hregular : o.isRegular id = true) (hplain : o.isRekick = false) (h : o.exec s = .ok (r, s')) :
    Silent s s' := by
  have hframe := exec_frame h
  cases o with
  | rekickTask id' made => cases hplain
  | enqueueTask id' a =>
      obtain ⟨ws, tasks, -, -, -, rfl⟩ := enqueueTask_cases h
      exact .trans (.of_events_eq rfl) (.emit _ _ (of_decide_eq_true rfl))
  | grabTask a locked =>
      obtain ⟨-, rfl⟩ | ⟨id', row, -, -, -, -, rfl⟩ := grabTask_cases h
      · exact .of_events_eq rfl
      · exact .record id' row _ _
  | transition id' target a => exact .transition h
  | heartbeat id' workerId =>
      change heartbeat id' workerId s = .ok (r, s') at h
      unfold heartbeat at h
      split at h
      · obtain ⟨-, rfl⟩ := Prod.mk.inj (Except.ok.inj h)
        exact .of_events_eq rfl
      · rename_i hu
        obtain ⟨-, rfl⟩ := Prod.mk.inj (Except.ok.inj h)
        exact .updateTask hu
  | addSpentTokens id' tokens =>
      change addSpentTokens id' tokens s = .ok (r, s') at h
      unfold addSpentTokens at h
      split at h
      · cases h
      · split at h
        · obtain ⟨-, rfl⟩ := Prod.mk.inj (Except.ok.inj h)
          exact .of_events_eq rfl
        · rename_i hu
          obtain ⟨-, rfl⟩ := Prod.mk.inj (Except.ok.inj h)
          exact .updateTask hu
  | setRequestStatus id' status reason workTaskIds =>
      change setRequestStatus id' status reason workTaskIds s = .ok (r, s') at h
      unfold setRequestStatus at h
      split at h
      · obtain ⟨-, rfl⟩ := Prod.mk.inj (Except.ok.inj h)
        exact .of_events_eq rfl
      · rename_i hu
        obtain ⟨-, rfl⟩ := Prod.mk.inj (Except.ok.inj h)
        exact .updateTask hu
  | nudgeTask id' grace =>
      change nudgeTask id' grace s = .ok (r, s') at h
      unfold nudgeTask at h
      split at h
      · obtain ⟨-, rfl⟩ := Prod.mk.inj (Except.ok.inj h)
        exact .of_events_eq rfl
      · rename_i hu
        obtain ⟨-, rfl⟩ := Prod.mk.inj (Except.ok.inj h)
        exact .trans (.updateTask hu) (.emit _ _ (of_decide_eq_true rfl))
  | escalateStuckTask id' reason count retries =>
      change escalateStuckTask id' reason count retries s = .ok (r, s') at h
      unfold escalateStuckTask at h
      split at h
      · obtain ⟨-, rfl⟩ := Prod.mk.inj (Except.ok.inj h)
        exact .of_events_eq rfl
      · rename_i hu
        exact .trans (.updateTask hu) (.signal (fun _ => of_decide_eq_true rfl) h)
  | failExhausted id' scanned maxRetries =>
      exact .signal (fun _ => of_decide_eq_true rfl) h
  | requestDecision d a =>
      obtain ⟨s₁, ws, hpark, hrecord⟩ := requestDecision_cases h
      obtain ⟨decisions, -, -, rfl⟩ := recordDecision_cases hrecord
      exact .trans (.park hpark)
        (.trans (.of_events_eq rfl) (.emit _ _ (of_decide_eq_true rfl)))
  | answerDecision d answer resolver at? => exact .closeDecision h
  | withdrawDecision d resolver at? => exact .closeDecision h
  | emit taskId ws payload =>
      obtain ⟨-, rfl⟩ := Prod.mk.inj (Except.ok.inj h)
      exact .emit _ _ (of_decide_eq_true hregular)
  | _ => exact .of_frame hframe rfl rfl

/-- What appended events add to a count of the trail. -/
theorem typeCount_trail {s s' : Store} {es : List Event} (h : s'.events = s.events ++ es) (id : Uuid)
    (type : String) :
    typeCount (s'.trail id) type = typeCount (s.trail id) type +
      es.countP fun e => e.taskId = some id && eventType e.payload = type := by
  have hcount : ∀ events : List Event,
      typeCount ((events.filter fun e => e.taskId = some id).map trailEvent) type =
        events.countP fun e => e.taskId = some id && eventType e.payload = type := by
    intro events
    rw [typeCount, List.count, List.map_map, List.countP_map, List.countP_filter]
    refine List.countP_congr fun e _ => ?_
    simp [trailEvent, and_comm]
  rw [Store.trail, Store.trail, hcount, hcount, h, List.countP_append]

theorem Silent.typeCount_eq {s s' : Store} (h : Silent s s') (id : Uuid) :
    typeCount (s'.trail id) "task.rekicked" = typeCount (s.trail id) "task.rekicked" := by
  obtain ⟨es, hes, hall⟩ := h
  rw [typeCount_trail hes, List.countP_eq_zero.2, Nat.add_zero]
  intro e he
  simp [hall e he]

/-- The event of a re-kick. -/
theorem typeCount_emit_rekick (s : Store) (id id' : Uuid) (ws : Workstream) (status : TaskStatus)
    (retries : Nat) (made : Option Bool) (count : Nat) :
    typeCount ((s.appendEvent (some id') ws (.taskRekicked status retries made count)).trail id)
        "task.rekicked" =
      typeCount (s.trail id) "task.rekicked" + if id' = id then 1 else 0 := by
  rw [typeCount_trail rfl, List.countP_singleton]
  by_cases hid : id' = id
  · simp [hid, eventType]
  · simp [hid]

/-- **A re-kick reports itself once.** -/
theorem rekickTask_trail {id' : Uuid} {made : Option Bool} {s s' : Store} {r : Option Task}
    (h : rekickTask id' made s = .ok (r, s')) (id : Uuid) :
    typeCount (s'.trail id) "task.rekicked" = typeCount (s.trail id) "task.rekicked" +
      if r.isSome = true ∧ id' = id then 1 else 0 := by
  unfold rekickTask at h
  split at h
  · obtain ⟨rfl, rfl⟩ := Prod.mk.inj (Except.ok.inj h)
    rfl
  · split at h
    · obtain ⟨rfl, rfl⟩ := Prod.mk.inj (Except.ok.inj h)
      rfl
    · cases ht : transition id' .upForGrabs rekickArgs s with
      | error e =>
          simp only [ht] at h
          cases h
      | ok x =>
          obtain ⟨t, s₁⟩ := x
          have hmove : Silent s s₁ := .transition ht
          simp only [ht, bind, Except.bind] at h
          split at h
          · obtain ⟨rfl, rfl⟩ := Prod.mk.inj (Except.ok.inj h)
            simp [hmove.typeCount_eq]
          · cases made with
            | none =>
                obtain ⟨rfl, rfl⟩ := Prod.mk.inj (Except.ok.inj h)
                rw [typeCount_emit_rekick, hmove.typeCount_eq]
                simp
            | some made =>
                obtain ⟨rfl, rfl⟩ := Prod.mk.inj (Except.ok.inj h)
                have hset : ∀ row, Silent s₁ (s₁.setTask id' row) := fun _ => .of_events_eq rfl
                rw [typeCount_emit_rekick, (hmove.trans (hset _)).typeCount_eq]
                simp

variable {P α : Type} [DecidableEq P]

/-- **A step reports the re-kick of a task if it is one.** -/
theorem step_trail {st : Step database P α} (hf : Fires st) {id : Uuid}
    (hregular : st.op.isRegular id = true) :
    typeCount (st.after.state.trail id) "task.rekicked" =
      typeCount (st.before.state.trail id) "task.rekicked" +
        if st.op.rekicked st.out = some id then 1 else 0 := by
  obtain ⟨pid, op, out, before, after⟩ := st
  have hcommit := exec_or_abort hf
  dsimp only at hregular hcommit ⊢
  rcases hcommit with ⟨v, rfl, hexec⟩ | ⟨e, rfl, hs⟩
  · by_cases hplain : op.isRekick = false
    · have hnone : op.rekicked (.ok v) = none := by
        cases op with
        | rekickTask id' made => cases hplain
        | _ => rfl
      rw [(exec_silent hregular hplain hexec).typeCount_eq, hnone, if_neg nofun, Nat.add_zero]
    · cases op with
      | rekickTask id' made =>
          rw [rekickTask_trail hexec id]
          cases v with
          | none => rfl
          | some task => simp [StoreOp.rekicked]
      | _ => exact absurd rfl hplain
  · have hnone : op.rekicked (.error e) = none := by cases op <;> rfl
    rw [hs, hnone, if_neg nofun, Nat.add_zero]

/-- The counter of the row and the events of the trail both count the re-kicks. -/
structure Counted (s : Store) (id : Uuid) (count : Nat) : Prop where
  trail : typeCount (s.trail id) "task.rekicked" = count
  retries : ∀ row, s.tasks.find? id = some row → row.retries = count
  absent : s.tasks.find? id = none → count = 0

/-- A step counts a re-kick in both places. -/
theorem Counted.step {st : Step database P α} (hf : Fires st) {id : Uuid}
    (hregular : st.op.isRegular id = true) {count : Nat} (h : Counted st.before.state id count) :
    Counted st.after.state id (count + if st.op.rekicked st.out = some id then 1 else 0) := by
  have htrail := step_trail hf hregular
  rw [h.trail] at htrail
  by_cases hre : st.op.rekicked st.out = some id
  · obtain ⟨made, row, -, hrow, hafter⟩ := step_rekicked hf hre
    rw [if_pos hre] at htrail ⊢
    refine ⟨htrail, ?_, ?_⟩
    · intro row' hrow'
      obtain rfl := Option.some.inj (hafter.symm.trans hrow')
      have hcount := h.retries row hrow
      cases made with
      | none => exact congrArg (· + 1) hcount
      | some made => exact congrArg (· + 1) hcount
    · intro hnone
      rw [hafter] at hnone
      cases hnone
  · have hplain : st.op.isRekick = false → st.op.recounts id = false := by
      intro hplain
      cases hop : st.op with
      | transition id' target a =>
          rw [hop] at hregular
          by_cases hid : id' = id
          · simpa [StoreOp.recounts, StoreOp.isRegular, hid] using hregular
          · simp [StoreOp.recounts, hid]
      | rekickTask id' made =>
          rw [hop] at hplain
          cases hplain
      | _ => rfl
    rw [if_neg hre, Nat.add_zero] at htrail ⊢
    obtain hsame | ⟨-, hnone, hzero⟩ := step_counters hf hre hplain
    · refine ⟨htrail, ?_, ?_⟩
      · intro row hrow
        rw [hrow, Option.map_some] at hsame
        obtain ⟨old, hold, hcounters⟩ := Option.map_eq_some_iff.1 hsame.symm
        have hretries : old.retries = row.retries := congrArg Prod.fst hcounters
        rw [← hretries, h.retries old hold]
      · intro hnone
        rw [hnone, Option.map_none] at hsame
        exact h.absent (Option.map_eq_none_iff.1 hsame.symm)
    · refine ⟨htrail, ?_, fun _ => h.absent hnone⟩
      intro row hrow
      rw [hrow, Option.map_some] at hzero
      have hretries : row.retries = 0 := congrArg Prod.fst (Option.some.inj hzero)
      rw [hretries, h.absent hnone]

variable {c c' : Config database P α} {τ : List (Step database P α)} {id : Uuid}

/-- **Every run counts the re-kicks of a task twice**, in its row and in its trail. -/
theorem counted_of_reach (hstart : Counted c.state id 0) (h : Reach c τ c')
    (hregular : ∀ st ∈ τ, st.op.isRegular id = true) : Counted c'.state id (rekickCount id τ) := by
  refine h.induct (motive := fun (τ : List (Step database P α)) (c' : Config database P α) =>
    (∀ st ∈ τ, st.op.isRegular id = true) → Counted c'.state id (rekickCount id τ)) ?_ ?_ hregular
  · exact fun _ => hstart
  · intro τ₁ st _ hf ih hregular
    have hcount : rekickCount id (τ₁ ++ [st]) =
        rekickCount id τ₁ + if st.op.rekicked st.out = some id then 1 else 0 := by
      simp [rekickCount, List.countP_append, List.countP_singleton]
    rw [hcount]
    exact (ih fun st' hst' => hregular st' (List.mem_append_left _ hst')).step hf
      (hregular st (by simp))

/-- **What the law of the review comes to**: severity is monotone in the evidence, and the score of
an episode, read with the counter of its row, counts each re-kick once exactly if there was none.
The log may hold events of other types than this one. -/
theorem review_law (near : NearBudget) (hstart : Counted c.state id 0) (h : Reach c τ c')
    (hregular : ∀ st ∈ τ, st.op.isRegular id = true) {row : Task}
    (hrow : c'.state.tasks.find? id = some row) {events : List TrailEvent}
    (hevents : typeCount events "task.rekicked" = typeCount (c'.state.trail id) "task.rekicked")
    {episode : ReviewedEpisode} (hretries : episode.retries = row.retries) :
    ((∀ facts facts', Worse facts facts' →
        (severityOf near facts).rank ≤ (severityOf near facts').rank) ∧
      failScore (gatherFactsFromTrail events episode) =
        typeCount events "verify.failed" + typeCount events "work.retry" + rekickCount id τ) ↔
      rekickCount id τ = 0 := by
  have hcounted := counted_of_reach hstart h hregular
  rw [failScore_gather, hevents, hcounted.trail, hretries, hcounted.retries row hrow]
  constructor
  · rintro ⟨-, hscore⟩
    omega
  · intro hnone
    refine ⟨fun facts facts' hworse => severity_mono near hworse, ?_⟩
    rw [hnone]
    omega

section Example

open SweepConfig

/-- The task of a worker that dies, re-kicked once by the supervisor. -/
theorem silentRun_row : ∃ row,
    (silentRun.run silentTurns).state.tasks.find? taskT = some row ∧ row.retries = 1 := by
  have hretries : ((silentRun.run silentTurns).state.tasks.find? taskT).map (·.retries) = some 1 := by
    decide
  obtain ⟨row, hrow, hone⟩ := Option.map_eq_some_iff.1 hretries
  exact ⟨row, hrow, hone⟩

/-- One re-kick is scored two, which is flagged as repeated failures. -/
theorem rekick_counted_twice : ∃ row,
    (silentRun.run silentTurns).state.tasks.find? taskT = some row ∧
      rekickCount taskT (silentRun.trace silentTurns) = 1 ∧
      ¬ failScore (gatherFactsFromTrail ((silentRun.run silentTurns).state.trail taskT)
          ⟨"", false, false, false, 0, none, row.retries⟩) =
        typeCount ((silentRun.run silentTurns).state.trail taskT) "verify.failed" +
          typeCount ((silentRun.run silentTurns).state.trail taskT) "work.retry" +
          rekickCount taskT (silentRun.trace silentTurns) := by
  obtain ⟨row, hrow, hone⟩ := silentRun_row
  have hcount : rekickCount taskT (silentRun.trace silentTurns) = 1 := by decide
  have hevents : typeCount ((silentRun.run silentTurns).state.trail taskT) "task.rekicked" = 1 := by
    decide
  refine ⟨row, hrow, hcount, ?_⟩
  rw [failScore_gather, hevents, hcount, hone]
  dsimp only
  omega

theorem review_law_silentRun : ∃ row,
    (silentRun.run silentTurns).state.tasks.find? taskT = some row ∧
      (((∀ facts facts', Worse facts facts' →
          (severityOf .exact facts).rank ≤ (severityOf .exact facts').rank) ∧
        failScore (gatherFactsFromTrail ((silentRun.run silentTurns).state.trail taskT)
            ⟨"", false, false, false, 0, none, row.retries⟩) =
          typeCount ((silentRun.run silentTurns).state.trail taskT) "verify.failed" +
            typeCount ((silentRun.run silentTurns).state.trail taskT) "work.retry" +
            rekickCount taskT (silentRun.trace silentTurns)) ↔
        rekickCount taskT (silentRun.trace silentTurns) = 0) := by
  obtain ⟨row, hrow, -⟩ := silentRun_row
  have hstart : Counted silentRun.state taskT 0 := by
    refine ⟨by decide, ?_, fun _ => rfl⟩
    intro row hrow
    obtain rfl : freshTask 0 = row := Option.some.inj hrow
    rfl
  exact ⟨row, hrow, review_law .exact hstart (Reach.of_run silentRun silentTurns)
    (by decide) hrow rfl rfl⟩

end Example

end AiStudio.Runtime
