import AiStudio.Runtime.Planning
import Mathlib.Data.List.Forall2

/-!
# Consensus between the PM and the critic

Embeds `_plan_facts`, `_revise_plan` and `_run_consensus` of `runtime/roles/pm.py`. The critic is
an arbitrary answer for every round and every reading of the plan's facts; what the loop records
of a revision is kept in its result.
-/

set_option autoImplicit false

namespace AiStudio.Runtime.Consensus

open AiStudio.Data AiStudio.Runtime

/-! ## Plans -/

/-- The PM's structured plan. -/
structure Plan where
  restatedGoal : String := ""
  successCriteria : List String := []
  confidence : ℚ := 0
  feasible : Bool := true
  reason : String := ""
  workItems : List WorkItem := []

/-- What the critic is told of a plan. -/
structure PlanFacts where
  kind : String := "plan"
  confidence : ℚ
  threshold : ℚ
  feasible : Bool
  nItems : Nat
  nSuccessCriteria : Nat
  itemsMissingCriterion : Nat
  itemsMissingMarker : Nat
  hasDependencies : Bool

/-- `not (item.marker or "").strip()`. -/
def missingMarker (item : WorkItem) : Bool := isBlank (item.marker.getD "")

/-- `not (item.success_criterion or "").strip()`. -/
def missingCriterion (item : WorkItem) : Bool := isBlank item.successCriterion

/-- `_plan_facts`. -/
def planFacts (plan : Plan) (threshold : ℚ) : PlanFacts where
  confidence := plan.confidence
  threshold := threshold
  feasible := plan.feasible
  nItems := plan.workItems.length
  nSuccessCriteria := plan.successCriteria.length
  itemsMissingCriterion := plan.workItems.countP missingCriterion
  itemsMissingMarker := plan.workItems.countP missingMarker
  hasDependencies := plan.workItems.any fun item => !item.dependsOn.isEmpty

section Revision

variable (repr : String → String)

/-- The `i`-th item, with a marker. -/
def fillMarker (i : Nat) (item : WorkItem) : WorkItem :=
  if missingMarker item then { item with marker := some s!"studio-ok:revised:{i}" } else item

/-- The item, with a criterion that names its marker. -/
def fillCriterion (item : WorkItem) : WorkItem :=
  if missingCriterion item then
    { item with
      successCriterion :=
        "The artifact contains the marker " ++ item.marker.elim "None" repr ++ "." }
  else item

/-- The gaps of the `i`-th item are filled: the marker first, then the criterion. -/
def reviseItem (i : Nat) (item : WorkItem) : WorkItem := fillCriterion repr (fillMarker i item)

/-- The criterion of a plan that has none. -/
def aggregateCriterion (n : Nat) : String :=
  s!"All {n} work items complete and each artifact contains its success marker."

/-- `_revise_plan`. -/
def revisePlan (plan : Plan) : Plan :=
  let items := plan.workItems.mapIdx fun i item => reviseItem repr (i + 1) item
  { plan with
    workItems := items
    successCriteria :=
      if plan.successCriteria.isEmpty && !items.isEmpty then [aggregateCriterion items.length]
      else plan.successCriteria }

end Revision

/-! ## The loop -/

/-- What the critic found. -/
structure Concern where
  kind : String
  severity : String

/-- The critic's verdict on a proposal. -/
structure Critique where
  concerns : List Concern := []
  blocking : Bool := false
  recommendation : String := "proceed"

/-- How the loop ends. -/
inductive Outcome where
  | agreed
  | escalated
  deriving DecidableEq

/-- The state of the loop; `critiques` are the answers of the critic so far, `revisions` the rounds
with a recorded revision and their number of concerns. -/
structure Run where
  plan : Plan
  outcome : Outcome := .agreed
  roundsRun : Nat := 0
  concernCount : Nat := 0
  critiques : List Critique := []
  revisions : List (Nat × Nat) := []

section Loop

variable (repr : String → String) (critic : Nat → PlanFacts → Critique) (threshold : ℚ)
  (rounds : Nat)

/-- The state after the critic's answer in a round. -/
def Run.consulted (run : Run) (r : Nat) : Run :=
  let critique := critic r (planFacts run.plan threshold)
  { run with
    roundsRun := r
    concernCount := critique.concerns.length
    critiques := run.critiques ++ [critique] }

/-- The loop of `_run_consensus` over the rounds that remain. -/
def consensusLoop : List Nat → Run → Run
  | [], run => run
  | r :: rest, run =>
      let critique := critic r (planFacts run.plan threshold)
      let run := run.consulted critic threshold r
      if !critique.blocking then { run with outcome := .agreed }
      else if critique.recommendation = "escalate" || r = rounds then
        { run with outcome := .escalated }
      else
        consensusLoop rest
          { run with
            plan := revisePlan repr run.plan
            revisions := run.revisions ++ [(r, critique.concerns.length)] }

/-- `_run_consensus`. -/
def runConsensus (plan : Plan) : Run :=
  consensusLoop repr critic threshold rounds (List.range' 1 rounds) { plan }

end Loop

/-! ## Revisions -/

section Revised

variable (repr : String → String)

/-- The item afterwards: nothing is changed but a marker or a criterion that was missing. -/
structure Filled (before after : WorkItem) : Prop where
  title : after.title = before.title
  type : after.type = before.type
  instructions : after.instructions = before.instructions
  dependsOn : after.dependsOn = before.dependsOn
  marker : missingMarker before = false → after.marker = before.marker
  criterion : missingCriterion before = false → after.successCriterion = before.successCriterion

theorem Filled.refl (item : WorkItem) : Filled item item :=
  ⟨rfl, rfl, rfl, rfl, fun _ => rfl, fun _ => rfl⟩

/-- A text that begins with a character that is no blank is not blank. -/
theorem isBlank_append {c : Char} (hc : isSpace c = false) (s t : String)
    (hs : c ∈ s.toList) : isBlank (s ++ t) = false := by
  rw [isBlank, String.toList_append, List.all_append, Bool.and_eq_false_iff]
  refine .inl ?_
  rw [List.all_eq_false]
  exact ⟨c, hs, by simp [hc]⟩

theorem missingMarker_fillMarker (i : Nat) (item : WorkItem) :
    missingMarker (fillMarker i item) = false := by
  unfold fillMarker
  split
  next => exact isBlank_append (c := 's') (by decide) "studio-ok:revised:" _ (by decide)
  next h => simpa using h

theorem missingCriterion_fillCriterion (item : WorkItem) :
    missingCriterion (fillCriterion repr item) = false := by
  unfold fillCriterion
  split
  next =>
    refine isBlank_append (c := 'T') (by decide) _ "." ?_
    rw [String.toList_append, List.mem_append]
    exact .inl (by decide)
  next h => simpa using h

theorem missingMarker_fillCriterion (item : WorkItem) :
    missingMarker (fillCriterion repr item) = missingMarker item := by
  unfold fillCriterion
  split
  · rfl
  · rfl

theorem missing_reviseItem (i : Nat) (item : WorkItem) :
    missingMarker (reviseItem repr i item) = false ∧
      missingCriterion (reviseItem repr i item) = false := by
  rw [reviseItem, missingMarker_fillCriterion]
  exact ⟨missingMarker_fillMarker i item, missingCriterion_fillCriterion repr _⟩

/-- An item without gaps is left as it is. -/
theorem reviseItem_eq_self {i : Nat} {item : WorkItem} (hmarker : missingMarker item = false)
    (hcriterion : missingCriterion item = false) : reviseItem repr i item = item := by
  have hfill : fillMarker i item = item := if_neg (by simp [hmarker])
  rw [reviseItem, hfill]
  exact if_neg (by simp [hcriterion])

theorem filled_fillMarker (i : Nat) (item : WorkItem) : Filled item (fillMarker i item) := by
  unfold fillMarker
  split
  next h =>
    exact
      { title := rfl, type := rfl, instructions := rfl, dependsOn := rfl
        marker := fun hkeep => absurd (h.symm.trans hkeep) (by decide)
        criterion := fun _ => rfl }
  next => exact .refl item

theorem filled_fillCriterion (item : WorkItem) : Filled item (fillCriterion repr item) := by
  unfold fillCriterion
  split
  next h =>
    exact
      { title := rfl, type := rfl, instructions := rfl, dependsOn := rfl
        marker := fun _ => rfl
        criterion := fun hkeep => absurd (h.symm.trans hkeep) (by decide) }
  next => exact .refl item

theorem Filled.trans {a b c : WorkItem} (hab : Filled a b) (hbc : Filled b c) : Filled a c where
  title := hbc.title.trans hab.title
  type := hbc.type.trans hab.type
  instructions := hbc.instructions.trans hab.instructions
  dependsOn := hbc.dependsOn.trans hab.dependsOn
  marker h := by
    have hmid := hab.marker h
    exact (hbc.marker (by rw [missingMarker, hmid]; exact h)).trans hmid
  criterion h := by
    have hmid := hab.criterion h
    exact (hbc.criterion (by rw [missingCriterion, hmid]; exact h)).trans hmid

theorem filled_reviseItem (i : Nat) (item : WorkItem) : Filled item (reviseItem repr i item) :=
  (filled_fillMarker i item).trans (filled_fillCriterion repr _)

/-- **A second revision changes nothing.** -/
theorem revisePlan_idem (plan : Plan) :
    revisePlan repr (revisePlan repr plan) = revisePlan repr plan := by
  have hitem : ∀ i item, reviseItem repr i (reviseItem repr i item) = reviseItem repr i item := by
    intro i item
    obtain ⟨hmarker, hcriterion⟩ := missing_reviseItem repr i item
    rw [reviseItem_eq_self repr hmarker hcriterion]
  have hitems : (plan.workItems.mapIdx fun i item => reviseItem repr (i + 1) item).mapIdx
      (fun i item => reviseItem repr (i + 1) item) =
      plan.workItems.mapIdx fun i item => reviseItem repr (i + 1) item := by
    rw [List.mapIdx_mapIdx]
    simp only [Function.comp_def, hitem]
  unfold revisePlan
  simp only [hitems]
  generalize plan.workItems.mapIdx (fun i item => reviseItem repr (i + 1) item) = items
  cases hcriteria : plan.successCriteria.isEmpty with
  | false => simp [hcriteria]
  | true =>
      cases items with
      | nil => simp [hcriteria]
      | cons item items => simp

/-- The same items in the same order, with gaps filled. -/
def SameItems (plan plan' : Plan) : Prop := List.Forall₂ Filled plan.workItems plan'.workItems

theorem SameItems.refl (plan : Plan) : SameItems plan plan :=
  List.forall₂_same.2 fun item _ => .refl item

/-- **A revision keeps the items.** -/
theorem sameItems_revisePlan (plan : Plan) : SameItems plan (revisePlan repr plan) := by
  unfold SameItems revisePlan
  rw [List.forall₂_iff_get]
  refine ⟨by simp, fun i hi hi' => ?_⟩
  simpa using filled_reviseItem repr (i + 1) _

end Revised

/-! ## The outcome -/

section Outcome

variable (repr : String → String) (critic : Nat → PlanFacts → Critique) (threshold : ℚ)
  (rounds : Nat)

/-- What a run of the loop promises of the plan it is given. -/
structure ConsensusLaw (plan : Plan) (run : Run) : Prop where
  bounded : run.critiques.length ≤ rounds
  counted : run.roundsRun = run.critiques.length
  consulted : 1 ≤ rounds → run.critiques ≠ []
  agreed : run.outcome = .agreed ↔ ∀ critique ∈ run.critiques.getLast?, critique.blocking = false
  items : SameItems plan run.plan

/-- The plan of the loop is the given one or its revision. -/
def Revised (plan current : Plan) : Prop := current = plan ∨ current = revisePlan repr plan

variable {repr}

theorem Revised.revisePlan {plan current : Plan} (h : Revised repr plan current) :
    Revised repr plan (revisePlan repr current) := by
  rcases h with rfl | rfl
  · exact .inr rfl
  · exact .inr (revisePlan_idem repr plan)

theorem Revised.sameItems {plan current : Plan} (h : Revised repr plan current) :
    SameItems plan current := by
  rcases h with rfl | rfl
  · exact .refl current
  · exact sameItems_revisePlan repr plan

variable {critic threshold rounds}

/-- A round that ends the loop: its answer is the last one, and decides the outcome. -/
theorem law_of_ended {plan : Plan} {r : Nat} {run ended : Run} (hbound : r ≤ rounds)
    (hcount : run.critiques.length + 1 = r) (hplan : Revised repr plan run.plan)
    (hended : ended = { run.consulted critic threshold r with outcome := ended.outcome })
    (houtcome : ended.outcome = .agreed ↔
      (critic r (planFacts run.plan threshold)).blocking = false) :
    ConsensusLaw rounds plan ended := by
  have hcritiques : ended.critiques =
      run.critiques ++ [critic r (planFacts run.plan threshold)] := by rw [hended]; rfl
  have hlength : ended.critiques.length = r := by
    rw [hcritiques, List.length_append, List.length_singleton, hcount]
  exact
    { bounded := hlength.trans_le hbound
      counted := by
        rw [hlength, hended]
        rfl
      consulted := fun _ => by
        rw [hcritiques]
        exact List.append_ne_nil_of_right_ne_nil _ (List.cons_ne_nil _ _)
      agreed := by
        rw [houtcome, hcritiques, List.getLast?_concat]
        simp
      items := by
        rw [hended]
        exact hplan.sameItems }

/-- Induction on the rounds that remain: one of them ends the loop, the last at the latest. -/
theorem consensusLoop_law {plan : Plan} (n : Nat) {r : Nat} {run : Run}
    (hlast : r + n = rounds) (hcount : run.critiques.length + 1 = r)
    (hplan : Revised repr plan run.plan) :
    ConsensusLaw rounds plan
      (consensusLoop repr critic threshold rounds (List.range' r (n + 1)) run) := by
  induction n generalizing r run with
  | zero =>
      have hrange : List.range' r (0 + 1) = [r] := rfl
      have hr : r = rounds := by omega
      rw [hrange, consensusLoop]
      cases hblocking : (critic r (planFacts run.plan threshold)).blocking with
      | false => exact law_of_ended hr.le hcount hplan rfl (by simp [hblocking])
      | true =>
          simp only [Bool.not_true, Bool.false_eq_true, if_false, hr, decide_true, Bool.or_true,
            if_true]
          subst hr
          exact law_of_ended le_rfl hcount hplan rfl (by simp [hblocking])
  | succ n ih =>
      have hrange : List.range' r (n + 1 + 1) = r :: List.range' (r + 1) (n + 1) := rfl
      have hr : r ≤ rounds := by omega
      rw [hrange, consensusLoop]
      cases hblocking : (critic r (planFacts run.plan threshold)).blocking with
      | false => exact law_of_ended hr hcount hplan rfl (by simp [hblocking])
      | true =>
          simp only [Bool.not_true, Bool.false_eq_true, if_false]
          split
          next => exact law_of_ended hr hcount hplan rfl (by simp [hblocking])
          next =>
            -- the revised plan goes into the next round
            refine ih (by omega) ?_ hplan.revisePlan
            change (run.critiques ++ [_]).length + 1 = r + 1
            rw [List.length_append, List.length_singleton, hcount]

end Outcome

end AiStudio.Runtime.Consensus
