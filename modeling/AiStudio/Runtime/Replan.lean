import AiStudio.Runtime.Planning
import AiStudio.Runtime.Prerequisites

/-!
# Stuck tasks and their dependents

Embeds `run_pm_replan` of `runtime/roles/pm.py`. A stuck task is abandoned and stays so; the
replan enqueues subtasks under new ids and writes no row that exists. So a task that waits for
the abandoned one, or for a task that does, is never claimed through the gate again, whatever
merges meanwhile (`stranded_of_reach`).
-/

set_option autoImplicit false

namespace AiStudio.Runtime

open AiStudio.Data AiStudio.Concurrency

/-! ## `run_pm_replan` -/

/-- `ReplanResult`. -/
structure ReplanResult where
  stuckTaskId : Uuid
  decision : String := "replanned"
  goal : String := ""
  replanDepth : Int := 0
  maxDepth : Int
  subtaskIds : List Uuid := []
  approvalId : Option Uuid := none
  missing : Bool := false

/-- `result.model_dump()`. -/
def ReplanResult.dump (result : ReplanResult) : Doc :=
  [("stuck_task_id", .str result.stuckTaskId.text), ("decision", .str result.decision),
    ("goal", .str result.goal), ("replan_depth", .int result.replanDepth),
    ("max_depth", .int result.maxDepth), ("subtask_count", .int result.subtaskIds.length),
    ("subtask_ids", .arr (result.subtaskIds.map fun id => .str id.text)),
    ("approval_id", .ofOption (fun id => .str id.text) result.approvalId),
    ("missing", .bool result.missing)]

/-- `_replan_goal`. -/
def replanGoal (payload : Doc) : String :=
  (firstText payload ["goal", "objective", "instructions", "title"]).getD defaultObjective

/-- The marker of one of the two halves of a stuck task. -/
def halfMarker (stuckId : Uuid) (part : String) : String :=
  "studio-ok:replan:" ++ stuckId.text ++ ":" ++ part

/-- `_smaller_subtasks`: a plan of fewer than two items is replaced by two halves. -/
def smallerSubtasks (goal : String) (items : List WorkItem) (stuckId : Uuid) : List WorkItem :=
  if 2 ≤ items.length then items
  else
    let base := if goal.length ≤ 70 then goal else String.ofList (goal.toList.take 67) ++ "..."
    [{ title := "Subtask 1/2: draft — " ++ base
       instructions := "Produce the first, smaller half of the goal: " ++ goal
       successCriterion := "The part-1 artifact exists and contains the marker '" ++
         halfMarker stuckId "1" ++ "'."
       marker := some (halfMarker stuckId "1") },
     { title := "Subtask 2/2: finalize — " ++ base
       instructions := "Complete the remaining, smaller half of the goal: " ++ goal
       successCriterion := "The part-2 artifact exists and contains the marker '" ++
         halfMarker stuckId "2" ++ "'."
       marker := some (halfMarker stuckId "2")
       dependsOn := [1] }]

/-- `int` of a payload value. -/
def pyInt (truncate : FloatRepr → Except Exn Int) : Json Empty → Except Exn Int
  | .int n => .ok n
  | .bool b => .ok (if b then 1 else 0)
  | .float x => truncate x
  | .str s =>
      match readInt s with
      | some n => .ok n
      | none => .error (.valueError "invalid literal for int() with base 10")
  | _ => .error (.runtimeError "int() argument must be a string or a real number")

/-- What `run_pm_replan` is given: how it obtains a plan for a task, the cap, the ids the
database draws for the items, and what the language does with texts and floats. -/
structure Replanner where
  sha256 : String → String
  repr : String → String
  truncate : FloatRepr → Except Exn Int
  cap : Int := 2
  obtainPlan : Seam (List WorkItem)
  newId : Nat → Uuid

namespace Replanner

variable (r : Replanner)

/-- `int(payload.get("replan_depth", 0) or 0)`. -/
def depth (payload : Doc) : Except Exn Int :=
  let value := Doc.getD payload "replan_depth" (.int 0)
  if value.truthy then pyInt r.truncate value else .ok 0

/-- The decomposition of a stuck task into the items of a plan. -/
def decomposition (stuckId : Uuid) (goal : String) (depth : Int) (items : List WorkItem) :
    Decomposition where
  items := smallerSubtasks goal items stuckId
  goal := goal
  owner := "studio-ok:replan:" ++ stuckId.text
  link := [("replan_of", .str stuckId.text), ("parent_task_id", .str stuckId.text),
    ("replan_depth", .int (depth + 1))]
  repr := r.repr
  newId := r.newId

/-- At the cap a human has to decide. -/
def escalate (newId stuckId : Uuid) (stuck : Task) (depth : Int) : Process ReplanResult := do
  let reason := "task repeatedly stuck: replan depth " ++ toString depth ++ " reached the cap " ++
    toString r.cap ++ "; a human must replan / rescope it (no further auto re-decomposition)"
  let (approvalId, _) ← requestApproval newId
    (roleRequest r.sha256 "pm" "pm.replan" reason stuckId stuck)
  call (.emit (some stuckId) stuck.workstream
    (.taskReplanEscalated depth r.cap (some approvalId.text)))
  return { stuckTaskId := stuckId, decision := "escalated", goal := replanGoal stuck.payload
           replanDepth := depth, maxDepth := r.cap, approvalId := some approvalId }

/-- Below the cap the task is decomposed anew. -/
def redecompose (stuckId : Uuid) (stuck : Task) (depth : Int) : Process ReplanResult := do
  let goal := replanGoal stuck.payload
  let items ← r.obtainPlan.program stuckId stuck
  let linked ← (call (.getTask stuckId)).tryCatch fun _ => .ret none
  let ids ← (r.decomposition stuckId goal depth items).run stuck
    ((linked : Option Task).bind Task.trajectoryId)
  call (.emit (some stuckId) stuck.workstream (.taskReplanned ids (depth + 1)))
  return { stuckTaskId := stuckId, goal := goal, replanDepth := depth + 1, maxDepth := r.cap
           subtaskIds := ids }

/-- `run_pm_replan`. -/
def run (newId stuckId : Uuid) : Process ReplanResult := do
  let stuck ← call (.getTask stuckId)
  match stuck with
  | none => return { stuckTaskId := stuckId, missing := true, maxDepth := r.cap }
  | some stuck =>
      match r.depth stuck.payload with
      | .error e => .throw e
      | .ok depth =>
          if r.cap ≤ depth then r.escalate newId stuckId stuck depth
          else r.redecompose stuckId stuck depth

end Replanner

/-! ## Stranded tasks -/

/-- The task can never merge: it is abandoned, or it is up for grabs and waits for a task that
never can. -/
inductive Store.Stranded (s : Store) : Uuid → Prop where
  | abandoned {t : Uuid} {row : Task} (found : s.tasks.find? t = some row)
      (gone : row.status = .abandoned) : Stranded s t
  | waits {t dep : Uuid} {row : Task} (found : s.tasks.find? t = some row)
      (grab : row.status = .upForGrabs) (needs : dep ∈ row.dependsOn) (h : Stranded s dep) :
      Stranded s t

/-- The call forces nothing, and claims only through the gate of the grab. -/
def StoreOp.keepsGate : StoreOp → Bool
  | .transition _ target a => !a.force && target ≠ .claimed
  | _ => true

section Stranded

variable {s : Store}

theorem Store.Stranded.status {t : Uuid} (h : s.Stranded t) :
    ∃ row, s.tasks.find? t = some row ∧ (row.status = .abandoned ∨ row.status = .upForGrabs) := by
  cases h with
  | abandoned found gone => exact ⟨_, found, Or.inl gone⟩
  | waits found grab needs h => exact ⟨_, found, Or.inr grab⟩

/-- The gate of a task that waits for a stranded one is shut. -/
theorem Store.Stranded.shuts {dep : Uuid} (h : s.Stranded dep) {row : Task}
    (needs : dep ∈ row.dependsOn) : s.depsMerged row = false := by
  obtain ⟨p, hp, hstatus⟩ := h.status
  have hunmet : s.unmet row = true := by
    refine List.any_eq_true.2 ⟨dep, needs, ?_⟩
    rw [hp, Option.any_some, decide_eq_true_eq]
    rcases hstatus with hstatus | hstatus <;> rw [hstatus] <;> decide
  rw [s.depsMerged_eq_not_unmet, hunmet]
  rfl

/-- Nobody may grab a stranded task. -/
theorem Store.Stranded.not_mayGrab {t : Uuid} (h : s.Stranded t) : ¬ MayGrab s t := by
  rw [mayGrab_iff]
  rintro ⟨row, hrow, hgrab, hdeps⟩
  cases h with
  | abandoned found gone =>
      obtain rfl := Option.some.inj (hrow.symm.trans found)
      rw [gone] at hgrab
      cases hgrab
  | waits found grab needs h =>
      obtain rfl := Option.some.inj (hrow.symm.trans found)
      rw [h.shuts needs] at hdeps
      cases hdeps

theorem target_of_upForGrabs {target : TaskStatus}
    (h : canTransition .upForGrabs target = true) : target = .claimed ∨ target = .abandoned := by
  revert h
  cases target <;> decide

/-- A move that keeps the gate is not forced. -/
theorem legal_of_keepsGate {o : StoreOp} {m : Move} {row : Task} (hgate : o.keepsGate = true)
    (hmakes : o.Makes s m row) (hadmits : m.Admits s row) :
    canTransition row.status m.target = true := by
  rcases hadmits.legal with hforce | hcan
  · rw [hmakes.eq_transition hforce, StoreOp.keepsGate, hforce] at hgate
    cases hgate
  · exact hcan

/-- Who claims went through the gate. -/
theorem depsMerged_of_claims {o : StoreOp} {m : Move} {row : Task} (hgate : o.keepsGate = true)
    (hmakes : o.Makes s m row) (hclaims : m.target = .claimed) : s.depsMerged row = true := by
  cases o with
  | grabTask a locked =>
      have hgrab := hmakes.2.2.2
      simp only [GrabArgs.grabbable, Bool.and_eq_true] at hgrab
      exact hgrab.2
  | transition id target a =>
      obtain rfl : m = ⟨id, target, a⟩ := hmakes
      obtain rfl : target = .claimed := hclaims
      rw [StoreOp.keepsGate, decide_eq_false (not_not.2 rfl), Bool.and_false] at hgate
      cases hgate
  | rekickTask id made =>
      obtain ⟨rfl, -⟩ := hmakes
      cases hclaims
  | escalateStuckTask id reason count retries =>
      obtain rfl : m = _ := hmakes
      cases hclaims
  | failExhausted id scanned maxRetries =>
      obtain rfl : m = _ := hmakes
      cases hclaims
  | requestDecision d a =>
      rw [hmakes.2.1] at hclaims
      cases hclaims
  | answerDecision d answer resolver at? =>
      rw [hmakes.2.1] at hclaims
      cases hclaims
  | withdrawDecision d resolver at? =>
      rw [hmakes.2.1] at hclaims
      cases hclaims
  | _ => exact hmakes.elim

/-- A call that keeps the gate leaves an abandoned task abandoned. -/
theorem Rewrites.abandoned {o : StoreOp} {t : Uuid} {row row' : Task} (hgate : o.keepsGate = true)
    (h : Rewrites o s t row row') (hgone : row.status = .abandoned) : row'.status = .abandoned := by
  have hheld : row.status.isHeld = true → row'.status = .abandoned := by
    rw [hgone]
    exact fun h => by cases h
  cases h with
  | moved m hid makes admits plain =>
      have hcan := legal_of_keepsGate hgate makes admits
      rw [hgone, canTransition_of_isTerminal (by decide)] at hcan
      cases hcan
  | beat workerId op claimant held => exact hheld held
  | spent tokens op => exact hgone
  | patched status reason workTaskIds op => exact hgone
  | nudged grace op held first => exact hheld held
  | rekicked made op held => exact hheld held
  | escalated reason count retries op held => exact hheld held
  | failed scanned maxRetries op held => exact hheld held

/-- A call that keeps the gate leaves a task up for grabs whose gate is shut, or abandons it. -/
theorem Rewrites.shut {o : StoreOp} {t : Uuid} {row row' : Task} (hgate : o.keepsGate = true)
    (h : Rewrites o s t row row') (hgrab : row.status = .upForGrabs)
    (hshut : s.depsMerged row = false) :
    row'.status = .abandoned ∨ row'.status = .upForGrabs := by
  have hheld : row.status.isHeld = true → row'.status = .abandoned ∨ row'.status = .upForGrabs := by
    rw [hgrab]
    exact fun h => by cases h
  cases h with
  | moved m hid makes admits plain =>
      have hcan := legal_of_keepsGate hgate makes admits
      rw [hgrab] at hcan
      rcases target_of_upForGrabs hcan with htarget | htarget
      · rw [depsMerged_of_claims hgate makes htarget] at hshut
        cases hshut
      · exact Or.inl htarget
  | beat workerId op claimant held => exact hheld held
  | spent tokens op => exact Or.inr hgrab
  | patched status reason workTaskIds op => exact Or.inr hgrab
  | nudged grace op held first => exact hheld held
  | rekicked made op held => exact hheld held
  | escalated reason count retries op held => exact hheld held
  | failed scanned maxRetries op held => exact hheld held

variable {P α : Type} [DecidableEq P]

/-- An abandoned task stays abandoned. -/
theorem abandoned_step {st : Step database P α} (hf : Fires st) (hgate : st.op.keepsGate = true)
    {t : Uuid} (h : ∃ row, st.before.state.tasks.find? t = some row ∧ row.status = .abandoned) :
    ∃ row, st.after.state.tasks.find? t = some row ∧ row.status = .abandoned := by
  obtain ⟨row, found, gone⟩ := h
  cases step_rowEffect hf t with
  | same hrow => exact ⟨row, hrow.trans found, gone⟩
  | created a ws op fresh hrow => rw [found] at fresh; cases fresh
  | wrote row₁ row' found₁ rewrites hrow =>
      obtain rfl := Option.some.inj (found.symm.trans found₁)
      exact ⟨row', hrow, rewrites.abandoned hgate gone⟩

/-- **One step strands no fewer tasks.** -/
theorem Store.Stranded.step {st : Step database P α} (hf : Fires st)
    (hgate : st.op.keepsGate = true) {t : Uuid} (h : st.before.state.Stranded t) :
    st.after.state.Stranded t := by
  induction h with
  | abandoned found gone =>
      obtain ⟨row', found', gone'⟩ := abandoned_step hf hgate ⟨_, found, gone⟩
      exact .abandoned found' gone'
  | waits found grab needs hdep ih =>
      rename_i t dep row
      cases step_rowEffect hf t with
      | same hrow => exact .waits (hrow.trans found) grab needs ih
      | created a ws op fresh hrow => rw [found] at fresh; cases fresh
      | wrote row₁ row' found₁ rewrites hrow =>
          obtain rfl := Option.some.inj (found.symm.trans found₁)
          rcases rewrites.shut hgate grab (hdep.shuts needs) with hgone | hgrab
          · exact .abandoned hrow hgone
          · refine .waits hrow hgrab ?_ ih
            rw [rewrites.dependsOn]
            exact needs

theorem Store.Stranded.reach {c c' : Config database P α} {τ : List (Step database P α)}
    (h : Reach c τ c') (hgate : ∀ st ∈ τ, st.op.keepsGate = true) {t : Uuid}
    (hstr : c.state.Stranded t) : c'.state.Stranded t :=
  h.invariant (fun c => c.state.Stranded t) (fun st : Step database P α => st.op.keepsGate = true)
    hgate hstr
    fun _ hf hst h => h.step hf hst

/-! ## The dependents of an abandoned task -/

/-- A task up for grabs and one of its prerequisites. -/
def Store.Needs (s : Store) (t dep : Uuid) : Prop :=
  ∃ row, s.tasks.find? t = some row ∧ row.status = .upForGrabs ∧ dep ∈ row.dependsOn

/-- The task is up for grabs and depends on the other, directly or through tasks up for grabs. -/
def Store.Awaits (s : Store) (t stuck : Uuid) : Prop := Relation.TransGen s.Needs t stuck

omit [DecidableEq P] in
theorem Store.Awaits.stranded {stuck t : Uuid} (h : s.Awaits t stuck) {row : Task}
    (found : s.tasks.find? stuck = some row) (gone : row.status = .abandoned) : s.Stranded t := by
  induction h using Relation.TransGen.head_induction_on with
  | single hneeds =>
      obtain ⟨row', found', grab, needs⟩ := hneeds
      exact .waits found' grab needs (.abandoned found gone)
  | head hneeds _ ih =>
      obtain ⟨row', found', grab, needs⟩ := hneeds
      exact .waits found' grab needs ih

/-- A task up for grabs that needs an abandoned one is listed as blocked by it. -/
theorem Store.Needs.blocked {t stuck : Uuid} (h : s.Needs t stuck) {row : Task}
    (found : s.tasks.find? stuck = some row) (gone : row.status = .abandoned) :
    ∃ w ∈ s.waitingTasks, w.id = t ∧ w.blockedByAbandoned = true := by
  obtain ⟨row', found', grab, needs⟩ := h
  have hunmet : s.unmet row' = true := by
    refine List.any_eq_true.2 ⟨stuck, needs, ?_⟩
    rw [found, Option.any_some, gone]
    decide
  refine ⟨s.waitingTask (t, row'), ?_, rfl, ?_⟩
  · refine List.mem_map_of_mem ((List.mem_insertionSort _).2 ?_)
    rw [Table.mem_select]
    refine ⟨found', ?_⟩
    simp [grab, hunmet, Store.length_pos_of_unmet hunmet]
  · refine List.any_eq_true.2 ⟨(stuck, row), ?_, by simp [gone]⟩
    rw [Table.mem_select]
    exact ⟨found, by simp [needs, gone]⟩

/-- Who is claimed by a grab could be grabbed. -/
theorem mayGrab_of_grabbed {st : Step database P α} (hf : Fires st) {t : Uuid}
    (hclaim : st.op.grabbed st.out = some t) : MayGrab st.before.state t := by
  obtain ⟨a, locked, row, -, hpick, -⟩ := step_grabbed hf hclaim
  obtain ⟨hrow, hgrabbable, -⟩ := GrabArgs.pick_eq_some hpick
  refine (mayGrab_iff _ _).2 ⟨row, hrow, GrabArgs.status_of_grabbable hgrabbable, ?_⟩
  simp only [GrabArgs.grabbable, Bool.and_eq_true] at hgrabbable
  exact hgrabbable.2

omit [DecidableEq P] in
theorem PrereqsMerged.mayGrab {t : Uuid} (h : PrereqsMerged s t)
    (hgrab : s.status? t = some .upForGrabs) : MayGrab s t := by
  obtain ⟨row, hrow, hmerged⟩ := h
  rw [Store.status?_of_find? hrow] at hgrab
  refine (mayGrab_iff _ _).2 ⟨row, hrow, Option.some.inj hgrab, ?_⟩
  refine List.all_eq_true.2 fun dep hdep => ?_
  cases hp : s.tasks.find? dep with
  | none => rfl
  | some p =>
      have hst := hmerged dep hdep
      rw [Store.status?_of_find? hp] at hst
      simpa using hst

/-- **Nobody replaces an abandoned prerequisite.** In every run that claims through the gate
only, a task that depends on an abandoned one, directly or through tasks up for grabs, is never
claimed: it stays up for grabs and listed as waiting, or is abandoned itself. A task up for grabs
of which all prerequisites are merged may be grabbed. -/
theorem stranded_of_reach {c c' : Config database P α} {τ : List (Step database P α)}
    (h : Reach c τ c') (hgate : ∀ st ∈ τ, st.op.keepsGate = true) :
    (∀ stuck t, c.state.status? stuck = some .abandoned → c.state.Awaits t stuck →
      (∀ st ∈ τ, st.op.grabbed st.out ≠ some t) ∧
      (c'.state.status? t = some .abandoned ∨
        c'.state.status? t = some .upForGrabs ∧ ¬ MayGrab c'.state t ∧
          t ∈ c'.state.waitingTasks.map WaitingTask.id) ∧
      (c'.state.Needs t stuck →
        ∃ w ∈ c'.state.waitingTasks, w.id = t ∧ w.blockedByAbandoned = true)) ∧
    ∀ t, c'.state.status? t = some .upForGrabs → PrereqsMerged c'.state t → MayGrab c'.state t := by
  refine ⟨fun stuck t hstuck hawaits => ?_, fun t hgrab hmerged => hmerged.mayGrab hgrab⟩
  obtain ⟨row, found, gone⟩ := Store.find?_of_status? hstuck
  have hstr := hawaits.stranded found gone
  have hend := hstr.reach h hgate
  refine ⟨fun st hst hclaim => ?_, ?_, fun hneeds => ?_⟩
  · obtain ⟨τ₁, τ₂, rfl⟩ := List.append_of_mem hst
    obtain ⟨hf, hr, -⟩ := h.split_at
    have hmid := hstr.reach hr fun st' hst' => hgate st' (List.mem_append_left _ hst')
    exact hmid.not_mayGrab (mayGrab_of_grabbed hf hclaim)
  · obtain ⟨row', hrow', hstatus⟩ := hend.status
    have hst := Store.status?_of_find? hrow'
    rcases hstatus with hstatus | hstatus
    · exact Or.inl (by rw [hst, hstatus])
    · rw [hstatus] at hst
      exact Or.inr ⟨hst, hend.not_mayGrab, (mem_waitingTasks_iff _ _).2 ⟨hst, hend.not_mayGrab⟩⟩
  · have habandoned := h.invariant
      (fun c => ∃ row, c.state.tasks.find? stuck = some row ∧ row.status = .abandoned)
      (fun st : Step database P α => st.op.keepsGate = true) hgate ⟨row, found, gone⟩
      fun _ hf hst hgone => abandoned_step hf hst hgone
    obtain ⟨row', found', gone'⟩ := habandoned
    exact hneeds.blocked found' gone'

end Stranded

/-! ## A replanned task with a dependent -/

/-- The stuck task, its dependent, and its two subtasks. -/
def stuckTask : Uuid := ⟨"0c8f1f5e-2f0b-4a39-9a70-3f4f0c1d2e91", by decide⟩
def dependentTask : Uuid := ⟨"0c8f1f5e-2f0b-4a39-9a70-3f4f0c1d2e92", by decide⟩
def firstHalf : Uuid := ⟨"0c8f1f5e-2f0b-4a39-9a70-3f4f0c1d2e93", by decide⟩
def secondHalf : Uuid := ⟨"0c8f1f5e-2f0b-4a39-9a70-3f4f0c1d2e94", by decide⟩

/-- A PM whose plans have no items, so that it halves what is stuck. -/
def halving : Replanner where
  sha256 := id
  repr text := "'" ++ text ++ "'"
  truncate _ := .ok 0
  obtainPlan := .answer []
  newId i := if i = 1 then firstHalf else secondHalf

/-- A task is enqueued with a dependent, gets stuck and is replanned, and its subtasks merge. -/
def replannedRun : Config database Unit Unit :=
  ⟨Store.initial 0, fun _ => do
    let _ ← call (.enqueueTask stuckTask { workstream := "productivity", type := "work.doc" })
    let _ ← call (.enqueueTask dependentTask
      { workstream := "productivity", type := "work.doc", dependsOn := [stuckTask] })
    let _ ← claimTask { workerId := "w1" } []
    let _ ← call (.escalateStuckTask stuckTask "no_progress" 2 2)
    let _ ← halving.run danglingId stuckTask
    let _ ← claimTask { workerId := "w1" } []
    let _ ← completeTask firstHalf {}
    let _ ← claimTask { workerId := "w1" } []
    let _ ← completeTask secondHalf {}
    return ()⟩

/-- The event says that the task was replanned into the subtasks. -/
def Event.replans (stuck : Uuid) (subtasks : List Uuid) (e : Event) : Bool :=
  match e.payload with
  | .sink (.taskReplanned ids _) => e.taskId = some stuck && ids = subtasks
  | _ => false

/-- Once the subtasks of a stuck task are merged, its dependents may be grabbed as soon as their
other prerequisites are merged. -/
def DependentsServed (s : Store) : Prop :=
  ∀ stuck subtasks t row, s.events.any (Event.replans stuck subtasks) = true →
    (∀ id ∈ subtasks, s.status? id = some .merged) → s.tasks.find? t = some row →
    row.status = .upForGrabs → stuck ∈ row.dependsOn →
    (∀ dep ∈ row.dependsOn, dep ≠ stuck → s.status? dep = some .merged) → MayGrab s t

/-- **The dependent of the replanned task waits on.** -/
theorem replan_strands_dependent :
    ¬ ∀ τ c', Reach replannedRun τ c' → DependentsServed c'.state := by
  intro hall
  have hserved := hall _ _ (Reach.of_run replannedRun (List.replicate 20 ((), none)))
  have hreplanned : (replannedRun.run (List.replicate 20 ((), none))).state.events.any
      (Event.replans stuckTask [firstHalf, secondHalf]) = true := by decide
  have hmerged : ∀ id ∈ [firstHalf, secondHalf],
      (replannedRun.run (List.replicate 20 ((), none))).state.status? id = some .merged := by
    decide
  have hrow : ((replannedRun.run (List.replicate 20 ((), none))).state.tasks.find?
      dependentTask).any (fun row => row.status = .upForGrabs && row.dependsOn = [stuckTask] &&
        !(replannedRun.run (List.replicate 20 ((), none))).state.depsMerged row) = true := by
    decide
  simp only [Option.any_eq_true, Bool.and_eq_true, decide_eq_true_eq, Bool.not_eq_true'] at hrow
  obtain ⟨row, hfound, ⟨hgrab, hdeps⟩, hshut⟩ := hrow
  have hmay := hserved stuckTask _ dependentTask row hreplanned hmerged hfound hgrab (by simp [hdeps])
    fun dep hdep hne => absurd (List.mem_singleton.1 (hdeps ▸ hdep)) hne
  obtain ⟨row', hfound', -, hopen⟩ := (mayGrab_iff _ _).1 hmay
  obtain rfl := Option.some.inj (hfound.symm.trans hfound')
  rw [hshut] at hopen
  cases hopen

/-- The state in which the task is stuck, and the run from it. -/
theorem stranded_of_replan :
    let c := replannedRun.run (List.replicate 5 ((), none))
    c.state.Awaits dependentTask stuckTask ∧
      ∀ st ∈ c.trace (List.replicate 15 ((), none)), st.op.grabbed st.out ≠ some dependentTask := by
  have hstuck : (replannedRun.run (List.replicate 5 ((), none))).state.status? stuckTask =
      some .abandoned := by decide
  have hrow : ((replannedRun.run (List.replicate 5 ((), none))).state.tasks.find?
      dependentTask).any (fun row => row.status = .upForGrabs && row.dependsOn = [stuckTask]) =
        true := by decide
  simp only [Option.any_eq_true, Bool.and_eq_true, decide_eq_true_eq] at hrow
  obtain ⟨row, hfound, hgrab, hdeps⟩ := hrow
  have hawaits : (replannedRun.run (List.replicate 5 ((), none))).state.Awaits dependentTask
      stuckTask := .single ⟨row, hfound, hgrab, by simp [hdeps]⟩
  exact ⟨hawaits, ((stranded_of_reach (Reach.of_run _ (List.replicate 15 ((), none)))
    (by decide)).1 _ _ hstuck hawaits).1⟩

end AiStudio.Runtime
