import AiStudio.Runtime.Intake
import AiStudio.Runtime.Replan

/-!
# The worker as the studio wires it

`AiStudio.Runtime.Worker` leaves what a role enqueues to its seams. Here the seams of a worker are
those of the source: the PM commissions a research scan and decomposes its plan, a replan and an
accepted request enqueue work items, a retro nominates its episode to the Curator, and no other
part of a role enqueues anything.
-/

set_option autoImplicit false

namespace AiStudio.Runtime

open AiStudio.Data AiStudio.Concurrency

/-! ## Ranks -/

/-- A task of a rank leads to tasks of lower ranks only. -/
def Worker.Handler.rank : Worker.Handler → Nat
  | .pmTick => 3
  | .replan => 3
  | .featureRequest => 3
  | .work => 2
  | .commit .retro => 1
  | _ => 0

/-- The rank of a task type. -/
def rank (type : String) : Nat := ((Worker.resolveHandler type).map Worker.Handler.rank).getD 0

/-- The call moves no task, and what it enqueues is of lower rank. -/
def StoreOp.FollowsUp (n : Nat) : StoreOp → Prop
  | .enqueueTask _ a => rank a.type < n
  | o => o.sparesQueue = true

theorem StoreOp.FollowsUp.spares {n : Nat} {o : StoreOp} (h : o.FollowsUp n) :
    o.sparesQueue = true := by
  cases o <;> first | rfl | exact h

/-- What the PM makes of a plan is work. -/
theorem rank_of_work {type : String} (h : "work.".toList.isPrefixOf type.toList = true) :
    rank type < 3 := by
  unfold rank Worker.resolveHandler
  cases hexact : Worker.exactHandler type with
  | none =>
      simp only [h, if_true]
      decide
  | some handler =>
      revert hexact
      unfold Worker.exactHandler
      split <;> intro hexact <;> cases hexact <;>
        first | decide | exact absurd h (by decide)

/-! ## Parts of roles that enqueue nothing -/

/-- The call is neither a move nor an enqueue. -/
def StoreOp.isInner : StoreOp → Bool
  | .enqueueTask .. => false
  | o => o.sparesQueue

theorem StoreOp.sparesQueue_of_isInner {o : StoreOp} (h : o.isInner = true) :
    o.sparesQueue = true := by
  cases o <;> first | rfl | exact h

/-- A part of a role that neither moves a task nor enqueues one. -/
structure Part (α : Type) where
  program : Uuid → Task → Process α
  inner : ∀ id row, (program id row).Only fun o : StoreOp => o.isInner = true

namespace Part

variable {α : Type} (p : Part α)

/-- A part that does nothing but answer. -/
def answer (a : α) : Part α := ⟨fun _ _ => .ret a, fun _ _ => .ret a⟩

theorem spares (id : Uuid) (row : Task) :
    (p.program id row).Only fun o : StoreOp => o.sparesQueue = true :=
  (p.inner id row).mono fun _ => StoreOp.sparesQueue_of_isInner

/-- The part as a seam. -/
def seam : Seam α := ⟨p.program, fun id row => holds_roleOutline (p.spares id row)⟩

end Part

/-! ## What the roles enqueue -/

/-- `EXTERNAL_RESEARCH_GOAL`. -/
def externalResearchGoal : String :=
  "Scan the latest industrial developments (tools, frameworks, paradigms, best practices) relevant " ++
  "to the studio; propose reviewable candidates to adopt or borrow. Weigh build vs. buy/borrow; " ++
  "do not auto-adopt."

/-- The enqueue of `_maybe_commission_research`. -/
def researchArgs (row : Task) : EnqueueArgs where
  workstream := row.workstream.name
  type := "research"
  payload := [("goal", .str externalResearchGoal), ("topic", .str externalResearchGoal),
    ("origin", .str "pm_external_scan"), ("commissioned_by", .str "pm")]
  priority := row.priority

/-- The enqueue of a retro that nominates its episode. -/
def curateArgs (row : Task) : EnqueueArgs where
  workstream := row.workstream.name
  type := "curate"
  payload :=
    let targetType := Doc.getD row.payload "target_task_type" .null
    [("trigger", .str "retro"),
      ("target_task_type", if targetType.truthy then targetType else .str "work")]
  priority := row.priority

/-- What a retro reports beside the nomination, and whether it nominates. -/
structure RetroReport where
  facts : Doc := []
  worthCrystallizing : Bool := false

/-- What the roles of one pass are given: the parts that enqueue nothing, the work items of the
plans, and the ids the database draws. -/
structure Staff where
  sha256 : String → String
  repr : String → String
  str : Json Empty → String
  truncate : FloatRepr → Except Exn Int
  registry : ToolRegistry
  config : Workstream → Policy.PolicyConfig
  maxAttempts : Nat := 2
  retroMode : RetroMode := .onFail
  reviewMode : ReviewMode := .onRisk
  approvalId : Nat → Uuid
  retroId : Uuid
  reviewId : Uuid
  curateId : Uuid
  researchId : Uuid
  newId : Nat → Uuid
  complete : Part String
  verify : ExecutorResult → Part Verdict
  resolveIntensity : ReviewMode → RetroMode → Part (ReviewMode × RetroMode)
  retro : Part RetroReport
  commit : CommitRole → Part Doc
  prep : Part Doc
  scanDue : Part Bool
  plan : Part Plan
  items : List WorkItem := []
  trajectoryId : Option Uuid := none
  replanCap : Int := 2
  replan : Part (List WorkItem)

namespace Staff

variable (staff : Staff)

/-- `_maybe_commission_research`: a failure is logged and dropped. -/
def commissionResearch (id : Uuid) (row : Task) : Process Unit := do
  let due ← (staff.scanDue.program id row).tryCatch fun _ => .ret false
  if due then
    ((call (.enqueueTask staff.researchId (researchArgs row))).bind fun _ => .ret ()).tryCatch
      fun _ => .ret ()
  else .ret ()

/-- What `run_pm_tick` does up to its gate. -/
def obtainPlan (id : Uuid) (row : Task) : Process Plan := do
  staff.commissionResearch id row
  staff.plan.program id row

/-- `run_retro`. -/
def runRetro (id : Uuid) (row : Task) : Process Doc := do
  let report ← staff.retro.program id row
  if report.worthCrystallizing then do
    let _ ← call (.enqueueTask staff.curateId (curateArgs row))
    return report.facts ++
      [("crystallize_enqueued", .bool true), ("curate_task_id", .str staff.curateId.text)]
  else
    return report.facts ++ [("crystallize_enqueued", .bool false), ("curate_task_id", .null)]

/-- `run_pm_replan`. -/
def replanner : Replanner where
  sha256 := staff.sha256
  repr := staff.repr
  truncate := staff.truncate
  cap := staff.replanCap
  obtainPlan := staff.replan.seam
  newId := staff.newId

/-- The intake of feature requests, with the default lens. -/
def intake (readInteger : Json Empty → Option Int) : Intake where
  sha256 := staff.sha256
  repr := staff.repr
  readInteger := readInteger
  newId := staff.newId

/-- The decomposition of a plan. -/
def planner : Planner where
  sha256 := staff.sha256
  repr := staff.repr
  obtainPlan := staff.plan.seam
  items := staff.items
  trajectoryId := staff.trajectoryId

/-! ### The roles enqueue tasks of lower rank -/

theorem inner_followsUp {n : Nat} {o : StoreOp} (h : o.isInner = true) : o.FollowsUp n := by
  cases o <;> first | exact h | cases h

theorem commissionResearch_only (id : Uuid) (row : Task) :
    (staff.commissionResearch id row).Only (StoreOp.FollowsUp 3) := by
  refine .bind (.tryCatch ?_ fun _ => .ret _) fun due => .ite (fun _ => ?_) fun _ => .ret _
  · exact (staff.scanDue.inner id row).mono fun _ => inner_followsUp
  · refine .tryCatch (.bind (.op ?_) fun _ => .ret _) fun _ => .ret _
    show rank "research" < 3
    decide

theorem obtainPlan_only (id : Uuid) (row : Task) :
    (staff.obtainPlan id row).Only (StoreOp.FollowsUp 3) :=
  .bind (staff.commissionResearch_only id row) fun _ =>
    (staff.plan.inner id row).mono fun _ => inner_followsUp

theorem runRetro_only (id : Uuid) (row : Task) :
    (staff.runRetro id row).Only (StoreOp.FollowsUp 1) := by
  refine .bind ((staff.retro.inner id row).mono fun _ => inner_followsUp) fun report => ?_
  refine .ite (fun _ => .bind (.op ?_) fun _ => .ret _) fun _ => .ret _
  show rank "curate" < 1
  decide

/-- The enqueue loop of a plan. -/
theorem run_followsUp (d : Decomposition) (row : Task) (trajectoryId : Option Uuid) :
    (d.run row trajectoryId).Only (StoreOp.FollowsUp 3) := by
  have hloop : ∀ order idByIndex, (d.enqueueItems row trajectoryId order idByIndex).Only
      (StoreOp.FollowsUp 3) := by
    intro order
    induction order with
    | nil => exact fun _ => .ret _
    | cons i order ih =>
        intro idByIndex
        rw [Decomposition.enqueueItems]
        split
        · rename_i item deps _ _
          refine .bind (.op (rank_of_work ?_)) fun _ => ih _
          dsimp only [Decomposition.args]
          split
          · assumption
          · decide
        · exact .throw _
  unfold Decomposition.run
  split
  · exact .throw _
  · refine .bind (hloop _ _) fun idByIndex => ?_
    split
    · exact .throw _
    · exact .ret _

theorem decompose_only (plan : Plan) (id : Uuid) (row : Task) :
    (staff.planner.decompose staff.newId plan id row).Only (StoreOp.FollowsUp 3) :=
  .bind (run_followsUp _ _ _) fun _ => .bind (.op rfl) fun _ => .ret _

theorem requestApproval_followsUp (n : Nat) (newId : Uuid) (a : RequestArgs) :
    (requestApproval newId a).Only (StoreOp.FollowsUp n) := by
  refine .bind (.op rfl) fun existing => ?_
  cases existing with
  | some row => exact .ret _
  | none => exact .bind (.op rfl) fun _ => .ret _

theorem replan_only (newId stuckId : Uuid) :
    (staff.replanner.run newId stuckId).Only (StoreOp.FollowsUp 3) := by
  refine .bind (.op rfl) fun stuck => ?_
  cases stuck with
  | none => exact .ret _
  | some stuck =>
      cases hdepth : staff.replanner.depth stuck.payload with
      | error e => simp only [hdepth]; exact .throw e
      | ok depth =>
          simp only [hdepth]
          refine .ite (fun _ => ?_) fun _ => ?_
          · exact .bind (requestApproval_followsUp _ _ _) fun _ => .bind (.op rfl) fun _ => .ret _
          · refine .bind ((staff.replan.inner _ _).mono fun _ => inner_followsUp) fun items => ?_
            refine .bind (.tryCatch (.op rfl) fun _ => .ret _) fun linked => ?_
            exact .bind (run_followsUp _ _ _) fun _ => .bind (.op rfl) fun _ => .ret _

theorem triage_only (readInteger : Json Empty → Option Int) (id : Uuid) (row : Task) :
    ((staff.intake readInteger).decompose id row).Only (StoreOp.FollowsUp 3) :=
  ((staff.intake readInteger).decompose_only id row).mono fun o h => by
    obtain ⟨newId, a, rfl, hwork⟩ := h
    exact rank_of_work hwork

/-! ### The worker -/

/-- A program whose calls follow up is a seam. -/
def seamOf {α : Type} {n : Nat} (program : Uuid → Task → Process α)
    (h : ∀ id row, (program id row).Only (StoreOp.FollowsUp n)) : Seam α :=
  ⟨program, fun id row => holds_roleOutline ((h id row).mono fun _ => StoreOp.FollowsUp.spares)⟩

/-- The handlers that run a role and merge its result. -/
def commitSeam : CommitRole → Seam Doc
  | .retro => seamOf staff.runRetro staff.runRetro_only
  | role => (staff.commit role).seam

/-- The replan of a stuck task. -/
def replanSeam (stuckId : Uuid) : Seam Doc :=
  seamOf (fun _ _ => (staff.replanner.run (staff.approvalId 1) stuckId).bind fun result =>
      .ret result.dump)
    fun _ _ => (staff.replan_only _ _).bind fun _ => .ret _

/-- The worker of one pass; `readInteger` is what the model of a request reads as an integer. -/
def worker (readInteger : Json Empty → Option Int) (workerId : String) (assignee : Option Assignee)
    (workstream : Option String) : Worker where
  workerId := workerId
  assignee := assignee
  workstream := workstream
  sha256 := staff.sha256
  str := staff.str
  registry := staff.registry
  config := staff.config
  maxAttempts := staff.maxAttempts
  retroMode := staff.retroMode
  reviewMode := staff.reviewMode
  approvalId := staff.approvalId
  retroId := staff.retroId
  reviewId := staff.reviewId
  complete := staff.complete.seam
  verify exec := (staff.verify exec).seam
  resolveIntensity review retro := (staff.resolveIntensity review retro).seam
  commit := staff.commitSeam
  replan := staff.replanSeam
  prep := staff.prep.seam
  obtainPlan := seamOf staff.obtainPlan staff.obtainPlan_only
  decompose plan := seamOf (staff.planner.decompose staff.newId plan) (staff.decompose_only plan)
  triage := (staff.intake readInteger).triage

end Staff

end AiStudio.Runtime
