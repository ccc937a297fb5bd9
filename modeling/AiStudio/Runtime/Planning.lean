import AiStudio.Data.DepthFirst
import AiStudio.Data.Numerals
import AiStudio.Runtime.Worker
import Mathlib.Data.List.Sort

/-!
# Plans and their work items

Embeds the decomposition of `run_pm_tick` and `run_pm_replan` of `runtime/roles/pm.py`: the
edges between the work items of a plan, `assert_acyclic` and `_topo_order` on them, and the loop
that enqueues one task per item, each enqueue a transaction of its own. How a plan is obtained
is a seam.
-/

set_option autoImplicit false

namespace AiStudio.Runtime

open AiStudio.Data AiStudio.Data.DepthFirst AiStudio.Concurrency

/-! ## Goals and work items -/

/-- `DEFAULT_OBJECTIVE`. -/
def defaultObjective : String := "Prove the studio operates end-to-end in dry-run."

/-- The first of the fields that holds a text which is not blank, stripped. -/
def firstText (payload : Doc) : List String → Option String
  | [] => none
  | key :: keys =>
      match (Doc.getStr? payload key).map strip with
      | some text => if text = "" then firstText payload keys else some text
      | none => firstText payload keys

/-- `DEFAULT_WORK_TASK_TYPE`. -/
def defaultWorkTaskType : String := "work.task"

/-- One unit of work; `dependsOn` are the 1-based positions of its prerequisites. -/
structure WorkItem where
  title : String := ""
  type : String := defaultWorkTaskType
  instructions : String := ""
  successCriterion : String := ""
  marker : Option String := none
  dependsOn : List Int := []

/-- The edges of item `i`: valid positions other than its own, in order and without
duplicates. -/
def edges (items : List WorkItem) : Nat → List Nat
  | 0 => []
  | i + 1 =>
      match items[i]? with
      | none => []
      | some item => ((item.dependsOn.filter fun d : Int =>
          1 ≤ d && d ≤ (items.length : Int) && d ≠ (i : Int) + 1).map
            Int.toNat).dedup.insertionSort (· ≤ ·)

/-- The positions of the items. -/
def positions (items : List WorkItem) : List Nat := List.range' 1 items.length

/-- The `DependencyCycle` for a path that runs into itself. -/
def cycleError (path : List Nat) : Exn :=
  match path.reverse with
  | n :: m :: _ =>
      if n = m then .dependencyCycle ("task " ++ toString n ++ " depends on itself")
      else .dependencyCycle ("dependency cycle: " ++ " → ".intercalate (path.map toString))
  | _ => .dependencyCycle "dependency cycle"

/-- `assert_acyclic`. -/
def assertAcyclic (items : List WorkItem) : Except Exn Unit :=
  (checkAll (edges items) cycleError items.length (positions items)).map fun _ => ()

/-- `_topo_order`. -/
def topoOrder (items : List WorkItem) : List Nat :=
  placeAll (edges items) items.length (positions items)

theorem mem_edges {items : List WorkItem} {i d : Nat} (h : d ∈ edges items i) :
    d ∈ positions items ∧ d ≠ i := by
  cases i with
  | zero => cases h
  | succ i =>
      rw [edges] at h
      cases hitem : items[i]? with
      | none => rw [hitem] at h; cases h
      | some item =>
          rw [hitem] at h
          simp only [List.mem_insertionSort, List.mem_dedup, List.mem_map, List.mem_filter,
            Bool.and_eq_true, decide_eq_true_eq] at h
          obtain ⟨x, ⟨-, ⟨hlow, hhigh⟩, hself⟩, rfl⟩ := h
          refine ⟨?_, ?_⟩
          · rw [positions, List.mem_range'_1]
            omega
          · omega

/-- **`assert_acyclic` rejects only plans with a cycle.** -/
theorem cycle_of_assertAcyclic {items : List WorkItem} {e : Exn}
    (h : assertAcyclic items = .error e) :
    ∃ i, Relation.TransGen (fun i d => d ∈ edges items i) i i := by
  rw [assertAcyclic] at h
  cases hcheck : checkAll (edges items) cycleError items.length (positions items) with
  | ok colors => rw [hcheck] at h; cases h
  | error e' =>
      exact cycle_of_checkAll (fun _ _ _ hd => (mem_edges hd).1) hcheck (by simp [positions])

/-- **The order of an accepted plan**: every item, after its prerequisites. -/
theorem topological_topoOrder {items : List WorkItem} (h : assertAcyclic items = .ok ()) :
    Topological (edges items) (topoOrder items) ∧
      ∀ i, i ∈ topoOrder items ↔ i ∈ positions items := by
  rw [assertAcyclic] at h
  cases hcheck : checkAll (edges items) cycleError items.length (positions items) with
  | error e => rw [hcheck] at h; cases h
  | ok colors => exact topological_placeAll (fun _ _ _ hd => (mem_edges hd).1) hcheck

example : topoOrder [{ dependsOn := [2, 7] }, {}, { dependsOn := [1, 3] }] = [2, 1, 3] := by decide

/-! ## The enqueue loop -/

/-- A decomposition: the items, the goal of the task they come from, where the markers of the
items start, what their payloads carry beside, and the ids the database draws for them. `repr` is
`repr` of a text. -/
structure Decomposition where
  items : List WorkItem
  goal : String
  owner : String
  link : Doc := []
  repr : String → String
  newId : Nat → Uuid

namespace Decomposition

variable (d : Decomposition)

/-- The marker the artifact of an item must contain. -/
def marker (i : Nat) (item : WorkItem) : String :=
  let marker := strip (item.marker.getD "")
  if marker = "" then d.owner ++ ":" ++ toString i else marker

/-- The payload of the task of item `i`. -/
def payload (i : Nat) (item : WorkItem) : Doc :=
  let marker := d.marker i item
  let criterion := if item.successCriterion = "" then
    "The artifact contains the marker " ++ d.repr marker ++ "." else item.successCriterion
  [("goal", .str (if item.instructions = "" then d.goal else item.instructions)),
    ("criterion", .str criterion), ("marker", .str marker), ("title", .str item.title),
    ("item_index", .int i), ("item_count", .int d.items.length), ("attempt", .int 1)] ++ d.link

/-- The enqueue of item `i` of the task `row`. -/
def args (row : Task) (trajectoryId : Option Uuid) (i : Nat) (item : WorkItem) (deps : List Uuid) :
    EnqueueArgs where
  workstream := row.workstream.name
  type := if "work.".toList.isPrefixOf item.type.toList then item.type else defaultWorkTaskType
  payload := d.payload i item
  priority := row.priority
  dependsOn := deps
  trajectoryId := trajectoryId

/-- The item at a position. -/
def item? : Nat → Option WorkItem
  | 0 => none
  | i + 1 => d.items[i]?

/-- The enqueue loop, `idByIndex` the ids of the items it has passed. -/
def enqueueItems (row : Task) (trajectoryId : Option Uuid) :
    List Nat → List (Nat × Uuid) → Process (List (Nat × Uuid))
  | [], idByIndex => .ret idByIndex
  | i :: order, idByIndex =>
      match d.item? i, (edges d.items i).mapM (idByIndex.lookup ·) with
      | some item, some deps => do
          let _ ← call (.enqueueTask (d.newId i) (d.args row trajectoryId i item deps))
          enqueueItems row trajectoryId order (idByIndex ++ [(i, d.newId i)])
      | _, _ => .throw (.runtimeError "KeyError")

/-- Check the edges, enqueue the items, and list their ids in the order of the plan. -/
def run (row : Task) (trajectoryId : Option Uuid) : Process (List Uuid) :=
  match assertAcyclic d.items with
  | .error e => .throw e
  | .ok _ => do
      let idByIndex ← d.enqueueItems row trajectoryId (topoOrder d.items) []
      match (positions d.items).mapM (idByIndex.lookup ·) with
      | none => .throw (.runtimeError "KeyError")
      | some ids => return ids

end Decomposition

/-! ## A tick that decomposes -/

/-- A program of calls that move no task follows the outline of a role. -/
theorem holds_roleOutline {α : Type} {p : Process α} (h : p.Only fun o : StoreOp => o.sparesQueue = true) :
    roleOutline.Holds () p := by
  induction h with
  | ret a => trivial
  | throw e => trivial
  | call ho _ ih => exact ⟨ho, fun r => ih r⟩

theorem Decomposition.spares_run (d : Decomposition) (row : Task) (trajectoryId : Option Uuid) :
    (d.run row trajectoryId).Only fun o : StoreOp => o.sparesQueue = true := by
  have hloop : ∀ order idByIndex, (d.enqueueItems row trajectoryId order idByIndex).Only
      fun o : StoreOp => o.sparesQueue = true := by
    intro order
    induction order with
    | nil => exact fun _ => .ret _
    | cons i order ih =>
        intro idByIndex
        rw [Decomposition.enqueueItems]
        split
        · exact .bind (.op rfl) fun _ => ih _
        · exact .throw _
  unfold Decomposition.run
  split
  · exact .throw _
  · refine .bind (hloop _ _) fun idByIndex => ?_
    split
    · exact .throw _
    · exact .ret _

/-- What a tick is given: how it drafts a plan, the items of the plan, the ids the database draws
for them, and the trajectory they are linked to. -/
structure Planner where
  sha256 : String → String
  repr : String → String
  obtainPlan : Seam Plan
  items : List WorkItem
  trajectoryId : Option Uuid := none

namespace Planner

variable (p : Planner)

/-- The decomposition of a tick; its goal is that of `_resolve_goal`. -/
def decomposition (newId : Nat → Uuid) (id : Uuid) (row : Task) : Decomposition where
  items := p.items
  goal := (firstText row.payload ["goal", "objective"]).getD defaultObjective
  owner := "studio-ok:" ++ id.text
  repr := p.repr
  newId := newId

/-- Enqueue the items and report them. -/
def decompose (newId : Nat → Uuid) (plan : Plan) (id : Uuid) (row : Task) : Process Doc := do
  let ids ← (p.decomposition newId id row).run row p.trajectoryId
  call (.emit (some id) row.workstream (.pmPlanned plan.confidence ids))
  return [("work_item_count", .int ids.length),
    ("work_task_ids", .arr (ids.map fun id => .str id.text))]

theorem spares_decompose (newId : Nat → Uuid) (plan : Plan) (id : Uuid) (row : Task) :
    (p.decompose newId plan id row).Only fun o : StoreOp => o.sparesQueue = true :=
  .bind (Decomposition.spares_run _ row _) fun _ => .bind (.op rfl) fun _ => .ret _

/-- The PM with this planner. -/
def pm (newId : Nat → Uuid) : Pm where
  sha256 := p.sha256
  obtainPlan := p.obtainPlan
  decompose plan := ⟨p.decompose newId plan, fun id row =>
    holds_roleOutline (p.spares_decompose newId plan id row)⟩

end Planner

end AiStudio.Runtime
