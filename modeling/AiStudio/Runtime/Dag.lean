import AiStudio.Runtime.Replan

/-!
# From a plan to the queue

What the decomposition of a plan does, for any dependencies the plan may list: a plan whose
items depend on each other in a circle is rejected before anything is enqueued, and every other
one becomes one task per item, each after its prerequisites and waiting for exactly those
(`plan_to_dag`). The decomposition is the same for the tick and for the replan. The searches
recurse as deep as a plan is long; the language's limit on recursion is not modelled.
-/

set_option autoImplicit false

namespace AiStudio.Runtime

open AiStudio.Data AiStudio.Data.DepthFirst AiStudio.Concurrency

/-! ## The graph of a plan -/

/-- Item `i` waits for item `dep`: the plan says so, there is such an item, and it is another
one. -/
def Prerequisite (items : List WorkItem) (i dep : Nat) : Prop :=
  ∃ item, 1 ≤ i ∧ items[i - 1]? = some item ∧ (dep : Int) ∈ item.dependsOn ∧ 1 ≤ dep ∧
    dep ≤ items.length ∧ dep ≠ i

/-- The items wait for each other in a circle. -/
def Cyclic (items : List WorkItem) : Prop := ∃ i, Relation.TransGen (Prerequisite items) i i

variable {items : List WorkItem}

/-- **The edges of an item are its prerequisites.** -/
theorem mem_edges_iff {i dep : Nat} : dep ∈ edges items i ↔ Prerequisite items i dep := by
  cases i with
  | zero =>
      constructor
      · intro h
        cases h
      · rintro ⟨item, hpos, -⟩
        omega
  | succ i =>
      rw [edges, Prerequisite, Nat.add_sub_cancel]
      cases hitem : items[i]? with
      | none => simp
      | some item =>
          simp only [List.mem_insertionSort, List.mem_dedup, List.mem_map, List.mem_filter,
            Bool.and_eq_true, decide_eq_true_eq]
          constructor
          · rintro ⟨x, ⟨hmem, ⟨hlow, hhigh⟩, hself⟩, rfl⟩
            have hcast : (x.toNat : Int) = x := by omega
            refine ⟨item, by omega, rfl, by rwa [hcast], by omega, by omega, by omega⟩
          · rintro ⟨item', -, heq, hmem, hlow, hhigh, hself⟩
            obtain rfl := Option.some.inj heq
            exact ⟨(dep : Int), ⟨hmem, ⟨by omega, by omega⟩, by omega⟩, by omega⟩

theorem edges_rel : (fun i dep => dep ∈ edges items i) = Prerequisite items := by
  funext i dep
  exact propext mem_edges_iff

theorem mem_positions_iff {i : Nat} : i ∈ positions items ↔ 1 ≤ i ∧ i ≤ items.length := by
  rw [positions, List.mem_range'_1]
  omega

theorem Prerequisite.mem_positions {i dep : Nat} (h : Prerequisite items i dep) :
    i ∈ positions items := by
  obtain ⟨item, hpos, hitem, -⟩ := h
  obtain ⟨hlt, -⟩ := List.getElem?_eq_some_iff.1 hitem
  rw [mem_positions_iff]
  omega

theorem cycleError_isCycle (path : List Nat) : ∃ m, cycleError path = .dependencyCycle m := by
  unfold cycleError
  split
  · split
    · exact ⟨_, rfl⟩
    · exact ⟨_, rfl⟩
  · exact ⟨_, rfl⟩

/-- **`assert_acyclic` rejects exactly the plans with a cycle.** -/
theorem assertAcyclic_cases (items : List WorkItem) :
    Cyclic items ∧ (∃ m, assertAcyclic items = .error (.dependencyCycle m)) ∨
      ¬ Cyclic items ∧ assertAcyclic items = .ok () := by
  cases hcheck : assertAcyclic items with
  | error e =>
      obtain ⟨i, hcycle⟩ := cycle_of_assertAcyclic hcheck
      rw [edges_rel] at hcycle
      obtain ⟨path, rfl⟩ : ∃ path, e = cycleError path := by
        rw [assertAcyclic] at hcheck
        cases hall : checkAll (edges items) cycleError items.length (positions items) with
        | ok colors => rw [hall] at hcheck; cases hcheck
        | error e' =>
            rw [hall] at hcheck
            obtain rfl : e' = e := Except.error.inj hcheck
            exact fail_of_checkAll hall
      obtain ⟨m, hm⟩ := cycleError_isCycle path
      exact .inl ⟨⟨i, hcycle⟩, m, by rw [hm]⟩
  | ok u =>
      refine .inr ⟨?_, rfl⟩
      rintro ⟨i, hcycle⟩
      obtain ⟨htopo, hmem⟩ := topological_topoOrder hcheck
      obtain ⟨dep, hdep, -⟩ := Relation.TransGen.head'_iff.1 hcycle
      rw [← edges_rel] at hcycle
      exact htopo.acyclic i ((hmem i).2 hdep.mem_positions) hcycle

/-! ## The enqueue loop -/

/-- A dictionary of known ids answers every lookup of its keys. -/
theorem mapM_lookup_eq {newId : Nat → Uuid} {idByIndex : List (Nat × Uuid)}
    (hids : ∀ x ∈ idByIndex, x.2 = newId x.1) {keys : List Nat}
    (hkeys : ∀ k ∈ keys, k ∈ idByIndex.map Prod.fst) :
    keys.mapM (idByIndex.lookup ·) = some (keys.map newId) := by
  induction keys with
  | nil => rfl
  | cons k keys ih =>
      rw [List.forall_mem_cons] at hkeys
      have hk : idByIndex.lookup k = some (newId k) := by
        cases hlookup : idByIndex.lookup k with
        | none =>
            obtain ⟨x, hx, hfst⟩ := List.mem_map.1 hkeys.1
            have hne := List.lookup_eq_none_iff.1 hlookup x hx
            rw [hfst] at hne
            simp at hne
        | some id =>
            obtain ⟨l₁, l₂, rfl, -⟩ := List.lookup_eq_some_iff.1 hlookup
            have hid := hids (k, id) (by simp)
            rw [← hid]
      rw [List.mapM_cons, hk, ih hkeys.2]
      rfl

namespace Decomposition

variable (d : Decomposition)

/-- The item at a position of the plan. -/
def itemAt (i : Nat) : WorkItem := (d.item? i).getD {}

/-- The enqueue of item `i`, which waits for the tasks of its edges. -/
def enqueueArgs (row : Task) (trajectoryId : Option Uuid) (i : Nat) : EnqueueArgs :=
  d.args row trajectoryId i (d.itemAt i) ((edges d.items i).map d.newId)

/-- One enqueue per item, in an order. -/
def enqueueInOrder (row : Task) (trajectoryId : Option Uuid) : List Nat → Process Unit
  | [] => .ret ()
  | i :: order =>
      (call (.enqueueTask (d.newId i) (d.enqueueArgs row trajectoryId i))).bind fun _ =>
        enqueueInOrder row trajectoryId order

variable {d} {row : Task} {trajectoryId : Option Uuid}

theorem item?_eq_itemAt {i : Nat} (h : i ∈ positions d.items) : d.item? i = some (d.itemAt i) := by
  rw [mem_positions_iff] at h
  cases i with
  | zero => omega
  | succ i =>
      have hitem : d.item? (i + 1) = some (d.items.get ⟨i, by omega⟩) := List.getElem?_eq_getElem _
      rw [itemAt, hitem]
      rfl

/-- **The loop over items whose prerequisites are there.** -/
theorem enqueueItems_eq {order : List Nat} {idByIndex : List (Nat × Uuid)}
    (hids : ∀ x ∈ idByIndex, x.2 = d.newId x.1) (hpos : ∀ i ∈ order, i ∈ positions d.items)
    (hmet : ∀ before i after, order = before ++ i :: after → ∀ dep ∈ edges d.items i,
      dep ∈ idByIndex.map Prod.fst ++ before) :
    d.enqueueItems row trajectoryId order idByIndex =
      (d.enqueueInOrder row trajectoryId order).bind fun _ =>
        .ret (idByIndex ++ order.map fun i => (i, d.newId i)) := by
  induction order generalizing idByIndex with
  | nil =>
      rw [enqueueItems, List.map_nil, List.append_nil]
      rfl
  | cons i order ih =>
      rw [List.forall_mem_cons] at hpos
      have hdeps : (edges d.items i).mapM (idByIndex.lookup ·) =
          some ((edges d.items i).map d.newId) :=
        mapM_lookup_eq hids fun dep hdep => by
          have hbefore := hmet [] i order rfl dep hdep
          rwa [List.append_nil] at hbefore
      have hrest := @ih (idByIndex ++ [(i, d.newId i)])
        (fun x hx => by
          rcases List.mem_append.1 hx with hx | hx
          · exact hids x hx
          · rw [List.mem_singleton.1 hx])
        hpos.2
        (fun before j after hsplit dep hdep => by
          have hbefore := hmet (i :: before) j after (by rw [hsplit, List.cons_append]) dep hdep
          rw [List.map_append, List.map_cons, List.map_nil, List.append_assoc]
          exact hbefore)
      rw [enqueueItems, item?_eq_itemAt hpos.1, hdeps]
      simp only [Program.bind_eq, hrest, enqueueInOrder, enqueueArgs, Program.bind_assoc,
        List.map_cons, List.append_assoc, List.singleton_append]

/-- **What the decomposition of an accepted plan is.** -/
theorem run_of_acyclic (h : assertAcyclic d.items = .ok ()) :
    d.run row trajectoryId = (d.enqueueInOrder row trajectoryId (topoOrder d.items)).bind fun _ =>
      .ret ((positions d.items).map d.newId) := by
  obtain ⟨htopo, hmem⟩ := topological_topoOrder h
  have hloop := @enqueueItems_eq d row trajectoryId (topoOrder d.items) [] (List.forall_mem_nil _)
    (fun i hi => (hmem i).1 hi)
    (fun before i after hsplit dep hdep => htopo.before hsplit dep hdep)
  have hids : (positions d.items).mapM
      (((topoOrder d.items).map fun i => (i, d.newId i)).lookup ·) =
        some ((positions d.items).map d.newId) :=
    mapM_lookup_eq (fun x hx => by obtain ⟨i, -, rfl⟩ := List.mem_map.1 hx; rfl)
      fun i hi => by
        rw [List.map_map, Function.comp_def, List.map_id']
        exact (hmem i).2 hi
  simp only [run, h, hloop, Program.bind_eq, Program.bind_assoc, Program.ret_bind,
    List.nil_append, hids, Program.pure_eq]

/-- The order of an accepted plan lists every item once. -/
theorem perm_topoOrder (h : assertAcyclic items = .ok ()) :
    (topoOrder items).Perm (positions items) := by
  obtain ⟨htopo, hmem⟩ := topological_topoOrder h
  exact (List.perm_ext_iff_of_nodup htopo.nodup List.nodup_range').2 hmem

/-! ## What the store makes of an enqueue -/

theorem mem_dependsOn_iff {i : Nat} {id : Uuid} :
    id ∈ (d.enqueueArgs row trajectoryId i).dependsOn ↔
      ∃ dep, Prerequisite d.items i dep ∧ id = d.newId dep := by
  change id ∈ (edges d.items i).map d.newId ↔ _
  rw [List.mem_map]
  constructor
  · rintro ⟨dep, hdep, rfl⟩
    exact ⟨dep, mem_edges_iff.1 hdep, rfl⟩
  · rintro ⟨dep, hdep, rfl⟩
    exact ⟨dep, mem_edges_iff.2 hdep, rfl⟩

/-- Where the database draws no id twice, no item waits for itself. -/
theorem newId_not_mem_dependsOn (hids : Function.Injective d.newId) (i : Nat) :
    d.newId i ∉ (d.enqueueArgs row trajectoryId i).dependsOn := by
  rw [mem_dependsOn_iff]
  rintro ⟨dep, ⟨item, -, -, -, -, -, hself⟩, hid⟩
  exact hself (hids hid).symm

end Decomposition

/-- An enqueue rejects a dependency on the task itself only. -/
theorem enqueueTask_ne_dependencyCycle {id : Uuid} {a : EnqueueArgs} (h : id ∉ a.dependsOn)
    (s : Store) (m : String) : enqueueTask id a s ≠ .error (.dependencyCycle m) := by
  intro herror
  have hself : a.dependsOn.contains id = false := by
    rw [← Bool.not_eq_true, List.contains_iff_mem]
    exact h
  rw [enqueueTask, if_neg (by rw [hself]; exact Bool.false_ne_true)] at herror
  cases hw : requireWorkstream a.workstream with
  | error e =>
      rw [hw] at herror
      obtain rfl : e = _ := Except.error.inj herror
      unfold requireWorkstream at hw
      split at hw <;> cases hw
  | ok workstream =>
      rw [hw] at herror
      simp only [bind, Except.bind] at herror
      split at herror <;> cases herror

/-! ## The tick and the replan -/

/-- The program decomposes a plan: it raises before any call where the plan has a cycle, and
otherwise enqueues every item once, each after its prerequisites, and reports the ids. The tasks
it creates wait for the tasks of their prerequisites, and no enqueue finds a cycle. -/
structure EnqueuesDag {β : Type} (d : Decomposition) (row : Task) (trajectoryId : Option Uuid)
    (p : Process β) : Prop where
  rejects : Cyclic d.items → ∃ m, p = .throw (.dependencyCycle m)
  enqueues : ¬ Cyclic d.items → ∃ (order : List Nat) (event : Option Uuid × Workstream × SinkPayload)
    (result : β), order.Perm (positions d.items) ∧
      (∀ before i after, order = before ++ i :: after →
        ∀ dep, Prerequisite d.items i dep → dep ∈ before) ∧
      p = (d.enqueueInOrder row trajectoryId order).bind fun _ =>
        (call (.emit event.1 event.2.1 event.2.2)).bind fun _ => .ret result
  created : ∀ i s task s', enqueueTask (d.newId i) (d.enqueueArgs row trajectoryId i) s =
    .ok (task, s') → ∀ id, id ∈ task.dependsOn ↔
      ∃ dep, Prerequisite d.items i dep ∧ id = d.newId dep
  accepted : Function.Injective d.newId → ∀ i s m,
    enqueueTask (d.newId i) (d.enqueueArgs row trajectoryId i) s ≠ .error (.dependencyCycle m)

/-- **A decomposition that is reported with one event.** -/
theorem Decomposition.enqueuesDag {β : Type} (d : Decomposition) (row : Task)
    (trajectoryId : Option Uuid) (event : List Uuid → Option Uuid × Workstream × SinkPayload)
    (result : List Uuid → β) :
    EnqueuesDag d row trajectoryId ((d.run row trajectoryId).bind fun ids =>
      (call (.emit (event ids).1 (event ids).2.1 (event ids).2.2)).bind fun _ =>
        .ret (result ids)) where
  rejects hcyclic := by
    rcases assertAcyclic_cases d.items with ⟨-, m, herror⟩ | ⟨hacyclic, -⟩
    · refine ⟨m, ?_⟩
      rw [Decomposition.run, herror]
      rfl
    · exact absurd hcyclic hacyclic
  enqueues hacyclic := by
    rcases assertAcyclic_cases d.items with ⟨hcyclic, -⟩ | ⟨-, hok⟩
    · exact absurd hcyclic hacyclic
    · refine ⟨topoOrder d.items, event ((positions d.items).map d.newId),
        result ((positions d.items).map d.newId), perm_topoOrder hok, ?_, ?_⟩
      · intro before i after hsplit dep hdep
        exact (topological_topoOrder hok).1.before hsplit dep (mem_edges_iff.2 hdep)
      · rw [run_of_acyclic hok, Program.bind_assoc]
        rfl
  created i s task s' h id := by
    obtain ⟨workstream, tasks, rfl, -⟩ := enqueueTask_cases h
    change id ∈ (d.enqueueArgs row trajectoryId i).dependsOn ↔ _
    exact mem_dependsOn_iff
  accepted hids i s m := enqueueTask_ne_dependencyCycle (newId_not_mem_dependsOn hids i) s m

/-- What a tick that decomposed returns. -/
def plannedResult (plan : Plan) (ids : List Uuid) : PlanResult where
  decision := "planned"
  reason := plan.reason
  facts := [("work_item_count", .int ids.length),
    ("work_task_ids", .arr (ids.map fun id => .str id.text))]

/-- What a replan that decomposed returns. -/
def Replanner.replannedResult (r : Replanner) (stuckId : Uuid) (stuck : Task) (depth : Int)
    (ids : List Uuid) : ReplanResult where
  stuckTaskId := stuckId
  goal := replanGoal stuck.payload
  replanDepth := depth + 1
  maxDepth := r.cap
  subtaskIds := ids

/-- **The tick past the gate.** -/
theorem Planner.gate_eq {p : Planner} {newId : Nat → Uuid} {plan : Plan} {approvalId id : Uuid}
    {row : Task} (hfeasible : plan.feasible = true) (hexecutable : plan.executable = true) :
    (p.pm newId).gate plan approvalId id row =
      ((p.decomposition newId id row).run row p.trajectoryId).bind fun ids =>
        (call (.emit (some id) row.workstream (.pmPlanned plan.confidence ids))).bind fun _ =>
          .ret (plannedResult plan ids) := by
  have hdecompose : (p.pm newId).gate plan approvalId id row =
      (p.decompose newId plan id row).bind fun facts =>
        .ret { decision := "planned", reason := plan.reason, facts := facts } := by
    rw [Pm.gate, hfeasible, hexecutable]
    rfl
  rw [hdecompose, Planner.decompose]
  rw [Program.bind_eq, Program.bind_assoc]
  refine congrArg _ (funext fun ids => ?_)
  exact Program.bind_assoc _ _ _

/-- **From a plan to the queue.** Whatever dependencies the plan lists, the tick past the gate
and the replan below the cap raise `DependencyCycle`, with nothing enqueued, when the items wait
for each other in a circle, and otherwise enqueue each item once, after its prerequisites, as a
task that waits for exactly those. -/
theorem plan_to_dag (p : Planner) (r : Replanner) (newId : Nat → Uuid) :
    (∀ plan approvalId id row, plan.feasible = true → plan.executable = true →
      EnqueuesDag (p.decomposition newId id row) row p.trajectoryId
        ((p.pm newId).gate plan approvalId id row)) ∧
    ∀ stuckId stuck depth, ∃ q : List WorkItem → Option Task → Process ReplanResult,
      r.redecompose stuckId stuck depth =
        ((r.obtainPlan.program stuckId stuck).bind fun items =>
          ((call (.getTask stuckId)).tryCatch fun _ => .ret none).bind (q items)) ∧
      ∀ items (linked : Option Task),
        EnqueuesDag (r.decomposition stuckId (replanGoal stuck.payload) depth items) stuck
          (linked.bind Task.trajectoryId) (q items linked) := by
  constructor
  · intro plan approvalId id row hfeasible hexecutable
    rw [Planner.gate_eq hfeasible hexecutable]
    exact (p.decomposition newId id row).enqueuesDag row p.trajectoryId
      (fun ids => (some id, row.workstream, .pmPlanned plan.confidence ids)) (plannedResult plan)
  · intro stuckId stuck depth
    refine ⟨fun items linked => ((r.decomposition stuckId (replanGoal stuck.payload) depth
      items).run stuck (linked.bind Task.trajectoryId)).bind fun ids =>
        (call (.emit (some stuckId) stuck.workstream (.taskReplanned ids (depth + 1)))).bind
          fun _ => .ret (r.replannedResult stuckId stuck depth ids), rfl, ?_⟩
    intro items linked
    exact (r.decomposition stuckId (replanGoal stuck.payload) depth items).enqueuesDag stuck
      (linked.bind Task.trajectoryId)
      (fun ids => (some stuckId, stuck.workstream, .taskReplanned ids (depth + 1)))
      (r.replannedResult stuckId stuck depth)

/-- A planner whose plans have these items. -/
def plannerOf (items : List WorkItem) : Planner where
  sha256 := id
  repr text := "'" ++ text ++ "'"
  obtainPlan := .answer ⟨true, true, "", "", .int 1, .int 0⟩
  items := items

/-- Three items, with a reference forward and one that points outside, and two that wait for each
other. -/
def forwardItems : List WorkItem := [{ dependsOn := [2, 7, 2] }, {}, { dependsOn := [-1, 3, 1] }]
def circularItems : List WorkItem := [{ dependsOn := [2] }, { dependsOn := [1] }]

theorem forwardItems_acyclic : ¬ Cyclic forwardItems := by
  rcases assertAcyclic_cases forwardItems with ⟨-, m, herror⟩ | ⟨hacyclic, -⟩
  · cases herror
  · exact hacyclic

theorem circularItems_cyclic : Cyclic circularItems := by
  have hfirst : Prerequisite circularItems 1 2 :=
    ⟨{ dependsOn := [2] }, by decide, rfl, by decide, by decide, by decide, by decide⟩
  have hsecond : Prerequisite circularItems 2 1 :=
    ⟨{ dependsOn := [1] }, by decide, rfl, by decide, by decide, by decide, by decide⟩
  exact ⟨1, .tail (.single hfirst) hsecond⟩

/-- The ids of the tasks of a plan of up to three items. -/
def itemId (i : Nat) : Uuid := if i = 1 then firstHalf else if i = 2 then secondHalf else danglingId

theorem productivity_ne_empty : "productivity" ≠ "" :=
  of_decide_eq_true rfl

/-- A task of the PM, and the plan it drafts. -/
def tickRow : Task :=
  ({ workstream := "productivity", type := "pm.tick" } : EnqueueArgs).row
    ⟨"productivity", productivity_ne_empty⟩ 0

def confidentPlan : Plan := ⟨true, true, "", "", .int 1, .int 0⟩

/-- The tick on a plan that is accepted and on one that is not. -/
theorem plans_to_dag :
    (∃ order, order.Perm [1, 2, 3] ∧ ∃ q : Unit → Process PlanResult,
      ((plannerOf forwardItems).pm itemId).gate confidentPlan stuckTask stuckTask tickRow =
        (((plannerOf forwardItems).decomposition itemId stuckTask tickRow).enqueueInOrder tickRow
          none order).bind q) ∧
    ∃ m, ((plannerOf circularItems).pm itemId).gate confidentPlan stuckTask stuckTask tickRow =
      .throw (.dependencyCycle m) := by
  have haccepted := (plan_to_dag (plannerOf forwardItems) halving itemId).1 confidentPlan stuckTask
    stuckTask tickRow rfl rfl
  have hrejected := (plan_to_dag (plannerOf circularItems) halving itemId).1 confidentPlan stuckTask
    stuckTask tickRow rfl rfl
  obtain ⟨order, event, result, hperm, -, hgate⟩ := haccepted.enqueues forwardItems_acyclic
  exact ⟨⟨order, hperm, _, hgate⟩, hrejected.rejects circularItems_cyclic⟩

end AiStudio.Runtime
