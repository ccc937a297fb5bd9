import AiStudio.Runtime.Replan

/-!
# A decomposition that is run again

Every item of a plan is enqueued by a transaction of its own, and a run that comes after a crash
knows nothing of the one before. So after a complete re-run every item has its task from that
run, and those that the first run had enqueued have two (`decomposed_once_iff`).
-/

set_option autoImplicit false

namespace AiStudio.Runtime

open AiStudio.Data AiStudio.Concurrency

/-! ## What a complete run leaves -/

/-- The item has a task under the id drawn for it, with the prescribed prerequisites. -/
def Drawn (s : Store) (items : List WorkItem) (newId : Nat → Uuid) (i : Nat) : Prop :=
  ∃ row, s.tasks.find? (newId i) = some row ∧ row.dependsOn = (edges items i).map newId

section Complete

variable {s s' : Store} {items : List WorkItem} {newId : Nat → Uuid} {i : Nat} {α : Type}

/-- No call takes the task of an item away, or rewrites its prerequisites. -/
theorem Drawn.exec {o : StoreOp} {r : o.Res} (h : Drawn s items newId i)
    (hexec : o.exec s = .ok (r, s')) : Drawn s' items newId i := by
  obtain ⟨row, hrow, hdeps⟩ := h
  cases exec_rowEffect hexec (newId i) with
  | same hsame => exact ⟨row, hsame.trans hrow, hdeps⟩
  | created a ws op fresh hnew => rw [hrow] at fresh; cases fresh
  | wrote old row' found rewrites hnew =>
      obtain rfl := Option.some.inj (hrow.symm.trans found)
      exact ⟨row', hnew, rewrites.dependsOn.trans hdeps⟩

theorem Drawn.eval (h : Drawn s items newId i) (p : Process α) :
    Drawn (p.eval s).2 items newId i :=
  p.eval_invariant (fun s => Drawn s items newId i) (fun _ _ _ _ h hexec => h.exec hexec)
    (fun _ _ _ h _ => h) s h

/-- The values of a lookup that succeeds on every key. -/
theorem mapM_lookup {newId : Nat → Uuid} {idByIndex : List (Nat × Uuid)}
    (hids : ∀ x ∈ idByIndex, x.2 = newId x.1) {keys : List Nat} {ids : List Uuid}
    (h : keys.mapM (idByIndex.lookup ·) = some ids) :
    ids = keys.map newId ∧ ∀ i ∈ keys, (i, newId i) ∈ idByIndex := by
  induction keys generalizing ids with
  | nil =>
      obtain rfl : [] = ids := Option.some.inj h
      exact ⟨rfl, fun i hi => by cases hi⟩
  | cons k keys ih =>
      rw [List.mapM_cons] at h
      cases hk : idByIndex.lookup k with
      | none => rw [hk] at h; cases h
      | some id =>
          cases hrest : keys.mapM (idByIndex.lookup ·) with
          | none => rw [hk, hrest] at h; cases h
          | some rest =>
              rw [hk, hrest] at h
              obtain rfl : id :: rest = ids := Option.some.inj h
              obtain ⟨l₁, l₂, rfl, -⟩ := List.lookup_eq_some_iff.1 hk
              have hmem : (k, id) ∈ l₁ ++ (k, id) :: l₂ := by simp
              obtain rfl : id = newId k := hids _ hmem
              obtain ⟨rfl, hall⟩ := ih hrest
              refine ⟨rfl, fun i hi => ?_⟩
              rcases List.mem_cons.1 hi with rfl | hi
              · exact hmem
              · exact hall i hi

namespace Decomposition

variable {d : Decomposition} {row : Task} {trajectoryId : Option Uuid}

/-- The dictionary of the loop holds enqueued items. -/
def Entered (d : Decomposition) (s : Store) (idByIndex : List (Nat × Uuid)) : Prop :=
  ∀ x ∈ idByIndex, x.2 = d.newId x.1 ∧ Drawn s d.items d.newId x.1

/-- **A loop that ends has enqueued every item it passed.** -/
theorem entered_enqueueItems {order : List Nat} {idByIndex idByIndex' : List (Nat × Uuid)}
    (h : (d.enqueueItems row trajectoryId order idByIndex).eval s = (.ok idByIndex', s'))
    (hentered : d.Entered s idByIndex) : d.Entered s' idByIndex' := by
  induction order generalizing s idByIndex with
  | nil =>
      obtain ⟨h₁, rfl⟩ := Prod.mk.inj h
      rw [← Except.ok.inj h₁]
      exact hentered
  | cons i order ih =>
      rw [enqueueItems] at h
      cases hitem : d.item? i with
      | none => rw [hitem] at h; cases h
      | some item =>
          cases hdeps : (edges d.items i).mapM (idByIndex.lookup ·) with
          | none => rw [hitem, hdeps] at h; cases h
          | some deps =>
              simp only [hitem, hdeps] at h
              obtain ⟨rfl, -⟩ := mapM_lookup (fun x hx => (hentered x hx).1) hdeps
              obtain ⟨row', s₁, hcall, hrest⟩ := Program.eval_bind_cases h
              have hexec : enqueueTask (d.newId i) (d.args row trajectoryId i item
                  ((edges d.items i).map d.newId)) s = .ok (row', s₁) := Program.eval_op_cases hcall
              refine ih hrest fun x hx => ?_
              rcases List.mem_append.1 hx with hx | hx
              · exact ⟨(hentered x hx).1, (hentered x hx).2.exec (o := .enqueueTask ..) hexec⟩
              · obtain rfl := List.mem_singleton.1 hx
                obtain ⟨ws, tasks, rfl, -, hins, rfl⟩ := enqueueTask_cases hexec
                exact ⟨rfl, _, (Table.find?_insert hins _).trans (if_pos rfl), rfl⟩

/-- **A complete decomposition has enqueued every item.** -/
theorem drawn_run {ids : List Uuid} (h : (d.run row trajectoryId).eval s = (.ok ids, s')) {i : Nat}
    (hi : i ∈ positions d.items) : Drawn s' d.items d.newId i := by
  rw [run] at h
  cases hacyclic : assertAcyclic d.items with
  | error e => rw [hacyclic] at h; cases h
  | ok u =>
      simp only [hacyclic] at h
      obtain ⟨idByIndex, s₁, hloop, hrest⟩ := Program.eval_bind_cases h
      have hentered := entered_enqueueItems hloop fun x hx => by cases hx
      cases hids : (positions d.items).mapM (idByIndex.lookup ·) with
      | none => simp only [hids] at hrest; cases hrest
      | some ids' =>
          simp only [hids] at hrest
          obtain ⟨-, rfl⟩ := Prod.mk.inj hrest
          obtain ⟨-, hall⟩ := mapM_lookup (fun x hx => (hentered x hx).1) hids
          exact (hentered _ (hall i hi)).2

end Decomposition

/-- What holds of the items holds after the rest of a run. -/
theorem Drawn.of_eval {p : Process α} {r : Except Exn α} (h : Drawn s items newId i)
    (heval : p.eval s = (r, s')) : Drawn s' items newId i := by
  have hrest := h.eval p
  rw [heval] at hrest
  exact hrest

/-- A complete tick has enqueued every item of its plan. -/
theorem drawn_runTick {p : Planner} {approvalId id : Uuid} {row : Task} {result : PlanResult}
    (h : ((p.pm newId).runTick approvalId id row).eval s = (.ok result, s'))
    (hplanned : result.decision = "planned") (hi : i ∈ positions p.items) :
    Drawn s' p.items newId i := by
  have hgate : ∀ plan s₁, ((p.pm newId).gate plan approvalId id row).eval s₁ = (.ok result, s') →
      Drawn s' p.items newId i := by
    intro plan s₁ h
    by_cases hfeasible : plan.feasible = true
    · by_cases hexecutable : plan.executable = true
      · simp only [Pm.gate, hfeasible, hexecutable, Bool.not_true, Bool.false_eq_true, if_false] at h
        obtain ⟨facts, s₂, hdecompose, hret⟩ := Program.eval_bind_cases h
        obtain ⟨ids, s₃, hrun, hrest⟩ := Program.eval_bind_cases hdecompose
        have hdrawn := (Decomposition.drawn_run hrun hi).of_eval hrest
        exact hdrawn.of_eval hret
      · simp only [Pm.gate, hfeasible, hexecutable, Bool.not_true, Bool.not_false,
          Bool.false_eq_true, if_false, if_true] at h
        obtain ⟨_, s₂, -, hret⟩ := Program.eval_bind_cases h
        obtain ⟨h₁, -⟩ := Prod.mk.inj hret
        rw [← Except.ok.inj h₁] at hplanned
        have hwrong : "needs_clarification" = "planned" := hplanned
        exact absurd hwrong (by decide)
    · simp only [Pm.gate, hfeasible, Bool.not_false, if_true] at h
      obtain ⟨_, s₂, -, hask⟩ := Program.eval_bind_cases h
      obtain ⟨x, s₃, -, hret⟩ := Program.eval_bind_cases hask
      obtain ⟨h₁, -⟩ := Prod.mk.inj hret
      rw [← Except.ok.inj h₁] at hplanned
      have hwrong : "pushback" = "planned" := hplanned
      exact absurd hwrong (by decide)
  obtain ⟨plan, s₁, -, hgrant⟩ := Program.eval_bind_cases h
  obtain ⟨grant, s₂, -, hrest⟩ := Program.eval_bind_cases hgrant
  cases grant with
  | none => exact hgate _ _ hrest
  | some found =>
      cases hparse : parseUuid ((p.pm newId).pushbackFingerprint id row) with
      | error e => simp only [hparse] at hrest; cases hrest
      | ok grantId =>
          simp only [hparse] at hrest
          obtain ⟨_, s₃, -, hrest⟩ := Program.eval_bind_cases hrest
          exact hgate _ _ hrest

/-- The seam drafts the same plan whenever it is asked. -/
def Drafts (seam : Seam (List WorkItem)) (items : List WorkItem) : Prop :=
  ∀ id row s drafted s', (seam.program id row).eval s = (.ok drafted, s') → drafted = items

/-- The edges of the two halves of a goal do not depend on its text. -/
theorem edges_smallerSubtasks (goal goal' : String) (items : List WorkItem) (stuckId : Uuid) :
    edges (smallerSubtasks goal items stuckId) = edges (smallerSubtasks goal' items stuckId) ∧
      positions (smallerSubtasks goal items stuckId) =
        positions (smallerSubtasks goal' items stuckId) := by
  by_cases h : 2 ≤ items.length
  · simp only [smallerSubtasks, if_pos h, and_self]
  · simp only [smallerSubtasks, if_neg h]
    refine ⟨funext fun i => ?_, rfl⟩
    rcases i with _ | _ | _ | i <;> rfl

/-- A complete replan has enqueued every subtask. -/
theorem drawn_replan {r : Replanner} {approvalId stuckId : Uuid} {result : ReplanResult}
    {items : List WorkItem} {goal : String} (hdrafts : Drafts r.obtainPlan items)
    (h : (r.run approvalId stuckId).eval s = (.ok result, s'))
    (hreplanned : result.decision = "replanned" ∧ result.missing = false)
    (hi : i ∈ positions (smallerSubtasks goal items stuckId)) :
    Drawn s' (smallerSubtasks goal items stuckId) r.newId i := by
  obtain ⟨stuck, s₁, -, h⟩ := Program.eval_bind_cases h
  cases stuck with
  | none =>
      obtain ⟨h₁, -⟩ := Prod.mk.inj h
      rw [← Except.ok.inj h₁] at hreplanned
      cases hreplanned.2
  | some stuck =>
      cases hdepth : r.depth stuck.payload with
      | error e => simp only [hdepth] at h; cases h
      | ok depth =>
          simp only [hdepth] at h
          by_cases hcap : r.cap ≤ depth
          · rw [if_pos hcap] at h
            obtain ⟨x, s₂, -, h⟩ := Program.eval_bind_cases h
            obtain ⟨_, s₃, -, hret⟩ := Program.eval_bind_cases h
            obtain ⟨h₁, -⟩ := Prod.mk.inj hret
            rw [← Except.ok.inj h₁] at hreplanned
            have hwrong : "escalated" = "replanned" := hreplanned.1
            exact absurd hwrong (by decide)
          · rw [if_neg hcap] at h
            obtain ⟨drafted, s₂, hdraft, h⟩ := Program.eval_bind_cases h
            obtain rfl := hdrafts _ _ _ _ _ hdraft
            obtain ⟨linked, s₃, -, h⟩ := Program.eval_bind_cases h
            obtain ⟨ids, s₄, hrun, h⟩ := Program.eval_bind_cases h
            obtain ⟨hedges, hpositions⟩ :=
              edges_smallerSubtasks goal (replanGoal stuck.payload) drafted stuckId
            rw [hpositions] at hi
            obtain ⟨row, hrow, hdeps⟩ := (Decomposition.drawn_run hrun hi).of_eval h
            exact ⟨row, hrow, by rw [hedges]; exact hdeps⟩

end Complete

/-! ## Runs that stay away from the ids of another -/

/-- The call draws none of the ids. -/
def StoreOp.Avoids (used : Uuid → Prop) : StoreOp → Prop
  | .enqueueTask id _ => ¬ used id
  | _ => True

/-- The seam draws none of the ids. -/
def Seam.Avoids {α : Type} (seam : Seam α) (used : Uuid → Prop) : Prop :=
  ∀ id row, (seam.program id row).Only (StoreOp.Avoids used)

section Avoids

variable {used : Uuid → Prop}

theorem Decomposition.mem_positions_of_item? {d : Decomposition} {i : Nat} {item : WorkItem}
    (h : d.item? i = some item) : i ∈ positions d.items := by
  cases i with
  | zero => cases h
  | succ i =>
      obtain ⟨hlt, -⟩ := List.getElem?_eq_some_iff.1 (show d.items[i]? = some item from h)
      rw [positions, List.mem_range'_1]
      omega

theorem Decomposition.avoids_run {d : Decomposition} (hids : ∀ i ∈ positions d.items, ¬ used (d.newId i))
    (row : Task) (trajectoryId : Option Uuid) : (d.run row trajectoryId).Only (StoreOp.Avoids used) := by
  have hloop : ∀ order idByIndex, (d.enqueueItems row trajectoryId order idByIndex).Only
      (StoreOp.Avoids used) := by
    intro order
    induction order with
    | nil => exact fun _ => .ret _
    | cons i order ih =>
        intro idByIndex
        rw [enqueueItems]
        split
        · rename_i item deps hitem hdeps
          exact .bind (.op (hids i (mem_positions_of_item? hitem))) fun _ => ih _
        · exact .throw _
  unfold run
  split
  · exact .throw _
  · refine .bind (hloop _ _) fun idByIndex => ?_
    split
    · exact .throw _
    · exact .ret _

theorem avoids_requestApproval (newId : Uuid) (a : RequestArgs) :
    (requestApproval newId a).Only (StoreOp.Avoids used) := by
  refine .bind (.op trivial) fun existing => ?_
  cases existing with
  | some row => exact .ret _
  | none => exact .bind (.op trivial) fun _ => .ret _

theorem Planner.avoids_runTick {p : Planner} {newId : Nat → Uuid} (hseam : p.obtainPlan.Avoids used)
    (hids : ∀ i ∈ positions p.items, ¬ used (newId i)) (approvalId id : Uuid) (row : Task) :
    ((p.pm newId).runTick approvalId id row).Only (StoreOp.Avoids used) := by
  have hgate : ∀ plan, ((p.pm newId).gate plan approvalId id row).Only (StoreOp.Avoids used) := by
    intro plan
    refine .ite (fun _ => ?_) fun _ => .ite (fun _ => ?_) fun _ => ?_
    · exact .bind (.op trivial) fun _ => .bind (avoids_requestApproval _ _) fun _ => .ret _
    · exact .bind (.op trivial) fun _ => .ret _
    · refine .bind (.bind (Decomposition.avoids_run hids _ _) fun _ => ?_) fun _ => .ret _
      exact .bind (.op trivial) fun _ => .ret _
  refine .bind (hseam id row) fun plan => .bind (.op trivial) fun grant => ?_
  cases grant with
  | none => exact hgate _
  | some found =>
      cases hparse : parseUuid ((p.pm newId).pushbackFingerprint id row) with
      | error e =>
          simp only []
          exact .throw e
      | ok grantId =>
          simp only []
          exact .bind (.op trivial) fun _ => hgate _

theorem Replanner.avoids_run {r : Replanner} (hseam : r.obtainPlan.Avoids used)
    {approvalId stuckId : Uuid}
    (hids : ∀ goal items, ∀ i ∈ positions (smallerSubtasks goal items stuckId), ¬ used (r.newId i)) :
    (r.run approvalId stuckId).Only (StoreOp.Avoids used) := by
  refine .bind (.op trivial) fun stuck => ?_
  cases stuck with
  | none => exact .ret _
  | some stuck =>
      cases hdepth : r.depth stuck.payload with
      | error e => simp only [hdepth]; exact .throw e
      | ok depth =>
          simp only [hdepth]
          refine .ite (fun _ => ?_) fun _ => ?_
          · refine .bind (avoids_requestApproval _ _) fun _ => ?_
            exact .bind (.op trivial) fun _ => .ret _
          · refine .bind (hseam _ _) fun items => .bind (.tryCatch (.op trivial) fun _ => .ret _)
              fun linked => .bind (Decomposition.avoids_run (hids _ items) _ _) fun _ => ?_
            exact .bind (.op trivial) fun _ => .ret _

end Avoids

/-! ## The two runs -/

/-- What decomposes: a tick of the PM, or a replan whose plan has the items. -/
inductive Decomposer where
  | tick (p : Planner) (id : Uuid) (row : Task)
  | replan (r : Replanner) (items : List WorkItem) (stuckId : Uuid)

namespace Decomposer

/-- A run that draws its ids from `newId`; it returns whether it has decomposed. -/
def program (newId : Nat → Uuid) (approvalId : Uuid) : Decomposer → Process Bool
  | tick p id row => do
      let result ← (p.pm newId).runTick approvalId id row
      return result.decision = "planned"
  | replan r _ stuckId => do
      let result ← { r with newId := newId }.run approvalId stuckId
      return result.decision = "replanned" && !result.missing

/-- The items of the plan; the texts of two halves name the goal, which is left out here. -/
def items : Decomposer → List WorkItem
  | tick p _ _ => p.items
  | replan _ items stuckId => smallerSubtasks "" items stuckId

/-- The model drafts the same plan again. -/
def SamePlan : Decomposer → Prop
  | tick .. => True
  | replan r items _ => Drafts r.obtainPlan items

/-- What the model does for the plan draws none of the ids. -/
def Avoids (used : Uuid → Prop) : Decomposer → Prop
  | tick p _ _ => p.obtainPlan.Avoids used
  | replan r _ _ => r.obtainPlan.Avoids used

variable {d : Decomposer} {newId : Nat → Uuid} {approvalId : Uuid}

/-- **A complete run has enqueued every item.** -/
theorem drawn_program {s s' : Store} {i : Nat} (hsame : d.SamePlan)
    (h : (d.program newId approvalId).eval s = (.ok true, s')) (hi : i ∈ positions d.items) :
    Drawn s' d.items newId i := by
  cases d with
  | tick p id row =>
      obtain ⟨result, s₁, hrun, hret⟩ := Program.eval_bind_cases h
      obtain ⟨hdone, rfl⟩ := Prod.mk.inj hret
      exact drawn_runTick hrun (of_decide_eq_true (Except.ok.inj hdone)) hi
  | replan r items stuckId =>
      obtain ⟨result, s₁, hrun, hret⟩ := Program.eval_bind_cases h
      obtain ⟨hdone, rfl⟩ := Prod.mk.inj hret
      have hdone : (decide (result.decision = "replanned") && !result.missing) = true :=
        Except.ok.inj hdone
      simp only [Bool.and_eq_true, decide_eq_true_eq, Bool.not_eq_true'] at hdone
      exact drawn_replan (r := { r with newId := newId }) hsame hrun hdone hi

theorem avoids_program {used : Uuid → Prop} (hseam : d.Avoids used) (hids : ∀ i, ¬ used (newId i)) :
    (d.program newId approvalId).Only (StoreOp.Avoids used) := by
  cases d with
  | tick p id row =>
      exact .bind (Planner.avoids_runTick hseam (fun i _ => hids i) _ _ _) fun _ => .ret _
  | replan r items stuckId =>
      exact .bind (Replanner.avoids_run (r := { r with newId := newId }) hseam
        fun _ _ i _ => hids i) fun _ => .ret _

end Decomposer

section Rerun

variable {P α : Type}

/-- The step commits the enqueue of an item. -/
def enqueuesItem (items : List WorkItem) (newId : Nat → Uuid) (st : Step database P α) : Bool :=
  match st with
  | ⟨_, .enqueueTask id _, .ok _, _, _⟩ => (positions items).any (newId · = id)
  | _ => false

/-- Of the two tasks that an item may have, one exists, with the prescribed prerequisites. -/
def DecomposedOnce (s : Store) (items : List WorkItem) (newId newId' : Nat → Uuid) : Prop :=
  ∀ i ∈ positions items,
    Drawn s items newId i ∧ s.tasks.find? (newId' i) = none ∨
      Drawn s items newId' i ∧ s.tasks.find? (newId i) = none

/-- No item has a task. -/
def NoneEnqueued (s : Store) (items : List WorkItem) (newId : Nat → Uuid) : Prop :=
  ∀ i ∈ positions items, s.tasks.find? (newId i) = none

variable [DecidableEq P] {items : List WorkItem} {newId : Nat → Uuid}

/-- A step that avoids the id leaves it undrawn. -/
theorem undrawn_exec {s s' : Store} {o : StoreOp} {r : o.Res} {id : Uuid}
    (hexec : o.exec s = .ok (r, s')) (havoid : o.Avoids (· = id)) (h : s.tasks.find? id = none) :
    s'.tasks.find? id = none := by
  cases exec_rowEffect hexec id with
  | same hrow => exact hrow.trans h
  | created a ws op fresh hrow =>
      subst op
      exact absurd rfl havoid
  | wrote row row' found rewrites hrow => rw [h] at found; cases found

omit [DecidableEq P] in
/-- A program that avoids the id leaves it undrawn. -/
theorem undrawn_eval {β : Type} {used : Uuid → Prop} {p : Process β}
    (hp : p.Only (StoreOp.Avoids used)) {s : Store} {id : Uuid} (hid : used id)
    (h : s.tasks.find? id = none) : (p.eval s).2.tasks.find? id = none := by
  induction hp generalizing s with
  | ret a => exact h
  | throw e => exact h
  | call ho _ ih =>
      rename_i o k hk
      cases hexec : database.exec o s with
      | ok x =>
          obtain ⟨r, s₁⟩ := x
          rw [Program.eval_call_ok hexec]
          refine ih _ (undrawn_exec hexec ?_ h)
          cases o with
          | enqueueTask id' a =>
              rintro rfl
              exact ho hid
          | _ => trivial
      | error e =>
          rw [Program.eval_call_error hexec]
          exact ih _ h

omit [DecidableEq P] in
theorem isSome_eval {β : Type} (p : Process β) {s : Store} {id : Uuid}
    (h : (s.tasks.find? id).isSome) : ((p.eval s).2.tasks.find? id).isSome := by
  refine p.eval_invariant (fun s => (s.tasks.find? id).isSome = true) (fun o s r s' h hexec => ?_)
    (fun _ _ _ h _ => h) s h
  cases exec_rowEffect hexec id with
  | same hrow => rw [hrow]; exact h
  | created a ws op fresh hrow => rw [hrow]; rfl
  | wrote row row' found rewrites hrow => rw [hrow]; rfl

omit [DecidableEq P] in
theorem enqueuesItem_of_ok {st : Step database P α} {id : Uuid} {a : EnqueueArgs}
    (hop : st.op = .enqueueTask id a) (hok : ∃ v, st.out = .ok v) :
    enqueuesItem items newId st = (positions items).any (newId · = id) := by
  obtain ⟨pid, op, out, before, after⟩ := st
  subst hop
  obtain ⟨v, hv⟩ := hok
  cases out with
  | ok v => rfl
  | error e => cases hv

/-- A step that enqueues no item leaves them without tasks. -/
theorem noneEnqueued_step {st : Step database P α} (hf : Fires st)
    (hst : enqueuesItem items newId st = false) (h : NoneEnqueued st.before.state items newId) :
    NoneEnqueued st.after.state items newId := by
  intro i hi
  rcases exec_or_abort hf with ⟨v, hv, hexec⟩ | ⟨e, -, hsame⟩
  · refine undrawn_exec hexec ?_ (h i hi)
    cases hop : st.op with
    | enqueueTask id a =>
        rintro rfl
        rw [enqueuesItem_of_ok hop ⟨v, hv⟩] at hst
        exact List.any_eq_false.1 hst i hi (decide_eq_true rfl)
    | _ => trivial
  · rw [hsame]
    exact h i hi

/-- An enqueued item has a task. -/
theorem isSome_of_enqueuesItem {st : Step database P α} (hf : Fires st)
    (hst : enqueuesItem items newId st = true) :
    ∃ i ∈ positions items, (st.after.state.tasks.find? (newId i)).isSome := by
  obtain ⟨pid, op, out, before, after⟩ := st
  cases op with
  | enqueueTask id a =>
      cases out with
      | error e => cases hst
      | ok row =>
          obtain ⟨i, hi, hid⟩ := List.any_eq_true.1 hst
          obtain rfl : newId i = id := of_decide_eq_true hid
          rcases exec_or_abort hf with ⟨v, hv, hexec⟩ | ⟨e, he, -⟩
          · obtain ⟨ws, tasks, -, -, hins, hafter⟩ := enqueueTask_cases hexec
            refine ⟨i, hi, ?_⟩
            have hafter : after.state = _ := hafter
            change (after.state.tasks.find? (newId i)).isSome = true
            rw [hafter, Store.appendEvent_tasks, Table.find?_insert hins, if_pos rfl]
            rfl
          · cases he
  | _ => cases hst

/-- **A run leaves no task of an item exactly if it has committed no enqueue of one.** -/
theorem noneEnqueued_iff {c c' : Config database P α} {τ : List (Step database P α)}
    (h : Reach c τ c') (hnew : NoneEnqueued c.state items newId) :
    NoneEnqueued c'.state items newId ↔ ∀ st ∈ τ, enqueuesItem items newId st = false := by
  constructor
  · intro hnone st hst
    rw [← Bool.not_eq_true]
    intro henqueues
    obtain ⟨i, hi, hsome⟩ := isSome_of_enqueuesItem (h.fires hst) henqueues
    obtain ⟨τ₁, τ₂, rfl⟩ := List.append_of_mem hst
    have hend := find?_isSome_reach h.split_at.2.2 hsome
    rw [hnone i hi] at hend
    cases hend
  · intro hquiet
    exact h.invariant (fun c => NoneEnqueued c.state items newId)
      (fun st : Step database P α => enqueuesItem items newId st = false) hquiet hnew
      fun _ hf hst hnone => noneEnqueued_step hf hst hnone

/-- **A decomposition that is run again is done once exactly if the first run had enqueued
nothing**; and a run that stops for good leaves nothing behind exactly then. -/
theorem decomposed_once_iff {d : Decomposer} {newId newId' : Nat → Uuid} {approvalId : Uuid}
    {s s' : Store} (hsame : d.SamePlan) (hseam : d.Avoids fun id => ∃ i, id = newId i)
    (hapart : ∀ i j, newId i ≠ newId' j) (hnew : NoneEnqueued s d.items newId)
    {τ : List (Step database Unit Bool)} {c₁ : Config database Unit Bool}
    (hcrash : Reach ⟨s, fun _ => d.program newId approvalId⟩ τ c₁)
    {c₂ c₃ : Config database P α} {τ' : List (Step database P α)} (hstate : c₂.state = c₁.state)
    (hrecover : Reach c₂ τ' c₃) (hquiet : ∀ st ∈ τ', enqueuesItem d.items newId st = false)
    (hrerun : (d.program newId' approvalId).eval c₃.state = (.ok true, s')) :
    (DecomposedOnce s' d.items newId newId' ↔
        ∀ st ∈ τ, enqueuesItem d.items newId st = false) ∧
      (NoneEnqueued c₁.state d.items newId ↔
        ∀ st ∈ τ, enqueuesItem d.items newId st = false) := by
  have hfirst := noneEnqueued_iff hcrash hnew
  refine ⟨?_, hfirst⟩
  rw [← hfirst]
  have hsecond : ∀ i ∈ positions d.items, Drawn s' d.items newId' i :=
    fun i hi => Decomposer.drawn_program hsame hrerun hi
  constructor
  · intro honce i hi
    -- the task of the second run is there, so the first run has left none
    have hnone : s'.tasks.find? (newId i) = none := by
      rcases honce i hi with ⟨-, hnone⟩ | ⟨-, hnone⟩
      · obtain ⟨row, hrow, -⟩ := hsecond i hi
        rw [hrow] at hnone
        cases hnone
      · exact hnone
    rw [← Option.not_isSome_iff_eq_none]
    intro hleft
    rw [← hstate] at hleft
    have hend := isSome_eval (d.program newId' approvalId) (find?_isSome_reach hrecover hleft)
    rw [hrerun, hnone] at hend
    cases hend
  · intro hnone i hi
    refine Or.inr ⟨hsecond i hi, ?_⟩
    rw [← hstate] at hnone
    have hbefore := (noneEnqueued_iff hrecover hnone).2 hquiet i hi
    have havoids : (d.program newId' approvalId).Only
        (StoreOp.Avoids fun id => ∃ i, id = newId i) :=
      Decomposer.avoids_program hseam fun j ⟨i, hij⟩ => hapart i j hij.symm
    have hafter := undrawn_eval havoids ⟨i, rfl⟩ hbefore
    rw [hrerun] at hafter
    exact hafter

end Rerun

/-! ## A tick that dies after its first enqueue -/

/-- A tick in progress. -/
def heldTick : Task where
  workstream := ⟨"publishing", by decide⟩
  type := "pm.tick"
  status := .inProgress
  claimedBy := some "w1"
  createdAt := 0
  updatedAt := 0

/-- A PM whose plan has one item. -/
def onePage : Planner where
  sha256 := id
  repr text := "'" ++ text ++ "'"
  obtainPlan := .answer ⟨true, true, "", "", .int 1, .int 1⟩
  items := [{ title := "write the page" }]

/-- What the first run and the second draw for the page. -/
def firstDraw : Uuid := ⟨"0c8f1f5e-2f0b-4a39-9a70-3f4f0c1d2ea1", by decide⟩
def secondDraw : Uuid := ⟨"0c8f1f5e-2f0b-4a39-9a70-3f4f0c1d2ea2", by decide⟩

/-- The run that dies. -/
def dyingTick : Config database Unit Bool :=
  ⟨Store.single taskT heldTick 0, fun _ =>
    (Decomposer.tick onePage taskT heldTick).program (fun _ => firstDraw) danglingId⟩

/-- The supervisor, and the worker that claims the tick again. -/
def rekicked (s : Store) : Config database Unit Unit :=
  ⟨s, fun _ => do
    let _ ← call (.rekickTask taskT (some true))
    let _ ← claimTask { workerId := "w2" } []
    return ()⟩

/-- The run again. -/
def secondTick : Process Bool :=
  (Decomposer.tick onePage taskT heldTick).program (fun _ => secondDraw) danglingId

/-- The queue after a crash of the first run after `n` calls, and the second run. -/
def afterRerun (n : Nat) : Except Exn Bool × Store :=
  secondTick.eval ((rekicked (dyingTick.run (List.replicate n ((), none))).state).run
    (List.replicate 3 ((), none))).state

/-- **The page is enqueued twice, and the run that died alone leaves it behind.** -/
theorem decomposed_twice :
    (afterRerun 2).1 = .ok true ∧
      ¬ DecomposedOnce (afterRerun 2).2 onePage.items (fun _ => firstDraw) (fun _ => secondDraw) ∧
      ¬ NoneEnqueued (dyingTick.run (List.replicate 2 ((), none))).state onePage.items
        fun _ => firstDraw := by
  have hfirst : ((afterRerun 2).2.tasks.find? firstDraw).isSome = true := by decide
  have hsecond : ((afterRerun 2).2.tasks.find? secondDraw).isSome = true := by decide
  have hleft : ((dyingTick.run (List.replicate 2 ((), none))).state.tasks.find?
      firstDraw).isSome = true := by decide
  refine ⟨by decide, fun honce => ?_, fun hnone => ?_⟩
  · rcases honce 1 (by decide) with ⟨-, hnone⟩ | ⟨-, hnone⟩
    · rw [hnone] at hsecond
      cases hsecond
    · rw [hnone] at hfirst
      cases hfirst
  · rw [hnone 1 (by decide)] at hleft
    cases hleft

/-- The run that dies before its first enqueue is made good by the second. -/
theorem decomposed_once_after_early_crash :
    DecomposedOnce (afterRerun 1).2 onePage.items (fun _ => firstDraw) fun _ => secondDraw := by
  have hdone : (afterRerun 1).1 = .ok true := by decide
  have hnew : NoneEnqueued dyingTick.state onePage.items fun _ => firstDraw := by
    intro i _
    rfl
  have hcrash := Reach.of_run dyingTick (List.replicate 1 ((), none))
  have hrecover := Reach.of_run
    (rekicked (dyingTick.run (List.replicate 1 ((), none))).state) (List.replicate 3 ((), none))
  have hrerun : ((Decomposer.tick onePage taskT heldTick).program (fun _ => secondDraw)
      danglingId).eval ((rekicked (dyingTick.run (List.replicate 1 ((), none))).state).run
        (List.replicate 3 ((), none))).state = (.ok true, (afterRerun 1).2) := Prod.ext hdone rfl
  have hapart : ∀ i j : Nat, (fun _ : Nat => firstDraw) i ≠ (fun _ : Nat => secondDraw) j :=
    fun _ _ => show firstDraw ≠ secondDraw by decide
  have hstate : (rekicked (dyingTick.run (List.replicate 1 ((), none))).state).state =
      (dyingTick.run (List.replicate 1 ((), none))).state := rfl
  have hseam : (Decomposer.tick onePage taskT heldTick).Avoids
      fun id => ∃ i : Nat, id = (fun _ => firstDraw) i := fun _ _ => .ret _
  refine (decomposed_once_iff (d := .tick onePage taskT heldTick) trivial hseam hapart hnew
    hcrash hstate hrecover ?_ hrerun).1.2 ?_
  · decide
  · decide

end AiStudio.Runtime
