import AiStudio.Gateway.Endpoints
import AiStudio.Runtime.Rows

/-!
# The dependency gate

Embeds `ready_tasks` and `waiting_tasks` of `runtime/tasks.py`, and compares the three
encodings of the gate. The grab and the two reads agree on every array of prerequisites
(`mem_readyTasks_iff`, `mem_waitingTasks_iff`). All three join the array with the table, so
a prerequisite without a row gates nothing: a claim has all its prerequisites merged
exactly when they all exist (`prerequisites_of_reach`).
-/

set_option autoImplicit false

namespace AiStudio.Runtime

open AiStudio.Data AiStudio.Concurrency

namespace Store

/-- `EXISTS (unnest(depends_on) JOIN tasks WHERE status <> 'merged')`. -/
def unmet (s : Store) (row : Task) : Bool :=
  row.dependsOn.any fun dep => (s.tasks.find? dep).any (·.status ≠ .merged)

/-- `ready_tasks`. -/
def readyTasks (s : Store) (assignee : Option Assignee := none)
    (workstream : Option String := none) (limit : Option Nat := none) : List (Uuid × Task) :=
  let rows := (s.tasks.select fun _ row =>
    row.status = .upForGrabs && assignee.all (fun x => row.assignee.all (· = x)) &&
      workstream.all (row.workstream.name = ·) && !s.unmet row).insertionSort
    (orderBy defaultSortTerms · ·)
  match limit with
  | none => rows
  | some n => rows.take n

end Store

/-- One entry of `waiting_tasks`. -/
structure WaitingTask where
  id : Uuid
  task : Task
  pendingPrereqs : List Uuid
  blockedByAbandoned : Bool

/-- A waiting task, with its prerequisites that are not merged. -/
def Store.waitingTask (s : Store) (r : Uuid × Task) : WaitingTask :=
  let pend := s.tasks.select fun id row => r.2.dependsOn.contains id && row.status ≠ .merged
  ⟨r.1, r.2, pend.map Prod.fst, pend.any fun p => p.2.status = .abandoned⟩

/-- `waiting_tasks`. -/
def Store.waitingTasks (s : Store) (workstream : Option String := none) : List WaitingTask :=
  ((s.tasks.select fun _ row =>
    row.status = .upForGrabs && 0 < row.dependsOn.length &&
      workstream.all (row.workstream.name = ·) && s.unmet row).insertionSort
    (fun x y => x.2.createdAt ≤ y.2.createdAt)).map s.waitingTask

/-! ## The three encodings agree -/

/-- The gate of the grab is the negation of the `EXISTS`. -/
theorem Store.depsMerged_eq_not_unmet (s : Store) (row : Task) :
    s.depsMerged row = !s.unmet row := by
  rw [depsMerged, unmet, List.not_any_eq_all_not]
  congr 1
  funext dep
  cases s.tasks.find? dep <;> simp

/-- An unmet prerequisite is a prerequisite. -/
theorem Store.length_pos_of_unmet {s : Store} {row : Task} (h : s.unmet row = true) :
    0 < row.dependsOn.length := by
  obtain ⟨dep, hdep, -⟩ := List.any_eq_true.1 h
  exact List.length_pos_of_mem hdep

/-- Some call of `grab_task` claims the task. -/
def MayGrab (s : Store) (id : Uuid) : Prop :=
  ∃ a locked row s', grabTask a locked s = .ok (some (id, row), s')

/-- **What a grab may claim**: the `up_for_grabs` tasks whose gate is open. -/
theorem mayGrab_iff (s : Store) (id : Uuid) :
    MayGrab s id ↔ ∃ row, s.tasks.find? id = some row ∧ row.status = .upForGrabs ∧
      s.depsMerged row = true := by
  constructor
  · rintro ⟨a, locked, row, s', h⟩
    rcases grabTask_cases h with ⟨hnone, -⟩ | ⟨id', old, -, hpick, -, hsome, -⟩
    · cases hnone
    · obtain ⟨rfl, -⟩ := Prod.mk.inj (Option.some.inj hsome)
      obtain ⟨hrow, hgrab, -⟩ := GrabArgs.pick_eq_some hpick
      refine ⟨old, hrow, GrabArgs.status_of_grabbable hgrab, ?_⟩
      simp only [GrabArgs.grabbable, Bool.and_eq_true] at hgrab
      exact hgrab.2
  · rintro ⟨row, hrow, hst, hdeps⟩
    -- a worker without filters, while every other row is locked
    let a : GrabArgs := { workerId := "" }
    let locked := (s.tasks.rows.map Prod.fst).filter (· ≠ id)
    have hgrab : a.grabbable s row = true := by simp [a, GrabArgs.grabbable, hst, hdeps]
    have hpick : a.pick locked s = some (id, row) := by
      have hmem : (id, row) ∈ s.tasks.select fun id row =>
          a.grabbable s row && !locked.contains id := by
        rw [Table.mem_select]
        exact ⟨hrow, by simp [hgrab, locked]⟩
      cases hp : a.pick locked s with
      | none =>
          rw [GrabArgs.pick, List.head?_eq_none_iff] at hp
          rw [← List.mem_insertionSort (orderBy a.sort · ·), hp] at hmem
          cases hmem
      | some p =>
          obtain ⟨id', row'⟩ := p
          obtain ⟨hrow', -, hfree⟩ := GrabArgs.pick_eq_some hp
          have hin := List.mem_map_of_mem (f := Prod.fst) ((s.tasks.find?_eq_some_iff _ _).1 hrow')
          obtain rfl : id' = id := by
            by_contra hne
            exact hfree (List.mem_filter.2 ⟨hin, by simpa using hne⟩)
          rw [hrow] at hrow'
          rw [Option.some.inj hrow']
    have hfree : s.identityQuarantined a.workerId = false := rfl
    have hm := GrabArgs.moves_of_pick hpick
    refine ⟨a, locked, a.claim.update s.now .claimed row,
      s.recordTransition id row .claimed a.claim, ?_⟩
    simp only [grabTask, hfree, hpick, hm.transition_eq]
    rfl

/-- **`ready_tasks` lists what a grab may claim.** -/
theorem mem_readyTasks_iff (s : Store) (id : Uuid) :
    id ∈ s.readyTasks.map Prod.fst ↔ MayGrab s id := by
  rw [mayGrab_iff]
  simp only [Store.readyTasks, List.mem_map, List.mem_insertionSort, Prod.exists,
    exists_and_right, exists_eq_right, Table.mem_select, Option.all_none, Bool.and_true,
    Bool.and_eq_true, decide_eq_true_eq, ← Store.depsMerged_eq_not_unmet]

/-- **`waiting_tasks` lists the other `up_for_grabs` tasks.** -/
theorem mem_waitingTasks_iff (s : Store) (id : Uuid) :
    id ∈ s.waitingTasks.map WaitingTask.id ↔
      s.status? id = some .upForGrabs ∧ ¬ MayGrab s id := by
  rw [mayGrab_iff]
  have hlist : s.waitingTasks.map WaitingTask.id =
      ((s.tasks.select fun _ row => row.status = .upForGrabs && 0 < row.dependsOn.length &&
        true && s.unmet row).insertionSort
        (fun x y => x.2.createdAt ≤ y.2.createdAt)).map Prod.fst := by
    rw [Store.waitingTasks, List.map_map]
    rfl
  simp only [hlist, List.mem_map, List.mem_insertionSort, Prod.exists, exists_and_right,
    exists_eq_right, Table.mem_select, Bool.and_true, Bool.and_eq_true, decide_eq_true_eq]
  constructor
  · rintro ⟨row, hrow, ⟨hst, -⟩, hunmet⟩
    refine ⟨?_, ?_⟩
    · rw [Store.status?, Store.core_of_find? hrow, Option.map_some, Task.core, hst]
    · rintro ⟨row', hrow', -, hdeps⟩
      obtain rfl := Option.some.inj (hrow.symm.trans hrow')
      rw [Store.depsMerged_eq_not_unmet, hunmet] at hdeps
      cases hdeps
  · rintro ⟨hst, hno⟩
    simp only [Store.status?, Store.core, Option.map_map, Option.map_eq_some_iff,
      Function.comp_apply] at hst
    obtain ⟨row, hrow, hst⟩ := hst
    have hunmet : s.unmet row = true := by
      by_contra hmet
      refine hno ⟨row, hrow, hst, ?_⟩
      rw [Store.depsMerged_eq_not_unmet]
      simpa using hmet
    exact ⟨row, hrow, ⟨hst, Store.length_pos_of_unmet hunmet⟩, hunmet⟩

/-! ## Prerequisites without a row -/

/-- The task a grab claimed. -/
def StoreOp.grabbed : (o : StoreOp) → Except Exn o.Res → Option Uuid
  | .grabTask .., .ok (some (id, _)) => some id
  | _, _ => none

/-- Every prerequisite of the task is a merged task. -/
def PrereqsMerged (s : Store) (id : Uuid) : Prop :=
  ∃ row, s.tasks.find? id = some row ∧ ∀ dep ∈ row.dependsOn, s.status? dep = some .merged

instance (s : Store) (id : Uuid) : Decidable (PrereqsMerged s id) :=
  decidable_of_iff ((s.tasks.find? id).any fun row =>
    row.dependsOn.all fun dep => s.status? dep = some .merged) (by
      simp [PrereqsMerged, Option.any_eq_true])

/-- Every prerequisite of the task is a task. -/
def PrereqsExist (s : Store) (id : Uuid) : Prop :=
  ∃ row, s.tasks.find? id = some row ∧ ∀ dep ∈ row.dependsOn, (s.tasks.find? dep).isSome

variable {P α : Type} [DecidableEq P]

/-- An enqueue whose prerequisites are all tasks. -/
def StoreOp.namesTasks (o : StoreOp) (s : Store) : Bool :=
  match o with
  | .enqueueTask _ a => a.dependsOn.all fun dep => (s.tasks.find? dep).isSome
  | _ => true

/-- An enqueue of the step names tasks only. -/
abbrev NamesTasks (st : Step database P α) : Prop := st.op.namesTasks st.before.state = true

/-- A call that claims picked the row and moved it. -/
theorem exec_grabbed {o : StoreOp} {s s' : Store} {r : o.Res} {id : Uuid}
    (hgrab : o.grabbed (.ok r) = some id) (h : o.exec s = .ok (r, s')) :
    ∃ a locked row, o = .grabTask a locked ∧ a.pick locked s = some (id, row) ∧
      s' = s.recordTransition id row .claimed a.claim := by
  cases o with
  | grabTask a locked =>
      rcases grabTask_cases h with ⟨rfl, -⟩ | ⟨id', row, -, hpick, -, rfl, hs⟩
      · cases hgrab
      · obtain rfl : id' = id := Option.some.inj hgrab
        exact ⟨a, locked, row, rfl, hpick, hs⟩
  | _ => cases hgrab

/-- A step that claims is committed. -/
theorem step_grabbed {st : Step database P α} (hf : Fires st) {id : Uuid}
    (hgrab : st.op.grabbed st.out = some id) :
    ∃ a locked row, st.op = .grabTask a locked ∧
      a.pick locked st.before.state = some (id, row) ∧
      st.after.state = st.before.state.recordTransition id row .claimed a.claim := by
  rcases exec_or_abort hf with ⟨v, hv, hexec⟩ | ⟨e, he, -⟩
  · rw [hv] at hgrab
    exact exec_grabbed hgrab hexec
  · rw [he] at hgrab
    cases hop : st.op <;> rw [hop] at hgrab <;> cases hgrab

/-- A claiming step went through the gate. -/
theorem gate_of_grabbed {st : Step database P α} (hf : Fires st) {id : Uuid}
    (hgrab : st.op.grabbed st.out = some id) :
    ∃ row, st.before.state.tasks.find? id = some row ∧
      st.before.state.depsMerged row = true := by
  obtain ⟨a, locked, row, -, hpick, -⟩ := step_grabbed hf hgrab
  obtain ⟨hrow, hgrab, -⟩ := GrabArgs.pick_eq_some hpick
  simp only [GrabArgs.grabbable, Bool.and_eq_true] at hgrab
  exact ⟨row, hrow, hgrab.2⟩

/-- **Behind the open gate the prerequisites are merged exactly when they exist.** -/
theorem prereqsMerged_iff {s : Store} {id : Uuid} {row : Task}
    (hrow : s.tasks.find? id = some row) (hgate : s.depsMerged row = true) :
    PrereqsMerged s id ↔ PrereqsExist s id := by
  constructor
  · rintro ⟨row', hrow', hmerged⟩
    refine ⟨row', hrow', fun dep hdep => ?_⟩
    have hst := hmerged dep hdep
    rw [Store.status?, Store.core] at hst
    cases hp : s.tasks.find? dep with
    | none => simp [hp] at hst
    | some p => rfl
  · rintro ⟨row', hrow', hexist⟩
    obtain rfl := Option.some.inj (hrow.symm.trans hrow')
    refine ⟨row, hrow, fun dep hdep => ?_⟩
    obtain ⟨p, hp⟩ := Option.isSome_iff_exists.1 (hexist dep hdep)
    have hdone := List.all_eq_true.1 hgate dep hdep
    rw [hp, Option.all_some, decide_eq_true_eq] at hdone
    rw [Store.status?, Store.core_of_find? hp, Option.map_some, Task.core, hdone]

/-- Enqueues that name tasks only keep every prerequisite a task. -/
theorem prereqsExist_step {st : Step database P α} (hf : Fires st) (hnames : NamesTasks st)
    (h : ∀ id row, st.before.state.tasks.find? id = some row → PrereqsExist st.before.state id) :
    ∀ id row, st.after.state.tasks.find? id = some row → PrereqsExist st.after.state id := by
  intro id row hrow
  have keep : PrereqsExist st.before.state id → ∀ old,
      st.before.state.tasks.find? id = some old → row.dependsOn = old.dependsOn →
      PrereqsExist st.after.state id := by
    rintro ⟨old', hold', hdeps⟩ old hold hsame
    obtain rfl := Option.some.inj (hold.symm.trans hold')
    refine ⟨row, hrow, fun dep hdep => find?_isSome_step hf (hdeps dep ?_)⟩
    rwa [← hsame]
  cases step_rowEffect hf id with
  | same hsame =>
      rw [hsame] at hrow
      exact keep (h id row hrow) row hrow rfl
  | created a ws op fresh hnew =>
      obtain rfl := Option.some.inj (hnew.symm.trans hrow)
      refine ⟨_, hrow, fun dep hdep => find?_isSome_step hf ?_⟩
      rw [NamesTasks, op] at hnames
      exact List.all_eq_true.1 hnames dep hdep
  | wrote old row' found rewrites hnew =>
      obtain rfl := Option.some.inj (hnew.symm.trans hrow)
      exact keep (h id old found) old found rewrites.dependsOn

/-- **The dependency gate, over every run.** A claimed task has all its prerequisites
merged exactly when they are all tasks, as they are in a run whose enqueues name tasks
only; and in every state `ready_tasks` and `waiting_tasks` are what grabs may claim and
the rest of what is up for grabs. -/
theorem prerequisites_of_reach {c c' : Config database P α} {τ : List (Step database P α)}
    {now : Time} (hstart : c.state = Store.initial now) (h : Reach c τ c') :
    (∀ st ∈ τ, ∀ id, st.op.grabbed st.out = some id →
      (PrereqsMerged st.before.state id ↔ PrereqsExist st.before.state id)) ∧
    ((∀ st ∈ τ, NamesTasks st) → ∀ st ∈ τ, ∀ id, st.op.grabbed st.out = some id →
      PrereqsMerged st.before.state id) ∧
    (∀ id, id ∈ c'.state.readyTasks.map Prod.fst ↔ MayGrab c'.state id) ∧
    (∀ id, id ∈ c'.state.waitingTasks.map WaitingTask.id ↔
      c'.state.status? id = some .upForGrabs ∧ ¬ MayGrab c'.state id) := by
  have hiff : ∀ st ∈ τ, ∀ id, st.op.grabbed st.out = some id →
      (PrereqsMerged st.before.state id ↔ PrereqsExist st.before.state id) := by
    intro st hst id hgrab
    obtain ⟨row, hrow, hgate⟩ := gate_of_grabbed (h.fires hst) hgrab
    exact prereqsMerged_iff hrow hgate
  refine ⟨hiff, ?_, mem_readyTasks_iff c'.state, mem_waitingTasks_iff c'.state⟩
  intro hnames st hst id hgrab
  refine (hiff st hst id hgrab).2 ?_
  obtain ⟨τ₁, τ₂, rfl⟩ := List.append_of_mem hst
  obtain ⟨hf, hr, -⟩ := h.split_at
  have hall := hr.invariant
    (fun c => ∀ id row, c.state.tasks.find? id = some row → PrereqsExist c.state id) NamesTasks
    (fun st' hst' => hnames st' (List.mem_append_left _ hst'))
    (by rw [hstart]; exact fun id row hrow => nomatch hrow)
    (fun st' hf' hn ih => prereqsExist_step hf' hn ih)
  obtain ⟨row, hrow, -⟩ := gate_of_grabbed hf hgrab
  exact hall id row hrow

/-! ## A dangling prerequisite -/

/-- An id that is no task's. -/
def danglingId : Uuid := ⟨"5f6e6b0c-4d0e-4a51-9d2c-0d5a5a7a1fff", by decide⟩

/-- A remote enqueues a task that depends on no task, and a worker grabs it. -/
def danglingRun : Config database Bool Unit :=
  ⟨Store.initial 0, fun
    | true => (Gateway.enqueue taskT {} { identity := "remote-a", workstream := some "productivity" }
        { type := "work.doc", dependsOn := [danglingId] }).bind fun _ => .ret ()
    | false => (call (.grabTask { workerId := "w1" } [])).bind fun _ => .ret ()⟩

/-- **A task with a prerequisite that does not exist is claimed.** -/
theorem prerequisites_fail_of_dangling :
    ∃ st ∈ danglingRun.trace [(true, none), (true, none), (false, none)],
      st.op.grabbed st.out = some taskT ∧ ¬ PrereqsMerged st.before.state taskT := by
  decide

/-- A worker finishes a task and grabs the one that depends on it. -/
def orderedRun : Config database Unit Unit :=
  ⟨Store.initial 0, fun _ => do
    let _ ← call (.enqueueTask danglingId { workstream := "productivity", type := "work.doc" })
    let _ ← claimTask { workerId := "w1" } []
    let _ ← completeTask danglingId {}
    let _ ← call (.enqueueTask taskT
      { workstream := "productivity", type := "work.doc", dependsOn := [danglingId] })
    let _ ← call (.grabTask { workerId := "w1" } [])
    return ()⟩

theorem prerequisites_of_reach_orderedRun :
    (∃ st ∈ orderedRun.trace (List.replicate 8 ((), none)), st.op.grabbed st.out = some taskT) ∧
    ∀ st ∈ orderedRun.trace (List.replicate 8 ((), none)), ∀ id,
      st.op.grabbed st.out = some id → PrereqsMerged st.before.state id :=
  ⟨by decide,
    (prerequisites_of_reach rfl (Reach.of_run orderedRun _)).2.1 (by decide)⟩

end AiStudio.Runtime
