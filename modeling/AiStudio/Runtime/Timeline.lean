import AiStudio.Runtime.Legality
import AiStudio.Runtime.Rows
import Mathlib.Data.String.Basic

/-!
# The recorded lifecycle of a task

Embeds `runtime/tasks.py::task_lifecycle` and the order it reads the telemetry in. A row of
`task_transitions` carries the start of its transaction as `at` and a random `id`, and the
query orders by these two; the transitions of one task happen in the order in which their
transactions get its row lock. A run is a list of operations in that order, each with the
start of the transaction it belongs to, so one that waited starts before the one it waited
for, and the hops of one enclosing transaction share their start. `returnsChain_iff` says when
the two orders agree.
-/

set_option autoImplicit false

namespace AiStudio.Runtime

open AiStudio.Data AiStudio.Concurrency

/-- An operation of a run: the start of its transaction, the id that a telemetry row it
inserts would draw, and the operation. -/
structure Stamped where
  start : Time
  rowId : Uuid
  op : StoreOp

/-- A database with the primary keys of its telemetry: the ids of the rows of each task, in
the order of insertion. -/
structure Journal where
  store : Store
  rowIds : Uuid → List Uuid

/-- The database as a transaction sees it that began at `start`. -/
def Store.begunAt (s : Store) (start : Time) : Store := { s with now := start }

namespace Journal

/-- The telemetry rows of a task, in the order of insertion. -/
def rows (j : Journal) (id : Uuid) : List (Uuid × TaskTransition) :=
  (j.rowIds id).zip (j.store.history id)

/-- The keys of the telemetry after an operation drew `rowId` for what it recorded. -/
def drawn (j : Journal) (s : Store) (rowId : Uuid) (id : Uuid) : List Uuid :=
  j.rowIds id ++ List.replicate ((s.history id).length - (j.store.history id).length) rowId

/-- One operation; `now()` in it is the start of its transaction. -/
def perform (j : Journal) (x : Stamped) : Journal :=
  match x.op.exec (j.store.begunAt x.start) with
  | .error _ => j
  | .ok (_, s) => ⟨s, j.drawn s x.rowId⟩

/-- A run, in the order in which the operations get the row lock. -/
def run (j : Journal) (ops : List Stamped) : Journal := ops.foldl perform j

end Journal

/-- `ORDER BY at ASC, id ASC`. -/
def recordedBefore (x y : Uuid × TaskTransition) : Prop :=
  x.2.time < y.2.time ∨ x.2.time = y.2.time ∧ x.1.text ≤ y.1.text

instance : DecidableRel recordedBefore := fun _ _ => instDecidableOr

instance : Std.Total recordedBefore where
  total x y := by
    rcases lt_trichotomy x.2.time y.2.time with h | h | h
    · exact Or.inl (Or.inl h)
    · exact (le_total x.1.text y.1.text).imp (fun hle => Or.inr ⟨h, hle⟩)
        fun hle => Or.inr ⟨h.symm, hle⟩
    · exact Or.inr (Or.inl h)

instance : IsTrans _ recordedBefore where
  trans x y z hxy hyz := by
    rcases hxy with hxy | ⟨hxy, hle⟩ <;> rcases hyz with hyz | ⟨hyz, hle'⟩
    · exact Or.inl (hxy.trans hyz)
    · exact Or.inl (hyz ▸ hxy)
    · exact Or.inl (hxy ▸ hyz)
    · exact Or.inr ⟨hxy.trans hyz, hle.trans hle'⟩

/-- What `task_lifecycle` returns. -/
structure TaskLifecycle where
  transitions : List TaskTransition
  totalMs : Option Int
  current : Option TaskStatus
  dependsOn : List Uuid

namespace Journal

/-- The rows of the query of `task_lifecycle`. -/
def selectTransitions (j : Journal) (id : Uuid) : List (Uuid × TaskTransition) :=
  (j.rows id).insertionSort recordedBefore

/-- `task_lifecycle`. -/
def taskLifecycle (j : Journal) (id : Uuid) : TaskLifecycle where
  transitions := (j.selectTransitions id).map Prod.snd
  totalMs :=
    if (j.selectTransitions id).isEmpty then none
    else some ((j.selectTransitions id).map fun x => x.2.latencyMs).sum
  current := (j.store.tasks.find? id).map Task.status
  dependsOn := ((j.store.tasks.find? id).map Task.dependsOn).getD []

/-- The report is the chain of the task's transitions, as they happened. -/
structure ReturnsChain (j : Journal) (id : Uuid) : Prop where
  ordered : j.selectTransitions id = j.rows id
  /-- From `up_for_grabs`, each hop where the last one ended, to the present status. -/
  path : ∀ status ∈ (j.taskLifecycle id).current,
    IsPath .upForGrabs (j.taskLifecycle id).transitions status
  latency : ∀ hop ∈ (j.taskLifecycle id).transitions, 0 ≤ hop.latencyMs

/-- The stamps of the transitions agree with the order in which they happened, and the first
transition is not stamped before the creation of the task. -/
structure InStep (j : Journal) (id : Uuid) : Prop where
  sorted : (j.rows id).Pairwise recordedBefore
  first : ∀ row ∈ j.store.tasks.find? id, ∀ hop ∈ (j.store.history id).head?,
    0 ≤ roundMillis (hop.time - row.createdAt)

/-- What the telemetry of a task records: its hops are a path to the present status, and each
latency is measured from the hops before it. -/
structure Recorded (j : Journal) (id : Uuid) : Prop where
  keyed : (j.rowIds id).length = (j.store.history id).length
  absent : j.store.tasks.find? id = none → j.store.history id = []
  path : ∀ row ∈ j.store.tasks.find? id, IsPath .upForGrabs (j.store.history id) row.status
  metered : ∀ row ∈ j.store.tasks.find? id, ∀ pre hop post,
    j.store.history id = pre ++ hop :: post →
    hop.latencyMs =
      roundMillis (hop.time - ((pre.map TaskTransition.time).max?).getD row.createdAt)

namespace Recorded

variable {j : Journal} {id : Uuid}

/-- The rows are the history, with their keys. -/
theorem map_rows (h : j.Recorded id) : (j.rows id).map Prod.snd = j.store.history id :=
  List.map_snd_zip h.keyed.ge

/-- A row that was not there before has no telemetry. -/
theorem of_absent (hrow : j.store.tasks.find? id = none) (hhist : j.store.history id = [])
    (hkeys : j.rowIds id = []) : j.Recorded id := by
  refine ⟨by rw [hkeys, hhist]; rfl, fun _ => hhist, ?_, ?_⟩
  · intro row hmem
    rw [hrow] at hmem
    cases hmem
  · intro row hmem
    rw [hrow] at hmem
    cases hmem

end Recorded

end Journal

/-! ## One operation -/

/-- The creation of a task is written once. -/
theorem Rewrites.createdAt {o : StoreOp} {s : Store} {id : Uuid} {row row' : Task}
    (h : Rewrites o s id row row') : row'.createdAt = row.createdAt := by
  cases h with
  | rekicked made => cases made <;> rfl
  | _ => rfl

/-- The row of a task after a call stems from its row before. -/
theorem createdAt_of_exec {o : StoreOp} {s s' : Store} {r : o.Res} (h : o.exec s = .ok (r, s'))
    {id : Uuid} {row row' : Task} (hrow : s.tasks.find? id = some row)
    (hrow' : s'.tasks.find? id = some row') : row'.createdAt = row.createdAt := by
  cases exec_rowEffect h id with
  | same hsame =>
      rw [hsame, hrow] at hrow'
      rw [Option.some.inj hrow']
  | created a ws op fresh _ =>
      rw [hrow] at fresh
      cases fresh
  | wrote old new found rewrites hnew =>
      obtain rfl := Option.some.inj (hrow.symm.trans found)
      obtain rfl := Option.some.inj (hrow'.symm.trans hnew)
      exact rewrites.createdAt

namespace Journal

variable {j : Journal} {id : Uuid}

/-- The keys follow the history, whatever it grew by. -/
theorem length_drawn (hkeyed : (j.rowIds id).length = (j.store.history id).length) {s : Store}
    {hops : List TaskTransition} (hhist : s.history id = j.store.history id ++ hops)
    (rowId : Uuid) : (j.drawn s rowId id).length = (s.history id).length := by
  rw [drawn, hhist, List.length_append, List.length_replicate, List.length_append, hkeyed]
  omega

/-- **One operation keeps the telemetry recorded.** -/
theorem Recorded.perform (h : j.Recorded id) (x : Stamped) : (j.perform x).Recorded id := by
  unfold Journal.perform
  split
  · exact h
  · rename_i r s hexec
    -- the history grows at its end, so what the earlier hops recorded stays
    have hearlier : ∀ row row' pre hop post, s.tasks.find? id = some row' →
        j.store.tasks.find? id = some row → j.store.history id = pre ++ hop :: post →
        hop.latencyMs =
          roundMillis (hop.time - ((pre.map TaskTransition.time).max?).getD row'.createdAt) := by
      intro row row' pre hop post hrow' hrow hsplit
      have hcreated : row'.createdAt = row.createdAt := createdAt_of_exec hexec hrow hrow'
      rw [hcreated]
      exact h.metered row hrow pre hop post hsplit
    cases (exec_effect hexec).taskEffect id with
    | same core history finished =>
        have hstatus : s.status? id = j.store.status? id := congrArg _ core
        have hhist : s.history id = j.store.history id := history
        have hgrown : s.history id = j.store.history id ++ [] := by rw [hhist, List.append_nil]
        refine ⟨length_drawn h.keyed hgrown _, ?_, ?_, ?_⟩
        · intro hnone
          rw [Store.find?_eq_none_iff_status?, hstatus, ← Store.find?_eq_none_iff_status?] at hnone
          exact hhist.trans (h.absent hnone)
        · intro row' hrow'
          have hrow := Store.status?_of_find? hrow'
          rw [hstatus] at hrow
          obtain ⟨row, hrow, hsame⟩ := Store.find?_of_status? hrow
          rw [hhist, ← hsame]
          exact h.path row hrow
        · intro row' hrow' pre hop post hsplit
          have hrow := Store.status?_of_find? hrow'
          rw [hstatus] at hrow
          obtain ⟨row, hrow, -⟩ := Store.find?_of_status? hrow
          exact hearlier row row' pre hop post hrow' hrow (hhist.symm.trans hsplit)
    | created a op fresh core history finished =>
        have hnone : j.store.tasks.find? id = none :=
          Store.find?_eq_none_iff_status?.2 (congrArg (Option.map TaskCore.status) fresh)
        have hhist : s.history id = [] := history.trans (h.absent hnone)
        have hgrown : s.history id = j.store.history id ++ [] := by
          rw [hhist, List.append_nil, h.absent hnone]
        refine ⟨length_drawn h.keyed hgrown _, fun _ => hhist, ?_, ?_⟩
        · intro row' hrow'
          have hstatus : s.status? id = some .upForGrabs := congrArg (Option.map TaskCore.status) core
          rw [Store.status?_of_find? hrow'] at hstatus
          rw [hhist, Option.some.inj hstatus]
          rfl
        · intro row' _ pre hop post hsplit
          rw [hhist] at hsplit
          exact absurd hsplit.symm (by simp)
    | moved m row hid makes admits core history finished =>
        subst hid
        have hrow : j.store.tasks.find? m.id = some row := admits.found
        have hhist : s.history m.id = j.store.history m.id ++
          [(j.store.begunAt x.start).hop m.id row m.target m.args] := history
        refine ⟨length_drawn h.keyed hhist _, ?_, ?_, ?_⟩
        · intro hnone
          rw [Store.core, hnone] at core
          cases core
        · intro row' hrow'
          have hstatus : s.status? m.id = some m.target := congrArg (Option.map TaskCore.status) core
          rw [Store.status?_of_find? hrow'] at hstatus
          rw [hhist, Option.some.inj hstatus]
          exact IsPath.concat (h.path row hrow)
        · intro row' hrow' pre hop post hsplit
          rw [hhist] at hsplit
          rcases List.eq_nil_or_concat post with rfl | ⟨post, last, rfl⟩
          · obtain ⟨rfl, hlast⟩ := List.append_inj' hsplit rfl
            obtain rfl := List.singleton_inj.1 hlast
            rw [createdAt_of_exec hexec hrow hrow']
            rfl
          · rw [List.concat_eq_append, ← List.cons_append, ← List.append_assoc] at hsplit
            exact hearlier row row' pre hop post hrow' hrow (List.append_inj' hsplit rfl).1

/-- **Every run keeps the telemetry recorded.** -/
theorem Recorded.run (h : j.Recorded id) (ops : List Stamped) : (j.run ops).Recorded id := by
  induction ops generalizing j with
  | nil => exact h
  | cons x ops ih => exact ih (h.perform x)

end Journal

/-! ## The report -/

theorem roundMillis_nonneg {us : Int} (h : 0 ≤ us) : 0 ≤ roundMillis us :=
  mul_nonneg (Int.sign_nonneg_iff.2 h) (Int.natCast_nonneg _)

theorem time_le_of_recordedBefore {x y : Uuid × TaskTransition} (h : recordedBefore x y) :
    x.2.time ≤ y.2.time := by
  rcases h with h | ⟨h, -⟩
  · exact h.le
  · exact h.le

namespace Journal

variable {j : Journal} {id : Uuid}

/-- The history of a task is in the order of its stamps. -/
theorem InStep.times (h : j.InStep id) (hrec : j.Recorded id) :
    (j.store.history id).Pairwise fun x y => x.time ≤ y.time := by
  rw [← hrec.map_rows, List.pairwise_map]
  exact h.sorted.imp time_le_of_recordedBefore

/-- Latencies measured in step are not negative. -/
theorem InStep.latency_nonneg (h : j.InStep id) (hrec : j.Recorded id) {hop : TaskTransition}
    (hmem : hop ∈ j.store.history id) : 0 ≤ hop.latencyMs := by
  cases hrow : j.store.tasks.find? id with
  | none =>
      rw [hrec.absent hrow] at hmem
      cases hmem
  | some row =>
      obtain ⟨pre, post, hsplit⟩ := List.append_of_mem hmem
      rw [hrec.metered row hrow pre hop post hsplit]
      cases hmax : (pre.map TaskTransition.time).max? with
      | none =>
          have hnil : pre = [] := by simpa using hmax
          subst hnil
          refine h.first row hrow hop ?_
          rw [hsplit]
          rfl
      | some last =>
          obtain ⟨prior, hprior, rfl⟩ := List.mem_map.1 (List.max?_mem hmax)
          have htimes := h.times hrec
          rw [hsplit] at htimes
          have hle : prior.time ≤ hop.time :=
            (List.pairwise_append.1 htimes).2.2 prior hprior hop List.mem_cons_self
          exact roundMillis_nonneg (sub_nonneg.2 hle)

/-- **When the stamps are in step, the report is the chain of the task.** -/
theorem InStep.returnsChain (h : j.InStep id) (hrec : j.Recorded id) : j.ReturnsChain id := by
  have hselect : j.selectTransitions id = j.rows id := h.sorted.insertionSort_eq
  have htransitions : (j.taskLifecycle id).transitions = j.store.history id := by
    rw [taskLifecycle, hselect, hrec.map_rows]
  refine ⟨hselect, fun status hstatus => ?_, fun hop hmem => ?_⟩
  · obtain ⟨row, hrow, rfl⟩ := Option.map_eq_some_iff.1 hstatus
    rw [htransitions]
    exact hrec.path row hrow
  · rw [htransitions] at hmem
    exact h.latency_nonneg hrec hmem

/-- A report that is the chain of the task was stamped in step. -/
theorem ReturnsChain.inStep (h : j.ReturnsChain id) (hrec : j.Recorded id) : j.InStep id := by
  refine ⟨?_, fun row hrow hop hhead => ?_⟩
  · rw [← h.ordered]
    exact List.pairwise_insertionSort _ _
  · obtain ⟨post, hsplit⟩ := List.head?_eq_some_iff.1 hhead
    have hlatency := h.latency hop (by
      rw [taskLifecycle, h.ordered, hrec.map_rows, hsplit]
      exact List.mem_cons_self)
    rwa [hrec.metered row hrow [] hop post hsplit] at hlatency

/-- **The report is a chain exactly if the stamps are in step**: after every run of operations
on a task that did not exist before it, `task_lifecycle` returns the transitions as they
happened, from `up_for_grabs` to the present status and with no negative latency, if and only
if each of them is stamped after the one before it and the first not before the enqueue. -/
theorem returnsChain_iff (hrow : j.store.tasks.find? id = none)
    (hhist : j.store.history id = []) (hkeys : j.rowIds id = []) (ops : List Stamped) :
    (j.run ops).ReturnsChain id ↔ (j.run ops).InStep id := by
  have hrec := (Recorded.of_absent hrow hhist hkeys).run ops
  exact ⟨fun h => h.inStep hrec, fun h => h.returnsChain hrec⟩

/-! ## Runs of one task -/

/-- A database without tasks. -/
def blank : Journal := ⟨Store.initial 0, fun _ => []⟩

/-- The ids two telemetry rows draw. -/
def rowA : Uuid := ⟨"11111111-1111-4111-8111-111111111111", by decide⟩

@[inherit_doc rowA]
def rowB : Uuid := ⟨"22222222-2222-4222-8222-222222222222", by decide⟩

/-- The enqueue of the task. -/
def enqueueT : StoreOp := .enqueueTask taskT { workstream := "productivity", type := "work.doc" }

/-- A worker grabs the task. -/
def grabT : StoreOp := .grabTask { workerId := "worker-a" } []

/-- The worker starts it. -/
def startT : StoreOp := .transition taskT .inProgress (startArgs "worker-a" none)

/-- Three transactions, one after the other. -/
def inTurn : List Stamped := [⟨0, rowA, enqueueT⟩, ⟨1000, rowB, grabT⟩, ⟨2000, rowA, startT⟩]

/-- A claim whose two hops share one enclosing transaction, the first of them with the greater
row id. -/
def enclosed : List Stamped := [⟨0, rowA, enqueueT⟩, ⟨1000, rowB, grabT⟩, ⟨1000, rowA, startT⟩]

/-- A re-kick that began before the grab and waited for its row lock. -/
def waited : List Stamped :=
  [⟨0, rowA, enqueueT⟩, ⟨2000, rowA, grabT⟩, ⟨1000, rowB, .rekickTask taskT none⟩]

theorem returnsChain_inTurn : (blank.run inTurn).ReturnsChain taskT := by
  refine (returnsChain_iff rfl rfl rfl inTurn).2 ⟨by decide, ?_⟩
  intro row hrow hop hhop
  obtain rfl : _ = row := Option.some.inj hrow
  obtain rfl : _ = hop := Option.some.inj hhop
  decide

/-- **The report is no chain**: it swaps the two hops of an enclosing transaction, and puts a
re-kick that waited before the grab it undid, with a negative latency. -/
theorem report_is_no_chain :
    ¬ (blank.run enclosed).ReturnsChain taskT ∧ ¬ (blank.run waited).ReturnsChain taskT ∧
      ((blank.run waited).taskLifecycle taskT).transitions.map TaskTransition.latencyMs =
        [-1, 2] := by
  refine ⟨fun h => absurd h.ordered (by decide), fun h => absurd h.ordered (by decide), ?_⟩
  decide

end Journal

end AiStudio.Runtime
