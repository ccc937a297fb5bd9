import AiStudio.Runtime.Lifecycle
import AiStudio.Runtime.Rows

/-!
# What a task is for life

`enqueue_task` is the only writer of what a task is: its workstream, type, priority, assignee,
budget, prerequisites and trajectory. Whatever the workers, the supervisor, the gateway and the
human do to its row later, these columns stay, and the row is never deleted. `origins_of_reach`
says this of every run: the queue, read for these columns, is the log of its enqueues.
-/

set_option autoImplicit false

namespace AiStudio.Runtime

open AiStudio.Data AiStudio.Concurrency

/-- The columns an enqueue writes and no later call rewrites. -/
structure TaskOrigin where
  workstream : Workstream
  type : String
  priority : Int
  assignee : Option Assignee
  budgetTokens : Option Int
  dependsOn : List Uuid
  trajectoryId : Option Uuid
  createdAt : Time

/-- What a task is for life. -/
def Task.origin (row : Task) : TaskOrigin where
  workstream := row.workstream
  type := row.type
  priority := row.priority
  assignee := row.assignee
  budgetTokens := row.budgetTokens
  dependsOn := row.dependsOn
  trajectoryId := row.trajectoryId
  createdAt := row.createdAt

/-- No rewrite of a row touches its origin. -/
theorem Rewrites.origin {o : StoreOp} {s : Store} {id : Uuid} {row row' : Task}
    (h : Rewrites o s id row row') : row'.origin = row.origin := by
  cases h with
  | rekicked made => cases made <;> rfl
  | _ => rfl

theorem Rewrites.workstream {o : StoreOp} {s : Store} {id : Uuid} {row row' : Task}
    (h : Rewrites o s id row row') : row'.workstream = row.workstream :=
  congrArg TaskOrigin.workstream h.origin

/-- A new task has the workstream it was asked for. -/
theorem enqueueTask_workstream {s s' : Store} {id : Uuid} {a : EnqueueArgs} {row : Task}
    (h : enqueueTask id a s = .ok (row, s')) : row.workstream.name = a.workstream := by
  unfold enqueueTask at h
  split at h
  · cases h
  · cases hw : requireWorkstream a.workstream with
    | error e => simp only [hw] at h; cases h
    | ok workstream =>
        simp only [hw, bind, Except.bind] at h
        split at h
        · cases h
        · obtain ⟨rfl, -⟩ := Prod.mk.inj (Except.ok.inj h)
          exact requireWorkstream_name hw

/-- The row a call inserts into the queue. -/
def StoreOp.queued : (o : StoreOp) → Except Exn o.Res → Option (Uuid × Task)
  | .enqueueTask id _, .ok row => some (id, row)
  | _, _ => none

theorem StoreOp.queued_error (o : StoreOp) (e : Exn) : o.queued (.error e) = none := by
  cases o <;> rfl

theorem StoreOp.queued_eq_some {o : StoreOp} {r : Except Exn o.Res} {id : Uuid} {row : Task}
    (h : o.queued r = some (id, row)) :
    ∃ a, o = .enqueueTask id a ∧ ∀ s s', (∃ v, r = .ok v ∧ o.exec s = .ok (v, s')) →
      Runtime.enqueueTask id a s = .ok (row, s') := by
  cases o with
  | enqueueTask id' a =>
      cases r with
      | error e => cases h
      | ok row' =>
          obtain ⟨rfl, rfl⟩ := Prod.mk.inj (Option.some.inj h)
          refine ⟨a, rfl, ?_⟩
          rintro s s' ⟨v, hv, hexec⟩
          obtain rfl : row' = v := Except.ok.inj hv
          exact hexec
  | _ => cases r <;> cases h

section Runs

variable {P α : Type} [DecidableEq P] {c c' : Config database P α} {τ : List (Step database P α)}
  {st : Step database P α}

/-- The rows a run inserts into the queue, in order. -/
def queuedIn (τ : List (Step database P α)) : List (Uuid × Task) :=
  τ.filterMap fun st => st.op.queued st.out

omit [DecidableEq P] in
theorem queuedIn_concat (τ : List (Step database P α)) (st : Step database P α) :
    queuedIn (τ ++ [st]) = queuedIn τ ++ (st.op.queued st.out).toList := by
  rw [queuedIn, List.filterMap_append, queuedIn]
  cases h : st.op.queued st.out <;> simp [h]

/-- **One step and the origins of all tasks**: it inserts one fresh row, or it keeps every
origin. -/
theorem origin_step (hf : Fires st) :
    (∃ id row, st.op.queued st.out = some (id, row) ∧ st.before.state.tasks.find? id = none ∧
      ∀ id', (st.after.state.tasks.find? id').map Task.origin =
        if id' = id then some row.origin
        else (st.before.state.tasks.find? id').map Task.origin) ∨
      (st.op.queued st.out = none ∧ ∀ id', (st.after.state.tasks.find? id').map Task.origin =
        (st.before.state.tasks.find? id').map Task.origin) := by
  cases hins : st.op.queued st.out with
  | some x =>
      obtain ⟨id, row⟩ := x
      refine .inl ⟨id, row, rfl, ?_⟩
      obtain ⟨a, -, henqueue⟩ := StoreOp.queued_eq_some hins
      have hcommitted : ∃ v, st.out = .ok v ∧
          st.op.exec st.before.state = .ok (v, st.after.state) := by
        rcases exec_or_abort hf with hv | ⟨e, he, -⟩
        · exact hv
        · rw [he, StoreOp.queued_error] at hins
          cases hins
      obtain ⟨ws, tasks, rfl, -, hinsert, hafter⟩ :=
        enqueueTask_cases (henqueue _ _ hcommitted)
      refine ⟨(Table.insert?_eq_some hinsert).1, fun id' => ?_⟩
      rw [hafter, Store.appendEvent_tasks, Table.find?_insert hinsert id']
      by_cases hid : id' = id
      · rw [if_pos hid, if_pos hid]
        rfl
      · rw [if_neg hid, if_neg hid]
  | none =>
      refine .inr ⟨rfl, fun id' => ?_⟩
      cases step_rowEffect hf id' with
      | same hrow => rw [hrow]
      | created a ws op fresh hrow =>
          -- a committed enqueue would show among the insertions
          exfalso
          rcases exec_or_abort hf with ⟨v, hv, -⟩ | ⟨e, -, hs⟩
          · revert hins hv
            generalize st.out = out
            revert out v
            rw [op]
            rintro v out hins rfl
            cases hins
          · rw [hs, fresh] at hrow
            cases hrow
      | wrote row row' found rewrites hrow => rw [hrow, found, Option.map_some, Option.map_some,
          rewrites.origin]

end Runs

/-- A worker that enqueues a task and claims it. -/
def enqueueAndClaim : Config database Unit Unit :=
  ⟨Store.initial 0, fun _ => do
    let _ ← call (.enqueueTask taskT { workstream := "productivity", type := "work.doc", priority := 3 })
    let _ ← claimTask { workerId := "w1" } []
    return ()⟩

end AiStudio.Runtime
