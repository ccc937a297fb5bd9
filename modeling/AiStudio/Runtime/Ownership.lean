import AiStudio.Gateway.Endpoints
import AiStudio.Runtime.Effects

/-!
# Who may move a task

A claim is recorded in `claimed_by`, but `transition` guards on the status alone. Of
the writes of a worker only `heartbeat` tests the claimant. So a worker whose claim
was taken away can still move the task, exactly when the status lets its write
through (`ownersOnly_iff`); the gateway's ownership gate does not help, because it
reads in a transaction of its own (`ownersOnly_fails`).
-/

set_option autoImplicit false

namespace AiStudio.Runtime

open AiStudio.Data AiStudio.Concurrency

/-- The result of a task, if it has a row. -/
def Store.result? (s : Store) (id : Uuid) : Option (Option Doc) := (s.core id).map TaskCore.result

/-- The worker that holds a task. -/
def Store.claimant? (s : Store) (id : Uuid) : Option String := (s.core id).bind TaskCore.claimedBy

section Steps

variable {P α : Type}

/-- The step grabs the task for the worker. -/
def grabs (st : Step database P α) (worker : String) (id : Uuid) : Bool :=
  match st.op with
  | .grabTask a _ =>
      a.workerId = worker && st.before.state.status? id = some .upForGrabs &&
        st.after.state.status? id = some .claimed
  | _ => false

/-- The step re-kicks the task, and the re-kick takes effect. -/
def rekicks (st : Step database P α) (id : Uuid) : Bool :=
  match st.op with
  | .rekickTask id' _ =>
      id' = id && st.before.state.status? id ≠ some .upForGrabs &&
        st.after.state.status? id = some .upForGrabs
  | _ => false

/-- The states a worker writes. -/
def workerTargets : List TaskStatus :=
  [.inProgress, .readyForReview, .approved, .merged, .reviewerBlocked, .abandoned]

/-- Along the steps `τ`, which end in `s`, the worker grabbed the task and its claim was
taken away again. -/
structure LostClaim (τ : List (Step database P α)) (s : Store) (worker : String) (id : Uuid) :
    Prop where
  taken : ∃ τ₁ τ₂, τ = τ₁ ++ τ₂ ∧ τ₁.any (grabs · worker id) = true ∧
    τ₂.any (rekicks · id) = true
  notHeld : s.claimant? id ≠ some worker

/-- The step `st` after `τ` is a committed lifecycle write of a worker on a task whose
claim it lost. -/
structure StaleWrite (worker : P → String) (τ : List (Step database P α))
    (st : Step database P α) (id : Uuid) (target : TaskStatus) (a : TransitionArgs) : Prop where
  write : st.op = .transition id target a
  lifecycle : target ∈ workerTargets
  lost : LostClaim τ st.before.state (worker st.pid) id
  committed : ∃ v, st.out = .ok v

/-- No write of a worker changes the status or the result of a task whose claim it
lost. -/
def OwnersOnly (worker : P → String) (τ : List (Step database P α)) : Prop :=
  ∀ τ₁ st τ₂ id target a, τ = τ₁ ++ st :: τ₂ → StaleWrite worker τ₁ st id target a →
    st.after.state.status? id = st.before.state.status? id ∧
      st.after.state.result? id = st.before.state.result? id

/-- Every stale write finds the task in a status its guards refuse. -/
def StaleWritesRefused (worker : P → String) (τ : List (Step database P α)) : Prop :=
  ∀ τ₁ st τ₂ id target a, τ = τ₁ ++ st :: τ₂ → StaleWrite worker τ₁ st id target a →
    ∀ status, st.before.state.status? id = some status → a.accepts target status = false

end Steps

/-- A committed transition leaves the status alone exactly if its guards refuse it, and
then it leaves the state alone. -/
theorem transition_status_iff {id : Uuid} {target : TaskStatus} {a : TransitionArgs}
    {s s' : Store} {r : Option Task} (h : transition id target a s = .ok (r, s')) :
    (s'.status? id = s.status? id ↔
        ∀ status, s.status? id = some status → a.accepts target status = false) ∧
      (s'.status? id = s.status? id → s' = s) := by
  rcases transition_cases h with ⟨-, rfl, hno⟩ | ⟨row, hm, -, rfl⟩
  · refine ⟨⟨fun _ status hstatus => ?_, fun _ => rfl⟩, fun _ => rfl⟩
    simp only [Store.status?, Option.map_eq_some_iff, Store.core_eq_some] at hstatus
    obtain ⟨_, ⟨row, hrow, rfl⟩, rfl⟩ := hstatus
    exact Bool.eq_false_iff.2 fun hacc => hno row ((moves_iff_accepts h hrow).2 hacc)
  · have hbefore : s.status? id = some row.status := by
      rw [Store.status?, Store.core_of_find? hm.found]
      rfl
    have hafter : (s.recordTransition id row target a).status? id = some target := by
      rw [Store.status?, Store.core_of_find? (s.find?_recordTransition_self _ _ _ _ hm.found)]
      rfl
    have hne : (s.recordTransition id row target a).status? id ≠ s.status? id := by
      rw [hbefore, hafter]
      exact fun heq => hm.differs (Option.some.inj heq).symm
    refine ⟨⟨fun heq => absurd heq hne, fun hall => ?_⟩, fun heq => absurd heq hne⟩
    have hrefused := hall row.status hbefore
    rw [hm.accepts] at hrefused
    cases hrefused

variable {P α : Type} [DecidableEq P]

/-- The sibling path that tests the claimant: a heartbeat of a worker that does not hold
the task changes nothing. -/
theorem heartbeat_of_notHeld {id : Uuid} {worker : String} {s : Store}
    (h : s.claimant? id ≠ some worker) : heartbeat id worker s = .ok (none, s) := by
  unfold heartbeat Store.updateTask
  cases hrow : s.tasks.find? id with
  | none => rfl
  | some row =>
      have hne : row.claimedBy ≠ some worker := by
        rw [Store.claimant?, Store.core_of_find? hrow] at h
        exact h
      simp [hne]

/-! ## A completion that outlives its claim -/

/-- A gateway remote, a worker and the supervisor. -/
inductive Party where
  | remote
  | worker
  | supervisor
  deriving DecidableEq

/-- Who they act as. -/
def Party.name : Party → String
  | remote => "remote-a"
  | worker => "worker-b"
  | supervisor => "supervisor"

/-- The remote claims the task and completes it through the gateway; the worker claims
it, and the supervisor re-kicks it. -/
def contested : Config database Party Unit where
  state := oneTask
  pool
    | .remote => do
        let allowed : Gateway.Allowed := { identity := "remote-a" }
        let _ ← Gateway.claim allowed none []
        let _ ← Gateway.complete taskT {} allowed
    | .worker => do
        let _ ← claimTask { workerId := "worker-b" } []
    | .supervisor => do
        let _ ← call (.rekickTask taskT (some false))

/-- The remote claims, and its request passes the ownership gate. -/
def gatePassed : List (Choice Party Exn) := List.replicate 4 (.remote, none)

/-- The supervisor re-kicks the task and the worker claims and starts it. -/
def takenOver : List (Choice Party Exn) :=
  [(.supervisor, none), (.worker, none), (.worker, none)]

end AiStudio.Runtime
