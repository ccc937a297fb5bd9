import AiStudio.Concurrency.Program
import AiStudio.Data.Table
import AiStudio.Runtime.Models
import Mathlib.Tactic.Simps.Basic

/-!
# The database

The committed state of the studio's database, and transactions over it. A
transaction that raises leaves the state it started from, so a transaction is a
function into `Except`; `now` is the time `now()` gives inside it.
-/

set_option autoImplicit false

namespace AiStudio.Runtime

open AiStudio.Data

/-- A run of a tool body: the action, the verdict under which it ran, and the grant
it consumed. No table records this; it is the effect outside the database. -/
structure ToolRun where
  tool : String
  role : String
  args : Kwargs PyObject
  fingerprint : String
  effect : Policy.Effect
  approvalId : Option Uuid

/-- The committed database, its clock, and the effects of tools outside it. -/
structure Store where
  now : Time
  tasks : Table Uuid Task
  taskTransitions : List TaskTransition
  events : List Event
  approvals : Table Uuid Approval
  decisions : Table Uuid Decision
  decisionSeq : Nat
  identityTrust : Table String IdentityTrust
  commsClaims : Table Uuid CommsClaim
  commsClaimsSeq : Nat
  /-- The trajectory of each recorded step, and when it was recorded. -/
  trajectorySteps : List (Uuid × Time)
  toolRuns : List ToolRun

/-- A database without rows. -/
def Store.initial (now : Time) : Store :=
  ⟨now, .empty, [], [], .empty, .empty, 0, .empty, .empty, 0, [], []⟩

/-- A database with one task and nothing else. -/
def Store.single (id : Uuid) (row : Task) (now : Time) : Store :=
  { Store.initial now with tasks := ⟨[(id, row)], List.nodup_singleton id⟩ }

/-- A transaction: a result and the state it commits, or an exception. -/
abbrev Tx (α : Type) := Store → Except Exn (α × Store)

namespace Store

/-- `append_event`. -/
@[simps]
def appendEvent (s : Store) (taskId : Option Uuid) (workstream : Workstream)
    (payload : Payload) : Store :=
  { s with events := s.events ++ [⟨s.now, taskId, workstream, payload⟩] }

/-- The same row under every task but one. -/
def SameTasksBut (s s' : Store) (id : Uuid) : Prop :=
  ∀ id', id' ≠ id → s'.tasks.find? id' = s.tasks.find? id'

/-- The recorded hops of one task, oldest first. -/
def history (s : Store) (id : Uuid) : List TaskTransition :=
  s.taskTransitions.filter (·.taskId = id)

/-- The `task.finished` events of one task. -/
def finished (s : Store) (id : Uuid) : List Event :=
  s.events.filter fun e => e.taskId = some id ∧ e.payload.isTaskFinished

end Store

/-- `make_event` of a workstream given as text: it must not be empty. -/
def requireWorkstream (name : String) : Except Exn Workstream :=
  if h : name = "" then .error (.valueError "event workstream must be non-empty")
  else .ok ⟨name, h⟩

theorem requireWorkstream_name {name : String} {workstream : Workstream}
    (h : requireWorkstream name = .ok workstream) : workstream.name = name := by
  unfold requireWorkstream at h
  split at h
  · cases h
  · exact (Except.ok.inj h) ▸ rfl

end AiStudio.Runtime
