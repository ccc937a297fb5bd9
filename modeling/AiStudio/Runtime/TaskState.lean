/-!
# The task-lifecycle state machine

Embeds `runtime/models.py::TaskStatus` and `runtime/task_state.py`: the nine states,
the table `TRANSITIONS` of legal moves, and the predicates over it. `merged` and
`abandoned` are terminal.
-/

set_option autoImplicit false

namespace AiStudio.Runtime

/-- Canonical lifecycle states of a unit of work. -/
inductive TaskStatus where
  | upForGrabs
  | claimed
  | inProgress
  | blocked
  | readyForReview
  | reviewerBlocked
  | approved
  | merged
  | abandoned
  deriving DecidableEq, Repr

namespace TaskStatus

/-- The legal moves out of a state: the forward lifecycle and the two recovery
edges back to `upForGrabs`. -/
def transitions : TaskStatus → List TaskStatus
  | upForGrabs => [claimed, abandoned]
  | claimed => [inProgress, upForGrabs, abandoned]
  | inProgress => [readyForReview, blocked, abandoned, upForGrabs]
  | blocked => [inProgress, abandoned, upForGrabs]
  | readyForReview => [approved, reviewerBlocked, abandoned]
  | reviewerBlocked => [inProgress, abandoned]
  | approved => [merged, abandoned]
  | merged => []
  | abandoned => []

/-- `TERMINAL`: states without outgoing moves. -/
def isTerminal : TaskStatus → Bool
  | merged => true
  | abandoned => true
  | _ => false

/-- The states a worker actively holds; `find_stale_tasks`, `rekick_task`,
`heartbeat` and the recovery rungs all test for these two. -/
def isHeld : TaskStatus → Bool
  | claimed => true
  | inProgress => true
  | _ => false

end TaskStatus

/-- `source → target` is a legal move. -/
def canTransition (source target : TaskStatus) : Bool :=
  source.transitions.contains target

/-- Nothing leaves a terminal state. -/
theorem canTransition_of_isTerminal {source target : TaskStatus}
    (h : source.isTerminal = true) : canTransition source target = false := by
  cases source <;> first | rfl | simp [TaskStatus.isTerminal] at h

/-- No state has a move to itself. -/
theorem ne_of_canTransition {source target : TaskStatus}
    (h : canTransition source target = true) : source ≠ target := by
  rintro rfl
  cases source <;> simp [canTransition, TaskStatus.transitions] at h

/-- Every state that is not terminal may be abandoned. -/
theorem canTransition_abandoned (source : TaskStatus) :
    canTransition source .abandoned = !source.isTerminal := by
  cases source <;> rfl

theorem isTerminal_iff (st : TaskStatus) :
    st.isTerminal = true ↔ st = .merged ∨ st = .abandoned := by
  cases st <;> simp [TaskStatus.isTerminal]

theorem isHeld_iff (st : TaskStatus) : st.isHeld = true ↔ st = .claimed ∨ st = .inProgress := by
  cases st <;> simp [TaskStatus.isHeld]

end AiStudio.Runtime
