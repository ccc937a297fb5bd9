import AiStudio.Runtime.Store

/-!
# The guarded transition

Embeds `runtime/tasks.py::transition`, the one writer of `tasks.status`: the guards,
the columns it sets, the telemetry row with its latency, and the events. The spec
lemma `transition_cases` says everything a transition can do; nothing later unfolds
the definition.
-/

set_option autoImplicit false

namespace AiStudio.Runtime

open AiStudio.Data

/-- The keyword arguments of `transition`. For `result` and `claimedBy` the outer
`none` is `_UNSET`. -/
structure TransitionArgs where
  agentId : Option String := none
  agentType : Option String := none
  expectedFrom : Option (List TaskStatus) := none
  result : Option (Option Doc) := none
  spentTokens : Option Int := none
  claimedBy : Option (Option String) := none
  clearClaim : Bool := false
  setClaimedAt : Bool := false
  setHeartbeat : Bool := false
  incrementRetries : Bool := false
  setLastProgress : Bool := false
  force : Bool := false

namespace TransitionArgs

/-- `expected_from` admits the current status. -/
def admits (a : TransitionArgs) (current : TaskStatus) : Bool :=
  match a.expectedFrom with
  | none => true
  | some expected => expected.contains current

/-- The guards let the move from `source` to `target` through. -/
def accepts (a : TransitionArgs) (target source : TaskStatus) : Bool :=
  a.admits source && source ≠ target && (a.force || canTransition source target)

/-- The assignments name a column twice, which the database refuses. -/
def duplicatesColumn (a : TransitionArgs) : Bool :=
  a.clearClaim && (a.claimedBy.isSome || a.setHeartbeat)

/-- The row after the update. -/
def update (a : TransitionArgs) (now : Time) (target : TaskStatus) (row : Task) : Task :=
  { row with
    status := target
    updatedAt := now
    result := a.result.getD row.result
    spentTokens := a.spentTokens.getD row.spentTokens
    claimedBy := if a.clearClaim then none else a.claimedBy.getD row.claimedBy
    agentType := a.agentType <|> row.agentType
    claimedAt := if a.setClaimedAt then some now else row.claimedAt
    heartbeatAt :=
      if a.clearClaim then none else if a.setHeartbeat then some now else row.heartbeatAt
    retries := if a.incrementRetries then row.retries + 1 else row.retries
    lastProgressAt := if a.setLastProgress then some now else row.lastProgressAt }

@[simp] theorem update_status (a : TransitionArgs) (now : Time) (target : TaskStatus)
    (row : Task) : (a.update now target row).status = target := rfl

@[simp] theorem update_workstream (a : TransitionArgs) (now : Time) (target : TaskStatus)
    (row : Task) : (a.update now target row).workstream = row.workstream := rfl

@[simp] theorem update_result (a : TransitionArgs) (now : Time) (target : TaskStatus)
    (row : Task) : (a.update now target row).result = a.result.getD row.result := rfl

@[simp] theorem update_claimedBy (a : TransitionArgs) (now : Time) (target : TaskStatus)
    (row : Task) : (a.update now target row).claimedBy =
      if a.clearClaim then none else a.claimedBy.getD row.claimedBy := rfl

end TransitionArgs

/-- Microseconds in milliseconds, as `::bigint` rounds: half away from zero. -/
def roundMillis (us : Int) : Int := us.sign * ((us.natAbs + 500) / 1000 : Nat)

namespace Store

/-- When the task last moved, or was created. -/
def lastMove (s : Store) (id : Uuid) (row : Task) : Time :=
  (((s.history id).map TaskTransition.time).max?).getD row.createdAt

/-- The telemetry row of a move. -/
def hop (s : Store) (id : Uuid) (row : Task) (target : TaskStatus) (a : TransitionArgs) :
    TaskTransition where
  taskId := id
  fromStatus := row.status
  toStatus := target
  agentId := a.agentId
  agentType := a.agentType <|> (a.update s.now target row).agentType
  time := s.now
  latencyMs := roundMillis (s.now - s.lastMove id row)

/-- The events of a move: `task.transition`, and `task.finished` into a terminal state. -/
def transitionEvents (s : Store) (id : Uuid) (row : Task) (target : TaskStatus)
    (a : TransitionArgs) : List Event :=
  let hop := s.hop id row target a
  ⟨s.now, some id, row.workstream,
      .taskTransition target row.status target a.agentId hop.agentType hop.latencyMs⟩ ::
    (if target.isTerminal then
      [⟨s.now, some id, row.workstream,
        .taskFinished target (a.update s.now target row).spentTokens⟩]
    else [])

/-- The state after a move. -/
@[simps]
def recordTransition (s : Store) (id : Uuid) (row : Task) (target : TaskStatus)
    (a : TransitionArgs) : Store :=
  { s with
    tasks := s.tasks.modify id fun _ => a.update s.now target row
    taskTransitions := s.taskTransitions ++ [s.hop id row target a]
    events := s.events ++ s.transitionEvents id row target a }

end Store

/-- Move a task to the state `target`. -/
def transition (id : Uuid) (target : TaskStatus) (a : TransitionArgs) : Tx (Option Task) :=
  fun s => match s.tasks.find? id with
  | none => .ok (none, s)
  | some row =>
      if !a.admits row.status then .ok (none, s)
      else if row.status = target then .ok (none, s)
      else if !a.force && !canTransition row.status target then
        .error (.illegalTransition row.status target)
      else if a.duplicatesColumn then .error (.dataError "multiple assignments to same column")
      else .ok (some (a.update s.now target row), s.recordTransition id row target a)

/-! ## What a transition can do -/

/-- A transition of `id` to `target` under `a` moves the row `row`. -/
structure Moves (s : Store) (id : Uuid) (target : TaskStatus) (a : TransitionArgs) (row : Task) :
    Prop where
  found : s.tasks.find? id = some row
  admitted : a.admits row.status = true
  differs : row.status ≠ target
  legal : a.force = true ∨ canTransition row.status target = true
  wellFormed : a.duplicatesColumn = false

/-- **What a transition can do**: it moves a row, or it changes nothing. -/
theorem transition_cases {id : Uuid} {target : TaskStatus} {a : TransitionArgs} {s s' : Store}
    {r : Option Task} (h : transition id target a s = .ok (r, s')) :
    (r = none ∧ s' = s ∧ ∀ row, ¬ Moves s id target a row) ∨
      ∃ row, Moves s id target a row ∧ r = some (a.update s.now target row) ∧
        s' = s.recordTransition id row target a := by
  unfold transition at h
  cases hf : s.tasks.find? id with
  | none =>
      simp only [hf, Except.ok.injEq, Prod.mk.injEq] at h
      refine Or.inl ⟨h.1.symm, h.2.symm, fun row hm => ?_⟩
      rw [hm.found] at hf
      simp at hf
  | some row =>
      simp only [hf] at h
      have uniq : ∀ row', Moves s id target a row' → row' = row := fun row' hm => by
        rw [hm.found] at hf
        exact Option.some.inj hf
      split at h
      · rename_i hadm
        simp only [Except.ok.injEq, Prod.mk.injEq] at h
        refine Or.inl ⟨h.1.symm, h.2.symm, fun row' hm => ?_⟩
        obtain rfl := uniq row' hm
        simp [hm.admitted] at hadm
      · rename_i hadm
        split at h
        · rename_i heq
          simp only [Except.ok.injEq, Prod.mk.injEq] at h
          refine Or.inl ⟨h.1.symm, h.2.symm, fun row' hm => ?_⟩
          obtain rfl := uniq row' hm
          exact hm.differs heq
        · rename_i hne
          split at h
          · simp at h
          · rename_i hlegal
            split at h
            · simp at h
            · rename_i hdup
              simp only [Except.ok.injEq, Prod.mk.injEq] at h
              refine Or.inr ⟨row, ⟨hf, by simpa using hadm, hne, ?_, by simpa using hdup⟩,
                h.1.symm, h.2.symm⟩
              simp only [Bool.and_eq_true, Bool.not_eq_true', not_and_or] at hlegal
              simpa using hlegal

theorem Moves.accepts {s : Store} {id : Uuid} {target : TaskStatus} {a : TransitionArgs}
    {row : Task} (h : Moves s id target a row) : a.accepts target row.status = true := by
  simp [TransitionArgs.accepts, h.admitted, h.differs, h.legal]

/-- **A committed transition moves its row exactly if the guards accept the status.** -/
theorem moves_iff_accepts {id : Uuid} {target : TaskStatus} {a : TransitionArgs} {s s' : Store}
    {r : Option Task} (h : transition id target a s = .ok (r, s')) {row : Task}
    (hrow : s.tasks.find? id = some row) :
    Moves s id target a row ↔ a.accepts target row.status = true := by
  refine ⟨Moves.accepts, fun hacc => ?_⟩
  simp only [TransitionArgs.accepts, Bool.and_eq_true, decide_eq_true_eq, Bool.or_eq_true] at hacc
  obtain ⟨⟨hadm, hne⟩, hlegal⟩ := hacc
  refine ⟨hrow, hadm, hne, hlegal, ?_⟩
  -- the refusal of the database would have raised
  cases hdup : a.duplicatesColumn with
  | false => rfl
  | true =>
      have hlegal' : (!a.force && !canTransition row.status target) = false := by
        rcases hlegal with hl | hl <;> simp [hl]
      simp [transition, hrow, hadm, hne, hlegal', hdup] at h

/-- A transition that may move a row does. -/
theorem Moves.transition_eq {id : Uuid} {target : TaskStatus} {a : TransitionArgs} {s : Store}
    {row : Task} (h : Moves s id target a row) :
    transition id target a s =
      .ok (some (a.update s.now target row), s.recordTransition id row target a) := by
  have hlegal : (!a.force && !canTransition row.status target) = false := by
    rcases h.legal with hl | hl <;> simp [hl]
  simp [transition, h.found, h.admitted, h.differs, hlegal, h.wellFormed]

namespace Store

variable (s : Store) (id : Uuid) (row : Task) (target : TaskStatus) (a : TransitionArgs)

/-- The moved row. -/
theorem find?_recordTransition_self (h : s.tasks.find? id = some row) :
    (s.recordTransition id row target a).tasks.find? id = some (a.update s.now target row) := by
  simp [h]

/-- The other rows. -/
theorem find?_recordTransition_ne {id' : Uuid} (h : id' ≠ id) :
    (s.recordTransition id row target a).tasks.find? id' = s.tasks.find? id' := by
  rw [recordTransition_tasks, Table.find?_modify_ne _ _ h]

/-- A move appends one hop to the history of its task. -/
theorem history_recordTransition_self :
    (s.recordTransition id row target a).history id = s.history id ++ [s.hop id row target a] := by
  simp [history, hop]

theorem history_recordTransition_ne {id' : Uuid} (h : id' ≠ id) :
    (s.recordTransition id row target a).history id' = s.history id' := by
  simp [history, hop, h.symm]

/-- A move emits `task.finished` exactly into a terminal state. -/
theorem length_finished_recordTransition_self :
    ((s.recordTransition id row target a).finished id).length =
      (s.finished id).length + if target.isTerminal then 1 else 0 := by
  cases h : target.isTerminal <;>
    simp [finished, transitionEvents, Payload.isTaskFinished, h]

theorem finished_recordTransition_ne {id' : Uuid} (h : id' ≠ id) :
    (s.recordTransition id row target a).finished id' = s.finished id' := by
  cases hto : target.isTerminal <;>
    simp [finished, transitionEvents, hto, h.symm]

end Store

end AiStudio.Runtime
