import AiStudio.Concurrency.Schedule
import AiStudio.Data.Lines
import AiStudio.Data.Table
import AiStudio.Runtime.Transition
import Mathlib.Data.List.Sort

/-!
# Reasoning trajectories

Embeds the guarded writer `runtime/trajectory.py`: an episode is started, steps are appended
under the next `seq`, it is closed, deleted past its horizon, and rotated from the verbatim to the
lean tier. Each call is one transaction, since every one of them locks the row of its episode
first. The queries of the maintenance pass and the link from a task to its episode are calls of
the same store.
-/

set_option autoImplicit false

namespace AiStudio.Runtime

open AiStudio.Data AiStudio.Concurrency

/-! ## Rows -/

/-- `status` of a trajectory. -/
inductive TrajectoryStatus where
  | open_
  | closed
  deriving DecidableEq, Repr

/-- `retention_tier` of a trajectory. -/
inductive RetentionTier where
  | verbatim
  | lean
  deriving DecidableEq, Repr

/-- A row of `trajectories`. -/
structure Trajectory where
  role : String
  workstream : Workstream
  goal : String
  status : TrajectoryStatus
  retentionTier : RetentionTier
  startedAt : Time
  endedAt : Option Time
  expiresAt : Option Time
  contextSizeStart : Option Int
  contextSizePeak : Option Int
  latencyMs : Option Int
  outcomeSummary : Option String
  createdAt : Time

/-- A row of `trajectory_steps`. -/
structure TrajectoryStep where
  trajectoryId : Uuid
  seq : Nat
  stepType : String
  summary : String
  rationale : Option String
  optionsConsidered : Json Empty
  choice : Option String
  confidence : Option FloatRepr
  refs : Json Empty
  contextSize : Option Int
  tokens : Option Int
  costUsd : Option FloatRepr
  latencyMs : Option Int
  createdAt : Time

/-- The payloads of the `trajectory.*` events and of `retro.completed`: no text of an episode. -/
inductive TrajectoryEvent where
  | started (trajectoryId : Uuid) (role : String)
  | stepAdded (trajectoryId stepId : Uuid) (seq : Nat) (stepType : String)
  | closed (trajectoryId : Uuid)
  | expired (trajectoryId : Uuid)
  | compacted (trajectoryId : Uuid) (retentionTier : RetentionTier) (stepsCompacted : Nat)
  | retroCompleted (targetTaskId trajectoryId : Option Uuid)
  deriving DecidableEq

/-- The committed episodes, their events, and the episode each task was planned in. -/
structure Trajectories where
  now : Time
  rows : Table Uuid Trajectory
  steps : Table Uuid TrajectoryStep
  events : List (Workstream × TrajectoryEvent)
  taskTrajectory : Uuid → Option Uuid

/-- A database without episodes. -/
def Trajectories.initial (now : Time) : Trajectories := ⟨now, .empty, .empty, [], fun _ => none⟩

/-- A transaction on the episodes. -/
abbrev TrajectoryTx (α : Type) := Trajectories → Except Exn (α × Trajectories)

namespace Trajectories

/-- `_emit`. -/
def emit (s : Trajectories) (workstream : Workstream) (e : TrajectoryEvent) : Trajectories :=
  { s with events := s.events ++ [(workstream, e)] }

/-- The steps of an episode, in the order they were committed. -/
def stepsOf (s : Trajectories) (id : Uuid) : List (Uuid × TrajectoryStep) :=
  s.steps.select fun _ step => step.trajectoryId = id

/-- An id of the log, or of a row: `gen_random_uuid` does not draw it again. -/
def drawn (s : Trajectories) (id : Uuid) : Bool :=
  s.events.any fun e =>
    match e.2 with
    | .started trajectoryId _ => trajectoryId = id
    | .stepAdded _ stepId _ _ => stepId = id
    | _ => false

end Trajectories

/-! ## The writer -/

/-- What Python and the server bring: `repr` of a text, what the columns take, and the value a
column of single precision keeps. -/
structure Platform where
  repr : String → String
  takesTrajectory : Trajectory → Bool
  takesStep : TrajectoryStep → Bool
  single : FloatRepr → FloatRepr

/-- The arguments of `start_trajectory`. -/
structure StartArgs where
  role : String
  workstream : String
  goal : String
  ttl : Option Time := none
  contextSizeStart : Option Int := none
  now : Option Time := none

/-- The arguments of `add_step`. -/
structure StepArgs where
  stepType : String
  summary : String
  rationale : Option String := none
  optionsConsidered : Option (Json Empty) := none
  choice : Option String := none
  confidence : Option FloatRepr := none
  refs : Option (Json Empty) := none
  contextSize : Option Int := none
  tokens : Option Int := none
  costUsd : Option FloatRepr := none
  latencyMs : Option Int := none
  now : Option Time := none

/-- `STEP_TYPES`. -/
def stepTypes : List String :=
  ["observe", "plan", "decide", "consult", "revise", "decompose", "escalate", "commit"]

variable (platform : Platform)

/-- The row `start_trajectory` inserts. -/
def StartArgs.row (a : StartArgs) (workstream : Workstream) (now : Time) : Trajectory where
  role := a.role
  workstream := workstream
  goal := a.goal
  status := .open_
  retentionTier := .verbatim
  startedAt := a.now.getD now
  endedAt := none
  expiresAt := a.ttl.map fun ttl => a.now.getD now + ttl
  contextSizeStart := a.contextSizeStart
  contextSizePeak := none
  latencyMs := none
  outcomeSummary := none
  createdAt := now

/-- `start_trajectory`; `id` is the id the server draws. -/
def startTrajectory (id : Uuid) (a : StartArgs) : TrajectoryTx Uuid := fun s =>
  if a.role = "" then .error (.valueError "trajectory role must be non-empty")
  else if hworkstream : a.workstream = "" then
    .error (.valueError "trajectory workstream must be non-empty")
  else if isBlank a.goal then .error (.valueError "trajectory goal must be non-empty")
  else
    let row := a.row ⟨a.workstream, hworkstream⟩ s.now
    if !platform.takesTrajectory row then .error (.dataError "trajectories")
    else if s.drawn id then .error (.integrityError "trajectories_pkey")
    else
      match s.rows.insert? id row with
      | none => .error (.integrityError "trajectories_pkey")
      | some rows => .ok (id, { s with rows := rows }.emit row.workstream (.started id a.role))

/-- `COALESCE(max(seq), 0) + 1`. -/
def Trajectories.nextSeq (s : Trajectories) (id : Uuid) : Nat :=
  (((s.stepsOf id).map fun step => step.2.seq).max?).getD 0 + 1

/-- The row `add_step` inserts. -/
def StepArgs.row (a : StepArgs) (trajectoryId : Uuid) (seq : Nat) (now : Time) : TrajectoryStep where
  trajectoryId := trajectoryId
  seq := seq
  stepType := a.stepType
  summary := a.summary
  rationale := a.rationale
  optionsConsidered := a.optionsConsidered.getD (.arr [])
  choice := a.choice
  confidence := a.confidence.map platform.single
  refs := a.refs.getD (.obj [])
  contextSize := a.contextSize
  tokens := a.tokens
  costUsd := a.costUsd
  latencyMs := a.latencyMs
  createdAt := a.now.getD now

/-- `GREATEST(COALESCE(context_size_peak, 0), context_size)`, for a step that has a size. -/
def Trajectory.peak (row : Trajectory) (contextSize : Option Int) : Trajectory :=
  match contextSize with
  | none => row
  | some size => { row with contextSizePeak := some (max (row.contextSizePeak.getD 0) size) }

/-- `add_step`; `stepId` is the id the server draws. -/
def addStep (stepId id : Uuid) (a : StepArgs) : TrajectoryTx (Uuid × TrajectoryStep) := fun s =>
  if a.stepType ∉ stepTypes then
    .error (.valueError ("unknown step_type " ++ platform.repr a.stepType ++ " (allowed: [" ++
      "'commit', 'consult', 'decide', 'decompose', 'escalate', 'observe', 'plan', 'revise'])"))
  else if isBlank a.summary then .error (.valueError "trajectory step summary must be non-empty")
  else
    match s.rows.find? id with
    | none => .error (.valueError ("trajectory " ++ id.text ++ " not found"))
    | some parent =>
        let step := a.row platform id (s.nextSeq id) s.now
        if !platform.takesStep step then .error (.dataError "trajectory_steps")
        else if s.drawn stepId then .error (.integrityError "trajectory_steps_pkey")
        else
          match s.steps.insert? stepId step with
          | none => .error (.integrityError "trajectory_steps_pkey")
          | some steps =>
              .ok ((stepId, step),
                { s with steps := steps, rows := s.rows.modify id (·.peak a.contextSize) }.emit
                  parent.workstream (.stepAdded id stepId step.seq step.stepType))

/-- The row `close_trajectory` leaves. -/
def Trajectory.close (row : Trajectory) (outcomeSummary : Option String) (now : Time) : Trajectory :=
  { row with
    status := .closed
    endedAt := some now
    outcomeSummary := outcomeSummary <|> row.outcomeSummary
    latencyMs := some (roundMillis (now - row.startedAt)) }

/-- `close_trajectory`: only an open episode is closed. -/
def closeTrajectory (id : Uuid) (outcomeSummary : Option String) (now? : Option Time) :
    TrajectoryTx (Option Trajectory) := fun s =>
  match s.rows.find? id with
  | none => .ok (none, s)
  | some row =>
      if row.status ≠ .open_ then .ok (none, s)
      else
        let closed := row.close outcomeSummary (now?.getD s.now)
        if !platform.takesTrajectory closed then .error (.dataError "trajectories")
        else .ok (some closed, { s with rows := s.rows.modify id fun _ => closed }.emit
          row.workstream (.closed id))

/-- An episode past its horizon. -/
def Trajectory.isExpired (row : Trajectory) (now : Time) : Bool := row.expiresAt.any (· ≤ now)

/-- `expire_trajectories`: the steps go with the rows, and a task linked to one loses the link. -/
def expireTrajectories (now? : Option Time) : TrajectoryTx Nat := fun s =>
  let deleted := s.rows.select fun _ row => row.isExpired (now?.getD s.now)
  let gone := fun id => deleted.any (·.1 = id)
  .ok (deleted.length,
    { s with
      rows := s.rows.deleteWhere fun _ row => row.isExpired (now?.getD s.now)
      steps := s.steps.deleteWhere fun _ step => gone step.trajectoryId
      events := s.events ++ deleted.map fun kr => (kr.2.workstream, .expired kr.1)
      taskTrajectory := fun task => (s.taskTrajectory task).filter fun id => !gone id })

/-! ## The rotation -/

/-- A distiller, which may raise. -/
abbrev Distill := Option String → Except Exn (Option String)

/-- `_default_distill`: the first line, cut to 200 characters. -/
def defaultDistill (rationale : Option String) : Option String :=
  rationale.map fun text => String.ofList ((firstLine text).toList.take 200)

/-- The steps of an episode with their distilled rationales, in the order of their `seq`. -/
def Trajectories.distilled (s : Trajectories) (id : Uuid) (distill : Distill) :
    Except Exn (List (Uuid × Option String)) :=
  ((s.stepsOf id).insertionSort fun a b => a.2.seq ≤ b.2.seq).mapM fun step => do
    return (step.1, ← distill step.2.rationale)

/-- `compact_to_lean`. -/
def compactToLean (id : Uuid) (distill : Distill) : TrajectoryTx (Option Trajectory) := fun s =>
  match s.rows.find? id with
  | none => .ok (none, s)
  | some row => do
      let distilled ← s.distilled id distill
      let lean := { row with retentionTier := .lean }
      return (some lean,
        { s with
          rows := s.rows.modify id fun _ => lean
          steps := s.steps.mapRows fun stepId step =>
            match distilled.lookup stepId with
            | none => step
            | some rationale => { step with rationale := rationale } }.emit
          row.workstream (.compacted id .lean distilled.length))

/-! ## The maintenance pass and the retro -/

/-- A `retro.completed` event names the episode. -/
def Trajectories.mined (s : Trajectories) (id : Uuid) : Bool :=
  s.events.any fun e =>
    match e.2 with
    | .retroCompleted _ trajectoryId => trajectoryId = some id
    | _ => false

/-- An episode `select_rotatable` selects. -/
def Trajectories.ripe (s : Trajectories) (olderThan : Time) (now : Time) (id : Uuid)
    (row : Trajectory) : Bool :=
  row.retentionTier = .verbatim && row.status = .closed &&
    row.endedAt.any (· ≤ now - olderThan) && s.mined id

/-- `select_rotatable`: oldest first. -/
def selectRotatable (olderThan : Time) (now? : Option Time) (limit : Option Nat) :
    TrajectoryTx (List Uuid) := fun s =>
  let ripe := (s.rows.select (s.ripe olderThan (now?.getD s.now))).insertionSort
    fun a b => a.2.endedAt.getD 0 ≤ b.2.endedAt.getD 0
  .ok ((limit.elim ripe ripe.take).map Prod.fst, s)

/-! ## What a transaction does -/

section Specs

variable {platform} {s s' : Trajectories} {id stepId : Uuid}

/-- **What a start does.** -/
theorem startTrajectory_eq_ok {a : StartArgs} {r : Uuid}
    (h : startTrajectory platform id a s = .ok (r, s')) :
    ∃ workstream rows, r = id ∧ s.drawn id = false ∧
      s.rows.insert? id (a.row workstream s.now) = some rows ∧
      s' = { s with rows := rows }.emit workstream (.started id a.role) := by
  dsimp only [startTrajectory] at h
  split at h
  · cases h
  split at h
  · cases h
  rename_i hworkstream
  split at h
  · cases h
  split at h
  · cases h
  split at h
  · cases h
  rename_i hdrawn
  split at h
  · cases h
  rename_i rows hrows
  cases h
  exact ⟨⟨a.workstream, hworkstream⟩, rows, rfl, Bool.eq_false_iff.2 hdrawn, hrows, rfl⟩

/-- **What an append does.** -/
theorem addStep_eq_ok {a : StepArgs} {r : Uuid × TrajectoryStep}
    (h : addStep platform stepId id a s = .ok (r, s')) :
    ∃ parent steps, r = (stepId, a.row platform id (s.nextSeq id) s.now) ∧
      a.stepType ∈ stepTypes ∧ isBlank a.summary = false ∧
      s.rows.find? id = some parent ∧ s.drawn stepId = false ∧
      s.steps.insert? stepId (a.row platform id (s.nextSeq id) s.now) = some steps ∧
      s' = { s with steps := steps, rows := s.rows.modify id (·.peak a.contextSize) }.emit
        parent.workstream (.stepAdded id stepId (s.nextSeq id) a.stepType) := by
  dsimp only [addStep] at h
  split at h
  · cases h
  rename_i htype
  split at h
  · cases h
  rename_i hsummary
  split at h
  · cases h
  rename_i parent hparent
  split at h
  · cases h
  split at h
  · cases h
  rename_i hdrawn
  split at h
  · cases h
  rename_i steps hsteps
  cases h
  exact ⟨parent, steps, rfl, not_not.1 htype, Bool.eq_false_iff.2 hsummary, hparent,
    Bool.eq_false_iff.2 hdrawn, hsteps, rfl⟩

/-- **What a close does.** -/
theorem closeTrajectory_eq_ok {outcomeSummary : Option String} {now? : Option Time}
    {r : Option Trajectory} (h : closeTrajectory platform id outcomeSummary now? s = .ok (r, s')) :
    s' = s ∨ ∃ row, s.rows.find? id = some row ∧ row.status = .open_ ∧
      s' = Trajectories.emit
        { s with rows := s.rows.modify id (fun _ => row.close outcomeSummary (now?.getD s.now)) }
        row.workstream (.closed id) := by
  dsimp only [closeTrajectory] at h
  split at h
  · cases h
    exact .inl rfl
  rename_i row hrow
  split at h
  · cases h
    exact .inl rfl
  rename_i hopen
  split at h
  · cases h
  cases h
  exact .inr ⟨row, hrow, not_not.1 hopen, rfl⟩

/-- The value a distiller gives, and the text where it raises. -/
def Distill.value (distill : Distill) (rationale : Option String) : Option String :=
  match distill rationale with
  | .ok distilled => distilled
  | .error _ => rationale

/-- Distilling goes through when it raises on no step. -/
theorem distilled_eq_ok {distill : Distill} {xs : List (Uuid × TrajectoryStep)}
    {ys : List (Uuid × Option String)}
    (h : (xs.mapM fun step => do return (step.1, ← distill step.2.rationale)) = Except.ok ys) :
    ys = xs.map (fun step => (step.1, distill.value step.2.rationale)) ∧
      ∀ step ∈ xs, distill step.2.rationale = .ok (distill.value step.2.rationale) := by
  induction xs generalizing ys with
  | nil =>
      cases h
      exact ⟨rfl, List.forall_mem_nil _⟩
  | cons x xs ih =>
      rw [List.mapM_cons] at h
      cases hx : distill x.2.rationale with
      | error e =>
          rw [hx] at h
          cases h
      | ok text =>
          rw [hx] at h
          cases hrest : (xs.mapM fun step => do return (step.1, ← distill step.2.rationale) :
              Except Exn _) with
          | error e =>
              rw [hrest] at h
              cases h
          | ok rest =>
              rw [hrest] at h
              cases h
              obtain ⟨rfl, hall⟩ := ih hrest
              have hvalue : distill.value x.2.rationale = text := by rw [Distill.value, hx]
              refine ⟨by rw [List.map_cons, hvalue], List.forall_mem_cons.2 ⟨?_, hall⟩⟩
              rw [hvalue, hx]

/-- The distilled text of a step, found under its id. -/
theorem lookup_distilled {xs : List (Uuid × TrajectoryStep)} {step : TrajectoryStep}
    (v : TrajectoryStep → Option String) (hmem : (stepId, step) ∈ xs)
    (hunique : ∀ other, (stepId, other) ∈ xs → other = step) :
    (xs.map fun step => (step.1, v step.2)).lookup stepId = some (v step) := by
  induction xs with
  | nil => cases hmem
  | cons x xs ih =>
      obtain ⟨key, row⟩ := x
      rw [List.map_cons, List.lookup_cons]
      by_cases hkey : stepId = key
      · subst hkey
        rw [hunique row List.mem_cons_self]
        simp
      · have hrest : (stepId, step) ∈ xs := by
          rcases List.mem_cons.1 hmem with heq | hrest
          · exact absurd (Prod.mk.inj heq).1 hkey
          · exact hrest
        rw [beq_eq_false_iff_ne.2 hkey]
        exact ih hrest fun other hother => hunique other (List.mem_cons_of_mem _ hother)

/-- The step with its rationale distilled, when it is one of the episode. -/
def TrajectoryStep.distill (step : TrajectoryStep) (id : Uuid) (distill : Distill) :
    TrajectoryStep :=
  if step.trajectoryId = id then { step with rationale := distill.value step.rationale } else step

/-- Writing the distilled texts back by id distills the steps of the episode. -/
theorem mapRows_distilled (s : Trajectories) (id : Uuid) (distill : Distill) :
    (s.steps.mapRows fun stepId step =>
      match (((s.stepsOf id).insertionSort fun a b => a.2.seq ≤ b.2.seq).map
          fun step => (step.1, distill.value step.2.rationale)).lookup stepId with
      | none => step
      | some rationale => { step with rationale := rationale }) =
      s.steps.mapRows fun _ step => step.distill id distill := by
  simp only [Table.mapRows, Table.mk.injEq]
  refine List.map_congr_left fun kr hkr => Prod.ext rfl ?_
  obtain ⟨stepId, step⟩ := kr
  have hfind := (s.steps.find?_eq_some_iff stepId step).2 hkr
  by_cases hid : step.trajectoryId = id
  · have hmem : (stepId, step) ∈ (s.stepsOf id).insertionSort fun a b => a.2.seq ≤ b.2.seq :=
      (List.mem_insertionSort _).2 ((s.steps.mem_select _ _ _).2 ⟨hfind, by simp [hid]⟩)
    have hunique : ∀ other, (stepId, other) ∈ (s.stepsOf id).insertionSort
        (fun a b => a.2.seq ≤ b.2.seq) → other = step := by
      intro other hother
      have hother := ((s.steps.mem_select _ _ _).1 ((List.mem_insertionSort _).1 hother)).1
      exact Option.some.inj (hother.symm.trans hfind)
    rw [lookup_distilled (fun step => distill.value step.rationale) hmem hunique]
    exact (if_pos hid).symm
  · rw [List.lookup_eq_none_iff.2]
    · exact (if_neg hid).symm
    · intro entry hentry
      obtain ⟨⟨key, other⟩, hmem, rfl⟩ := List.mem_map.1 hentry
      obtain ⟨hother, howner⟩ := (s.steps.mem_select _ _ _).1 ((List.mem_insertionSort _).1 hmem)
      have hne : stepId ≠ key := by
        rintro rfl
        obtain rfl := Option.some.inj (hother.symm.trans hfind)
        exact hid (by simpa using howner)
      exact bne_iff_ne.2 hne

/-- **What a rotation does.** -/
theorem compactToLean_eq_ok {distill : Distill} {r : Option Trajectory}
    (h : compactToLean id distill s = .ok (r, s')) :
    (s.rows.find? id = none ∧ r = none ∧ s' = s) ∨
      ∃ row n, s.rows.find? id = some row ∧ r = some { row with retentionTier := .lean } ∧
        (∀ step ∈ s.stepsOf id, distill step.2.rationale = .ok (distill.value step.2.rationale)) ∧
        s' = Trajectories.emit
          { s with
            rows := s.rows.modify id (fun _ => { row with retentionTier := .lean })
            steps := s.steps.mapRows fun _ step => step.distill id distill }
          row.workstream (.compacted id .lean n) := by
  dsimp only [ compactToLean] at h
  split at h
  · rename_i hrow
    cases h
    exact .inl ⟨hrow, rfl, rfl⟩
  rename_i row hrow
  refine .inr ⟨row, ?_⟩
  cases hdistilled : s.distilled id distill with
  | error e =>
      rw [hdistilled] at h
      cases h
  | ok distilled =>
      rw [hdistilled] at h
      cases h
      obtain ⟨rfl, hall⟩ := distilled_eq_ok hdistilled
      rw [mapRows_distilled]
      exact ⟨_, hrow, rfl, fun step hstep => hall step ((List.mem_insertionSort _).2 hstep), rfl⟩

end Specs

/-! ## Calls -/

/-- The transactions on episodes, and the clock. -/
inductive TrajectoryOp where
  | start (id : Uuid) (a : StartArgs)
  | addStep (stepId id : Uuid) (a : StepArgs)
  | close (id : Uuid) (outcomeSummary : Option String) (now? : Option Time)
  | expire (now? : Option Time)
  | compact (id : Uuid) (distill : Distill)
  | selectRotatable (olderThan : Time) (now? : Option Time) (limit : Option Nat)
  /-- A task is enqueued with the episode it was planned in. -/
  | linkTask (task : Uuid) (trajectoryId : Option Uuid)
  | targetTrajectory (task : Uuid)
  | retroCompleted (workstream : Workstream) (targetTaskId trajectoryId : Option Uuid)
  | tick (elapsed : Nat)

namespace TrajectoryOp

/-- What a call returns. -/
def Res : TrajectoryOp → Type
  | start .. => Uuid
  | addStep .. => Uuid × TrajectoryStep
  | close .. => Option Trajectory
  | expire .. => Nat
  | compact .. => Option Trajectory
  | selectRotatable .. => List Uuid
  | linkTask .. => Unit
  | targetTrajectory .. => Option Uuid
  | retroCompleted .. => Unit
  | tick .. => Unit

/-- The transaction of a call. -/
def exec : (o : TrajectoryOp) → TrajectoryTx o.Res
  | start id a => startTrajectory platform id a
  | addStep stepId id a => Runtime.addStep platform stepId id a
  | close id outcomeSummary now? => closeTrajectory platform id outcomeSummary now?
  | expire now? => expireTrajectories now?
  | compact id distill => compactToLean id distill
  | selectRotatable olderThan now? limit => Runtime.selectRotatable olderThan now? limit
  | linkTask task trajectoryId => fun s =>
      .ok ((), { s with taskTrajectory := Function.update s.taskTrajectory task trajectoryId })
  | targetTrajectory task => fun s => .ok (s.taskTrajectory task, s)
  | retroCompleted workstream targetTaskId trajectoryId => fun s =>
      .ok ((), s.emit workstream (.retroCompleted targetTaskId trajectoryId))
  | tick elapsed => fun s => .ok ((), { s with now := s.now + elapsed })

end TrajectoryOp

/-- The store of the episodes. -/
def trajectories : Interface Trajectories Exn where
  Op := TrajectoryOp
  Res := TrajectoryOp.Res
  exec := TrajectoryOp.exec platform

/-- One call of a process. -/
abbrev trajectoryCall (o : TrajectoryOp) : Program (trajectories platform) o.Res :=
  Program.op (I := trajectories platform) o

/-! ## What a call does -/

/-- The change a committed call makes: one constructor for each kind of it. -/
inductive TrajectoryEffect (s s' : Trajectories) : TrajectoryOp → Prop where
  /-- A read, a link, the clock, a close of what is not open, a rotation of what is not there. -/
  | kept {o : TrajectoryOp} (hrows : s'.rows = s.rows) (hsteps : s'.steps = s.steps)
      (hevents : s'.events = s.events) : TrajectoryEffect s s' o
  | started {id : Uuid} {a : StartArgs} {workstream : Workstream} (hdrawn : s.drawn id = false)
      (hrows : s.rows.insert? id (a.row workstream s.now) = some s'.rows)
      (hsteps : s'.steps = s.steps)
      (hevents : s'.events = s.events ++ [(workstream, .started id a.role)]) :
      TrajectoryEffect s s' (.start id a)
  | appended {stepId id : Uuid} {a : StepArgs} {parent : Trajectory}
      (hparent : s.rows.find? id = some parent) (hdrawn : s.drawn stepId = false)
      (hrows : s'.rows = s.rows.modify id (·.peak a.contextSize))
      (hsteps : s.steps.insert? stepId (a.row platform id (s.nextSeq id) s.now) = some s'.steps)
      (hevents : s'.events =
        s.events ++ [(parent.workstream, .stepAdded id stepId (s.nextSeq id) a.stepType)]) :
      TrajectoryEffect s s' (.addStep stepId id a)
  | closed {id : Uuid} {outcomeSummary : Option String} {now? : Option Time} {row : Trajectory}
      (hrow : s.rows.find? id = some row) (hopen : row.status = .open_)
      (hrows : s'.rows = s.rows.modify id fun _ => row.close outcomeSummary (now?.getD s.now))
      (hsteps : s'.steps = s.steps)
      (hevents : s'.events = s.events ++ [(row.workstream, .closed id)]) :
      TrajectoryEffect s s' (.close id outcomeSummary now?)
  | expired {now? : Option Time} {gone : Uuid → Bool}
      (hgone : ∀ id, gone id = true ↔
        ∃ row, s.rows.find? id = some row ∧ row.isExpired (now?.getD s.now) = true)
      (hrows : s'.rows = s.rows.deleteWhere fun _ row => row.isExpired (now?.getD s.now))
      (hsteps : s'.steps = s.steps.deleteWhere fun _ step => gone step.trajectoryId)
      (hevents : ∃ deleted : List (Uuid × Trajectory), s'.events =
        s.events ++ deleted.map fun kr => (kr.2.workstream, .expired kr.1)) :
      TrajectoryEffect s s' (.expire now?)
  | compacted {id : Uuid} {distill : Distill} {row : Trajectory} {n : Nat}
      (hrow : s.rows.find? id = some row)
      (hdistill : ∀ step ∈ s.stepsOf id,
        distill step.2.rationale = .ok (distill.value step.2.rationale))
      (hrows : s'.rows = s.rows.modify id fun _ => { row with retentionTier := .lean })
      (hsteps : s'.steps = s.steps.mapRows fun _ step => step.distill id distill)
      (hevents : s'.events = s.events ++ [(row.workstream, .compacted id .lean n)]) :
      TrajectoryEffect s s' (.compact id distill)
  | mined {workstream : Workstream} {targetTaskId trajectoryId : Option Uuid}
      (hrows : s'.rows = s.rows) (hsteps : s'.steps = s.steps)
      (hevents : s'.events = s.events ++ [(workstream, .retroCompleted targetTaskId trajectoryId)]) :
      TrajectoryEffect s s' (.retroCompleted workstream targetTaskId trajectoryId)

variable {platform}

/-- **What a committed call can do.** -/
theorem TrajectoryOp.effect {o : TrajectoryOp} {s s' : Trajectories} {r : o.Res}
    (h : o.exec platform s = .ok (r, s')) : TrajectoryEffect platform s s' o := by
  cases o with
  | start id a =>
      obtain ⟨workstream, rows, -, hdrawn, hrows, rfl⟩ := startTrajectory_eq_ok h
      exact .started hdrawn hrows rfl rfl
  | addStep stepId id a =>
      obtain ⟨parent, steps, -, -, -, hparent, hdrawn, hsteps, rfl⟩ := addStep_eq_ok h
      exact .appended hparent hdrawn rfl hsteps rfl
  | close id outcomeSummary now? =>
      rcases closeTrajectory_eq_ok h with rfl | ⟨row, hrow, hopen, rfl⟩
      · exact .kept rfl rfl rfl
      · exact .closed hrow hopen rfl rfl rfl
  | expire now? =>
      cases h
      have hgone : ∀ id, ((s.rows.select fun _ row => row.isExpired (now?.getD s.now)).any
          (·.1 = id)) = true ↔
            ∃ row, s.rows.find? id = some row ∧ row.isExpired (now?.getD s.now) = true := by
        intro id
        rw [List.any_eq_true]
        constructor
        · rintro ⟨⟨key, row⟩, hmem, hkey⟩
          obtain rfl : key = id := by simpa using hkey
          exact ⟨row, (s.rows.mem_select _ _ _).1 hmem⟩
        · rintro ⟨row, hrow⟩
          exact ⟨(id, row), (s.rows.mem_select _ _ _).2 hrow, by simp⟩
      exact .expired hgone rfl rfl ⟨_, rfl⟩
  | compact id distill =>
      rcases compactToLean_eq_ok h with ⟨-, -, rfl⟩ | ⟨row, n, hrow, -, hdistill, rfl⟩
      · exact .kept rfl rfl rfl
      · exact .compacted hrow hdistill rfl rfl rfl
  | selectRotatable olderThan now? limit =>
      cases h
      exact .kept rfl rfl rfl
  | linkTask task trajectoryId =>
      cases h
      exact .kept rfl rfl rfl
  | targetTrajectory task =>
      cases h
      exact .kept rfl rfl rfl
  | retroCompleted workstream targetTaskId trajectoryId =>
      cases h
      exact .mined rfl rfl rfl
  | tick elapsed =>
      cases h
      exact .kept rfl rfl rfl

end AiStudio.Runtime
