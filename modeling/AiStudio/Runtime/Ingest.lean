import AiStudio.Runtime.Retention

/-!
# Ingesting an exported trajectory

Embeds `runtime/trajectory_ingest.py`: an exported record is validated, then mapped onto the
guarded writer, one transaction for the start, one for each step and one for the close.

- `AllOrNothing`: the whole record is in the store, or the call raises and the store is as it was.
- `allOrNothing_iff`: when an ingest is that. A record the writer takes in part leaves the part.
-/

set_option autoImplicit false

namespace AiStudio.Runtime

open AiStudio.Data AiStudio.Concurrency

/-! ## The import format -/

/-- `IngestStep`. -/
structure IngestStep where
  stepType : String
  summary : String
  rationale : Option String := none
  optionsConsidered : Option (Json Empty) := none
  choice : Option String := none
  confidence : Option FloatRepr := none
  refs : Option (Json Empty) := none
  contextSize : Option Int := none
  tokens : Option Int := none
  costUsd : Option FloatRepr := none
  latencyMs : Option Int := none
  createdAt : Option Time := none

/-- `IngestRecord`. -/
structure IngestRecord where
  role : String
  workstream : String
  goal : String
  ttl : Option Time := none
  contextSizeStart : Option Int := none
  outcomeSummary : Option String := none
  startedAt : Option Time := none
  endedAt : Option Time := none
  close : Bool := true
  steps : List IngestStep := []

/-- What a record hands to `start_trajectory`. -/
def IngestRecord.startArgs (rec : IngestRecord) (now : Option Time) : StartArgs where
  role := rec.role
  workstream := rec.workstream
  goal := rec.goal
  ttl := rec.ttl
  contextSizeStart := rec.contextSizeStart
  now := rec.startedAt <|> now

/-- What a step hands to `add_step`. -/
def IngestStep.args (step : IngestStep) (now : Option Time) : StepArgs where
  stepType := step.stepType
  summary := step.summary
  rationale := step.rationale
  optionsConsidered := step.optionsConsidered
  choice := step.choice
  confidence := step.confidence
  refs := step.refs
  contextSize := step.contextSize
  tokens := step.tokens
  costUsd := step.costUsd
  latencyMs := step.latencyMs
  now := step.createdAt <|> now

/-! ## The ingest -/

variable (platform : Platform)

/-- The loop over the steps, from the `k`-th on; `stepId` are the ids the server draws. -/
def addSteps (tid : Uuid) (stepId : ℕ → Uuid) (now : Option Time) :
    ℕ → List IngestStep → Program (trajectories platform) Unit
  | _, [] => .ret ()
  | k, step :: steps => do
      let _ ← trajectoryCall platform (.addStep (stepId k) tid (step.args now))
      addSteps tid stepId now (k + 1) steps

/-- The end of an ingest, behind the loop. -/
def finish (rec : IngestRecord) (tid : Uuid) (now : Option Time) :
    Program (trajectories platform) Uuid :=
  if rec.close then do
    let _ ← trajectoryCall platform (.close tid rec.outcomeSummary (rec.endedAt <|> now))
    return tid
  else return tid

/-- `ingest_trajectory`; `validate` is the validation of a payload into a record, and `id` the id
the server draws for the episode. -/
def ingestTrajectory {R : Type} (validate : R → Except Exn IngestRecord) (record : R)
    (now : Option Time) (id : Uuid) (stepId : ℕ → Uuid) : Program (trajectories platform) Uuid :=
  match validate record with
  | .error e => .throw e
  | .ok rec => do
      let tid ← trajectoryCall platform (.start id (rec.startArgs now))
      addSteps platform tid stepId now 0 rec.steps
      finish platform rec tid now

/-! ## What is recorded -/

section Whole

variable (s : Trajectories) (id : Uuid) (stepId : ℕ → Uuid) (now : Option Time)

/-- The steps of an episode that holds the steps of a record. -/
def importedSteps (steps : List IngestStep) : List (Uuid × TrajectoryStep) :=
  steps.mapIdx fun k step => (stepId k, (step.args now).row platform id (k + 1) s.now)

/-- The row of an episode after the steps of a record. -/
def peaked (row : Trajectory) (steps : List IngestStep) : Trajectory :=
  steps.foldl (fun row step => row.peak step.contextSize) row

/-- The row after the whole record. -/
def IngestRecord.finished (rec : IngestRecord) (row : Trajectory) : Trajectory :=
  if rec.close then
    (peaked row rec.steps).close rec.outcomeSummary ((rec.endedAt <|> now).getD s.now)
  else peaked row rec.steps

/-- The store `s'` is `s` with an episode under `id`: its row, its steps, and nothing else. -/
structure Episode (s' : Trajectories) (row : Trajectory) (steps : List (Uuid × TrajectoryStep)) :
    Prop where
  row : s'.rows.find? id = some row
  steps : s'.stepsOf id = steps
  others : ∀ other, other ≠ id →
    s'.rows.find? other = s.rows.find? other ∧ s'.stepsOf other = s.stepsOf other

/-- **All or nothing**: the whole record with its steps and its close is in the store, or the call
raised and the store is as it was. -/
def AllOrNothing {R : Type} (validate : R → Except Exn IngestRecord) (record : R)
    (outcome : Except Exn Uuid × Trajectories) : Prop :=
  (∃ rec workstream, validate record = .ok rec ∧ outcome.1 = .ok id ∧
      rec.workstream = workstream.name ∧
      Episode s id outcome.2 (rec.finished s now ((rec.startArgs now).row workstream s.now))
        (importedSteps platform s id stepId now rec.steps)) ∨
    (∃ e, outcome.1 = .error e) ∧ outcome.2 = s

end Whole

/-! ## What the writer takes -/

/-- What `start_trajectory` takes. -/
def StartArgs.Taken (a : StartArgs) (workstream : Workstream) (now : Time) : Prop :=
  a.role ≠ "" ∧ a.workstream = workstream.name ∧ isBlank a.goal = false ∧
    platform.takesTrajectory (a.row workstream now) = true

/-- What `add_step` takes. -/
def StepArgs.Taken (a : StepArgs) (id : Uuid) (seq : ℕ) (now : Time) : Prop :=
  a.stepType ∈ stepTypes ∧ isBlank a.summary = false ∧
    platform.takesStep (a.row platform id seq now) = true

/-- The condition under which an ingest is all or nothing: the payload is no record, or the writer
refuses its start, or it takes the start, every step and the close. -/
def Importable (s : Trajectories) (id : Uuid) (now : Option Time) :
    Except Exn IngestRecord → Prop
  | .error _ => True
  | .ok rec => ∀ workstream, (rec.startArgs now).Taken platform workstream s.now →
      (∀ (k : ℕ) (step : IngestStep), rec.steps[k]? = some step →
        (step.args now).Taken platform id (k + 1) s.now) ∧
      (rec.close = true → platform.takesTrajectory
        (rec.finished s now ((rec.startArgs now).row workstream s.now)) = true)

/-- The ids the server draws are new. -/
structure Fresh (s : Trajectories) (id : Uuid) (stepId : ℕ → Uuid) (n : ℕ) : Prop where
  row : s.rows.find? id = none
  steps : s.stepsOf id = []
  drawn : s.drawn id = false
  stepRow : ∀ k < n, s.steps.find? (stepId k) = none
  stepDrawn : ∀ k < n, s.drawn (stepId k) = false
  ne : ∀ k < n, stepId k ≠ id
  distinct : ∀ k < n, ∀ j < k, stepId j ≠ stepId k

section Writer

variable {platform} {s : Trajectories} {id stepId : Uuid}

/-- A start that is taken. -/
theorem startTrajectory_of_taken {a : StartArgs} {workstream : Workstream}
    (h : a.Taken platform workstream s.now) (hrow : s.rows.find? id = none)
    (hdrawn : s.drawn id = false) :
    ∃ rows, s.rows.insert? id (a.row workstream s.now) = some rows ∧
      startTrajectory platform id a s =
        .ok (id, { s with rows := rows }.emit workstream (.started id a.role)) := by
  obtain ⟨hrole, hworkstream, hgoal, htakes⟩ := h
  obtain ⟨rows, hrows⟩ := Table.insert?_of_find?_none (a.row workstream s.now) hrow
  refine ⟨rows, hrows, ?_⟩
  obtain ⟨name, hname⟩ := workstream
  obtain rfl : a.workstream = name := hworkstream
  dsimp only [startTrajectory]
  rw [if_neg hrole, dif_neg hname, hgoal, htakes, hdrawn, hrows]
  rfl

/-- A start that is not. -/
theorem startTrajectory_raises {a : StartArgs}
    (h : ∀ workstream, ¬ a.Taken platform workstream s.now) :
    ∃ e, startTrajectory platform id a s = .error e := by
  dsimp only [startTrajectory]
  split
  · exact ⟨_, rfl⟩
  rename_i hrole
  split
  · exact ⟨_, rfl⟩
  rename_i hworkstream
  split
  · exact ⟨_, rfl⟩
  rename_i hgoal
  split
  · exact ⟨_, rfl⟩
  rename_i htakes
  refine absurd ⟨hrole, rfl, Bool.eq_false_iff.2 hgoal, ?_⟩ (h ⟨a.workstream, hworkstream⟩)
  simpa using htakes

/-- A step that is taken. -/
theorem addStep_of_taken {a : StepArgs} {parent : Trajectory}
    (h : a.Taken platform id (s.nextSeq id) s.now) (hparent : s.rows.find? id = some parent)
    (hrow : s.steps.find? stepId = none) (hdrawn : s.drawn stepId = false) :
    ∃ steps, s.steps.insert? stepId (a.row platform id (s.nextSeq id) s.now) = some steps ∧
      addStep platform stepId id a s = .ok ((stepId, a.row platform id (s.nextSeq id) s.now),
        { s with steps := steps, rows := s.rows.modify id (·.peak a.contextSize) }.emit
          parent.workstream (.stepAdded id stepId (s.nextSeq id) a.stepType)) := by
  obtain ⟨htype, hsummary, htakes⟩ := h
  obtain ⟨steps, hsteps⟩ :=
    Table.insert?_of_find?_none (a.row platform id (s.nextSeq id) s.now) hrow
  refine ⟨steps, hsteps, ?_⟩
  dsimp only [addStep]
  rw [if_neg (not_not.2 htype), hsummary, hparent]
  dsimp only
  rw [htakes, hdrawn, hsteps]
  rfl

/-- A step that is not. -/
theorem addStep_raises {a : StepArgs} {parent : Trajectory}
    (h : ¬ a.Taken platform id (s.nextSeq id) s.now) (hparent : s.rows.find? id = some parent) :
    ∃ e, addStep platform stepId id a s = .error e := by
  dsimp only [addStep]
  split
  · exact ⟨_, rfl⟩
  rename_i htype
  split
  · exact ⟨_, rfl⟩
  rename_i hsummary
  rw [hparent]
  dsimp only
  split
  · exact ⟨_, rfl⟩
  rename_i htakes
  refine absurd ⟨not_not.1 htype, Bool.eq_false_iff.2 hsummary, ?_⟩ h
  simpa using htakes

end Writer

/-! ## The loop -/

/-- The store in the middle of an ingest: `steps` are recorded, and the ids of the other steps are
still new. -/
structure Ingesting (s : Trajectories) (id : Uuid) (stepId : ℕ → Uuid) (n : ℕ) (s' : Trajectories)
    (row : Trajectory) (steps : List (Uuid × TrajectoryStep)) : Prop where
  episode : Episode s id s' row steps
  now : s'.now = s.now
  stepRow : ∀ k < n, steps.length ≤ k → s'.steps.find? (stepId k) = none
  stepDrawn : ∀ k < n, steps.length ≤ k → s'.drawn (stepId k) = false

section Loop

variable {platform} {s s' : Trajectories} {id : Uuid} {stepId : ℕ → Uuid} {n : ℕ}
  {row : Trajectory} {now : Option Time}

theorem drawn_started {workstream : Workstream} {role : String} {other : Uuid} (h : other ≠ id) :
    (s.emit workstream (.started id role)).drawn other = s.drawn other := by
  have hne : ¬ id = other := fun heq => h heq.symm
  simp [Trajectories.drawn, Trajectories.emit, hne]

theorem drawn_stepAdded {workstream : Workstream} {step other : Uuid} {seq : ℕ} {stepType : String}
    (h : other ≠ step) :
    (s.emit workstream (.stepAdded id step seq stepType)).drawn other = s.drawn other := by
  have hne : ¬ step = other := fun heq => h heq.symm
  simp [Trajectories.drawn, Trajectories.emit, hne]

/-- After the start no step is recorded. -/
theorem ingesting_start {a : StartArgs} {workstream : Workstream} {rows : Table Uuid Trajectory}
    (hfresh : Fresh s id stepId n)
    (hrows : s.rows.insert? id (a.row workstream s.now) = some rows) :
    Ingesting s id stepId n ({ s with rows := rows }.emit workstream (.started id a.role))
      (a.row workstream s.now) [] := by
  refine ⟨⟨?_, hfresh.steps, fun other hother => ⟨?_, rfl⟩⟩, rfl, fun k hk _ => hfresh.stepRow k hk,
    fun k hk _ => ?_⟩
  · exact (Table.find?_insert hrows id).trans (if_pos rfl)
  · exact (Table.find?_insert hrows other).trans (if_neg hother)
  · rw [drawn_started (hfresh.ne k hk)]
    exact hfresh.stepDrawn k hk

/-- The numbers of imported steps. -/
theorem seq_importedSteps (steps : List IngestStep) :
    (importedSteps platform s id stepId now steps).map (fun kr => kr.2.seq) =
      List.range' 1 (importedSteps platform s id stepId now steps).length := by
  refine List.ext_getElem (by simp) fun k hk _ => ?_
  simp [importedSteps, StepArgs.row, Nat.add_comm]

/-- In the middle of an ingest the next number is that of the next step. -/
theorem Ingesting.nextSeq {done : List IngestStep}
    (h : Ingesting s id stepId n s' row (importedSteps platform s id stepId now done)) :
    s'.nextSeq id = done.length + 1 := by
  have hnumbered : (importedSteps platform s id stepId now done).map (fun kr => kr.2.seq) =
      List.range' 1 (importedSteps platform s id stepId now done).length := seq_importedSteps done
  rw [← h.episode.steps] at hnumbered
  rw [nextSeq_of_numbered hnumbered, h.episode.steps]
  simp [importedSteps]

/-- **A step of the loop** that is taken is recorded. -/
theorem Ingesting.step {done : List IngestStep} {step : IngestStep}
    (hdistinct : ∀ k < n, ∀ j < k, stepId j ≠ stepId k) (hk : done.length < n)
    (h : Ingesting s id stepId n s' row (importedSteps platform s id stepId now done))
    (htaken : (step.args now).Taken platform id (done.length + 1) s.now) :
    ∃ r s₁, addStep platform (stepId done.length) id (step.args now) s' = .ok (r, s₁) ∧
      Ingesting s id stepId n s₁ (row.peak step.contextSize)
        (importedSteps platform s id stepId now (done ++ [step])) := by
  have hlength : ∀ steps, (importedSteps platform s id stepId now steps).length = steps.length :=
    fun steps => List.length_mapIdx
  rw [← h.nextSeq, ← h.now] at htaken
  obtain ⟨steps, hsteps, hexec⟩ := addStep_of_taken htaken h.episode.row
    (h.stepRow done.length hk (hlength done).le) (h.stepDrawn done.length hk (hlength done).le)
  have happend : ∀ other, Trajectories.stepsOf { s' with steps := steps } other =
      s'.stepsOf other ++ if id = other then
        [(stepId done.length, (step.args now).row platform id (s'.nextSeq id) s'.now)] else [] :=
    fun other => stepsOf_append hsteps other
  refine ⟨_, _, hexec, ⟨?_, ?_, fun other hother => ⟨?_, ?_⟩⟩, h.now, fun k hk hle => ?_,
    fun k hk hle => ?_⟩
  · refine (Table.find?_modify_self s'.rows id _).trans ?_
    rw [h.episode.row]
    rfl
  · refine (happend id).trans ?_
    rw [if_pos rfl, h.nextSeq, h.now, h.episode.steps, importedSteps, importedSteps,
      List.mapIdx_concat]
  · exact (Table.find?_modify_ne s'.rows _ hother).trans (h.episode.others other hother).1
  · refine (happend other).trans ?_
    rw [if_neg (fun heq => hother heq.symm), List.append_nil]
    exact (h.episode.others other hother).2
  · rw [hlength, List.length_append, List.length_singleton] at hle
    refine (Table.find?_insert hsteps (stepId k)).trans ?_
    rw [if_neg fun heq => hdistinct k hk done.length hle heq.symm]
    exact h.stepRow k hk ((hlength done).trans_le (Nat.le_of_succ_le hle))
  · rw [hlength, List.length_append, List.length_singleton] at hle
    refine (drawn_stepAdded fun heq => hdistinct k hk done.length hle heq.symm).trans ?_
    exact h.stepDrawn k hk ((hlength done).trans_le (Nat.le_of_succ_le hle))

/-- What is left of the loop is a loop from the next number on. -/
theorem taken_succ {done steps : List IngestStep} {step : IngestStep}
    (h : (step.args now).Taken platform id (done.length + 1) s.now) :
    (∀ (k : ℕ) (other : IngestStep), (step :: steps)[k]? = some other →
        (other.args now).Taken platform id (done.length + k + 1) s.now) ↔
      ∀ (k : ℕ) (other : IngestStep), steps[k]? = some other →
        (other.args now).Taken platform id ((done ++ [step]).length + k + 1) s.now := by
  have hnumber : ∀ k, (done ++ [step]).length + k + 1 = done.length + (k + 1) + 1 := by
    intro k
    rw [List.length_append, List.length_singleton]
    omega
  constructor
  · intro hall k other hother
    rw [hnumber]
    exact hall (k + 1) other hother
  · intro hall k other hother
    cases k with
    | zero =>
        obtain rfl : step = other := Option.some.inj hother
        exact h
    | succ k =>
        rw [← hnumber]
        exact hall k other hother

/-- **The loop** over steps that are all taken records them all. -/
theorem addSteps_of_taken (done : List IngestStep) {steps : List IngestStep}
    (hdistinct : ∀ k < n, ∀ j < k, stepId j ≠ stepId k) (hn : done.length + steps.length ≤ n)
    (h : Ingesting s id stepId n s' row (importedSteps platform s id stepId now done))
    (htaken : ∀ (k : ℕ) (step : IngestStep), steps[k]? = some step →
      (step.args now).Taken platform id (done.length + k + 1) s.now) :
    ∃ s₁, (addSteps platform id stepId now done.length steps).eval s' = (.ok (), s₁) ∧
      Ingesting s id stepId n s₁ (peaked row steps)
        (importedSteps platform s id stepId now (done ++ steps)) := by
  induction steps generalizing done s' row with
  | nil =>
      rw [List.append_nil]
      exact ⟨s', rfl, h⟩
  | cons step steps ih =>
      rw [List.length_cons] at hn
      have hfirst := htaken 0 step rfl
      obtain ⟨r, s₁, hexec, hnext⟩ := h.step hdistinct (by omega) hfirst
      obtain ⟨s₂, heval, hdone⟩ := ih (done ++ [step])
        (by rw [List.length_append, List.length_singleton]; omega) hnext
        ((taken_succ hfirst).1 htaken)
      rw [List.length_append, List.length_singleton] at heval
      rw [List.append_assoc, List.singleton_append] at hdone
      exact ⟨s₂, (Program.eval_bind_ok (Program.eval_op_ok hexec)).trans heval, hdone⟩

/-- A loop that comes to a step that is not taken raises, and the episode stays. -/
theorem addSteps_raises (done : List IngestStep) {steps : List IngestStep}
    (hdistinct : ∀ k < n, ∀ j < k, stepId j ≠ stepId k) (hn : done.length + steps.length ≤ n)
    (h : Ingesting s id stepId n s' row (importedSteps platform s id stepId now done))
    (htaken : ¬ ∀ (k : ℕ) (step : IngestStep), steps[k]? = some step →
      (step.args now).Taken platform id (done.length + k + 1) s.now) :
    ∃ e s₁ row₁, (addSteps platform id stepId now done.length steps).eval s' = (.error e, s₁) ∧
      s₁.rows.find? id = some row₁ := by
  induction steps generalizing done s' row with
  | nil =>
      refine absurd (fun k step hstep => ?_) htaken
      cases hstep
  | cons step steps ih =>
      rw [List.length_cons] at hn
      by_cases hfirst : (step.args now).Taken platform id (done.length + 1) s.now
      · obtain ⟨r, s₁, hexec, hnext⟩ := h.step hdistinct (by omega) hfirst
        obtain ⟨e, s₂, row₂, heval, hrow₂⟩ := ih (done ++ [step])
          (by rw [List.length_append, List.length_singleton]; omega) hnext
          (fun hall => htaken ((taken_succ hfirst).2 hall))
        rw [List.length_append, List.length_singleton] at heval
        exact ⟨e, s₂, row₂, (Program.eval_bind_ok (Program.eval_op_ok hexec)).trans heval, hrow₂⟩
      · rw [← h.nextSeq, ← h.now] at hfirst
        obtain ⟨e, hexec⟩ : ∃ e, addStep platform (stepId done.length) id (step.args now) s' =
            .error e := addStep_raises hfirst h.episode.row
        exact ⟨e, s', row, Program.eval_bind_error (Program.eval_op_error hexec), h.episode.row⟩

/-- The whole loop over steps that are all taken. -/
theorem addSteps_all {steps : List IngestStep} (hfresh : Fresh s id stepId steps.length)
    (h : Ingesting s id stepId steps.length s' row [])
    (htaken : ∀ (k : ℕ) (step : IngestStep), steps[k]? = some step →
      (step.args now).Taken platform id (k + 1) s.now) :
    ∃ s₁, (addSteps platform id stepId now 0 steps).eval s' = (.ok (), s₁) ∧
      Ingesting s id stepId steps.length s₁ (peaked row steps)
        (importedSteps platform s id stepId now steps) := by
  refine addSteps_of_taken [] hfresh.distinct (Nat.zero_add _).le h fun k step hstep => ?_
  rw [List.length_nil, Nat.zero_add]
  exact htaken k step hstep

/-- The whole loop over steps that are not. -/
theorem addSteps_not_all {steps : List IngestStep} (hfresh : Fresh s id stepId steps.length)
    (h : Ingesting s id stepId steps.length s' row [])
    (htaken : ¬ ∀ (k : ℕ) (step : IngestStep), steps[k]? = some step →
      (step.args now).Taken platform id (k + 1) s.now) :
    ∃ e s₁ row₁, (addSteps platform id stepId now 0 steps).eval s' = (.error e, s₁) ∧
      s₁.rows.find? id = some row₁ := by
  refine addSteps_raises [] hfresh.distinct (Nat.zero_add _).le h fun hall =>
    htaken fun k step hstep => ?_
  have := hall k step hstep
  rwa [List.length_nil, Nat.zero_add] at this

/-! ## The close -/

@[simp] theorem status_peaked (row : Trajectory) (steps : List IngestStep) :
    (peaked row steps).status = row.status := by
  induction steps generalizing row with
  | nil => rfl
  | cons step steps ih => exact (ih _).trans (status_peak row step.contextSize)

/-- A close that the columns take. -/
theorem closeTrajectory_of_taken {outcomeSummary : Option String} {now? : Option Time}
    (hrow : s.rows.find? id = some row) (hopen : row.status = .open_)
    (htakes : platform.takesTrajectory (row.close outcomeSummary (now?.getD s.now)) = true) :
    closeTrajectory platform id outcomeSummary now? s =
      .ok (some (row.close outcomeSummary (now?.getD s.now)),
        Trajectories.emit
          { s with rows := s.rows.modify id fun _ => row.close outcomeSummary (now?.getD s.now) }
          row.workstream (.closed id)) := by
  dsimp only [closeTrajectory]
  rw [hrow]
  dsimp only
  rw [if_neg (not_not.2 hopen), htakes]
  rfl

/-- A close that they do not. -/
theorem closeTrajectory_raises {outcomeSummary : Option String} {now? : Option Time}
    (hrow : s.rows.find? id = some row) (hopen : row.status = .open_)
    (htakes : ¬ platform.takesTrajectory (row.close outcomeSummary (now?.getD s.now)) = true) :
    ∃ e, closeTrajectory platform id outcomeSummary now? s = .error e := by
  dsimp only [closeTrajectory]
  rw [hrow]
  dsimp only
  rw [if_neg (not_not.2 hopen), Bool.eq_false_iff.2 htakes]
  exact ⟨_, rfl⟩

/-- **The end of an ingest**: the episode is finished, or the close raises. -/
theorem finish_cases {rec : IngestRecord}
    (h : Ingesting s id stepId n s' (peaked row rec.steps)
      (importedSteps platform s id stepId now rec.steps)) (hopen : row.status = .open_) :
    ((rec.close = true → platform.takesTrajectory (rec.finished s now row) = true) ∧
        ∃ s₁, (finish platform rec id now).eval s' = (.ok id, s₁) ∧
          Episode s id s₁ (rec.finished s now row)
            (importedSteps platform s id stepId now rec.steps)) ∨
      (¬ (rec.close = true → platform.takesTrajectory (rec.finished s now row) = true) ∧
        ∃ e, (finish platform rec id now).eval s' = (.error e, s')) := by
  have hopen' : (peaked row rec.steps).status = .open_ := (status_peaked row rec.steps).trans hopen
  cases hclose : rec.close with
  | false =>
      rw [IngestRecord.finished, finish, hclose]
      exact .inl ⟨fun heq => Bool.noConfusion heq, s', rfl, h.episode⟩
  | true =>
      rw [IngestRecord.finished, finish, hclose, if_pos rfl, if_pos rfl, ← h.now]
      by_cases htakes : platform.takesTrajectory ((peaked row rec.steps).close rec.outcomeSummary
          ((rec.endedAt <|> now).getD s'.now)) = true
      · have hexec := closeTrajectory_of_taken h.episode.row hopen' htakes
        refine .inl ⟨fun _ => htakes, _, Program.eval_bind_ok (Program.eval_op_ok hexec), ?_⟩
        refine ⟨?_, h.episode.steps, fun other hother => ⟨?_, (h.episode.others other hother).2⟩⟩
        · refine (Table.find?_modify_self s'.rows id _).trans ?_
          rw [h.episode.row]
          rfl
        · exact (Table.find?_modify_ne s'.rows _ hother).trans (h.episode.others other hother).1
      · obtain ⟨e, hexec⟩ := closeTrajectory_raises h.episode.row hopen' htakes
        exact .inr ⟨fun hall => htakes (hall rfl), e,
          Program.eval_bind_error (Program.eval_op_error hexec)⟩

end Loop

/-! ## All or nothing -/

variable {platform}

section Start

variable {R : Type} {validate : R → Except Exn IngestRecord} {record : R} {rec : IngestRecord}
  {now : Option Time} {id : Uuid} {stepId : ℕ → Uuid} {s s' : Trajectories}

/-- Behind its start an ingest is its loop and its end. -/
theorem eval_ingest_started (hvalidate : validate record = .ok rec)
    (hexec : startTrajectory platform id (rec.startArgs now) s = .ok (id, s')) :
    (ingestTrajectory platform validate record now id stepId).eval s =
      ((addSteps platform id stepId now 0 rec.steps).bind fun _ =>
        finish platform rec id now).eval s' := by
  rw [ingestTrajectory, hvalidate]
  exact Program.eval_bind_ok (Program.eval_op_ok hexec)

/-- An ingest whose start is refused ends there. -/
theorem eval_ingest_refused {e : Exn} (hvalidate : validate record = .ok rec)
    (hexec : startTrajectory platform id (rec.startArgs now) s = .error e) :
    (ingestTrajectory platform validate record now id stepId).eval s = (.error e, s) := by
  rw [ingestTrajectory, hvalidate]
  exact Program.eval_bind_error (Program.eval_op_error hexec)

end Start

/-- **An ingest is all or nothing** exactly when the payload is no record, or the writer refuses its
start, or it takes the start, every step and the close. Behind a start that has been committed a
step or a close that the writer refuses leaves what was recorded before it. -/
theorem allOrNothing_iff {R : Type} {validate : R → Except Exn IngestRecord} {record : R}
    {now : Option Time} {id : Uuid} {stepId : ℕ → Uuid} {s : Trajectories}
    (hfresh : ∀ rec, validate record = .ok rec → Fresh s id stepId rec.steps.length) :
    AllOrNothing platform s id stepId now validate record
        ((ingestTrajectory platform validate record now id stepId).eval s) ↔
      Importable platform s id now (validate record) := by
  cases hvalidate : validate record with
  | error e =>
      have heval : (ingestTrajectory platform validate record now id stepId).eval s =
          (.error e, s) := by
        rw [ingestTrajectory, hvalidate]
        rfl
      rw [heval]
      exact ⟨fun _ => trivial, fun _ => .inr ⟨⟨e, rfl⟩, rfl⟩⟩
  | ok rec =>
      have hnew := hfresh rec hvalidate
      by_cases hstart : ∃ workstream, (rec.startArgs now).Taken platform workstream s.now
      · obtain ⟨workstream, hstart⟩ := hstart
        have hunique : ∀ other, (rec.startArgs now).Taken platform other s.now →
            other = workstream := by
          intro other hother
          have hname := hother.2.1.symm.trans hstart.2.1
          cases other
          cases workstream
          simpa using hname
        obtain ⟨rows, hrows, hexec⟩ := startTrajectory_of_taken hstart hnew.row hnew.drawn
        have hingesting := ingesting_start (a := rec.startArgs now) hnew hrows
        rw [eval_ingest_started hvalidate hexec]
        -- What is left after a failure is not the store from before the start.
        have hleft : ∀ (e : Exn) (s₁ : Trajectories) (row₁ : Trajectory),
            s₁.rows.find? id = some row₁ →
            ¬ AllOrNothing platform s id stepId now validate record (.error e, s₁) := by
          rintro e s₁ row₁ hrow₁ (⟨-, -, -, hok, -⟩ | ⟨-, rfl⟩)
          · cases hok
          · rw [hnew.row] at hrow₁
            cases hrow₁
        by_cases hsteps : ∀ (k : ℕ) (step : IngestStep), rec.steps[k]? = some step →
            (step.args now).Taken platform id (k + 1) s.now
        · obtain ⟨s₁, heval, hdone⟩ := addSteps_all hnew hingesting hsteps
          rw [Program.eval_bind_ok heval]
          rcases finish_cases hdone rfl with ⟨hclose, s₂, heval, hepisode⟩ | ⟨hclose, e, heval⟩
          · rw [heval]
            refine ⟨fun _ other hother => ?_, fun _ => ?_⟩
            · rw [hunique other hother]
              exact ⟨hsteps, hclose⟩
            · exact .inl ⟨rec, workstream, hvalidate, rfl, hstart.2.1, hepisode⟩
          · rw [heval]
            refine ⟨fun hall => absurd hall (hleft e s₁ _ hdone.episode.row), fun hall => ?_⟩
            exact absurd (hall workstream hstart).2 hclose
        · obtain ⟨e, s₁, row₁, heval, hrow₁⟩ := addSteps_not_all hnew hingesting hsteps
          rw [Program.eval_bind_error heval]
          refine ⟨fun hall => absurd hall (hleft e s₁ row₁ hrow₁), fun hall => ?_⟩
          exact absurd (hall workstream hstart).1 hsteps
      · obtain ⟨e, hexec⟩ : ∃ e, startTrajectory platform id (rec.startArgs now) s = .error e :=
          startTrajectory_raises (not_exists.1 hstart)
        rw [eval_ingest_refused hvalidate hexec]
        refine ⟨fun _ other hother => absurd ⟨other, hother⟩ hstart, fun _ => ?_⟩
        exact .inr ⟨⟨e, rfl⟩, rfl⟩

/-! ## A record of two steps -/

def importedEpisode : Uuid := ⟨"9e7a4c31-0b52-4f6e-8d13-5c2f7b8e6a01", by decide⟩
def importedFirst : Uuid := ⟨"9e7a4c31-0b52-4f6e-8d13-5c2f7b8e6a02", by decide⟩
def importedSecond : Uuid := ⟨"9e7a4c31-0b52-4f6e-8d13-5c2f7b8e6a03", by decide⟩

/-- The ids the server draws for the steps. -/
def importedStep (k : ℕ) : Uuid := if k = 0 then importedFirst else importedSecond

/-- A closed episode of two steps, the second of the given type. -/
def exported (second : String) : IngestRecord where
  role := "pm"
  workstream := "studio"
  goal := "ship"
  steps := [{ stepType := "observe", summary := "looked" },
    { stepType := second, summary := "went on" }]

/-- Its ingest into an empty database. -/
def ingestExported (second : String) : Except Exn Uuid × Trajectories :=
  (ingestTrajectory openPlatform .ok (exported second) none importedEpisode importedStep).eval
    (.initial 0)

theorem fresh_exported (second : String) :
    Fresh (.initial 0) importedEpisode importedStep (exported second).steps.length := by
  have hne : ∀ k < 2, importedStep k ≠ importedEpisode := by decide
  have hdistinct : ∀ k < 2, ∀ j < k, importedStep j ≠ importedStep k := by decide
  exact ⟨rfl, rfl, rfl, fun k _ => rfl, fun k _ => rfl, hne, hdistinct⟩

/-- A record whose steps are of known types is ingested whole. -/
theorem allOrNothing_commit :
    AllOrNothing openPlatform (.initial 0) importedEpisode importedStep none .ok (exported "commit")
      (ingestExported "commit") := by
  refine (allOrNothing_iff fun rec hrec => ?_).2 fun workstream _ => ⟨fun k step hstep => ?_, ?_⟩
  · obtain rfl := Except.ok.inj hrec
    exact fresh_exported "commit"
  · have hall : ((exported "commit").steps.all fun step =>
        step.stepType ∈ stepTypes ∧ isBlank step.summary = false) = true := by decide
    obtain ⟨htype, hsummary⟩ :=
      of_decide_eq_true (List.all_eq_true.1 hall step (List.mem_of_getElem? hstep))
    exact ⟨htype, hsummary, rfl⟩
  · exact fun _ => rfl

/-- A second step of an unknown type is refused behind the start and the first step, and both
stay. -/
theorem partly_ingested :
    ¬ AllOrNothing openPlatform (.initial 0) importedEpisode importedStep none .ok
      (exported "think") (ingestExported "think") := by
  have hraised : (ingestExported "think").1.toOption = none := by decide
  have hleft : ((ingestExported "think").2.rows.find? importedEpisode).isSome = true := by
    decide
  rintro (⟨-, -, -, hok, -⟩ | ⟨-, hsame⟩)
  · rw [hok] at hraised
    cases hraised
  · rw [hsame] at hleft
    cases hleft

end AiStudio.Runtime
