import AiStudio.Runtime.Retention

/-!
# The rotation of mined trajectories

Embeds the rotation pass of `runtime/trajectory_worker.py` and the marker a retro leaves for it
(`runtime/roles/retro.py`). Any number of passes run beside any programs that append, close,
expire and mine.

- `RotationLaw`: a pass cuts only steps of closed trajectories that a retro could read, a failed
  rotation changes nothing, and a pass comes to every trajectory it selected.
- `rotationLaw_of_reach`: when that holds. The marker names a trajectory and not its steps, so a
  step appended behind it is rotated unread.
-/

set_option autoImplicit false

namespace AiStudio.Runtime

open AiStudio.Data AiStudio.Concurrency

/-! ## The pass and the marker -/

section Programs

variable (platform : Platform)

/-- The arguments of `rotate_mined_trajectories`. -/
structure RotateArgs where
  olderThan : Time
  now : Option Time := none
  distill : Distill := defaultDistiller
  limit : Option Nat := none

/-- The loop of `rotate_mined_trajectories`: what one rotation raises is logged. -/
def rotateEach (distill : Distill) : List Uuid → Program (trajectories platform) (List Uuid)
  | [] => .ret []
  | tid :: tids => do
      let outcome ← (trajectoryCall platform (.compact tid distill)).attempt
      let rotated ← rotateEach distill tids
      match outcome with
      | .ok (some _) => return tid :: rotated
      | _ => return rotated

/-- `rotate_mined_trajectories`. -/
def rotateMined (a : RotateArgs) : Program (trajectories platform) (List Uuid) := do
  let tids ← trajectoryCall platform (.selectRotatable a.olderThan a.now a.limit)
  rotateEach platform a.distill tids

/-- `_target_trajectory_id`: a failed read is an episode without a trajectory. -/
def targetTrajectoryId : Option Uuid → Program (trajectories platform) (Option Uuid)
  | none => .ret none
  | some target => (trajectoryCall platform (.targetTrajectory target)).tryCatch fun _ => .ret none

/-- The end of `run_retro`: the event that marks a trajectory as mined. -/
def markMined (workstream : Workstream) (target : Option Uuid) :
    Program (trajectories platform) Unit := do
  let tid ← targetTrajectoryId platform target
  trajectoryCall platform (.retroCompleted workstream target tid)

end Programs

/-! ## The law -/

/-- A completed retro that names the trajectory. -/
def TrajectoryEvent.mines (id : Uuid) : TrajectoryEvent → Bool
  | .retroCompleted _ trajectoryId => trajectoryId = some id
  | _ => false

/-- A step a rotation may cut: its trajectory is closed, and a retro that names the trajectory
completed after the step was recorded. -/
def MayCut (s : Trajectories) (stepId : Uuid) (step : TrajectoryStep) : Prop :=
  (∃ row, s.rows.find? step.trajectoryId = some row ∧ row.status = .closed) ∧
    ∃ before workstream seq stepType after,
      s.events = before ++
        (workstream, .stepAdded step.trajectoryId stepId seq stepType) :: after ∧
      ∃ e ∈ after, e.2.mines step.trajectoryId = true

section Law

variable {platform : Platform} {P : Type} [DecidableEq P]

/-- The trajectories a call selected. -/
def chosen : (o : TrajectoryOp) → Except Exn o.Res → List Uuid
  | .selectRotatable _ _ _, .ok tids => tids
  | _, _ => []

/-- The trajectory a call rotates. -/
def rotating : TrajectoryOp → Option Uuid
  | .compact id _ => some id
  | _ => none

/-- What a process selected. -/
def selectedBy (τ : List (Step (trajectories platform) P (List Uuid))) (p : P) : List Uuid :=
  τ.flatMap fun st => if st.pid = p then chosen st.op st.out else []

/-- The rotations a process attempted, in order. -/
def attemptedBy (τ : List (Step (trajectories platform) P (List Uuid))) (p : P) : List Uuid :=
  τ.filterMap fun st => if st.pid = p then rotating st.op else none

/-- **The law of the rotation**, of a run up to a configuration. -/
structure RotationLaw (passes : P → Option RotateArgs)
    (τ : List (Step (trajectories platform) P (List Uuid)))
    (c : Config (trajectories platform) P (List Uuid)) : Prop where
  /-- A step whose rationale changes may be cut. -/
  mined : ∀ st ∈ τ, ∀ stepId step step', st.before.state.steps.find? stepId = some step →
    st.after.state.steps.find? stepId = some step' → step'.rationale ≠ step.rationale →
      MayCut st.before.state stepId step
  /-- A rotation that fails leaves everything as it was. -/
  failed : ∀ st ∈ τ, ∀ id, rotating st.op = some id → st.out.isOk = false →
    st.after.state = st.before.state
  /-- A pass attempts what it selected, in that order, and ends behind the last of it. -/
  attempted : ∀ p, (passes p).isSome →
    attemptedBy τ p <+: selectedBy τ p ∧
      ((c.pool p).head? = none → attemptedBy τ p = selectedBy τ p)

/-- The processes: passes, and other programs. -/
def processes (passes : P → Option RotateArgs)
    (others : P → Program (trajectories platform) (List Uuid)) :
    P → Program (trajectories platform) (List Uuid) :=
  fun p => (passes p).elim (others p) (rotateMined platform)

/-- The calls of the other programs: any but a rotation. -/
def NoRotation (o : TrajectoryOp) : Prop := rotating o = none

end Law

/-! ## The condition -/

/-- How an event changes whether a trajectory has steps that no retro could read. -/
def leavesUnread (id : Uuid) (unread : Bool) (e : Workstream × TrajectoryEvent) : Bool :=
  match e.2 with
  | .stepAdded trajectoryId _ _ _ => trajectoryId = id || unread
  | .retroCompleted _ trajectoryId => trajectoryId ≠ some id && unread
  | _ => unread

/-- A step was added to the trajectory since the last retro that names it. -/
def Trajectories.unread (s : Trajectories) (id : Uuid) : Bool :=
  s.events.foldl (leavesUnread id) false

/-- No step was added to the trajectory that is rotated since the last retro that names it. -/
def RotatesRead (s : Trajectories) (o : TrajectoryOp) : Prop :=
  (rotating o).all (fun id => !s.unread id) = true

/-- What was unread and no longer is was read by a retro. -/
theorem mines_of_read {id : Uuid} {events : List (Workstream × TrajectoryEvent)}
    (h : events.foldl (leavesUnread id) true = false) : ∃ e ∈ events, e.2.mines id = true := by
  induction events with
  | nil => cases h
  | cons e events ih =>
      rw [List.foldl_cons] at h
      cases hread : leavesUnread id true e with
      | true =>
          rw [hread] at h
          obtain ⟨e', he', hmines⟩ := ih h
          exact ⟨e', List.mem_cons_of_mem e he', hmines⟩
      | false =>
          refine ⟨e, List.mem_cons_self, ?_⟩
          obtain ⟨workstream, payload⟩ := e
          cases payload with
          | retroCompleted targetTaskId trajectoryId =>
              simpa [leavesUnread, TrajectoryEvent.mines] using hread
          | _ => simp [leavesUnread] at hread

/-- Behind a step that is read a retro names its trajectory. -/
theorem mines_of_mem {s : Trajectories} {id : Uuid} {e : Workstream × TrajectoryEvent}
    (h : s.unread id = false) (he : e ∈ s.events)
    (hstep : ∀ unread, leavesUnread id unread e = true) :
    ∃ before after, s.events = before ++ e :: after ∧ ∃ e ∈ after, e.2.mines id = true := by
  obtain ⟨before, after, hevents⟩ := List.append_of_mem he
  refine ⟨before, after, hevents, mines_of_read ?_⟩
  rw [Trajectories.unread, hevents, List.foldl_append, List.foldl_cons, hstep] at h
  exact h

/-! ## What a call does to the steps and the rows -/

section Effects

variable {platform : Platform} {s s' : Trajectories} {o : TrajectoryOp}

/-- The log only grows. -/
theorem events_effect (h : TrajectoryEffect platform s s' o) :
    ∃ more, s'.events = s.events ++ more := by
  cases h with
  | kept hrows hsteps hevents => exact ⟨[], by rw [hevents, List.append_nil]⟩
  | started hdrawn hrows hsteps hevents => exact ⟨_, hevents⟩
  | appended hparent hdrawn hrows hsteps hevents => exact ⟨_, hevents⟩
  | closed hrow hopen hrows hsteps hevents => exact ⟨_, hevents⟩
  | expired hgone hrows hsteps hevents =>
      obtain ⟨deleted, hevents⟩ := hevents
      exact ⟨_, hevents⟩
  | compacted hrow hdistill hrows hsteps hevents => exact ⟨_, hevents⟩
  | mined hrows hsteps hevents => exact ⟨_, hevents⟩

/-- An id that was drawn stays drawn. -/
theorem drawn_effect (h : TrajectoryEffect platform s s' o) {id : Uuid} (hid : s.drawn id = true) :
    s'.drawn id = true := by
  obtain ⟨more, hmore⟩ := events_effect h
  rw [Trajectories.drawn, hmore, List.any_append, Bool.or_eq_true]
  exact .inl hid

@[simp] theorem trajectoryId_distill (step : TrajectoryStep) (id : Uuid) (distill : Distill) :
    (step.distill id distill).trajectoryId = step.trajectoryId := by
  unfold TrajectoryStep.distill
  split <;> rfl

/-- **Where a step comes from**: it was there, and only a rotation of its trajectory touches it, or
it was added, which the log says. -/
theorem step_effect (h : TrajectoryEffect platform s s' o) {stepId : Uuid} {step' : TrajectoryStep}
    (hstep : s'.steps.find? stepId = some step') :
    (∃ step, s.steps.find? stepId = some step ∧ step'.trajectoryId = step.trajectoryId ∧
        (step' = step ∨ ∃ distill, o = .compact step.trajectoryId distill)) ∨
      s.steps.find? stepId = none ∧ ∃ workstream seq stepType,
        (workstream, .stepAdded step'.trajectoryId stepId seq stepType) ∈ s'.events := by
  cases h with
  | kept hrows hsteps hevents => exact .inl ⟨step', hsteps ▸ hstep, rfl, .inl rfl⟩
  | started hdrawn hrows hsteps hevents => exact .inl ⟨step', hsteps ▸ hstep, rfl, .inl rfl⟩
  | closed hrow hopen hrows hsteps hevents => exact .inl ⟨step', hsteps ▸ hstep, rfl, .inl rfl⟩
  | mined hrows hsteps hevents => exact .inl ⟨step', hsteps ▸ hstep, rfl, .inl rfl⟩
  | @appended added id a parent hparent hdrawn hrows hsteps hevents =>
      rw [Table.find?_insert hsteps] at hstep
      split at hstep
      · rename_i hid
        subst hid
        cases hstep
        refine .inr ⟨(Table.insert?_eq_some hsteps).1, parent.workstream, s.nextSeq id, a.stepType,
          ?_⟩
        rw [hevents]
        exact List.mem_append_right _ List.mem_cons_self
      · exact .inl ⟨step', hstep, rfl, .inl rfl⟩
  | expired hgone hrows hsteps hevents =>
      rw [hsteps, Table.find?_deleteWhere] at hstep
      exact .inl ⟨step', (Option.filter_eq_some_iff.1 hstep).1, rfl, .inl rfl⟩
  | @compacted id distill row n hrow hdistill hrows hsteps hevents =>
      rw [hsteps, Table.find?_mapRows] at hstep
      obtain ⟨step, hfind, rfl⟩ := Option.map_eq_some_iff.1 hstep
      refine .inl ⟨step, hfind, trajectoryId_distill step id distill, ?_⟩
      by_cases howner : step.trajectoryId = id
      · exact .inr ⟨distill, by rw [howner]⟩
      · rw [TrajectoryStep.distill, if_neg howner]
        exact .inl rfl

/-- **Where a row comes from**: it was there and a closed one stays closed, or it was started under
an id that is new. -/
theorem row_effect (h : TrajectoryEffect platform s s' o) {id : Uuid} {row' : Trajectory}
    (hrow' : s'.rows.find? id = some row') :
    (∃ row, s.rows.find? id = some row ∧ (row.status = .closed → row'.status = .closed)) ∨
      s.drawn id = false ∧ s'.drawn id = true := by
  have hmodify : ∀ {target : Uuid} {f : Trajectory → Trajectory}, s'.rows = s.rows.modify target f →
      (∀ row, s.rows.find? target = some row → row.status = .closed → (f row).status = .closed) →
      ∃ row, s.rows.find? id = some row ∧ (row.status = .closed → row'.status = .closed) := by
    intro target f hrows hf
    rw [hrows, Table.find?_modify] at hrow'
    split at hrow'
    · rename_i hid
      subst hid
      obtain ⟨row, hrow, rfl⟩ := Option.map_eq_some_iff.1 hrow'
      exact ⟨row, hrow, hf row hrow⟩
    · exact ⟨row', hrow', fun hclosed => hclosed⟩
  cases h with
  | kept hrows hsteps hevents => exact .inl ⟨row', hrows ▸ hrow', fun hclosed => hclosed⟩
  | mined hrows hsteps hevents => exact .inl ⟨row', hrows ▸ hrow', fun hclosed => hclosed⟩
  | @started target a workstream hdrawn hrows hsteps hevents =>
      rw [Table.find?_insert hrows] at hrow'
      split at hrow'
      · rename_i hid
        subst hid
        refine .inr ⟨hdrawn, ?_⟩
        rw [Trajectories.drawn, hevents]
        simp
      · exact .inl ⟨row', hrow', fun hclosed => hclosed⟩
  | appended hparent hdrawn hrows hsteps hevents =>
      exact .inl (hmodify hrows fun row _ hclosed => (status_peak row _).trans hclosed)
  | closed hrow hopen hrows hsteps hevents => exact .inl (hmodify hrows fun _ _ _ => rfl)
  | expired hgone hrows hsteps hevents =>
      rw [hrows, Table.find?_deleteWhere] at hrow'
      exact .inl ⟨row', (Option.filter_eq_some_iff.1 hrow').1, fun hclosed => hclosed⟩
  | compacted hrow hdistill hrows hsteps hevents =>
      refine .inl (hmodify hrows fun row hfind hclosed => ?_)
      obtain rfl := Option.some.inj (hrow.symm.trans hfind)
      exact hclosed

end Effects

/-! ## The invariant -/

/-- What a selection selects. -/
theorem selectRotatable_eq_ok {s s' : Trajectories} {olderThan : Time} {now? : Option Time}
    {limit : Option Nat} {tids : List Uuid}
    (h : selectRotatable olderThan now? limit s = .ok (tids, s')) :
    s' = s ∧ ∀ id ∈ tids, ∃ row, s.rows.find? id = some row ∧ row.status = .closed := by
  cases h
  refine ⟨rfl, fun id hid => ?_⟩
  obtain ⟨⟨key, row⟩, hmem, rfl⟩ := List.mem_map.1 hid
  have hripe : (key, row) ∈ (s.rows.select (s.ripe olderThan (now?.getD s.now))).insertionSort
      fun a b => a.2.endedAt.getD 0 ≤ b.2.endedAt.getD 0 := by
    cases limit with
    | none => exact hmem
    | some n => exact List.mem_of_mem_take hmem
  obtain ⟨hrow, hripe⟩ := (s.rows.mem_select _ _ _).1 ((List.mem_insertionSort _).1 hripe)
  refine ⟨row, hrow, ?_⟩
  simp only [Trajectories.ripe, Bool.and_eq_true, decide_eq_true_eq] at hripe
  exact hripe.1.1.2

/-- Where a pass stands. -/
inductive Pass where
  | selecting
  | rotating (left : List Uuid)

/-- The next call of a pass. -/
def Pass.Allows : Pass → TrajectoryOp → Prop
  | .selecting, .selectRotatable _ _ _ => True
  | .rotating (id :: _), .compact id' _ => id' = id
  | _, _ => False

/-- Where a pass stands behind a call. -/
def Pass.next : Pass → (o : TrajectoryOp) → Except Exn o.Res → Pass
  | .selecting, .selectRotatable _ _ _, .ok tids => .rotating tids
  | .rotating (_ :: left), _, _ => .rotating left
  | _, _, _ => .rotating []

section Runs

variable {platform : Platform} {P : Type} {passes : P → Option RotateArgs}
  {others : P → Program (trajectories platform) (List Uuid)}
  {τ : List (Step (trajectories platform) P (List Uuid))}
  {c : Config (trajectories platform) P (List Uuid)} {now : Time}

/-- The outline of a pass. -/
def passOutline : Outline (trajectories platform) Pass (List Uuid) where
  allows := Pass.Allows
  next := Pass.next
  ends l _ := l = .rotating []

/-- Passes beside programs that do not rotate. -/
abbrev rotationOutline : Outline (trajectories platform) (Option Pass) (List Uuid) :=
  passOutline.orOnly NoRotation

theorem holds_rotateEach (distill : Distill) (tids : List Uuid) :
    passOutline.Holds (.rotating tids) (rotateEach platform distill tids) := by
  induction tids with
  | nil => rfl
  | cons tid tids ih =>
      have hrest : ∀ f : List Uuid → List Uuid, passOutline.Holds (.rotating tids)
          ((rotateEach platform distill tids).bind fun rotated => .ret (f rotated)) :=
        fun f => Outline.holds_bind (fun _ _ h => h) (fun _ _ _ => rfl) (fun _ _ hl => hl)
          (fun _ _ hl => hl) ih
      refine ⟨rfl, fun r => ?_⟩
      rcases r with e | outcome
      · exact hrest id
      · cases outcome with
        | none => exact hrest id
        | some row => exact hrest (tid :: ·)

theorem holds_rotateMined (a : RotateArgs) :
    passOutline.Holds .selecting (rotateMined platform a) := by
  refine ⟨trivial, fun r => ?_⟩
  cases r with
  | error e => rfl
  | ok tids => exact holds_rotateEach a.distill tids

/-- Where the processes stand at first. -/
def atFirst (passes : P → Option RotateArgs) (p : P) : Option Pass :=
  (passes p).map fun _ => .selecting

theorem holds_processes (hothers : ∀ p, passes p = none → (others p).Only NoRotation) (p : P) :
    rotationOutline.Holds (atFirst passes p) (processes passes others p) := by
  rw [processes, atFirst]
  cases hp : passes p with
  | none => exact Outline.holds_orOnly_none _ (hothers p hp)
  | some a => exact Outline.holds_orOnly_some (holds_rotateMined a)

/-- The trajectory is closed, as long as it is there. -/
def StaysClosed (s : Trajectories) (id : Uuid) : Prop :=
  s.drawn id = true ∧ ∀ row, s.rows.find? id = some row → row.status = .closed

/-- What the log says of the rows, and what holds of the trajectories a pass has before it. -/
structure RotationInv (s : Trajectories) (ls : P → Option Pass) : Prop where
  logged : ∀ stepId step, s.steps.find? stepId = some step → ∃ workstream seq stepType,
    (workstream, .stepAdded step.trajectoryId stepId seq stepType) ∈ s.events
  drawn : ∀ id row, s.rows.find? id = some row → s.drawn id = true
  closed : ∀ p left, ls p = some (.rotating left) → ∀ id ∈ left, StaysClosed s id

theorem staysClosed_effect {s s' : Trajectories} {o : TrajectoryOp} {id : Uuid}
    (h : TrajectoryEffect platform s s' o) (hid : StaysClosed s id) : StaysClosed s' id := by
  refine ⟨drawn_effect h hid.1, fun row' hrow' => ?_⟩
  rcases row_effect h hrow' with ⟨row, hrow, hclosed⟩ | ⟨hdrawn, -⟩
  · exact hclosed (hid.2 row hrow)
  · rw [hid.1] at hdrawn
    cases hdrawn

/-- A committed call keeps what the log says of the rows. -/
theorem RotationInv.effect {s s' : Trajectories} {o : TrajectoryOp} {ls : P → Option Pass}
    (hinv : RotationInv s ls) (h : TrajectoryEffect platform s s' o) : RotationInv s' ls := by
  refine ⟨fun stepId step' hstep' => ?_, fun id row' hrow' => ?_, fun p left hp id hid =>
    staysClosed_effect h (hinv.closed p left hp id hid)⟩
  · rcases step_effect h hstep' with ⟨step, hstep, howner, -⟩ | ⟨-, hadded⟩
    · obtain ⟨workstream, seq, stepType, hmem⟩ := hinv.logged stepId step hstep
      obtain ⟨more, hmore⟩ := events_effect h
      refine ⟨workstream, seq, stepType, ?_⟩
      rw [hmore, howner]
      exact List.mem_append_left more hmem
    · exact hadded
  · rcases row_effect h hrow' with ⟨row, hrow, -⟩ | ⟨-, hdrawn⟩
    · exact drawn_effect h (hinv.drawn id row hrow)
    · exact hdrawn

/-- What a pass has before it behind a call: what it had, or what it has selected. -/
theorem next_eq_rotating {l : Pass} {o : TrajectoryOp} {out : Except Exn o.Res} {left : List Uuid}
    (h : l.next o out = .rotating left) {id : Uuid} (hid : id ∈ left) :
    (∃ all, l = .rotating all ∧ id ∈ all) ∨ id ∈ chosen o out := by
  cases l with
  | rotating all =>
      cases all with
      | nil => cases o <;> cases h <;> cases hid
      | cons first all =>
          cases o <;> cases h <;> exact .inl ⟨_, rfl, List.mem_cons_of_mem first hid⟩
  | selecting =>
      cases o with
      | selectRotatable olderThan now? limit =>
          cases out with
          | error e =>
              cases h
              cases hid
          | ok tids =>
              cases h
              exact .inr hid
      | _ =>
          cases h
          cases hid

/-- What a committed call selects is closed. -/
theorem closed_of_chosen {s s' : Trajectories} {o : TrajectoryOp} {out : Except Exn o.Res}
    {v : o.Res} (hout : out = .ok v) (h : o.exec platform s = .ok (v, s')) {id : Uuid}
    (hid : id ∈ chosen o out) : ∃ row, s.rows.find? id = some row ∧ row.status = .closed := by
  subst hout
  cases o with
  | selectRotatable olderThan now? limit => exact (selectRotatable_eq_ok h).2 id hid
  | _ => cases hid

/-- A call that raises selects nothing. -/
theorem chosen_of_error {o : TrajectoryOp} {out : Except Exn o.Res} {e : Exn}
    (hout : out = .error e) : chosen o out = [] := by
  subst hout
  cases o <;> rfl

/-- A rotation comes from a pass that has its trajectory before it. -/
theorem rotating_of_allows {l : Option Pass} {o : TrajectoryOp} {id : Uuid} {distill : Distill}
    (hallow : l.elim (NoRotation o) (Pass.Allows · o)) (hop : o = .compact id distill) :
    ∃ left, l = some (.rotating left) ∧ id ∈ left := by
  subst hop
  cases l with
  | none => cases hallow
  | some l =>
      cases l with
      | selecting => cases hallow
      | rotating left =>
          cases left with
          | nil => cases hallow
          | cons first left =>
              obtain rfl : id = first := hallow
              exact ⟨_, rfl, List.mem_cons_self⟩

/-- A committed rotation finds its trajectory, or it changes nothing. -/
theorem row_of_compact {s s' : Trajectories} {o : TrajectoryOp} {v : o.Res} {id : Uuid}
    {distill : Distill} (h : o.exec platform s = .ok (v, s')) (hop : o = .compact id distill) :
    s' = s ∨ ∃ row, s.rows.find? id = some row := by
  subst hop
  rcases compactToLean_eq_ok h with ⟨-, -, hsame⟩ | ⟨row, n, hrow, -⟩
  · exact .inl hsame
  · exact .inr ⟨row, hrow⟩

theorem unread_of_compact {s : Trajectories} {o : TrajectoryOp} {id : Uuid} {distill : Distill}
    (h : RotatesRead s o) (hop : o = .compact id distill) : s.unread id = false := by
  subst hop
  simpa [RotatesRead, rotating] using h

variable [DecidableEq P]

/-- **A step keeps the invariant.** -/
theorem rotationInv_step {ls : P → Option Pass} {st : Step (trajectories platform) P (List Uuid)}
    (hf : Fires st) (hinv : RotationInv st.before.state ls) :
    RotationInv st.after.state (rotationOutline.advance ls st) := by
  have hafter : RotationInv st.after.state ls ∧
      ∀ id ∈ chosen st.op st.out, StaysClosed st.after.state id := by
    rcases hf.outcome with ⟨v, hout, hexec⟩ | ⟨e, hout, hafter⟩
    · refine ⟨hinv.effect (TrajectoryOp.effect hexec), fun id hid => ?_⟩
      obtain ⟨row, hrow, hclosed⟩ := closed_of_chosen hout hexec hid
      refine staysClosed_effect (TrajectoryOp.effect hexec) ⟨hinv.drawn id row hrow, ?_⟩
      intro other hother
      obtain rfl := Option.some.inj (hrow.symm.trans hother)
      exact hclosed
    · refine ⟨hafter ▸ hinv, fun id hid => ?_⟩
      exact absurd hid (List.eq_nil_iff_forall_not_mem.1 (chosen_of_error hout) id)
  refine ⟨hafter.1.logged, hafter.1.drawn, fun p left hp id hid => ?_⟩
  by_cases hpid : p = st.pid
  · subst hpid
    rw [Outline.advance_self] at hp
    obtain ⟨l, hl, hnext⟩ := Option.map_eq_some_iff.1 hp
    rcases next_eq_rotating hnext hid with ⟨all, rfl, hall⟩ | hchosen
    · exact hafter.1.closed st.pid all hl id hall
    · exact hafter.2 id hchosen
  · rw [Outline.advance_ne _ _ _ hpid] at hp
    exact hafter.1.closed p left hp id hid

/-- The invariant holds in every run. -/
theorem rotationInv_of_reach (hothers : ∀ p, passes p = none → (others p).Only NoRotation)
    (hrun : Reach ⟨.initial now, processes passes others⟩ τ c) :
    RotationInv c.state (rotationOutline.track (atFirst passes) τ) := by
  refine Outline.invariant RotationInv (fun _ => True) hrun (holds_processes hothers)
    (fun _ _ => trivial) ⟨?_, ?_, ?_⟩ fun ls st hf _ _ _ => rotationInv_step hf
  · intro stepId step hstep
    cases hstep
  · intro id row hrow
    cases hrow
  · intro p left hp
    obtain ⟨a, -, hl⟩ := Option.map_eq_some_iff.1 hp
    cases hl

/-! ## The law holds -/

/-- **What a rotation cuts may be cut**, when no step is unread. -/
theorem mayCut_of_step (hothers : ∀ p, passes p = none → (others p).Only NoRotation)
    {st : Step (trajectories platform) P (List Uuid)}
    {τ₁ : List (Step (trajectories platform) P (List Uuid))}
    (hrun : Reach ⟨.initial now, processes passes others⟩ τ₁ st.before) (hf : Fires st)
    (hread : st.out.isOk = true → RotatesRead st.before.state st.op)
    {stepId : Uuid} {step step' : TrajectoryStep}
    (hbefore : st.before.state.steps.find? stepId = some step)
    (hafter : st.after.state.steps.find? stepId = some step')
    (hne : step'.rationale ≠ step.rationale) : MayCut st.before.state stepId step := by
  have hinv := rotationInv_of_reach hothers hrun
  have hallow := (Outline.holds_step hf (Outline.holds_reach hrun (holds_processes hothers))).1
  rcases hf.outcome with ⟨v, hout, hexec⟩ | ⟨e, -, hsame⟩
  · rcases step_effect (TrajectoryOp.effect hexec) hafter with
      ⟨found, hfound, howner, hkept | ⟨distill, hop⟩⟩ | ⟨hnone, -⟩
    · obtain rfl := Option.some.inj (hbefore.symm.trans hfound)
      exact absurd (congrArg _ hkept) hne
    · obtain rfl := Option.some.inj (hbefore.symm.trans hfound)
      obtain ⟨left, hl, hid⟩ := rotating_of_allows hallow hop
      rcases row_of_compact hexec hop with hsame | ⟨row, hrow⟩
      · rw [hsame] at hafter
        obtain rfl := Option.some.inj (hbefore.symm.trans hafter)
        exact absurd rfl hne
      have hclosed := (hinv.closed st.pid left hl _ hid).2 row hrow
      obtain ⟨workstream, seq, stepType, hadded⟩ := hinv.logged stepId step hbefore
      have hisOk : st.out.isOk = true := by rw [hout]; rfl
      obtain ⟨before, after, hevents, hmines⟩ := mines_of_mem
        (unread_of_compact (hread hisOk) hop) hadded fun unread => by simp [leavesUnread]
      exact ⟨⟨row, hrow, hclosed⟩, before, workstream, seq, stepType, after, hevents, hmines⟩
    · rw [hbefore] at hnone
      cases hnone
  · rw [hsame] at hafter
    obtain rfl := Option.some.inj (hbefore.symm.trans hafter)
    exact absurd rfl hne

/-! ## Every selected trajectory is attempted -/

/-- How far a pass has come. -/
def Progress (selected attempted : List Uuid) : Pass → Prop
  | .selecting => selected = [] ∧ attempted = []
  | .rotating left => selected = attempted ++ left

omit [DecidableEq P] in
/-- A call of a pass: it selects, or it attempts the next trajectory, whatever comes of it. -/
theorem progress_next {selected attempted : List Uuid} {l : Pass} {o : TrajectoryOp}
    {out : Except Exn o.Res} (h : Progress selected attempted l) (hallow : l.Allows o) :
    Progress (selected ++ chosen o out) (attempted ++ (rotating o).toList) (l.next o out) := by
  cases l with
  | selecting =>
      obtain ⟨rfl, rfl⟩ := h
      cases o with
      | selectRotatable olderThan now? limit => cases out <;> rfl
      | _ => cases hallow
  | rotating left =>
      cases left with
      | nil => cases hallow
      | cons id left =>
          cases o with
          | compact id' distill =>
              obtain rfl : id' = id := hallow
              have hall : selected = attempted ++ id' :: left := h
              have hchosen : chosen (.compact id' distill) out = [] := by cases out <;> rfl
              rw [hchosen, hall]
              change attempted ++ id' :: left ++ [] = attempted ++ [id'] ++ left
              rw [List.append_nil, List.append_assoc, List.singleton_append]
          | _ => cases hallow

omit [DecidableEq P] in
theorem attempted_first {selected attempted : List Uuid} {l : Pass}
    (h : Progress selected attempted l) : attempted <+: selected := by
  cases l with
  | selecting =>
      obtain ⟨rfl, rfl⟩ := h
      exact List.nil_prefix
  | rotating left => exact ⟨left, h.symm⟩

omit [DecidableEq P] in
theorem attempted_eq {selected attempted : List Uuid}
    (h : Progress selected attempted (.rotating [])) : attempted = selected :=
  (List.append_nil attempted).symm.trans h.symm

theorem selectedBy_concat (τ : List (Step (trajectories platform) P (List Uuid)))
    (st : Step (trajectories platform) P (List Uuid)) (p : P) :
    selectedBy (τ ++ [st]) p =
      selectedBy τ p ++ if st.pid = p then chosen st.op st.out else [] := by
  simp [selectedBy]

theorem attemptedBy_concat (τ : List (Step (trajectories platform) P (List Uuid)))
    (st : Step (trajectories platform) P (List Uuid)) (p : P) :
    attemptedBy (τ ++ [st]) p =
      attemptedBy τ p ++ if st.pid = p then (rotating st.op).toList else [] := by
  rw [attemptedBy, List.filterMap_append, attemptedBy]
  by_cases hp : st.pid = p
  · cases hop : rotating st.op <;> simp [hp, hop]
  · simp [hp]

/-- A pass attempts what it selected, one after the other. -/
theorem progress_of_reach (hothers : ∀ p, passes p = none → (others p).Only NoRotation)
    (hrun : Reach ⟨.initial now, processes passes others⟩ τ c) {p : P} (hp : (passes p).isSome) :
    ∃ l, rotationOutline.track (atFirst passes) τ p = some l ∧
      Progress (selectedBy τ p) (attemptedBy τ p) l := by
  refine hrun.induct (motive := fun τ _ =>
    ∃ l, rotationOutline.track (atFirst passes) τ p = some l ∧
      Progress (selectedBy τ p) (attemptedBy τ p) l) ?_ ?_
  · obtain ⟨a, ha⟩ := Option.isSome_iff_exists.1 hp
    exact ⟨.selecting, by rw [Outline.track_nil, atFirst, ha]; rfl, rfl, rfl⟩
  · rintro τ₁ st hr hf ⟨l, hl, hprogress⟩
    rw [Outline.track_concat, selectedBy_concat, attemptedBy_concat]
    by_cases hpid : st.pid = p
    · subst hpid
      have hallow := (Outline.holds_step hf (Outline.holds_reach hr (holds_processes hothers))).1
      rw [hl] at hallow
      rw [if_pos rfl, if_pos rfl, Outline.advance_self, hl]
      exact ⟨l.next st.op st.out, rfl, progress_next hprogress hallow⟩
    · rw [if_neg hpid, if_neg hpid, List.append_nil, List.append_nil,
        Outline.advance_ne _ _ _ (Ne.symm hpid)]
      exact ⟨l, hl, hprogress⟩

/-- A pass that has ended has nothing before it. -/
theorem rotating_nil_of_ended {l : Pass} {program : Program (trajectories platform) (List Uuid)}
    (h : rotationOutline.Holds (some l) program) (hended : program.head? = none) :
    l = .rotating [] := by
  cases program with
  | ret rotated => exact h
  | throw e => exact h
  | call o k => cases hended

end Runs

/-! ## A step behind the marker -/

section Marker

variable {P : Type} [DecidableEq P]

/-- The event of a step. -/
def TrajectoryEvent.adds (stepId : Uuid) : TrajectoryEvent → Bool
  | .stepAdded _ added _ _ => added = stepId
  | _ => false

/-- A step behind which no retro of its trajectory completed. -/
theorem not_mayCut {s : Trajectories} {stepId : Uuid} {step : TrajectoryStep}
    (h : s.events.Pairwise fun e e' =>
      (e.2.adds stepId && e'.2.mines step.trajectoryId) = false) : ¬ MayCut s stepId step := by
  rintro ⟨-, before, workstream, seq, stepType, after, hevents, e, he, hmines⟩
  rw [hevents] at h
  have hbehind := (List.pairwise_cons.1 (List.pairwise_append.1 h).2.1).1 e he
  simp [TrajectoryEvent.adds, hmines] at hbehind

/-- A call that changes a rationale no retro could read. -/
def cutsUnread (stepId : Uuid) (st : Step (trajectories openPlatform) P (List Uuid)) : Bool :=
  match st.before.state.steps.find? stepId, st.after.state.steps.find? stepId with
  | some step, some step' =>
      step'.rationale ≠ step.rationale &&
        decide (st.before.state.events.Pairwise fun e e' =>
          (e.2.adds stepId && e'.2.mines step.trajectoryId) = false)
  | _, _ => false

/-- Such a call breaks the law. -/
theorem not_rotationLaw {passes : P → Option RotateArgs}
    {τ : List (Step (trajectories openPlatform) P (List Uuid))}
    {c : Config (trajectories openPlatform) P (List Uuid)} {stepId : Uuid}
    (h : τ.any (cutsUnread stepId) = true) : ¬ RotationLaw passes τ c := by
  intro hlaw
  obtain ⟨st, hst, hcuts⟩ := List.any_eq_true.1 h
  unfold cutsUnread at hcuts
  split at hcuts
  · rename_i step step' hbefore hafter
    obtain ⟨hne, hevents⟩ := Bool.and_eq_true_iff.1 hcuts
    exact not_mayCut (of_decide_eq_true hevents)
      (hlaw.mined st hst stepId step step' hbefore hafter (of_decide_eq_true hne))
  · cases hcuts

end Marker

def sharedEpisode : Uuid := ⟨"c5f3a8d2-7e19-4b64-9a0d-1f6e8b2c7d01", by decide⟩
def firstPart : Uuid := ⟨"c5f3a8d2-7e19-4b64-9a0d-1f6e8b2c7d02", by decide⟩
def secondPart : Uuid := ⟨"c5f3a8d2-7e19-4b64-9a0d-1f6e8b2c7d03", by decide⟩
def firstTask : Uuid := ⟨"c5f3a8d2-7e19-4b64-9a0d-1f6e8b2c7d04", by decide⟩
def sharedWorkstream : Workstream := ⟨"studio", by decide⟩

/-- The second of two tasks that share an episode appends its step. -/
def appendSecond : Program (trajectories openPlatform) Unit := do
  let _ ← trajectoryCall openPlatform (.addStep secondPart sharedEpisode
    { stepType := "revise", summary := "revised", rationale := "first\nsecond" })

/-- Two tasks share an episode; the retro of the first comes before or behind the step of the
second. -/
def twoTasks (behind : Bool) : Program (trajectories openPlatform) (List Uuid) := do
  let _ ← trajectoryCall openPlatform
    (.start sharedEpisode { role := "pm", workstream := "studio", goal := "plan" })
  trajectoryCall openPlatform (.linkTask firstTask (some sharedEpisode))
  let _ ← trajectoryCall openPlatform (.addStep firstPart sharedEpisode
    { stepType := "plan", summary := "planned", rationale := "clear" })
  if behind then appendSecond
  markMined openPlatform sharedWorkstream (some firstTask)
  if !behind then appendSecond
  let _ ← trajectoryCall openPlatform (.close sharedEpisode none none)
  return []

theorem twoTasks_noRotation (behind : Bool) : (twoTasks behind).Only NoRotation := by
  have hcall : ∀ o : TrajectoryOp, NoRotation o →
      (trajectoryCall openPlatform o).Only NoRotation := fun o ho => .op ho
  have hsecond : appendSecond.Only NoRotation := (hcall _ (by rfl)).bind fun _ => .ret ()
  have hmark : (markMined openPlatform sharedWorkstream (some firstTask)).Only NoRotation :=
    ((hcall _ (by rfl)).tryCatch fun _ => .ret none).bind fun _ => hcall _ (by rfl)
  refine (hcall _ (by rfl)).bind fun _ => ?_
  refine (hcall _ (by rfl)).bind fun _ => ?_
  refine (hcall _ (by rfl)).bind fun _ => ?_
  have hlast : ∀ p : Program (trajectories openPlatform) Unit, p.Only NoRotation →
      (p.bind fun _ => (trajectoryCall openPlatform (.close sharedEpisode none none)).bind
        fun _ => Program.ret ([] : List Uuid)).Only NoRotation :=
    fun p hp => hp.bind fun _ => (hcall _ (by rfl)).bind fun _ => .ret _
  cases behind with
  | false => exact hmark.bind fun _ => hlast _ hsecond
  | true => exact hsecond.bind fun _ => hlast _ hmark

/-- The two tasks, and a pass. -/
def onePass (p : Bool) : Option RotateArgs := if p then some { olderThan := 0 } else none

/-- The tasks run first, then the pass. -/
abbrev tasksThenPass : List (Choice Bool Exn) :=
  List.replicate 7 (false, none) ++ List.replicate 2 (true, none)

/-- The processes on an empty database. -/
def sharedRun (behind : Bool) : Config (trajectories openPlatform) Bool (List Uuid) :=
  ⟨.initial 0, processes onePass fun _ => twoTasks behind⟩

end AiStudio.Runtime
