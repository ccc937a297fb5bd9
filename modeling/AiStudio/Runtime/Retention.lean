import AiStudio.Runtime.Trajectories

/-!
# Retention of trajectories

What holds of the committed steps in every interleaving of the calls of
`runtime/trajectory.py`: the `seq` values of an episode are gapless in the order of the commits,
and the steps keep what `add_step` returned for them except the rationale. That an episode in the
lean tier holds distilled rationales only, and that a second rotation changes nothing, needs more:
`add_step` appends to an episode of any tier (`intact_of_reach`).
-/

set_option autoImplicit false

namespace AiStudio.Runtime

open AiStudio.Data AiStudio.Concurrency

/-! ## The default distiller -/

/-- `compact_to_lean` without a `distill_fn`. -/
def defaultDistiller : Distill := fun rationale => .ok (defaultDistill rationale)

/-- A distilled text is its own first line, and short. -/
theorem defaultDistill_idem (rationale : Option String) :
    defaultDistill (defaultDistill rationale) = defaultDistill rationale := by
  cases rationale with
  | none => rfl
  | some text =>
      simp only [defaultDistill, Option.map_some, Option.some.injEq]
      rw [firstLine_toList, String.toList_ofList, firstLine_toList]
      have hline : ((text.toList.takeWhile fun c => !isLineBreak c).take 200).takeWhile
          (fun c => !isLineBreak c) = (text.toList.takeWhile fun c => !isLineBreak c).take 200 := by
        refine List.takeWhile_eq_self_iff.2 fun c hc => ?_
        exact List.mem_takeWhile_imp (p := fun c => !isLineBreak c) (List.mem_of_mem_take hc)
      rw [hline, List.take_take, min_self]

/-! ## The steps of an episode -/

section Steps

variable {s s' : Trajectories} {id stepId : Uuid} {step : TrajectoryStep}

theorem stepsOf_congr (h : s'.steps = s.steps) (id : Uuid) : s'.stepsOf id = s.stepsOf id := by
  rw [Trajectories.stepsOf, h, Trajectories.stepsOf]

/-- An append goes to the end of its episode. -/
theorem stepsOf_insert (h : s.steps.insert? stepId step = some s'.steps) (id : Uuid) :
    s'.stepsOf id =
      s.stepsOf id ++ if step.trajectoryId = id then [(stepId, step)] else [] := by
  rw [Trajectories.stepsOf, Table.select, (Table.insert?_eq_some h).2, List.filter_append,
    Trajectories.stepsOf, Table.select, List.filter_singleton]
  by_cases hid : step.trajectoryId = id <;> simp [hid]

/-- What `add_step` appends to its episode. -/
theorem stepsOf_append {platform : Platform} {a : StepArgs} {target : Uuid} {seq : Nat} {now : Time}
    (h : s.steps.insert? stepId (a.row platform target seq now) = some s'.steps) (id : Uuid) :
    s'.stepsOf id = s.stepsOf id ++
      if target = id then [(stepId, a.row platform target seq now)] else [] :=
  stepsOf_insert h id

/-- A rotation keeps the order of the steps. -/
theorem stepsOf_distill {distill : Distill} {target : Uuid}
    (h : s'.steps = s.steps.mapRows fun _ step => step.distill target distill) (id : Uuid) :
    s'.stepsOf id = (s.stepsOf id).map fun kr => (kr.1, kr.2.distill target distill) := by
  have howner : ∀ step : TrajectoryStep,
      (step.distill target distill).trajectoryId = step.trajectoryId := by
    intro step
    unfold TrajectoryStep.distill
    split <;> rfl
  rw [Trajectories.stepsOf, h, Table.select, Table.mapRows, List.filter_map, Trajectories.stepsOf,
    Table.select]
  simp only [Function.comp_def, howner]

/-- The steps of a deleted episode go with it, and no others. -/
theorem stepsOf_delete {gone : Uuid → Bool}
    (h : s'.steps = s.steps.deleteWhere fun _ step => gone step.trajectoryId) (id : Uuid) :
    s'.stepsOf id = if gone id then [] else s.stepsOf id := by
  rw [Trajectories.stepsOf, h, Table.select, Table.deleteWhere, List.filter_filter]
  split
  · rename_i hgone
    refine List.filter_eq_nil_iff.2 fun kr _ => ?_
    simp only [Bool.and_eq_true, decide_eq_true_eq, Bool.not_eq_true', not_and, Bool.not_eq_false]
    rintro rfl
    exact hgone
  · rename_i hgone
    rw [Trajectories.stepsOf, Table.select]
    refine List.filter_congr fun kr _ => ?_
    by_cases howner : kr.2.trajectoryId = id
    · simp [howner, hgone]
    · simp [howner]

end Steps

/-! ## What holds of the committed steps -/

/-- The steps of every episode are numbered from one in the order of their commits. -/
def Sequenced (s : Trajectories) : Prop :=
  ∀ id, (s.stepsOf id).map (fun kr => kr.2.seq) = List.range' 1 (s.stepsOf id).length

/-- The steps of an episode in the lean tier are distilled. -/
def LeanDistilled (s : Trajectories) : Prop :=
  ∀ id row, s.rows.find? id = some row → row.retentionTier = .lean →
    ∀ kr ∈ s.stepsOf id, defaultDistill kr.2.rationale = kr.2.rationale

/-- A second rotation of an episode changes nothing but the log. -/
def RotatedOnce (s : Trajectories) : Prop :=
  ∀ id row, s.rows.find? id = some row → row.retentionTier = .lean →
    ∃ n, compactToLean id defaultDistiller s =
      .ok (some row, s.emit row.workstream (.compacted id .lean n))

/-- What a rotation has to keep of a step. -/
def facts (kr : Uuid × TrajectoryStep) :
    Uuid × Nat × Option String × Option FloatRepr × Json Empty :=
  (kr.1, kr.2.seq, kr.2.choice, kr.2.confidence, kr.2.refs)

section Invariants

variable {platform : Platform} {s s' : Trajectories} {o : TrajectoryOp} {id : Uuid}

/-- In a numbered episode the next number follows the last. -/
theorem nextSeq_of_numbered (h : (s.stepsOf id).map (fun kr => kr.2.seq) =
    List.range' 1 (s.stepsOf id).length) : s.nextSeq id = (s.stepsOf id).length + 1 := by
  rw [Trajectories.nextSeq, h]
  cases (s.stepsOf id).length with
  | zero => rfl
  | succ n =>
      have hmax : (List.range' 1 (n + 1)).max? = some (n + 1) := by
        refine List.max?_eq_some_iff.2 ⟨by simp [List.mem_range'_1], fun k hk => ?_⟩
        have := List.mem_range'_1.1 hk
        omega
      rw [hmax]
      rfl

theorem nextSeq_eq (h : Sequenced s) (id : Uuid) : s.nextSeq id = (s.stepsOf id).length + 1 :=
  nextSeq_of_numbered (h id)

@[simp] theorem distill_seq (step : TrajectoryStep) (distill : Distill) :
    (step.distill id distill).seq = step.seq := by
  unfold TrajectoryStep.distill
  split <;> rfl

@[simp] theorem facts_distill (stepId : Uuid) (step : TrajectoryStep) (distill : Distill) :
    facts (stepId, step.distill id distill) = facts (stepId, step) := by
  unfold TrajectoryStep.distill
  split <;> rfl

/-- A call that appends nothing leaves no step, and no fact of a step, that was not there. -/
theorem facts_effect (h : TrajectoryEffect platform s s' o)
    (hne : ∀ stepId id a, o ≠ .addStep stepId id a) (id' : Uuid) :
    ((s'.stepsOf id').map facts).Sublist ((s.stepsOf id').map facts) := by
  cases h with
  | kept hrows hsteps hevents => rw [stepsOf_congr hsteps]
  | started hdrawn hrows hsteps hevents => rw [stepsOf_congr hsteps]
  | appended => exact absurd rfl (hne _ _ _)
  | closed hrow hopen hrows hsteps hevents => rw [stepsOf_congr hsteps]
  | expired hgone hrows hsteps hevents =>
      rw [stepsOf_delete hsteps]
      split
      · exact List.nil_sublist _
      · exact List.Sublist.refl _
  | @compacted id distill row n hrow hdistill hrows hsteps hevents =>
      have hfacts : (facts ∘ fun kr => (kr.1, kr.2.distill id distill)) = facts :=
        funext fun kr => facts_distill kr.1 kr.2 distill
      rw [stepsOf_distill hsteps, List.map_map, hfacts]
  | mined hrows hsteps hevents => rw [stepsOf_congr hsteps]

theorem sequenced_effect (hs : Sequenced s) (h : TrajectoryEffect platform s s' o) :
    Sequenced s' := by
  intro id'
  cases h with
  | kept hrows hsteps hevents => rw [stepsOf_congr hsteps, hs id']
  | started hdrawn hrows hsteps hevents => rw [stepsOf_congr hsteps, hs id']
  | @appended stepId id a parent hparent hdrawn hrows hsteps hevents =>
      rw [stepsOf_append hsteps]
      by_cases hid : id = id'
      · subst hid
        rw [if_pos rfl, List.map_append, hs id, List.length_append, List.length_singleton,
          List.range'_1_concat, Nat.add_comm 1, ← nextSeq_eq hs id]
        rfl
      · rw [if_neg hid, List.append_nil, hs id']
  | closed hrow hopen hrows hsteps hevents => rw [stepsOf_congr hsteps, hs id']
  | expired hgone hrows hsteps hevents =>
      rw [stepsOf_delete hsteps]
      split
      · rfl
      · exact hs id'
  | compacted hrow hdistill hrows hsteps hevents =>
      rw [stepsOf_distill hsteps, List.map_map, List.length_map, ← hs id']
      exact List.map_congr_left fun kr _ => distill_seq kr.2 _
  | mined hrows hsteps hevents => rw [stepsOf_congr hsteps, hs id']

/-- The condition under which an append keeps the lean tier distilled: the episode is not in that
tier, or the distiller leaves the rationale of the step as it is. -/
def AppendsDistilled (s : Trajectories) : TrajectoryOp → Prop
  | .addStep _ id a => ∀ row, s.rows.find? id = some row → row.retentionTier = .lean →
      defaultDistill a.rationale = a.rationale
  | _ => True

/-- Every rotation is one with the default distiller. -/
def DefaultDistiller : TrajectoryOp → Prop
  | .compact _ distill => distill = defaultDistiller
  | _ => True

@[simp] theorem retentionTier_peak (row : Trajectory) (contextSize : Option Int) :
    (row.peak contextSize).retentionTier = row.retentionTier := by
  cases contextSize <;> rfl

@[simp] theorem status_peak (row : Trajectory) (contextSize : Option Int) :
    (row.peak contextSize).status = row.status := by
  cases contextSize <;> rfl

/-- Distilling the steps of an episode leaves them distilled. -/
theorem distill_distilled (step : TrajectoryStep) (howner : step.trajectoryId = id) :
    defaultDistill (step.distill id defaultDistiller).rationale =
      (step.distill id defaultDistiller).rationale := by
  rw [TrajectoryStep.distill, if_pos howner]
  exact defaultDistill_idem _

/-- A step keeps its rationale when its own episode is not the one that is rotated, or when it is
distilled already. -/
theorem distill_eq_self {step : TrajectoryStep}
    (h : step.trajectoryId = id → defaultDistill step.rationale = step.rationale) :
    step.distill id defaultDistiller = step := by
  rw [TrajectoryStep.distill]
  split
  · rename_i howner
    have hvalue : defaultDistiller.value step.rationale = step.rationale := h howner
    rw [hvalue]
  · rfl

theorem owner_of_stepsOf {kr : Uuid × TrajectoryStep} (h : kr ∈ s.stepsOf id) :
    kr.2.trajectoryId = id := by
  simpa using ((s.steps.mem_select _ _ _).1 h).2

/-- An update that keeps the tier of its row keeps every tier. -/
theorem tier_of_modify {rows : Table Uuid Trajectory} {f : Trajectory → Trajectory} {id' : Uuid}
    {row' : Trajectory} (h : (rows.modify id f).find? id' = some row')
    (hf : ∀ row, rows.find? id = some row → (f row).retentionTier = row.retentionTier) :
    ∃ row, rows.find? id' = some row ∧ row.retentionTier = row'.retentionTier := by
  rw [Table.find?_modify] at h
  split at h
  · rename_i hid
    subst hid
    obtain ⟨row, hrow, rfl⟩ := Option.map_eq_some_iff.1 h
    exact ⟨row, hrow, (hf row hrow).symm⟩
  · exact ⟨row', h, rfl⟩

theorem leanDistilled_effect (hs : LeanDistilled s) (happends : AppendsDistilled s o)
    (hdefault : DefaultDistiller o) (h : TrajectoryEffect platform s s' o) : LeanDistilled s' := by
  intro id' row' hrow' hlean kr hkr
  cases h with
  | kept hrows hsteps hevents =>
      rw [hrows] at hrow'
      rw [stepsOf_congr hsteps] at hkr
      exact hs id' row' hrow' hlean kr hkr
  | @started id a workstream hdrawn hrows hsteps hevents =>
      rw [Table.find?_insert hrows] at hrow'
      rw [stepsOf_congr hsteps] at hkr
      split at hrow'
      · cases hrow'
        cases hlean
      · exact hs id' row' hrow' hlean kr hkr
  | @appended stepId id a parent hparent hdrawn hrows hsteps hevents =>
      rw [hrows] at hrow'
      obtain ⟨row, hrow, htier⟩ := tier_of_modify hrow' fun row _ => retentionTier_peak row _
      rw [stepsOf_append hsteps] at hkr
      rcases List.mem_append.1 hkr with hkr | hkr
      · exact hs id' row hrow (htier.trans hlean) kr hkr
      · split at hkr
        · rename_i hid
          obtain rfl := List.mem_singleton.1 hkr
          exact happends row (hid ▸ hrow) (htier.trans hlean)
        · cases hkr
  | @closed id outcomeSummary now? row hrow hopen hrows hsteps hevents =>
      rw [hrows] at hrow'
      obtain ⟨before, hbefore, htier⟩ := tier_of_modify hrow' fun before hbefore => by
        obtain rfl := Option.some.inj (hbefore.symm.trans hrow)
        rfl
      rw [stepsOf_congr hsteps] at hkr
      exact hs id' before hbefore (htier.trans hlean) kr hkr
  | expired hgone hrows hsteps hevents =>
      rw [stepsOf_delete hsteps] at hkr
      rw [hrows, Table.find?_deleteWhere] at hrow'
      split at hkr
      · cases hkr
      · exact hs id' row' (Option.filter_eq_some_iff.1 hrow').1 hlean kr hkr
  | @compacted id distill row n hrow hdistill hrows hsteps hevents =>
      obtain rfl : distill = defaultDistiller := hdefault
      rw [stepsOf_distill hsteps] at hkr
      obtain ⟨⟨stepId, step⟩, hstep, rfl⟩ := List.mem_map.1 hkr
      by_cases howner : step.trajectoryId = id
      · exact distill_distilled step howner
      · -- Of the other episodes neither the row nor a step is touched.
        have hother : step.trajectoryId = id' := owner_of_stepsOf hstep
        rw [hrows, Table.find?_modify, if_neg (fun hid => howner (hother.trans hid))] at hrow'
        rw [distill_eq_self fun hid => absurd hid howner]
        exact hs id' row' hrow' hlean (stepId, step) hstep
  | mined hrows hsteps hevents =>
      rw [hrows] at hrow'
      rw [stepsOf_congr hsteps] at hkr
      exact hs id' row' hrow' hlean kr hkr

/-- The default distiller raises on no step. -/
theorem distilled_default (s : Trajectories) (id : Uuid) :
    ∃ distilled, s.distilled id defaultDistiller = .ok distilled := by
  rw [Trajectories.distilled]
  induction (s.stepsOf id).insertionSort fun a b => a.2.seq ≤ b.2.seq with
  | nil => exact ⟨[], rfl⟩
  | cons x xs ih =>
      obtain ⟨rest, hrest⟩ := ih
      rw [List.mapM_cons, hrest]
      exact ⟨_, rfl⟩

/-- **The second rotation** of an episode whose steps are distilled changes nothing but the log. -/
theorem rotatedOnce_of_leanDistilled (hs : LeanDistilled s) : RotatedOnce s := by
  intro id row hrow hlean
  obtain ⟨distilled, hdistilled⟩ := distilled_default s id
  have hok : ∃ r s', compactToLean id defaultDistiller s = .ok (r, s') := by
    dsimp only [ compactToLean]
    rw [hrow, hdistilled]
    exact ⟨_, _, rfl⟩
  obtain ⟨r, s', hok⟩ := hok
  rcases compactToLean_eq_ok hok with ⟨hnone, -⟩ | ⟨row', n, hrow', rfl, -, rfl⟩
  · rw [hnone] at hrow
    cases hrow
  · obtain rfl := Option.some.inj (hrow.symm.trans hrow')
    have hlean' : { row with retentionTier := .lean } = row := by rw [← hlean]
    have hrows : (s.rows.modify id fun _ => { row with retentionTier := .lean }) = s.rows := by
      refine Table.mapRows_eq_self fun kr hkr => ?_
      obtain ⟨key, other⟩ := kr
      split
      · rename_i hkey
        obtain rfl : key = id := hkey
        have hother := (s.rows.find?_eq_some_iff key other).2 hkr
        obtain rfl := Option.some.inj (hother.symm.trans hrow)
        exact hlean'
      · rfl
    have hsteps : (s.steps.mapRows fun _ step => step.distill id defaultDistiller) = s.steps := by
      refine Table.mapRows_eq_self fun kr hkr => distill_eq_self fun howner => ?_
      refine hs id row hrow hlean kr ((s.steps.mem_select _ _ _).2 ⟨?_, by simp [howner]⟩)
      exact (s.steps.find?_eq_some_iff kr.1 kr.2).2 hkr
    rw [hok, hlean', hsteps]
    rw [hlean'] at hrows
    rw [hrows]
    exact ⟨n, rfl⟩

end Invariants

/-! ## What holds in every run -/

section Runs

variable {platform : Platform} {P α : Type}

/-- The step an `add_step` returned. -/
def returned : (o : TrajectoryOp) → Except Exn o.Res → Option (Uuid × TrajectoryStep)
  | .addStep _ _ _, .ok step => some step
  | _, _ => none

theorem returned_addStep (stepId id : Uuid) (a : StepArgs) (step : Uuid × TrajectoryStep) :
    returned (.addStep stepId id a) (.ok step) = some step := rfl

/-- The steps returned for an episode, in the order of the commits. -/
def addedTo (τ : List (Step (trajectories platform) P α)) (id : Uuid) :
    List (Uuid × TrajectoryStep) :=
  (τ.filterMap fun st => returned st.op st.out).filter fun kr => kr.2.trajectoryId = id

/-- The steps of every episode are ones `add_step` returned, in that order, with the facts it
returned. -/
def Recorded (τ : List (Step (trajectories platform) P α)) (s : Trajectories) : Prop :=
  ∀ id, ((s.stepsOf id).map facts).Sublist ((addedTo τ id).map facts)

variable {τ : List (Step (trajectories platform) P α)} {st : Step (trajectories platform) P α}

theorem addedTo_concat (τ : List (Step (trajectories platform) P α))
    (st : Step (trajectories platform) P α) (id : Uuid) :
    addedTo (τ ++ [st]) id =
      addedTo τ id ++ (returned st.op st.out).toList.filter fun kr => kr.2.trajectoryId = id := by
  rw [addedTo, List.filterMap_append, List.filter_append]
  cases h : returned st.op st.out <;> simp [addedTo, h]

/-- What a committed call adds to an episode is what it returns. -/
theorem facts_commit {o : TrajectoryOp} {out : Except Exn o.Res} {v : o.Res} {s s' : Trajectories}
    (hout : out = .ok v) (hexec : o.exec platform s = .ok (v, s')) (id : Uuid) :
    ((s'.stepsOf id).map facts).Sublist ((s.stepsOf id).map facts ++
      ((returned o out).toList.filter fun kr => kr.2.trajectoryId = id).map facts) := by
  subst hout
  have hkept : (∀ stepId id a, o ≠ .addStep stepId id a) → ∀ more,
      ((s'.stepsOf id).map facts).Sublist ((s.stepsOf id).map facts ++ more) := fun hne more =>
    (facts_effect (TrajectoryOp.effect hexec) hne id).trans (List.sublist_append_left _ _)
  cases o with
  | addStep stepId target a =>
      obtain ⟨parent, steps, rfl, -, -, -, -, hsteps, rfl⟩ := addStep_eq_ok hexec
      rw [stepsOf_append hsteps, List.map_append, returned_addStep]
      by_cases hid : target = id
      · simp [hid, StepArgs.row]
      · simp [hid, StepArgs.row]
  | start | close | expire | compact | selectRotatable | linkTask | targetTrajectory | retroCompleted
    | tick => exact hkept (fun stepId id a heq => by cases heq) _

variable [DecidableEq P]

/-- A step of a run keeps what is recorded, and records what an append returns. -/
theorem recorded_step (h : Recorded τ st.before.state) (hf : Fires st) :
    Recorded (τ ++ [st]) st.after.state := by
  intro id
  rw [addedTo_concat, List.map_append]
  rcases hf.outcome with ⟨v, hout, hexec⟩ | ⟨e, -, hafter⟩
  · exact (facts_commit hout hexec id).trans
      ((h id).append (List.Sublist.refl _))
  · rw [hafter]
    exact (h id).trans (List.sublist_append_left _ _)

/-- The store of trajectories keeps what it promises. -/
structure Intact (τ : List (Step (trajectories platform) P α)) (s : Trajectories) : Prop where
  sequenced : Sequenced s
  recorded : Recorded τ s
  distilled : LeanDistilled s
  rotatedOnce : RotatedOnce s

/-- **Every run keeps the numbers and the facts of the steps**, whatever the processes do. -/
theorem recorded_of_reach {now : Time} {pool : P → Program (trajectories platform) α}
    {c : Config (trajectories platform) P α} (hrun : Reach ⟨.initial now, pool⟩ τ c) :
    Sequenced c.state ∧ Recorded τ c.state := by
  refine hrun.induct (motive := fun τ c => Sequenced c.state ∧ Recorded τ c.state)
    ⟨fun id => rfl, fun id => List.nil_sublist _⟩ ?_
  rintro τ₁ st - hf ⟨hsequenced, hrecorded⟩
  refine ⟨?_, recorded_step hrecorded hf⟩
  rcases hf.outcome with ⟨v, -, hexec⟩ | ⟨e, -, hafter⟩
  · exact sequenced_effect hsequenced (TrajectoryOp.effect hexec)
  · rw [hafter]
    exact hsequenced

/-- **The retention law**: in every interleaving of programs over the store, with failures at any
call, the store stays intact as long as no verbatim rationale is appended to an episode that is in
the lean tier already. -/
theorem intact_of_reach {now : Time} {pool : P → Program (trajectories platform) α}
    {c : Config (trajectories platform) P α} (hrun : Reach ⟨.initial now, pool⟩ τ c)
    (hdefault : ∀ st ∈ τ, DefaultDistiller st.op)
    (happends : ∀ st ∈ τ, AppendsDistilled st.before.state st.op) : Intact τ c.state := by
  have hdistilled : LeanDistilled c.state := by
    refine hrun.invariant (fun c => LeanDistilled c.state)
      (fun st => DefaultDistiller st.op ∧ AppendsDistilled st.before.state st.op)
      (fun st hst => ⟨hdefault st hst, happends st hst⟩) ?_ ?_
    · intro id row hrow
      cases hrow
    · rintro st hf ⟨hdefault, happends⟩ hdistilled
      rcases hf.outcome with ⟨v, -, hexec⟩ | ⟨e, -, hafter⟩
      · exact leanDistilled_effect hdistilled happends hdefault (TrajectoryOp.effect hexec)
      · rw [hafter]
        exact hdistilled
  obtain ⟨hsequenced, hrecorded⟩ := recorded_of_reach hrun
  exact ⟨hsequenced, hrecorded, hdistilled, rotatedOnce_of_leanDistilled hdistilled⟩

end Runs

/-! ## An append behind a rotation -/

/-- A platform that takes every value. -/
def openPlatform : Platform where
  repr := id
  takesTrajectory _ := true
  takesStep _ := true
  single := id

def episodeT : Uuid := ⟨"4b8e2c10-6f3d-4d7a-9c51-2a7e0d9b5c01", by decide⟩
def earlyStep : Uuid := ⟨"4b8e2c10-6f3d-4d7a-9c51-2a7e0d9b5c02", by decide⟩
def lateStep : Uuid := ⟨"4b8e2c10-6f3d-4d7a-9c51-2a7e0d9b5c03", by decide⟩

/-- An episode of one step is closed and rotated; then comes another step. -/
def lateAppend (rationale : String) : Program (trajectories openPlatform) Unit := do
  let _ ← trajectoryCall openPlatform
    (.start episodeT { role := "pm", workstream := "studio", goal := "plan" })
  let _ ← trajectoryCall openPlatform
    (.addStep earlyStep episodeT { stepType := "plan", summary := "planned", rationale := "clear" })
  let _ ← trajectoryCall openPlatform (.close episodeT none none)
  let _ ← trajectoryCall openPlatform (.compact episodeT defaultDistiller)
  let _ ← trajectoryCall openPlatform
    (.addStep lateStep episodeT { stepType := "revise", summary := "revised", rationale := rationale })

/-- The process on its own. -/
def lateAppends (rationale : String) : Config (trajectories openPlatform) Unit Unit :=
  ⟨.initial 0, fun _ => lateAppend rationale⟩

/-- Its rotation is the default one, and its appends keep the lean tier when the late rationale is
distilled. -/
theorem lateAppend_only (rationale : String) : (lateAppend rationale).Only fun o =>
    DefaultDistiller o ∧
      (defaultDistill (some rationale) = some rationale → ∀ s, AppendsDistilled s o) := by
  have hclear : defaultDistill (some "clear") = some "clear" := by decide
  refine (Program.Only.op ⟨trivial, fun _ _ => trivial⟩).bind fun _ => ?_
  refine (Program.Only.op ⟨trivial, fun _ _ _ _ _ => hclear⟩).bind fun _ => ?_
  refine (Program.Only.op ⟨trivial, fun _ _ => trivial⟩).bind fun _ => ?_
  refine (Program.Only.op ⟨rfl, fun _ _ => trivial⟩).bind fun _ => ?_
  exact (Program.Only.op ⟨trivial, fun hlate _ _ _ _ => hlate⟩).bind fun _ => .ret ()

/-- The five turns of the process. -/
abbrev fiveTurns : List (Choice Unit Exn) := List.replicate 5 ((), none)

/-- A verbatim rationale of two lines stays in the lean tier, where a second rotation would cut
it. -/
theorem verbatim_in_lean :
    Reach (lateAppends "first\nsecond") ((lateAppends "first\nsecond").trace fiveTurns)
        ((lateAppends "first\nsecond").run fiveTurns) ∧
      (∀ st ∈ (lateAppends "first\nsecond").trace fiveTurns, DefaultDistiller st.op) ∧
      ¬ Intact ((lateAppends "first\nsecond").trace fiveTurns)
        ((lateAppends "first\nsecond").run fiveTurns).state := by
  have hrun := Reach.of_run (lateAppends "first\nsecond") fiveTurns
  have hcalls := (hrun.only (p := ()) (lateAppend_only "first\nsecond")).2
  refine ⟨hrun, fun st hst => (hcalls st hst rfl).1, fun hintact => ?_⟩
  have htier : (((lateAppends "first\nsecond").run fiveTurns).state.rows.find? episodeT).map
      (·.retentionTier) = some .lean := by decide
  have hverbatim : (((lateAppends "first\nsecond").run fiveTurns).state.stepsOf episodeT).any
      (fun kr => defaultDistill kr.2.rationale ≠ kr.2.rationale) = true := by decide
  obtain ⟨row, hrow, hlean⟩ := Option.map_eq_some_iff.1 htier
  obtain ⟨kr, hkr, hne⟩ := List.any_eq_true.1 hverbatim
  exact of_decide_eq_true hne (hintact.distilled episodeT row hrow hlean kr hkr)

/-- With a late rationale of one line the store stays intact. -/
theorem intact_short :
    Intact ((lateAppends "short").trace fiveTurns) ((lateAppends "short").run fiveTurns).state := by
  have hrun := Reach.of_run (lateAppends "short") fiveTurns
  have hcalls := (hrun.only (p := ()) (lateAppend_only "short")).2
  have hshort : defaultDistill (some "short") = some "short" := by decide
  exact intact_of_reach hrun (fun st hst => (hcalls st hst rfl).1)
    fun st hst => (hcalls st hst rfl).2 hshort st.before.state

end AiStudio.Runtime
