import AiStudio.Data.Workload
import AiStudio.Runtime.Stages

/-!
# The queue drains

Passes of `run_once` follow one another, with nothing else that moves. A pass takes a task off the
queue for good, and what it enqueues is of lower rank, so only finitely many passes find a task
(`Crew.drains_iff`), unless the intake asks for clarification: it returns the request to the board,
where the next pass finds it again.
-/

set_option autoImplicit false

namespace AiStudio.Runtime

open AiStudio.Data AiStudio.Concurrency AiStudio.Concurrency.Program

/-! ## Passes -/

/-- What the parts of a staff enqueue is of lower rank. -/
theorem Staff.followsUp (staff : Staff) (readInteger : Json Empty → Option Int) (workerId : String)
    (assignee : Option Assignee) (workstream : Option String) :
    (staff.worker readInteger workerId assignee workstream).FollowsUp where
  complete := staff.complete.inner
  verify exec := (staff.verify exec).inner
  resolveIntensity review retro := (staff.resolveIntensity review retro).inner
  prep := staff.prep.inner
  commit role id row := by
    cases role with
    | retro => exact staff.runRetro_only id row
    | _ => exact ((staff.commit _).inner id row).mono fun _ => inner_followsUp
  replan stuckId id row := (staff.replan_only _ _).bind fun _ => .ret _
  obtainPlan := staff.obtainPlan_only
  decompose := staff.decompose_only
  triage := staff.triage_only readInteger

/-- The passes of a worker: what it claims by, and the staff of every pass. -/
structure Crew where
  workerId : String
  assignee : Option Assignee := none
  workstream : Option String := none
  readInteger : Json Empty → Option Int
  staff : Nat → Staff

namespace Crew

variable (c : Crew)

/-- The worker of pass `n`. -/
def worker (n : Nat) : Worker :=
  (c.staff n).worker c.readInteger c.workerId c.assignee c.workstream

/-- The claim of every pass. -/
def grab : GrabArgs where
  workerId := c.workerId
  assignee := c.assignee
  workstream := c.workstream

/-- Pass `n`. -/
def pass (n : Nat) (s : Store) : Except Exn (Option RunResult) × Store :=
  ((c.worker n).runOnce []).eval s

/-- The database before pass `n`. -/
def state (s : Store) : Nat → Store
  | 0 => s
  | n + 1 => (c.pass n (state s n)).2

/-- The task that a pass claims. -/
def claimed (s : Store) : Option (Uuid × Task) :=
  if s.identityQuarantined c.workerId then none else c.grab.pick [] s

/-- Pass `n` processes a task. -/
def Processes (s : Store) (n : Nat) : Prop := (c.claimed (c.state s n)).isSome = true

/-- The task is a feature request that the default lens asks to clarify. -/
def IsVague (row : Task) : Prop :=
  row.type = "feature_request" ∧ ∃ request,
    FeatureRequest.fromPayload c.readInteger row.payload = .ok request ∧ request.vague = true

/-- Pass `n` claims such a request. -/
def Clarifies (s : Store) (n : Nat) : Prop :=
  ∃ id row, c.claimed (c.state s n) = some (id, row) ∧ c.IsVague row

/-- The task is work, and pass `n` has no attempt to give it. -/
def GivesNoAttempt (n : Nat) (row : Task) : Prop :=
  Worker.resolveHandler row.type = some .work ∧ (c.staff n).maxAttempts = 0

/-- Pass `n` claims such a task. -/
def Stalls (s : Store) (n : Nat) : Prop :=
  ∃ id row, c.claimed (c.state s n) = some (id, row) ∧ c.GivesNoAttempt n row

/-- The claim may take the task, once its prerequisites are merged. -/
def Offered (s : Store) (row : Task) : Prop :=
  s.identityQuarantined c.workerId = false ∧
    (∀ x ∈ c.assignee, ∀ y ∈ row.assignee, y = x) ∧ ∀ ws ∈ c.workstream, row.workstream.name = ws

/-- Nothing is left to do: every task is terminal, blocked, in review, waits on a prerequisite, is
not offered to this worker, or is with the worker that held it in `s₀`. -/
def Quiet (s₀ s : Store) : Prop :=
  ∀ t row, s.tasks.find? t = some row →
    row.status.isTerminal = true ∨ row.status = .blocked ∨
      row.status ∈ [.readyForReview, .reviewerBlocked, .approved] ∨
      row.status = .upForGrabs ∧ (s.depsMerged row = false ∨ ¬ c.Offered s row) ∨
      row.status.isHeld = true ∧ s₀.kind? t = some (row.status, row.type)

/-- Only finitely many passes process a task. -/
def Drains (s : Store) : Prop := {n | c.Processes s n}.Finite

variable {c} {s : Store} {n : Nat}

theorem pick_of_claimed {id : Uuid} {row : Task} (h : c.claimed s = some (id, row)) :
    s.identityQuarantined c.workerId = false ∧ c.grab.pick [] s = some (id, row) := by
  unfold claimed at h
  split at h
  · cases h
  · rename_i hfree
    exact ⟨by simpa using hfree, h⟩

/-- The row of a claimed task, before and after its start. -/
def startedRow (c : Crew) (s : Store) (row : Task) : Task :=
  (startArgs c.workerId none).update s.now .inProgress (c.grab.claim.update s.now .claimed row)

/-- The database after the claim. -/
def startedStore (c : Crew) (s : Store) (id : Uuid) (row : Task) : Store :=
  (s.recordTransition id row .claimed c.grab.claim).recordTransition id
    (c.grab.claim.update s.now .claimed row) .inProgress (startArgs c.workerId none)

/-- A pass that claims nothing changes nothing. -/
theorem eval_claimTask_none (h : c.claimed s = none) :
    (claimTask c.grab []).eval s = (.ok none, s) := by
  have hexec : (StoreOp.grabTask c.grab []).exec s = .ok (none, s) := by
    show grabTask c.grab [] s = .ok (none, s)
    unfold grabTask
    unfold claimed at h
    split at h
    · rename_i hfenced
      exact if_pos hfenced
    · rename_i hfree
      exact (if_neg hfree).trans (by rw [h])
  unfold claimTask
  exact (eval_bind_ok (eval_op_ok (I := database) hexec)).trans rfl

/-- **A claim** grabs the picked task and starts it. -/
theorem eval_claimTask_some {id : Uuid} {row : Task} (h : c.claimed s = some (id, row)) :
    (claimTask c.grab []).eval s =
      (.ok (some (id, c.startedRow s row)), c.startedStore s id row) := by
  obtain ⟨hfree, hpick⟩ := pick_of_claimed h
  have hm := GrabArgs.moves_of_pick hpick
  have hgrab : (StoreOp.grabTask c.grab []).exec s = .ok (some (id, c.grab.claim.update s.now .claimed row),
      s.recordTransition id row .claimed c.grab.claim) := by
    have hopen : ¬ s.identityQuarantined c.grab.workerId = true := by
      rw [Bool.not_eq_true]
      exact hfree
    show grabTask c.grab [] s = _
    unfold grabTask
    rw [if_neg hopen, hpick]
    simp only [hm.transition_eq]
    rfl
  have hstart : (StoreOp.transition id .inProgress (startArgs c.workerId none)).exec
      (s.recordTransition id row .claimed c.grab.claim) =
        .ok (some (c.startedRow s row), c.startedStore s id row) := by
    have hdiffers : TaskStatus.claimed ≠ .inProgress := by decide
    refine Moves.transition_eq ⟨?_, rfl, hdiffers, Or.inr rfl, rfl⟩
    exact s.find?_recordTransition_self id row .claimed c.grab.claim hm.found
  unfold claimTask
  refine (eval_bind_ok (eval_op_ok (I := database) hgrab)).trans ?_
  exact (eval_bind_ok (eval_op_ok (I := database) hstart)).trans rfl

/-- The task of a pass, once it is started. -/
theorem stage_started {id : Uuid} {row : Task} (h : c.claimed s = some (id, row)) :
    Stage s id row.type .inProgress (c.startedStore s id row) := by
  have hrow := (GrabArgs.pick_eq_some (pick_of_claimed h).2).1
  have hclaimed := s.find?_recordTransition_self id row .claimed c.grab.claim hrow
  refine ⟨?_, fun t ht => Or.inl ?_⟩
  · rw [Store.kind?, startedStore, Store.find?_recordTransition_self _ _ _ _ _ hclaimed]
    rfl
  · rw [Store.kind?, startedStore, Store.find?_recordTransition_ne _ _ _ _ _ ht,
      Store.find?_recordTransition_ne _ _ _ _ _ ht]
    rfl

theorem pass_none (h : c.claimed s = none) : c.pass n s = (.ok none, s) :=
  (eval_bind_ok (eval_claimTask_none h)).trans rfl

/-- A pass that claims a task runs its handler. -/
theorem pass_some {id : Uuid} {row : Task} {handler : Worker.Handler}
    (h : c.claimed s = some (id, row)) (hresolve : Worker.resolveHandler row.type = some handler) :
    c.pass n s = ((c.worker n).handle id (c.startedRow s row) handler).eval
      (c.startedStore s id row) := by
  refine (eval_bind_ok (eval_claimTask_some h)).trans ?_
  dsimp only
  rw [show (c.startedRow s row).type = row.type from rfl, hresolve]

/-- Only feature requests go to the intake. -/
theorem type_of_featureRequest {type : String}
    (h : Worker.resolveHandler type = some .featureRequest) : type = "feature_request" := by
  unfold Worker.resolveHandler at h
  cases hexact : Worker.exactHandler type with
  | none =>
      rw [hexact] at h
      dsimp only at h
      split at h <;> cases h
  | some handler =>
      rw [hexact] at h
      obtain rfl := Option.some.inj h
      revert hexact
      unfold Worker.exactHandler
      split <;> intro hexact <;> first | rfl | cases hexact

/-- The default lens accepts what is not vague. -/
theorem clear_of_not_vague {row : Task} (hclear : ¬ c.IsVague row)
    (htype : row.type = "feature_request") (decision : TriageDecision)
    (h : (c.worker n).triage.evaluate (c.startedRow s row) = .ok decision) :
    decision.verdict ≠ .clarify := by
  have hmap : (FeatureRequest.fromPayload c.readInteger row.payload).map defaultTriage =
      .ok decision := h
  cases hrequest : FeatureRequest.fromPayload c.readInteger row.payload with
  | error e => rw [hrequest] at hmap; cases hmap
  | ok request =>
      rw [hrequest] at hmap
      obtain rfl := Except.ok.inj hmap
      have hvague : request.vague = false := by
        rw [← Bool.not_eq_true]
        exact fun hvague => hclear ⟨htype, request, hrequest, hvague⟩
      unfold defaultTriage
      rw [hvague]
      decide

/-- **A pass lets its task go**, unless it is a vague request, or work without an attempt. -/
theorem rested_pass {id : Uuid} {row : Task} (hclaim : c.claimed s = some (id, row))
    (hclear : ¬ c.IsVague row) {r : Option RunResult} (hok : (c.pass n s).1 = .ok r) :
    Rested (c.GivesNoAttempt n row) s id row.type (c.pass n s).2 := by
  have hstage := stage_started hclaim
  have htype : (c.startedRow s row).type = row.type := rfl
  cases hresolve : Worker.resolveHandler row.type with
  | none =>
      have hpass : c.pass n s = (some <$> Worker.handleUnknown id (c.startedRow s row)).eval
          (c.startedStore s id row) := by
        refine (eval_bind_ok (eval_claimTask_some hclaim)).trans ?_
        dsimp only
        rw [htype, hresolve]
      have hunknown : Triple (Stage s id row.type .inProgress)
          (some <$> Worker.handleUnknown id (c.startedRow s row))
          fun _ => Rested (c.GivesNoAttempt n row) s id row.type :=
        triple_bind (Worker.rested_complete rfl rfl rfl) fun _ =>
          triple_ret fun _ h => h
      exact hunknown _ r _ hstage (Prod.ext (by rw [← hpass]; exact hok) (by rw [← hpass]))
  | some handler =>
      have hpass := pass_some (n := n) hclaim hresolve
      have hhandle : Triple (Stage s id row.type .inProgress)
          ((c.worker n).handle id (c.startedRow s row) handler)
          fun _ => Rested (c.GivesNoAttempt n row) s id row.type :=
        Worker.rested_handle ((c.staff n).followsUp _ _ _ _) hresolve
          (fun hrequest => clear_of_not_vague hclear
            (type_of_featureRequest (by rw [hresolve, hrequest])))
          fun hwork hnone => ⟨by rw [hresolve, hwork], hnone⟩
      exact hhandle _ r _ hstage (Prod.ext (by rw [← hpass]; exact hok) (by rw [← hpass]))

/-! ## Only finitely many passes -/

/-- What a task that is up for grabs weighs. -/
def weigh (row : Task) : Multiset ℕ := if row.status = .upForGrabs then {rank row.type} else 0

/-- The weight of a task is read off its status and type. -/
theorem weightAt_of_kind? {s : Store} {t : Uuid} {st : TaskStatus} {type : String}
    (h : s.kind? t = some (st, type)) :
    s.tasks.weightAt weigh t = if st = .upForGrabs then {rank type} else 0 := by
  rw [Store.kind?, Option.map_eq_some_iff] at h
  obtain ⟨row, hrow, hkind⟩ := h
  obtain ⟨rfl, rfl⟩ := Prod.mk.inj hkind
  rw [Table.weightAt, hrow]
  rfl

theorem weightAt_congr {s s' : Store} {t : Uuid} (h : s'.kind? t = s.kind? t) :
    s'.tasks.weightAt weigh t = s.tasks.weightAt weigh t := by
  cases hkind : s.kind? t with
  | some kind => rw [weightAt_of_kind? (h.trans hkind), weightAt_of_kind? hkind]
  | none =>
      rw [hkind, Store.kind?, Option.map_eq_none_iff] at h
      rw [Store.kind?, Option.map_eq_none_iff] at hkind
      rw [Table.weightAt, Table.weightAt, h, hkind]

theorem mem_keys_iff_kind? {s : Store} {t : Uuid} : t ∈ s.tasks.keys ↔ (s.kind? t).isSome = true := by
  rw [Table.mem_keys, Store.kind?, Option.isSome_map]

theorem not_upForGrabs_of_atRest {stalls : Prop} {st : TaskStatus} (h : AtRest stalls st) :
    st ≠ .upForGrabs := by
  rintro rfl
  rcases h with h | h | ⟨-, h⟩ <;> cases h

/-- **A pass lowers the weight of the queue.** -/
theorem descends_pass {id : Uuid} {row : Task} (hclaim : c.claimed s = some (id, row))
    (hclear : ¬ c.IsVague row) {r : Option RunResult} (hok : (c.pass n s).1 = .ok r) :
    Descends weigh (rank row.type) s.tasks (c.pass n s).2.tasks := by
  obtain ⟨st, hrest, hstage⟩ := rested_pass hclaim hclear hok
  obtain ⟨hrow, hgrab, -⟩ := GrabArgs.pick_eq_some (pick_of_claimed hclaim).2
  have hbefore : s.kind? id = some (.upForGrabs, row.type) := by
    rw [Store.kind?, hrow, Option.map_some, GrabArgs.status_of_grabbable hgrab]
  refine descends_of_rows (k := id) ?_ ?_ ?_ ?_
  · rw [weightAt_of_kind? hbefore, if_pos rfl]
  · rw [weightAt_of_kind? hstage.own, if_neg (not_upForGrabs_of_atRest hrest)]
  · intro t ht
    rw [mem_keys_iff_kind?] at ht
    by_cases hid : t = id
    · subst hid
      refine ⟨?_, fun hne => absurd rfl hne⟩
      rw [mem_keys_iff_kind?, hstage.own]
      rfl
    · rcases hstage.others t hid with hsame | ⟨hnone, -⟩
      · refine ⟨?_, fun _ => weightAt_congr hsame⟩
        rw [mem_keys_iff_kind?, hsame]
        exact ht
      · rw [hnone] at ht
        cases ht
  · intro t ht hnew m hm
    rw [mem_keys_iff_kind?] at ht hnew
    have hid : t ≠ id := by
      rintro rfl
      rw [hbefore] at hnew
      exact hnew rfl
    rcases hstage.others t hid with hsame | ⟨-, type', hkind, hrank⟩
    · rw [hsame] at ht
      exact absurd ht hnew
    · rw [weightAt_of_kind? hkind, if_pos rfl, Multiset.mem_singleton] at hm
      rw [hm]
      exact hrank

/-- After a pass that finds nothing, the next one finds nothing. -/
theorem idle_succ (h : ¬ c.Processes s n) : ¬ c.Processes s (n + 1) := by
  have hnone : c.claimed (c.state s n) = none := by
    rw [← Option.not_isSome_iff_eq_none]
    exact h
  have hstate : c.state s (n + 1) = c.state s n := by
    rw [state, pass_none hnone]
  rw [Processes, hstate]
  exact h

/-- **Without vague requests the queue drains.** -/
theorem drains_of_clear (hok : ∀ n, ∃ r, (c.pass n (c.state s n)).1 = .ok r)
    (hclear : ∀ n, ¬ c.Clarifies s n) : c.Drains s := by
  have hdescends : ∀ n, c.Processes s n →
      ∃ m, Descends weigh m (c.state s n).tasks (c.state s (n + 1)).tasks := by
    intro n hn
    obtain ⟨⟨id, row⟩, hclaim⟩ := Option.isSome_iff_exists.1 hn
    obtain ⟨r, hr⟩ := hok n
    exact ⟨_, descends_pass hclaim (fun hvague => hclear n ⟨id, row, hclaim, hvague⟩) hr⟩
  exact Descends.finite hdescends fun n => idle_succ

/-! ## A vague request comes back -/

end Crew

/-- Two rows that a grab, and the intake, do not tell apart. -/
structure Alike (row row' : Task) : Prop where
  type : row'.type = row.type
  workstream : row'.workstream = row.workstream
  assignee : row'.assignee = row.assignee
  priority : row'.priority = row.priority
  createdAt : row'.createdAt = row.createdAt
  dependsOn : row'.dependsOn = row.dependsOn
  request : ∀ readInteger, FeatureRequest.fromPayload readInteger row'.payload =
    FeatureRequest.fromPayload readInteger row.payload

theorem Alike.trans {row row' row'' : Task} (h : Alike row row') (h' : Alike row' row'') :
    Alike row row'' :=
  ⟨h'.type.trans h.type, h'.workstream.trans h.workstream, h'.assignee.trans h.assignee,
    h'.priority.trans h.priority, h'.createdAt.trans h.createdAt, h'.dependsOn.trans h.dependsOn,
    fun readInteger => (h'.request readInteger).trans (h.request readInteger)⟩

/-- The row of one task has been rewritten, and nothing else that a grab reads. -/
structure Turned (s₀ : Store) (id : Uuid) (row₀ : Task) (st : TaskStatus) (s : Store) : Prop where
  row : ∃ row, s.tasks = s₀.tasks.modify id (fun _ => row) ∧ Alike row₀ row ∧ row.status = st
  found : (s₀.tasks.find? id).isSome = true
  trust : s.identityTrust = s₀.identityTrust

section Turned

variable {s₀ : Store} {id : Uuid} {row₀ : Task} {st : TaskStatus}

theorem Turned.find? {s : Store} (h : Turned s₀ id row₀ st s) :
    ∃ row, s.tasks.find? id = some row ∧ Alike row₀ row ∧ row.status = st := by
  obtain ⟨row, htasks, halike, hst⟩ := h.row
  obtain ⟨old, hold⟩ := Option.isSome_iff_exists.1 h.found
  refine ⟨row, ?_, halike, hst⟩
  rw [htasks, Table.find?_modify_self, hold]
  rfl

/-- Another row under the same task. -/
theorem Turned.set {s s' : Store} (h : Turned s₀ id row₀ st s) {row row' : Task} {st' : TaskStatus}
    (hrow : s.tasks.find? id = some row) (hset : s'.tasks = s.tasks.modify id fun _ => row')
    (htrust : s'.identityTrust = s.identityTrust) (halike : Alike row row')
    (hst : row'.status = st') : Turned s₀ id row₀ st' s' := by
  obtain ⟨row₁, hrow₁, halike₁, -⟩ := h.find?
  obtain rfl := Option.some.inj (hrow.symm.trans hrow₁)
  obtain ⟨row₂, htasks, -, -⟩ := h.row
  refine ⟨⟨row', ?_, halike₁.trans halike, hst⟩, h.found, htrust.trans h.trust⟩
  rw [hset, htasks, Table.modify_modify]

theorem alike_update {a : TransitionArgs} {now : Time} {target : TaskStatus} {row : Task} :
    Alike row (a.update now target row) :=
  ⟨rfl, rfl, rfl, rfl, rfl, rfl, fun _ => rfl⟩

/-- A move that the guards accept is made. -/
theorem turned_transition {target : TaskStatus} {a : TransitionArgs}
    (haccepts : a.accepts target st = true) (hcolumns : a.duplicatesColumn = false) :
    Total (Turned s₀ id row₀ st) (call (.transition id target a)) fun _ =>
      Turned s₀ id row₀ target := by
  refine total_op fun s h => ?_
  obtain ⟨row, hrow, -, rfl⟩ := h.find?
  simp only [TransitionArgs.accepts, Bool.and_eq_true, Bool.or_eq_true, decide_eq_true_eq]
    at haccepts
  have hm : Moves s id target a row :=
    ⟨hrow, haccepts.1.1, haccepts.1.2, haccepts.2, hcolumns⟩
  exact ⟨_, _, hm.transition_eq, h.set hrow rfl rfl alike_update rfl⟩

/-- A move from another status is not made. -/
theorem turned_refused {target : TaskStatus} {a : TransitionArgs} (hadmits : a.admits st = false) :
    Total (Turned s₀ id row₀ st) (call (.transition id target a)) fun _ =>
      Turned s₀ id row₀ st := by
  refine total_op fun s h => ?_
  obtain ⟨row, hrow, -, rfl⟩ := h.find?
  have hexec : transition id target a s = .ok (none, s) := by
    simp [transition, hrow, hadmits]
  exact ⟨_, _, hexec, h⟩

theorem turned_heartbeat (workerId : String) :
    Total (Turned s₀ id row₀ st) (call (.heartbeat id workerId)) fun _ =>
      Turned s₀ id row₀ st := by
  refine total_op fun s h => ?_
  show ∃ r s', heartbeat id workerId s = .ok (r, s') ∧ Turned s₀ id row₀ st s'
  unfold heartbeat
  cases hupdate : s.updateTask id (fun row => row.claimedBy = some workerId && row.status.isHeld)
      (·.beat s.now) with
  | none => exact ⟨_, _, rfl, h⟩
  | some updated =>
      obtain ⟨row', s'⟩ := updated
      obtain ⟨row, hrow, -, rfl, rfl⟩ := Store.updateTask_eq_some hupdate
      obtain ⟨row₁, hrow₁, -, hst⟩ := h.find?
      obtain rfl := Option.some.inj (hrow.symm.trans hrow₁)
      exact ⟨_, _, rfl, h.set hrow rfl rfl ⟨rfl, rfl, rfl, rfl, rfl, rfl, fun _ => rfl⟩ hst⟩

theorem turned_setRequestStatus (status reason : String) (workTaskIds : Option (List String)) :
    Total (Turned s₀ id row₀ st) (call (.setRequestStatus id status reason workTaskIds)) fun _ =>
      Turned s₀ id row₀ st := by
  refine total_op fun s h => ?_
  show ∃ r s', setRequestStatus id status reason workTaskIds s = .ok (r, s') ∧
    Turned s₀ id row₀ st s'
  unfold setRequestStatus
  cases hupdate : s.updateTask id (fun _ => true)
      (·.patch (requestPatch status reason workTaskIds) s.now) with
  | none => exact ⟨_, _, rfl, h⟩
  | some updated =>
      obtain ⟨row', s'⟩ := updated
      obtain ⟨row, hrow, -, rfl, rfl⟩ := Store.updateTask_eq_some hupdate
      obtain ⟨row₁, hrow₁, -, hst⟩ := h.find?
      obtain rfl := Option.some.inj (hrow.symm.trans hrow₁)
      refine ⟨_, _, rfl, h.set hrow rfl rfl ⟨rfl, rfl, rfl, rfl, rfl, rfl, fun _ => ?_⟩ hst⟩
      exact FeatureRequest.fromPayload_patch _ _ _ _ _

theorem turned_emit (taskId : Option Uuid) (ws : Workstream) (payload : SinkPayload) :
    Total (Turned s₀ id row₀ st) (call (.emit taskId ws payload)) fun _ =>
      Turned s₀ id row₀ st :=
  total_op fun _ h => ⟨_, _, rfl, h.row, h.found, h.trust⟩

theorem turned_record (fromWs : String) (row : Task) (status : String) (decision : Option String)
    (reason : String) (workTaskIds : Option (List String)) (approvalId : Option String) :
    Total (Turned s₀ id row₀ st)
      (Triage.record fromWs id row status decision reason workTaskIds approvalId) fun _ =>
        Turned s₀ id row₀ st :=
  total_bind (turned_setRequestStatus _ _ _) fun _ => turned_emit _ _ _

end Turned

/-! ### The next grab picks it again -/

section Pick

variable {s s' : Store} {id : Uuid} {row row' : Task}

/-- The rows of a table after a rewrite of one. -/
def turnRow (id : Uuid) (row' : Task) (kr : Uuid × Task) : Uuid × Task :=
  (kr.1, if kr.1 = id then row' else kr.2)

/-- A prerequisite that is not merged before and after shuts the same gates. -/
theorem depsMerged_turned (hrow : s.tasks.find? id = some row)
    (hset : s'.tasks = s.tasks.modify id fun _ => row') (hst : row.status = .upForGrabs)
    (hst' : row'.status = .upForGrabs) {waiting waiting' : Task}
    (hdeps : waiting'.dependsOn = waiting.dependsOn) :
    s'.depsMerged waiting' = s.depsMerged waiting := by
  unfold Store.depsMerged
  rw [hdeps]
  refine List.all_congr rfl fun dep => ?_
  rw [hset, Table.find?_modify]
  by_cases hdep : dep = id
  · rw [if_pos hdep, hdep, hrow]
    simp only [Option.map_some, Option.all_some, hst, hst']
  · rw [if_neg hdep]

/-- **A row that comes back alike is picked again.** -/
theorem pick_turned {g : GrabArgs} (hsort : g.sort = defaultSortTerms) (hfilter : g.filter = [])
    (hpick : g.pick [] s = some (id, row)) (hset : s'.tasks = s.tasks.modify id fun _ => row')
    (halike : Alike row row') (hst' : row'.status = .upForGrabs) :
    g.pick [] s' = some (id, row') := by
  obtain ⟨hrow, hgrab, -⟩ := GrabArgs.pick_eq_some hpick
  have hst := GrabArgs.status_of_grabbable hgrab
  have hkr : ∀ kr ∈ s.tasks.rows, kr.1 = id → kr.2 = row := by
    rintro ⟨t, r⟩ hmem rfl
    have hr := (s.tasks.find?_eq_some_iff _ _).2 hmem
    exact Option.some.inj (hr.symm.trans hrow)
  have hgrabbable : ∀ kr ∈ s.tasks.rows,
      g.grabbable s' (turnRow id row' kr).2 = g.grabbable s kr.2 := by
    intro kr hmem
    unfold turnRow GrabArgs.grabbable
    by_cases hid : kr.1 = id
    · rw [hkr kr hmem hid, if_pos hid, depsMerged_turned hrow hset hst hst' halike.dependsOn,
        hst', hst, halike.assignee, halike.workstream, hfilter]
      rfl
    · rw [if_neg hid, depsMerged_turned hrow hset hst hst' rfl]
  have hrows : s'.tasks.rows = s.tasks.rows.map (turnRow id row') := by
    rw [hset]
    rfl
  have hselect : (s'.tasks.select fun id row => g.grabbable s' row && !([] : List Uuid).contains id) =
      (s.tasks.select fun id row => g.grabbable s row && !([] : List Uuid).contains id).map
        (turnRow id row') := by
    unfold Table.select
    rw [hrows, List.filter_map]
    refine congrArg (List.map (turnRow id row')) (List.filter_congr fun kr hmem => ?_)
    show (g.grabbable s' (turnRow id row' kr).2 && _) = _
    rw [hgrabbable kr hmem]
    rfl
  have horder : ∀ x ∈ s.tasks.rows, ∀ y ∈ s.tasks.rows,
      orderBy g.sort x y = true ↔
        orderBy g.sort (turnRow id row' x) (turnRow id row' y) = true := by
    have hkeys : ∀ kr ∈ s.tasks.rows, (turnRow id row' kr).2.priority = kr.2.priority ∧
        (turnRow id row' kr).2.createdAt = kr.2.createdAt := by
      intro kr hmem
      unfold turnRow
      by_cases hid : kr.1 = id
      · rw [if_pos hid, hkr kr hmem hid]
        exact ⟨halike.priority, halike.createdAt⟩
      · rw [if_neg hid]
        exact ⟨rfl, rfl⟩
    intro x hx y hy
    obtain ⟨hxp, hxc⟩ := hkeys x hx
    obtain ⟨hyp, hyc⟩ := hkeys y hy
    rw [hsort]
    simp only [orderBy, defaultSortTerms, List.foldl_cons, List.foldl_nil, SortTerm.compare,
      SortColumn.key, hxp, hxc, hyp, hyc]
  have hmem : ∀ x ∈ s.tasks.select fun id row => g.grabbable s row && !([] : List Uuid).contains id,
      x ∈ s.tasks.rows := fun x hx => (List.mem_filter.1 hx).1
  unfold GrabArgs.pick at hpick ⊢
  rw [hselect, ← List.map_insertionSort _ _ _ _ fun x hx y hy => horder x (hmem x hx) y (hmem y hy),
    List.head?_map, hpick, Option.map_some, turnRow, if_pos rfl]

end Pick

namespace Crew

variable {c : Crew} {s : Store} {n : Nat} {id : Uuid} {row : Task}

/-- The claimed task once it is started, seen as a rewrite of its row. -/
theorem turned_started (h : c.claimed s = some (id, row)) :
    Turned s id row .inProgress (c.startedStore s id row) := by
  have hrow := (GrabArgs.pick_eq_some (pick_of_claimed h).2).1
  refine ⟨⟨c.startedRow s row, ?_, ?_, rfl⟩, ?_, rfl⟩
  · exact Table.modify_modify _ _ _ _
  · exact Alike.trans alike_update alike_update
  · rw [hrow]
    rfl

theorem turned_ensureInProgress (workerId : String) :
    Total (Turned s id row .inProgress) (ensureInProgress workerId id) fun _ =>
      Turned s id row .inProgress :=
  total_bind (turned_refused rfl) fun _ => total_bind (turned_refused rfl) fun _ =>
    total_ret fun _ h => h

theorem turned_beat (n : Nat) :
    Total (Turned s id row .inProgress) ((c.worker n).beat id) fun _ =>
      Turned s id row .inProgress :=
  total_bind (turned_heartbeat _) fun _ => total_ret fun _ h => h

theorem turned_settle {fromWs : String} {decision : TriageDecision} {newId : Uuid} {row' : Task}
    (hclarify : decision.verdict = .clarify) :
    Total (Turned s id row .inProgress)
      ((c.worker n).triage.settle fromWs decision newId id row') fun _ =>
        Turned s id row .upForGrabs := by
  obtain ⟨verdict, reason⟩ := decision
  obtain rfl : verdict = .clarify := hclarify
  refine total_bind (turned_record _ _ _ _ _ _ _) fun _ => ?_
  exact total_bind (turned_transition rfl rfl) fun _ => total_ret fun _ h => h

/-- **The intake returns a vague request to the board.** -/
theorem turned_handleFeatureRequest (hvague : c.IsVague row) :
    Total (Turned s id row .inProgress)
      ((c.worker n).handleFeatureRequest id (c.startedRow s row)) fun _ =>
        Turned s id row .upForGrabs := by
  obtain ⟨-, request, hrequest, hvague⟩ := hvague
  have hfrom : (c.worker n).triage.fromWorkstream (c.startedRow s row) =
      .ok request.fromWorkstream := congrArg (·.map FeatureRequest.fromWorkstream) hrequest
  have hevaluate : (c.worker n).triage.evaluate (c.startedRow s row) =
      .ok (defaultTriage request) := congrArg (·.map defaultTriage) hrequest
  have hverdict : (defaultTriage request).verdict = .clarify := by
    rw [defaultTriage, if_pos hvague]
  refine total_bind (turned_beat n) fun _ => ?_
  refine total_bind (Q := fun _ => Turned s id row .upForGrabs) ?_ fun _ => total_ret fun _ h => h
  unfold Triage.run
  rw [hfrom]
  refine total_bind (turned_ensureInProgress _) fun _ => ?_
  refine total_bind (turned_record _ _ _ _ _ _ _) fun _ => ?_
  rw [hevaluate]
  exact turned_settle hverdict

/-- **A pass that claims a vague request** returns, and the request is on the board. -/
theorem turned_pass (h : c.claimed s = some (id, row)) (hvague : c.IsVague row) :
    (∃ r, (c.pass n s).1 = .ok r) ∧ Turned s id row .upForGrabs (c.pass n s).2 := by
  have hresolve : Worker.resolveHandler row.type = some .featureRequest := by
    rw [hvague.1]
    rfl
  have hpass := pass_some (n := n) h hresolve
  have htotal : Total (Turned s id row .inProgress)
      ((c.worker n).handle id (c.startedRow s row) .featureRequest) fun _ =>
        Turned s id row .upForGrabs :=
    total_bind (turned_handleFeatureRequest hvague) fun _ => total_ret fun _ h => h
  obtain ⟨r, s', heval, hturned⟩ := htotal _ (turned_started h)
  rw [hpass, heval]
  exact ⟨⟨r, rfl⟩, hturned⟩

/-- **The next pass claims a vague request again.** -/
theorem clarifies_succ (h : c.Clarifies s n) : c.Clarifies s (n + 1) := by
  obtain ⟨id, row, hclaim, hvague⟩ := h
  obtain ⟨-, hturned⟩ := turned_pass (n := n) hclaim hvague
  obtain ⟨hfree, hpick⟩ := pick_of_claimed hclaim
  obtain ⟨row', hset, halike, hst⟩ := hturned.row
  have hagain := pick_turned (g := c.grab) rfl rfl hpick hset halike hst
  refine ⟨id, row', ?_, halike.type.trans hvague.1, ?_⟩
  · have hopen : (c.pass n (c.state s n)).2.identityQuarantined c.workerId = false := by
      rw [Store.identityQuarantined, hturned.trust]
      exact hfree
    show c.claimed (c.pass n (c.state s n)).2 = _
    rw [claimed, hopen]
    exact hagain
  · obtain ⟨request, hrequest, hvague⟩ := hvague.2
    exact ⟨request, (halike.request _).trans hrequest, hvague⟩

/-- **For ever.** -/
theorem clarifies_add (h : c.Clarifies s n) (d : Nat) : c.Clarifies s (n + d) := by
  induction d with
  | zero => exact h
  | succ d ih => exact clarifies_succ ih

theorem processes_of_clarifies (h : c.Clarifies s n) : c.Processes s n := by
  obtain ⟨id, row, hclaim, -⟩ := h
  rw [Processes, hclaim]
  rfl

theorem not_drains_of_clarifies (h : c.Clarifies s n) : ¬ c.Drains s := by
  intro hfinite
  have hinjective : Function.Injective fun d => n + d := fun _ _ h => Nat.add_left_cancel h
  exact Set.infinite_of_injective_forall_mem hinjective
    (fun d => processes_of_clarifies (clarifies_add h d)) hfinite

/-! ## When the queue drains -/

/-- **An idle pass leaves nothing that it may take.** -/
theorem not_grabbable_of_claimed (h : c.claimed s = none) {t : Uuid}
    (hrow : s.tasks.find? t = some row) (hst : row.status = .upForGrabs) :
    s.depsMerged row = false ∨ ¬ c.Offered s row := by
  rw [or_iff_not_imp_right, Classical.not_not]
  rintro ⟨hfree, hassignee, hworkstream⟩
  have hpick : c.grab.pick [] s = none := by
    rw [claimed, hfree] at h
    exact h
  rw [GrabArgs.pick, List.head?_eq_none_iff] at hpick
  by_contra hmerged
  rw [Bool.not_eq_false] at hmerged
  have hmem : (t, row) ∈ s.tasks.select fun id row =>
      c.grab.grabbable s row && !([] : List Uuid).contains id := by
    rw [Table.mem_select]
    refine ⟨hrow, ?_⟩
    simp only [GrabArgs.grabbable, grab, hst, hmerged, Bool.and_true, decide_true, Bool.true_and,
      Option.all_eq_true, List.all_nil, List.contains_nil, Bool.not_false, Bool.and_eq_true,
      decide_eq_true_eq]
    exact ⟨hassignee, hworkstream⟩
  rw [← List.mem_insertionSort (orderBy c.grab.sort · ·), hpick] at hmem
  cases hmem

/-- **A pass leaves the tasks that others hold.** -/
theorem held_succ (hok : ∃ r, (c.pass n (c.state s n)).1 = .ok r) (hclear : ¬ c.Clarifies s n)
    {t : Uuid} {st : TaskStatus} {type : String} (hheld : st.isHeld = true)
    (h : (c.state s n).kind? t = some (st, type)) :
    (c.state s (n + 1)).kind? t = some (st, type) := by
  cases hclaim : c.claimed (c.state s n) with
  | none =>
      rw [state, pass_none hclaim]
      exact h
  | some claimed =>
      obtain ⟨id, row⟩ := claimed
      obtain ⟨r, hr⟩ := hok
      obtain ⟨st', -, hstage⟩ := rested_pass hclaim (fun hvague => hclear ⟨_, _, hclaim, hvague⟩) hr
      obtain ⟨hrow, hgrab, -⟩ := GrabArgs.pick_eq_some (pick_of_claimed hclaim).2
      have hid : t ≠ id := by
        rintro rfl
        rw [Store.kind?, hrow, Option.map_some, GrabArgs.status_of_grabbable hgrab] at h
        cases h
        cases hheld
      rcases hstage.others t hid with hsame | ⟨hnone, -⟩
      · exact hsame.trans h
      · rw [h] at hnone
        cases hnone

/-- **A pass that gives its task an attempt keeps none.** -/
theorem held_of_succ (hok : ∃ r, (c.pass n (c.state s n)).1 = .ok r) (hclear : ¬ c.Clarifies s n)
    (hstalls : ¬ c.Stalls s n) {t : Uuid} {st : TaskStatus} {type : String}
    (hheld : st.isHeld = true) (h : (c.state s (n + 1)).kind? t = some (st, type)) :
    (c.state s n).kind? t = some (st, type) := by
  cases hclaim : c.claimed (c.state s n) with
  | none =>
      rw [state, pass_none hclaim] at h
      exact h
  | some claimed =>
      obtain ⟨id, row⟩ := claimed
      obtain ⟨r, hr⟩ := hok
      obtain ⟨st', hrest, hstage⟩ :=
        rested_pass hclaim (fun hvague => hclear ⟨_, _, hclaim, hvague⟩) hr
      by_cases hid : t = id
      · subst hid
        obtain ⟨rfl, rfl⟩ := Prod.mk.inj (Option.some.inj (hstage.own.symm.trans h))
        rcases hrest with hterminal | rfl | ⟨hnone, -⟩
        · rcases (isTerminal_iff st').1 hterminal with rfl | rfl <;> cases hheld
        · cases hheld
        · exact absurd ⟨_, _, hclaim, hnone⟩ hstalls
      · rcases hstage.others t hid with hsame | ⟨-, type', hkind, -⟩
        · exact hsame.symm.trans h
        · obtain ⟨rfl, -⟩ := Prod.mk.inj (Option.some.inj (hkind.symm.trans h))
          cases hheld

/-- **An idle crew has left nothing.** -/
theorem quiet_of_idle (hok : ∀ n, ∃ r, (c.pass n (c.state s n)).1 = .ok r)
    (hclear : ∀ n, ¬ c.Clarifies s n) (hstalls : ∀ n, ¬ c.Stalls s n) (h : ¬ c.Processes s n) :
    c.Quiet s (c.state s n) := by
  have hheld : ∀ n t st type, st.isHeld = true → (c.state s n).kind? t = some (st, type) →
      s.kind? t = some (st, type) := by
    intro n
    induction n with
    | zero => exact fun t st type _ h => h
    | succ n ih =>
        intro t st type hst hkind
        exact ih t st type hst (held_of_succ (hok n) (hclear n) (hstalls n) hst hkind)
  intro t row hrow
  have hnone : c.claimed (c.state s n) = none := Option.not_isSome_iff_eq_none.1 h
  have hkind : (c.state s n).kind? t = some (row.status, row.type) := by
    rw [Store.kind?, hrow, Option.map_some]
  cases hst : row.status with
  | merged | abandoned => exact Or.inl rfl
  | blocked => exact Or.inr (Or.inl rfl)
  | readyForReview | reviewerBlocked | approved => exact Or.inr (Or.inr (Or.inl (by decide)))
  | upForGrabs =>
      exact Or.inr (Or.inr (Or.inr (Or.inl ⟨rfl, not_grabbable_of_claimed hnone hrow hst⟩)))
  | claimed | inProgress =>
      rw [hst] at hkind
      exact Or.inr (Or.inr (Or.inr (Or.inr ⟨rfl, hheld n t _ _ rfl hkind⟩)))

theorem held_add (hok : ∀ n, ∃ r, (c.pass n (c.state s n)).1 = .ok r)
    (hclear : ∀ n, ¬ c.Clarifies s n) {t : Uuid} {st : TaskStatus} {type : String}
    (hheld : st.isHeld = true) (h : (c.state s n).kind? t = some (st, type)) (d : Nat) :
    (c.state s (n + d)).kind? t = some (st, type) := by
  induction d with
  | zero => exact h
  | succ d ih => exact held_succ (hok _) (hclear _) hheld ih

/-- Work without an attempt stays with its worker. -/
theorem kind?_of_stalls (hclaim : c.claimed s = some (id, row)) (hnone : c.GivesNoAttempt n row)
    (hok : ∃ r, (c.pass n s).1 = .ok r) :
    (c.pass n s).2.kind? id = some (.inProgress, row.type) := by
  have hwork : Triple (Stage s id row.type .inProgress)
      ((c.worker n).handleWork id (c.startedRow s row)) fun _ =>
        Stage s id row.type .inProgress := by
    refine triple_bind (stage_inner (((c.staff n).followsUp _ _ _ _).resolveIntensity _ _ _ _))
      fun _ => ?_
    rw [show (c.worker n).maxAttempts = 0 from hnone.2]
    exact triple_ret fun _ h => h
  obtain ⟨r, hr⟩ := hok
  have hpass := pass_some (n := n) hclaim hnone.1
  exact (hwork _ r _ (stage_started hclaim) (Prod.ext (by rw [← hr, hpass]; rfl) (by rw [hpass]; rfl))).own

/-- **A task that stalls is never let go.** -/
theorem not_quiet_of_stalls (hok : ∀ n, ∃ r, (c.pass n (c.state s n)).1 = .ok r)
    (hclear : ∀ n, ¬ c.Clarifies s n) (hstalls : c.Stalls s n) (d : Nat) :
    ¬ c.Quiet s (c.state s (n + 1 + d)) := by
  obtain ⟨id, row, hclaim, hnone⟩ := hstalls
  have hkept := held_add hok hclear (n := n + 1) rfl (kind?_of_stalls hclaim hnone (hok n)) d
  obtain ⟨hrow, hgrab, -⟩ := GrabArgs.pick_eq_some (pick_of_claimed hclaim).2
  intro hquiet
  rw [Store.kind?, Option.map_eq_some_iff] at hkept
  obtain ⟨row', hrow', hkind⟩ := hkept
  obtain ⟨hst, -⟩ := Prod.mk.inj hkind
  have hlast := hquiet id row' hrow'
  rw [hst] at hlast
  rcases hlast with h | h | h | ⟨h, -⟩ | ⟨-, hstart⟩
  · cases h
  · cases h
  · revert h
    decide
  · cases h
  · have hheld := held_add hok hclear (n := 0) rfl hstart n
    rw [Nat.zero_add, Store.kind?, hrow, Option.map_some, GrabArgs.status_of_grabbable hgrab]
      at hheld
    cases hheld

/-- **When the queue drains.** -/
theorem drains_iff (c : Crew) (s : Store) (hok : ∀ n, ∃ r, (c.pass n (c.state s n)).1 = .ok r) :
    (c.Drains s ∧ ∀ n, ¬ c.Processes s n → c.Quiet s (c.state s n)) ↔
      ∀ n, ¬ c.Clarifies s n ∧ ¬ c.Stalls s n := by
  constructor
  · rintro ⟨hdrains, hquiet⟩
    have hclear : ∀ n, ¬ c.Clarifies s n := fun n h => not_drains_of_clarifies h hdrains
    refine fun n => ⟨hclear n, fun hstalls => ?_⟩
    obtain ⟨last, hlast⟩ := hdrains.bddAbove
    have hidle : ¬ c.Processes s (n + 1 + last) := fun h => by
      have hle : n + 1 + last ≤ last := hlast h
      omega
    exact not_quiet_of_stalls hok hclear hstalls last (hquiet _ hidle)
  · intro h
    exact ⟨drains_of_clear hok fun n => (h n).1,
      fun n => quiet_of_idle hok (fun n => (h n).1) fun n => (h n).2⟩

end Crew

/-! ## One request -/

/-- A staff whose roles do nothing. -/
def idleStaff : Staff where
  sha256 := fun text => text
  repr := fun text => text
  str := fun value => value.asStr?.getD ""
  truncate _ := .ok 0
  registry _ := none
  config _ := {}
  approvalId _ := ⟨"0c8f1f5e-2f0b-4a39-9a70-3f4f0c1d2ea3", by decide⟩
  retroId := ⟨"0c8f1f5e-2f0b-4a39-9a70-3f4f0c1d2ea4", by decide⟩
  reviewId := ⟨"0c8f1f5e-2f0b-4a39-9a70-3f4f0c1d2ea5", by decide⟩
  curateId := ⟨"0c8f1f5e-2f0b-4a39-9a70-3f4f0c1d2ea6", by decide⟩
  researchId := ⟨"0c8f1f5e-2f0b-4a39-9a70-3f4f0c1d2ea7", by decide⟩
  newId _ := ⟨"0c8f1f5e-2f0b-4a39-9a70-3f4f0c1d2ea8", by decide⟩
  complete := .answer ""
  verify _ := .answer ⟨true, ""⟩
  resolveIntensity review retro := .answer (review, retro)
  retro := .answer {}
  commit _ := .answer []
  prep := .answer []
  scanDue := .answer false
  plan := .answer ⟨true, true, "", "", .null, .null⟩
  replan := .answer []

/-- A worker whose every pass has that staff. -/
def idleCrew : Crew where
  workerId := "worker-b"
  readInteger _ := none
  staff _ := idleStaff

/-- A request that says what hurts, and neither what it asks for nor how to check it. -/
def vagueRequest : Task :=
  { freshTask 0 with
    type := "feature_request"
    payload := [("from_workstream", .str "design"), ("to_workstream", .str "productivity"),
      ("title", .str "better reports"), ("problem", .str "reports are hard to read"),
      ("desired_capability", .str "")] }

/-- **Every pass triages the request again**, and none of them fails. -/
theorem retriaged_for_ever :
    (∀ n, (∃ r, (idleCrew.pass n (idleCrew.state (Store.single taskT vagueRequest 0) n)).1 = .ok r) ∧
        idleCrew.Processes (Store.single taskT vagueRequest 0) n) ∧
      ¬ idleCrew.Drains (Store.single taskT vagueRequest 0) := by
  have hfirst : idleCrew.Clarifies (Store.single taskT vagueRequest 0) 0 :=
    ⟨taskT, vagueRequest, rfl, rfl, _, rfl, by decide⟩
  refine ⟨fun n => ?_, Crew.not_drains_of_clarifies hfirst⟩
  have hclarifies := Crew.clarifies_add hfirst n
  rw [Nat.zero_add] at hclarifies
  refine ⟨?_, Crew.processes_of_clarifies hclarifies⟩
  obtain ⟨id, row, hclaim, hvague⟩ := hclarifies
  exact (Crew.turned_pass hclaim hvague).1

/-- A task of a type that no handler is for. -/
def strayTask : Task := { freshTask 0 with type := "stray" }

/-- A queue with one such task drains: the first pass abandons it. -/
theorem stray_drains :
    idleCrew.Drains (Store.single taskT strayTask 0) ∧
      ∀ n, ¬ idleCrew.Processes (Store.single taskT strayTask 0) n →
        idleCrew.Quiet (Store.single taskT strayTask 0)
          (idleCrew.state (Store.single taskT strayTask 0) n) := by
  have hfirst : idleCrew.claimed (Store.single taskT strayTask 0) = some (taskT, strayTask) := rfl
  have hlater : ∀ n, idleCrew.claimed (idleCrew.state (Store.single taskT strayTask 0) (n + 1)) =
      none := by
    intro n
    induction n with
    | zero => decide
    | succ n ih => rwa [Crew.state, Crew.pass_none ih]
  refine (Crew.drains_iff idleCrew (Store.single taskT strayTask 0) fun n => ?_).2 fun n => ?_
  · cases n with
    | zero => exact ⟨_, rfl⟩
    | succ n => exact ⟨none, congrArg Prod.fst (Crew.pass_none (hlater n))⟩
  · cases n with
    | zero =>
        refine ⟨fun ⟨id, row, hclaim, hvague⟩ => ?_, fun ⟨id, row, hclaim, hwork, _⟩ => ?_⟩
        · obtain ⟨rfl, rfl⟩ := Prod.mk.inj (Option.some.inj (hfirst.symm.trans hclaim))
          exact absurd hvague.1 (by decide)
        · obtain ⟨rfl, rfl⟩ := Prod.mk.inj (Option.some.inj (hfirst.symm.trans hclaim))
          exact absurd hwork (by decide)
    | succ n =>
        have hidle : ∀ id row, idleCrew.claimed
            (idleCrew.state (Store.single taskT strayTask 0) (n + 1)) ≠ some (id, row) := by
          intro id row hclaim
          cases (hlater n).symm.trans hclaim
        exact ⟨fun ⟨id, row, hclaim, _⟩ => hidle id row hclaim,
          fun ⟨id, row, hclaim, _⟩ => hidle id row hclaim⟩

end AiStudio.Runtime
