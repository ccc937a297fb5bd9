import AiStudio.Runtime.Effects
import AiStudio.Runtime.Worker

/-!
# Decisions and the tasks they park

An open decision that names a task keeps it `blocked` under the decision's id, as long
as no plain transition moves a task that an open decision names
(`parkAgreement_of_reach`). A pass of `resume_approved` that read the task before it was
parked on the decision makes such a transition (`parkAgreement_fails`).
-/

set_option autoImplicit false

namespace AiStudio.Runtime

open AiStudio.Data AiStudio.Concurrency

/-- The task is parked on the decision, and on nothing else. -/
def Store.ParkedOn (s : Store) (t d : Uuid) : Prop :=
  ∃ row, s.tasks.find? t = some row ∧ row.status = .blocked ∧
    row.blockedOnDecision = some d.text ∧ row.blockedOnApproval = none

/-- Every open decision that names a task has it parked. -/
def Store.Linked (s : Store) : Prop :=
  ∀ d dec t, s.decisions.find? d = some dec → dec.status = .open →
    dec.dependentTaskId = some t → s.ParkedOn t d

section Steps

variable {P α : Type}

/-- The step answers or withdraws the open decision. -/
structure Closes (st : Step database P α) (d : Uuid) : Prop where
  call : st.op.closes d = true
  opened : ∃ dec, st.before.state.decisions.find? d = some dec ∧ dec.status = .open
  shut : ∃ dec, st.after.state.decisions.find? d = some dec ∧ dec.status ≠ .open

/-- Decisions and parked tasks agree along the steps `τ`, which end in `s`. -/
structure ParkAgreement (τ : List (Step database P α)) (s : Store) : Prop where
  /-- Open decisions have their tasks parked. -/
  linked : s.Linked
  /-- Closing a decision re-queues the task parked on it. -/
  requeued : ∀ st ∈ τ, ∀ d dec t, Closes st d → st.before.state.decisions.find? d = some dec →
    dec.dependentTaskId = some t →
    st.before.state.ParkedOn t d ∧ st.after.state.status? t = some .upForGrabs
  /-- It touches no other task. -/
  exact : ∀ st ∈ τ, ∀ d t, Closes st d → st.after.state.core t ≠ st.before.state.core t →
    ∃ dec, st.before.state.decisions.find? d = some dec ∧ dec.dependentTaskId = some t
  /-- A decision is closed at most once. -/
  once : ∀ τ₁ st τ₂ st' τ₃ d, τ = τ₁ ++ st :: (τ₂ ++ st' :: τ₃) → Closes st d → ¬ Closes st' d
  /-- A request that cannot park its task leaves no trace. -/
  atomic : ∀ st ∈ τ, ∀ d a t, st.op = .requestDecision d a → a.dependentTaskId = some t →
    st.before.state.status? t ≠ some .inProgress → st.after.state = st.before.state

/-- The step is no transition whose guards let it move a task that an open decision
names. -/
def SparesParked (st : Step database P α) : Prop :=
  ∀ d dec t target a row, st.before.state.decisions.find? d = some dec → dec.status = .open →
    dec.dependentTaskId = some t → st.op = .transition t target a →
    st.before.state.tasks.find? t = some row → a.accepts target row.status = false

end Steps

/-! ## Parked tasks -/

/-- Being parked is part of the lifecycle of a task. -/
theorem Store.ParkedOn.of_core_eq {s s' : Store} {t d : Uuid} (h : s.ParkedOn t d)
    (hcore : s'.core t = s.core t) : s'.ParkedOn t d := by
  obtain ⟨row, hrow, hstatus, hdecision, happroval⟩ := h
  rw [Store.core_of_find? hrow, Store.core_eq_some] at hcore
  obtain ⟨row', hrow', hcore'⟩ := hcore
  have hs : row'.status = row.status := congrArg TaskCore.status hcore'
  have hr : row'.result = row.result := congrArg TaskCore.result hcore'
  refine ⟨row', hrow', hs.trans hstatus, ?_, ?_⟩
  · rw [Task.blockedOnDecision, hr]
    exact hdecision
  · rw [Task.blockedOnApproval, hr]
    exact happroval

theorem Store.ParkedOn.status {s : Store} {t d : Uuid} (h : s.ParkedOn t d) :
    s.status? t = some .blocked := by
  obtain ⟨row, hrow, hstatus, -⟩ := h
  rw [Store.status?, Store.core_of_find? hrow]
  exact congrArg some hstatus

/-- A task is parked on one decision. -/
theorem Store.ParkedOn.unique {s : Store} {t d d' : Uuid} (h : s.ParkedOn t d)
    (h' : s.ParkedOn t d') : d = d' := by
  obtain ⟨row, hrow, -, hd, -⟩ := h
  obtain ⟨row', hrow', -, hd', -⟩ := h'
  obtain rfl := Option.some.inj (hrow.symm.trans hrow')
  obtain ⟨text, canonical⟩ := d
  obtain ⟨text', canonical'⟩ := d'
  obtain rfl : text = text' := Option.some.inj (hd.symm.trans hd')
  rfl

/-- A request that commits has parked its task. -/
theorem requestDecision_parks {d : Uuid} {a : DecisionArgs} {s s' : Store} {r : Decision}
    (h : requestDecision d a s = .ok (r, s')) {t : Uuid} (ht : a.dependentTaskId = some t) :
    s.status? t = some .inProgress ∧ s'.ParkedOn t d := by
  obtain ⟨s₁, ws, hp, hrec⟩ := requestDecision_cases h
  obtain ⟨decisions, -, -, rfl⟩ := recordDecision_cases hrec
  rcases park_cases hp with ⟨hnone, -⟩ | ⟨t', row, ht', hm, rfl⟩
  · rw [hnone] at ht
    cases ht
  · obtain rfl := Option.some.inj (ht.symm.trans ht')
    have hfrom : row.status = .inProgress := by
      have hadmitted := hm.admitted
      simpa [parkArgs, TransitionArgs.admits] using hadmitted
    refine ⟨?_, _, s.find?_recordTransition_self t row .blocked (parkArgs d) hm.found, rfl, rfl,
      rfl⟩
    rw [Store.status?, Store.core_of_find? hm.found]
    exact congrArg some hfrom

/-- The only calls that may move a `blocked` task are a plain transition and the closing
of a decision that names it. -/
theorem StoreOp.Makes.of_blocked {o : StoreOp} {s : Store} {m : Move} {row : Task}
    (h : o.Makes s m row) (hadmits : m.Admits s row) (hblocked : row.status = .blocked) :
    o = .transition m.id m.target m.args ∨
      (m.target = .upForGrabs ∧ ∃ d dec, o.closes d = true ∧ s.decisions.find? d = some dec ∧
        dec.status = .open ∧ dec.dependentTaskId = some m.id) := by
  have hadmitted := hadmits.admitted
  rw [hblocked] at hadmitted
  cases o with
  | transition id target a =>
      obtain rfl : m = ⟨id, target, a⟩ := h
      exact Or.inl rfl
  | grabTask a locked =>
      have hup := GrabArgs.status_of_grabbable h.2.2.2
      rw [hblocked] at hup
      cases hup
  | rekickTask id made =>
      have hheld := h.2
      rw [hblocked] at hheld
      cases hheld
  | escalateStuckTask id reason count retries =>
      obtain rfl : m = _ := h
      cases hadmitted
  | failExhausted id scanned maxRetries =>
      obtain rfl : m = _ := h
      cases hadmitted
  | requestDecision d a =>
      exact absurd (hblocked.trans h.2.1.symm) hadmits.differs
  | answerDecision d answer resolver at? =>
      obtain ⟨⟨dec, hdec, hopen, hdep⟩, htarget, -⟩ := h
      exact Or.inr ⟨htarget, d, dec, by simp [StoreOp.closes], hdec, hopen, hdep⟩
  | withdrawDecision d resolver at? =>
      obtain ⟨⟨dec, hdec, hopen, hdep⟩, htarget, -⟩ := h
      exact Or.inr ⟨htarget, d, dec, by simp [StoreOp.closes], hdec, hopen, hdep⟩
  | _ => exact h.elim

variable {P α : Type} [DecidableEq P]

/-- **One step that spares parked tasks keeps the link.** -/
theorem Store.Linked.step {st : Step database P α} (hf : Fires st) (hspare : SparesParked st)
    (h : st.before.state.Linked) : st.after.state.Linked := by
  intro d dec t hdec hopen hdep
  rcases step_decisionEffect hf d with ⟨v, hv, heffect⟩ | ⟨e, -, hs⟩
  · cases heffect with
    | closed old new op found opened row shut =>
        obtain rfl := Option.some.inj (row.symm.trans hdec)
        exact absurd hopen shut
    | raised a new op fresh row dependent =>
        obtain rfl := Option.some.inj (row.symm.trans hdec)
        obtain ⟨r, hexec⟩ := exec_of_committed hf ⟨v, hv⟩ op
        exact (requestDecision_parks hexec (dependent.symm.trans hdep)).2
    | same row kept =>
        rw [row] at hdec
        have hparked := h d dec t hdec hopen hdep
        cases step_taskEffect hf t with
        | same core history finished => exact hparked.of_core_eq core
        | created a op fresh core history finished =>
            have hstatus := hparked.status
            rw [Store.status?, fresh] at hstatus
            cases hstatus
        | moved m row hid hmakes hadmits core history finished =>
            subst hid
            obtain ⟨row', hrow', hblocked, -⟩ := id hparked
            obtain rfl := Option.some.inj (hrow'.symm.trans hadmits.found)
            rcases hmakes.of_blocked hadmits hblocked with hop | ⟨-, d', dec', hcloses, hdec',
              hopen', hdep'⟩
            · have hrefused := hspare d dec m.id _ _ _ hdec hopen hdep hop hrow'
              rw [hadmits.accepts] at hrefused
              cases hrefused
            · obtain rfl := hparked.unique (h d' dec' m.id hdec' hopen' hdep')
              exact absurd hopen (kept hcloses dec hdec)
  · rw [hs] at hdec ⊢
    exact h d dec t hdec hopen hdep

omit [DecidableEq P] in
/-- Closing an open decision re-queues the task that is parked on it. -/
theorem closeDecision_requeues {d : Uuid} {f : Time → Decision → Decision} {s s' : Store}
    {r : Option Decision} (h : closeDecision d f s = .ok (r, s'))
    (hf : ∀ now row, (f now row).dependentTaskId = row.dependentTaskId) (hlinked : s.Linked)
    {dec : Decision} (hdec : s.decisions.find? d = some dec) (hopen : dec.status = .open) :
    (∀ t, dec.dependentTaskId = some t → s'.status? t = some .upForGrabs) ∧
      ∀ t, s'.core t ≠ s.core t → dec.dependentTaskId = some t := by
  rcases closeDecision_cases h with ⟨-, -, hshut⟩ | ⟨old, s₁, hold, -, -, hr, rfl⟩
  · exact absurd hopen (hshut dec hdec)
  · obtain rfl := Option.some.inj (hold.symm.trans hdec)
    rw [hf] at hr
    rcases resume_cases hr with ⟨rfl, hno⟩ | ⟨t, row, ht, hm, rfl⟩
    · refine ⟨fun t ht => ?_, fun t hne => absurd rfl hne⟩
      obtain ⟨row, hrow, hblocked, -⟩ := hlinked d old t hold hopen ht
      refine absurd ⟨hrow, ?_, ?_, ?_, rfl⟩ (hno t row ht)
      · rw [hblocked]; rfl
      · rw [hblocked]; exact fun h => nomatch h
      · rw [hblocked]; exact Or.inr rfl
    · refine ⟨fun t' ht' => ?_, fun t' hne => ?_⟩
      · obtain rfl := Option.some.inj (ht.symm.trans ht')
        have hafter := Store.find?_recordTransition_self _ t row .upForGrabs resumeArgs hm.found
        exact congrArg (Option.map TaskCore.status) (Store.core_of_find? hafter)
      · by_contra hother
        have hid : t' ≠ t := fun hid => hother (by rw [hid]; exact ht)
        refine hne ?_
        exact congrArg (Option.map Task.core)
          (Store.find?_recordTransition_ne _ t row .upForGrabs resumeArgs hid)

/-- **Closing a decision re-queues its task and no other.** -/
theorem closes_requeues {st : Step database P α} (hf : Fires st)
    (h : st.before.state.Linked) {d : Uuid} (hcloses : Closes st d) {dec : Decision}
    (hdec : st.before.state.decisions.find? d = some dec) :
    (∀ t, dec.dependentTaskId = some t → st.after.state.status? t = some .upForGrabs) ∧
      ∀ t, st.after.state.core t ≠ st.before.state.core t → dec.dependentTaskId = some t := by
  obtain ⟨dec', hdec', hopen⟩ := hcloses.opened
  obtain rfl := Option.some.inj (hdec.symm.trans hdec')
  obtain ⟨new, hnew, hshut⟩ := hcloses.shut
  have hcall := hcloses.call
  obtain ⟨pid, op, out, before, after⟩ := st
  have hcommit := exec_or_abort hf
  dsimp only at hcommit h hdec hnew hcall ⊢
  rcases hcommit with ⟨v, -, hexec⟩ | ⟨e, -, hs⟩
  · cases op with
    | answerDecision d' answer resolver at? =>
        obtain rfl : d' = d := by simpa [StoreOp.closes] using hcall
        have hclose : closeDecision d' (Decision.answerWith answer resolver at?) before.state =
          .ok (v, after.state) := hexec
        exact closeDecision_requeues hclose (fun _ _ => rfl) h hdec hopen
    | withdrawDecision d' resolver at? =>
        obtain rfl : d' = d := by simpa [StoreOp.closes] using hcall
        have hclose : closeDecision d' (Decision.withdrawBy resolver at?) before.state =
          .ok (v, after.state) := hexec
        exact closeDecision_requeues hclose (fun _ _ => rfl) h hdec hopen
    | _ => cases hcall
  · rw [hs, hdec] at hnew
    obtain rfl := Option.some.inj hnew
    exact absurd hopen hshut

/-- A closed decision stays closed. -/
theorem shut_reach {c c' : Config database P α} {τ : List (Step database P α)}
    (h : Reach c τ c') {d : Uuid}
    (hshut : ∃ dec, c.state.decisions.find? d = some dec ∧ dec.status ≠ .open) :
    ∃ dec, c'.state.decisions.find? d = some dec ∧ dec.status ≠ .open := by
  refine h.invariant (fun c => ∃ dec, c.state.decisions.find? d = some dec ∧ dec.status ≠ .open)
    (fun _ => True) (fun _ _ => trivial) hshut fun st hf _ hst => ?_
  obtain ⟨dec, hdec, hstatus⟩ := hst
  rcases step_decisionEffect hf d with ⟨v, -, heffect⟩ | ⟨e, -, hs⟩
  · cases heffect with
    | same row kept => exact ⟨dec, row.trans hdec, hstatus⟩
    | raised a new op fresh row dependent =>
        rw [fresh] at hdec
        cases hdec
    | closed old new op found opened row shut =>
        obtain rfl := Option.some.inj (found.symm.trans hdec)
        exact absurd opened hstatus
  · exact ⟨dec, by rw [hs]; exact hdec, hstatus⟩

/-- A request whose task is not `in_progress` fails. -/
theorem request_atomic {st : Step database P α} (hf : Fires st) {d : Uuid} {a : DecisionArgs}
    {t : Uuid} (hop : st.op = .requestDecision d a) (ht : a.dependentTaskId = some t)
    (hstatus : st.before.state.status? t ≠ some .inProgress) :
    st.after.state = st.before.state := by
  rcases exec_or_abort hf with ⟨v, hv, -⟩ | ⟨e, -, hs⟩
  · obtain ⟨r, hexec⟩ := exec_of_committed hf ⟨v, hv⟩ hop
    exact absurd (requestDecision_parks hexec ht).1 hstatus
  · exact hs

/-- **Decisions and parked tasks agree** in every run of the studio in which no plain
transition moves a task that an open decision names. -/
theorem parkAgreement_of_reach {c c' : Config database P α} {τ : List (Step database P α)}
    (h : Reach c τ c') (hlinked : c.state.Linked) (hspare : ∀ st ∈ τ, SparesParked st) :
    ParkAgreement τ c'.state := by
  have hlink : ∀ {τ' c''}, Reach c τ' c'' → (∀ st ∈ τ', SparesParked st) → c''.state.Linked :=
    fun h' hspare' => h'.invariant (fun c => c.state.Linked) SparesParked hspare' hlinked
      fun st hf hst hl => hl.step hf hst
  have hat : ∀ st ∈ τ, Fires st ∧ st.before.state.Linked := by
    intro st hst
    obtain ⟨τ₁, τ₂, rfl⟩ := List.append_of_mem hst
    obtain ⟨hf, hbefore, -⟩ := Reach.split_at h
    exact ⟨hf, hlink hbefore fun st' hst' => hspare st' (by simp [hst'])⟩
  refine ⟨hlink h hspare, fun st hst d dec t hcloses hdec hdep => ?_,
    fun st hst d t hcloses hne => ?_, ?_, fun st hst d a t hop ht hstatus => ?_⟩
  · obtain ⟨hf, hl⟩ := hat st hst
    obtain ⟨dec', hdec', hopen⟩ := hcloses.opened
    obtain rfl := Option.some.inj (hdec.symm.trans hdec')
    exact ⟨hl d dec t hdec hopen hdep, (closes_requeues hf hl hcloses hdec).1 t hdep⟩
  · obtain ⟨hf, hl⟩ := hat st hst
    obtain ⟨dec, hdec, -⟩ := hcloses.opened
    exact ⟨dec, hdec, (closes_requeues hf hl hcloses hdec).2 t hne⟩
  · intro τ₁ st τ₂ st' τ₃ d hτ hcloses hcloses'
    subst hτ
    obtain ⟨-, -, hafter⟩ := Reach.split_at h
    obtain ⟨-, hbefore, -⟩ := Reach.split_at hafter
    obtain ⟨dec, hdec, hshut⟩ := shut_reach hbefore hcloses.shut
    obtain ⟨dec', hdec', hopen⟩ := hcloses'.opened
    obtain rfl := Option.some.inj (hdec.symm.trans hdec')
    exact hshut hopen
  · exact request_atomic (hat st hst).1 hop ht hstatus

/-! ## A pass that read too early -/

/-- The row of a request to approve. -/
def approvalX : Uuid := ⟨"0c8f1f5e-2f0b-4a39-9a70-3f4f0c1d2e23", by decide⟩

/-- The decision the worker raises. -/
def decisionD : Uuid := ⟨"7b1d2c3e-4f5a-4b6c-8d7e-9f0a1b2c3d04", by decide⟩

/-- A task that waits for an approval that a human has granted. -/
def approvedPark : Store :=
  { Store.single taskT { freshTask 0 with
      status := .blocked, result := some (blockedResult approvalX "awaiting approval") } 0 with
    approvals := ⟨[(approvalX,
      { taskId := some taskT, role := "executor", tool := "filesystem",
        capabilities := ["fs.delete"], tier := "red", reason := "needs approval",
        requestFingerprint := "fp", status := .approved, createdAt := 0,
        resolvedAt := some 0, resolver := some "ana" })], List.nodup_singleton _⟩ }

/-- Two workers that resume parked tasks, one that runs the task, and a human. -/
inductive Role where
  | resumer
  | lateResumer
  | worker
  | human
  deriving DecidableEq

/-- The worker claims the task and raises a decision about it; the human answers. -/
def deciding : Config database Role Unit where
  state := approvedPark
  pool
    | .resumer => do
        let _ ← resumeApproved
    | .lateResumer => do
        let _ ← resumeApproved
    | .worker => do
        let _ ← claimTask { workerId := "worker-a" } []
        let _ ← call (.requestDecision decisionD
          { workstream := "productivity", question := "which vendor?",
            dependentTaskId := some taskT })
    | .human => do
        let _ ← call (.answerDecision decisionD "vendor a" "ana" none)

/-- The late pass reads the task and its approval; the other pass re-queues the task, and
the worker parks it on the decision. -/
def parkedAgain : List (Choice Role Exn) :=
  List.replicate 2 (.lateResumer, none) ++ List.replicate 4 (.resumer, none) ++
    List.replicate 3 (.worker, none)

/-- **The late pass re-queues the task that waits for the open decision.** -/
theorem parkAgreement_fails :
    ¬ ParkAgreement (deciding.trace (parkedAgain ++ [(.lateResumer, none)]))
      (deciding.run (parkedAgain ++ [(.lateResumer, none)])).state := by
  intro h
  exact absurd (h.linked decisionD _ taskT rfl rfl rfl).status (by decide)

/-- A step that is no plain transition, or starts without decisions, spares parked
tasks. -/
def sparesParked? (st : Step database Role Unit) : Bool :=
  st.before.state.decisions.rows.isEmpty ||
    match st.op with
    | .transition .. => false
    | _ => true

theorem sparesParked_of_check {st : Step database Role Unit} (h : sparesParked? st = true) :
    SparesParked st := by
  intro d dec t target a row hdec _ _ hop
  rw [sparesParked?, hop, Bool.or_false, List.isEmpty_iff] at h
  rw [Table.find?_eq_some_iff, h] at hdec
  cases hdec

/-- The run in which the late pass stops there, and the human answers. -/
theorem parkAgreement_of_reach_deciding :
    ParkAgreement (deciding.trace (parkedAgain ++ [(.human, none)]))
      (deciding.run (parkedAgain ++ [(.human, none)])).state := by
  refine parkAgreement_of_reach (Reach.of_run _ _) (fun d dec t hdec => nomatch hdec)
    fun st hst => sparesParked_of_check ?_
  have hall : (deciding.trace (parkedAgain ++ [(.human, none)])).all sparesParked? = true := by
    decide
  exact List.all_eq_true.1 hall st hst

end AiStudio.Runtime
