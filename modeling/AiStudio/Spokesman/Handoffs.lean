import AiStudio.Concurrency.Triple
import AiStudio.Runtime.Effects
import AiStudio.Spokesman.App

/-!
# Acts on handoffs

Embeds `active_handoff` of `spokesman/handoff.py`, and says what each act on the handoffs does
to them and to their approvals: `propose_handoff`, a verdict by message or by way of the agent,
`activate_handoff_for_approval` and `end_handoff`. What else these call keeps aloof of both
(`unchanged_of_only`). Runs of them are in `AiStudio.Spokesman.Lifecycle`.
-/

set_option autoImplicit false

namespace AiStudio.Spokesman

open AiStudio.Data AiStudio.Runtime AiStudio.Concurrency

/-! ## The handoff that is relayed -/

/-- The handoff is active and has not expired. -/
def Handoff.live (h : Handoff) (now : Time) : Bool := h.status = .active && now < h.expiresAt

/-- The handoff is one of the workstream that is asked for, if one is. -/
def Handoff.within (h : Handoff) (workstream : Option String) : Bool :=
  workstream.all (· = h.workstream)

/-- `activated_at DESC NULLS LAST`. -/
def activatedLater (x y : Uuid × Handoff) : Bool :=
  match x.2.activatedAt, y.2.activatedAt with
  | none, none => true
  | none, some _ => false
  | some _, none => true
  | some a, some b => b ≤ a

/-- `active_handoff`. -/
def activeHandoff (workstream : Option String) (s : Store × Surface) : Option (Uuid × Handoff) :=
  ((s.2.handoffs.select fun _ h => h.live s.1.now && h.within workstream).insertionSort
    (activatedLater · ·)).head?

theorem of_activeHandoff {workstream : Option String} {s : Store × Surface} {id : Uuid}
    {h : Handoff} (hactive : activeHandoff workstream s = some (id, h)) :
    s.2.handoffs.find? id = some h ∧ h.live s.1.now = true ∧ h.within workstream = true := by
  have hmem := List.mem_of_mem_head? hactive
  rw [List.mem_insertionSort, Table.mem_select, Bool.and_eq_true] at hmem
  exact hmem

theorem activeHandoff_eq_none_iff {workstream : Option String} {s : Store × Surface} :
    activeHandoff workstream s = none ↔
      ∀ id h, s.2.handoffs.find? id = some h → h.live s.1.now = true →
        h.within workstream = false := by
  rw [activeHandoff, List.head?_eq_none_iff, ← List.length_eq_zero_iff, List.length_insertionSort,
    List.length_eq_zero_iff, List.eq_nil_iff_forall_not_mem]
  constructor
  · intro hnone id h hfound hlive
    have hnot := hnone (id, h)
    rw [Table.mem_select, hlive, Bool.true_and] at hnot
    exact Bool.eq_false_iff.2 fun hin => hnot ⟨hfound, hin⟩
  · rintro hnone ⟨id, h⟩ hmem
    rw [Table.mem_select, Bool.and_eq_true] at hmem
    have hout := hnone id h hmem.1 hmem.2.1
    rw [hmem.2.2] at hout
    cases hout

/-! ## What is done about handoffs -/

/-- The verb of a message and the words after it. -/
def InboundMessage.command? (msg : InboundMessage) : Option (String × List String) :=
  match msg.text with
  | .str text =>
      match words (strip text) with
      | [] => none
      | word :: parts => some (lower word, parts)
  | _ => none

/-- `_RESOLVE_VERBS`. -/
def resolveVerbs : List String := ["approve", "approved", "deny", "denied"]

/-- A message whose verb gives a verdict. -/
structure VerdictMessage where
  msg : InboundMessage
  verb : String
  parts : List String
  reads : msg.command? = some (verb, parts)
  resolves : verb ∈ resolveVerbs

/-- The approval a verdict by message names. -/
def VerdictMessage.approvalId? (m : VerdictMessage) : Option Uuid := m.parts.head?.bind uuid?

/-- An act on the handoffs. The ids are those the database draws. -/
inductive HandoffAct where
  | propose (approvalId handoffId : Uuid) (role reason workstream : String)
  | command (m : VerdictMessage)
  | tool (args : Doc)
  | activate (approvalId : Uuid)
  | endCurrent
  | endById (id : Uuid)
  | wait (elapsed : Nat)

/-- The act is a human's verdict, by message or by way of the agent. -/
def HandoffAct.isVerdict : HandoffAct → Bool
  | .command _ => true
  | .tool _ => true
  | _ => false

/-- The act proposes a handoff. -/
def HandoffAct.isProposal : HandoffAct → Bool
  | .propose .. => true
  | _ => false

/-- The act ends the handoff, when it is the one that is relayed. -/
def HandoffAct.ends (act : HandoffAct) (id : Uuid) : Bool :=
  match act with
  | .endCurrent => true
  | .endById id' => id = id'
  | _ => false

/-- The role a proposal is recorded under. -/
def handoffRole (role : String) : String := orText (lower (strip (orText role "pm"))) "pm"

/-- The reason a proposal is recorded with. -/
def handoffReason (reason : String) : String :=
  clip 500 (strip (orText reason "Specialist back-and-forth needed."))

namespace Agent

variable (agent : Agent)

/-- The word of a verdict by way of the agent. -/
def toolDecision (args : Doc) : String :=
  lower (strip (agent.textOr "" (Doc.getD args "decision" .null)))

/-- The approval a verdict by way of the agent means. -/
def toolApprovalId? (args : Doc) (s : Store × Surface) : Option Uuid :=
  match ((agent.meant args).eval s).1 with
  | .ok (.ok text) => uuid? text
  | _ => none

/-- What an act does. -/
def carryOut : HandoffAct → Errand Unit
  | .propose approvalId handoffId role reason workstream =>
      (proposeHandoff agent.sha256 approvalId handoffId role reason workstream).bind fun _ => .ret ()
  | .command m => (agent.handleInboundCommand [] m.msg).bind fun _ => .ret ()
  | .tool args => (agent.runTool true [] args .resolveApproval).bind fun _ => .ret ()
  | .activate approvalId => (activateHandoffForApproval approvalId).bind fun _ => .ret ()
  | .endCurrent => endHandoff.bind fun _ => .ret ()
  | .endById id => (endHandoffById id).bind fun _ => .ret ()
  | .wait elapsed => runtime (call (.tick elapsed))

/-- The state an act leaves, whether or not it raises. -/
def next (s : Store × Surface) (act : HandoffAct) : Store × Surface :=
  ((agent.carryOut act).eval s).2

/-- The state a sequence of acts leaves. -/
def after (s : Store × Surface) (acts : List HandoffAct) : Store × Surface :=
  acts.foldl agent.next s

@[simp] theorem after_nil (s : Store × Surface) : agent.after s [] = s := rfl

@[simp] theorem after_concat (s : Store × Surface) (acts : List HandoffAct) (act : HandoffAct) :
    agent.after s (acts ++ [act]) = agent.next (agent.after s acts) act :=
  List.foldl_concat ..

end Agent

/-! ## What leaves approvals and handoffs alone -/

/-- The statement writes no row of `spokesman_handoffs`. -/
def SurfaceOp.sparesHandoffs : SurfaceOp → Bool
  | .insertHandoff .. | .activateHandoff .. | .endHandoff | .endHandoffById .. => false
  | _ => true

/-- The calls that write neither an approval nor a handoff. -/
def Aloof : spokesman.Op → Prop
  | .inl o => sparesApprovals o = true
  | .inr o => o.sparesHandoffs = true

/-- The approvals and the handoffs are the same. -/
structure Unchanged (s s' : Store × Surface) : Prop where
  approvals : s'.1.approvals = s.1.approvals
  handoffs : s'.2.handoffs = s.2.handoffs

theorem Unchanged.refl (s : Store × Surface) : Unchanged s s := ⟨rfl, rfl⟩

theorem Unchanged.trans {s s' s'' : Store × Surface} (h : Unchanged s s') (h' : Unchanged s' s'') :
    Unchanged s s'' :=
  ⟨h'.approvals.trans h.approvals, h'.handoffs.trans h.handoffs⟩

theorem approvals_of_spares {o : StoreOp} {s s' : Store} {r : o.Res}
    (hspares : sparesApprovals o = true) (h : o.exec s = .ok (r, s')) :
    s'.approvals = s.approvals := by
  refine (exec_frame h).approvals ?_
  cases o with
  | insertApproval => cases hspares
  | resolveApproval => cases hspares
  | consumeGrant => cases hspares
  | _ => rfl

theorem handoffs_of_spares {o : SurfaceOp} {s s' : Store × Surface} {r : o.Res}
    (hspares : o.sparesHandoffs = true) (h : o.exec s = .ok (r, s')) :
    s'.2.handoffs = s.2.handoffs := by
  cases o with
  | insertHandoff => cases hspares
  | activateHandoff => cases hspares
  | endHandoff => cases hspares
  | endHandoffById => cases hspares
  | _ => exact (congrArg (·.2.2.handoffs) (Except.ok.inj h)).symm

/-- **What keeps aloof of approvals and handoffs leaves them as they are.** -/
theorem unchanged_of_only {α : Type} {p : Errand α} (hp : p.Only Aloof) (s : Store × Surface) :
    Unchanged s (p.eval s).2 := by
  refine hp.eval_invariant (Unchanged s) (fun o s₁ r s₂ ho hs hexec => ?_) (fun o s₁ _ hs => ?_)
    (.refl s)
  · refine hs.trans ?_
    cases o with
    | inl o =>
        obtain ⟨hok, hsurface⟩ := Interface.exec_inl_eq_ok hexec
        exact ⟨approvals_of_spares ho hok, by rw [hsurface]⟩
    | inr o =>
        exact ⟨by rw [SurfaceOp.exec_store hexec], handoffs_of_spares ho hexec⟩
  · cases o with
    | inl o => exact hs
    | inr o => exact hs

theorem aloof_runtime {α : Type} {p : Process α} (h : p.Only (sparesApprovals · = true)) :
    (runtime p).Only Aloof :=
  h.inl fun _ ho => ho

theorem aloof_emitEvent (workstream : String) (taskId : Option Uuid) (payload : SinkPayload) :
    (runtime (emitEvent workstream taskId payload)).Only Aloof :=
  aloof_runtime (emitEvent_only _ _ _)

/-! ## The clock -/

/-- Time does not go back. -/
theorem exec_now_le {o : StoreOp} {s s' : Store} {r : o.Res} (h : o.exec s = .ok (r, s')) :
    s.now ≤ s'.now := by
  cases o with
  | tick elapsed =>
      obtain ⟨-, rfl⟩ := Prod.mk.inj (Except.ok.inj h)
      exact Int.le_add_of_nonneg_right (Int.natCast_nonneg _)
  | _ => exact ((exec_frame h).clock rfl).ge

theorem now_le_eval {α : Type} (p : Errand α) (s : Store × Surface) :
    s.1.now ≤ (p.eval s).2.1.now := by
  refine p.eval_invariant (fun s' => s.1.now ≤ s'.1.now) (fun o s₁ r s₂ hs hexec => hs.trans ?_)
    (fun o s₁ e hs _ => ?_) s le_rfl
  · cases o with
    | inl o =>
        exact exec_now_le (Interface.exec_inl_eq_ok hexec).1
    | inr o => rw [SurfaceOp.exec_store hexec]
  · cases o with
    | inl o => exact hs
    | inr o => exact hs

/-! ## The resumption after a verdict -/

/-- An approval id in the result of the task can be read. -/
def Readable (row : Task) : Prop :=
  ∀ text, row.blockedOnApproval = some text → text ≠ "" → isUuidText text = true

/-- Every parked task names an approval that can be looked up. -/
def Resumable (s : Store) : Prop :=
  ∀ id row, s.tasks.find? id = some row → row.status = .blocked → Readable row

/-- A transition raises only for a move that is not legal, and for a column it names twice. -/
theorem transition_returns {id : Uuid} {target : TaskStatus} {a : TransitionArgs}
    (hdup : a.duplicatesColumn = false)
    (hlegal : ∀ source, a.admits source = true → (a.force || canTransition source target) = true)
    (s : Store) : ∃ r s', transition id target a s = .ok (r, s') := by
  cases h : transition id target a s with
  | ok x => exact ⟨x.1, x.2, rfl⟩
  | error e =>
      unfold transition at h
      split at h
      · cases h
      · rename_i row _
        split at h
        · cases h
        · rename_i hadmits
          have hlegal := hlegal row.status (by simpa using hadmits)
          simp only [← Bool.not_or, hlegal, hdup] at h
          split at h <;> cases h

/-- A call that never raises. -/
theorem total_call {o : StoreOp} (h : ∀ s, ∃ r s', o.exec s = .ok (r, s')) :
    Program.Total (fun _ => True) (call o) fun _ _ => True := by
  refine Program.total_op fun s _ => ?_
  obtain ⟨r, s', hexec⟩ := h s
  exact ⟨r, s', hexec, trivial⟩

theorem resumeGranted_total (id : Uuid) (row : Task) (approvalId : Uuid) (result : ResumeResult) :
    Program.Total (fun _ => True) (resumeGranted id row approvalId result) fun _ _ => True := by
  refine Program.total_bind (total_call (transition_returns rfl fun source hadmits => ?_))
    fun requeued => ?_
  · have hblocked : source = .blocked := by simpa [TransitionArgs.admits, resumeArgs] using hadmits
    subst hblocked
    rfl
  · cases requeued with
    | none => exact Program.total_ret fun _ _ => trivial
    | some row =>
        exact Program.total_bind (total_call fun s => ⟨_, _, rfl⟩) fun _ =>
          Program.total_ret fun _ _ => trivial

theorem failDenied_total (id approvalId : Uuid) (approval : Approval) (result : ResumeResult) :
    Program.Total (fun _ => True) (failDenied id approvalId approval result) fun _ _ => True := by
  have hcomplete : Program.Total (fun _ => True) (completeTask id
      { result := some (deniedResult approval approvalId), status := .abandoned, force := true })
      fun _ _ => True :=
    total_call (transition_returns rfl fun _ _ => rfl)
  refine Program.total_bind hcomplete fun failed => ?_
  cases failed with
  | none => exact Program.total_ret fun _ _ => trivial
  | some row => exact Program.total_ret fun _ _ => trivial

theorem resumeTask_total {row : Task} (h : Readable row) (id : Uuid) (result : ResumeResult) :
    Program.Total (fun _ => True) (resumeTask id row result) fun _ _ => True := by
  unfold resumeTask
  split
  · exact Program.total_ret fun _ _ => trivial
  · exact Program.total_ret fun _ _ => trivial
  · rename_i text hne hblocked
    have hread : parseUuid text = .ok ⟨text, h text hblocked hne⟩ := dif_pos (h text hblocked hne)
    rw [hread]
    refine Program.total_bind (total_call fun s => ⟨_, _, rfl⟩) fun approval => ?_
    cases approval with
    | none => exact Program.total_ret fun _ _ => trivial
    | some approval =>
        dsimp only
        split
        · exact resumeGranted_total _ _ _ _
        · exact failDenied_total _ _ _ _
        · exact Program.total_ret fun _ _ => trivial
        · exact Program.total_ret fun _ _ => trivial

theorem resumeEach_total {tasks : List (Uuid × Task)} (h : ∀ task ∈ tasks, Readable task.2)
    (result : ResumeResult) :
    Program.Total (fun _ => True) (resumeEach result tasks) fun _ _ => True := by
  induction tasks generalizing result with
  | nil => exact Program.total_ret fun _ _ => trivial
  | cons task tasks ih =>
      exact Program.total_bind (resumeTask_total (h _ List.mem_cons_self) _ _) fun result =>
        ih (fun task htask => h task (List.mem_cons_of_mem _ htask)) result

/-- **A pass over the parked tasks returns** where each names an approval that can be looked up. -/
theorem resumeApproved_total : Program.Total Resumable resumeApproved fun _ _ => True := by
  intro s hs
  have hread : ∀ task ∈ s.blockedTasks, Readable task.2 := fun task htask =>
    hs task.1 task.2 ((s.mem_blockedTasks _ _).1 htask).1 ((s.mem_blockedTasks _ _).1 htask).2
  obtain ⟨result, s', hrest, -⟩ := resumeEach_total hread {} s trivial
  exact ⟨result, s', (Program.eval_bind_ok (Program.eval_op_ok rfl)).trans hrest, trivial⟩

/-! ## A verdict and an activation -/

/-- The status of an approval. -/
def approvalStatus (s : Store × Surface) (id : Uuid) : Option ApprovalStatus :=
  (s.1.approvals.find? id).map Approval.status

theorem Unchanged.approvalStatus {s s' : Store × Surface} (h : Unchanged s s') (id : Uuid) :
    approvalStatus s' id = approvalStatus s id := by
  rw [Spokesman.approvalStatus, h.approvals, Spokesman.approvalStatus]

/-- What follows and keeps aloof. -/
theorem unchanged_bind {α β : Type} (p : Errand α) {f : α → Errand β}
    (hf : ∀ a, (f a).Only Aloof) (s : Store × Surface) :
    Unchanged (p.eval s).2 ((p.bind f).eval s).2 := by
  rw [Program.eval_bind]
  cases p.eval s with
  | mk r s' =>
      cases r with
      | ok a => exact unchanged_of_only (hf a) s'
      | error e => exact .refl s'

/-- A handler that keeps aloof. -/
theorem unchanged_tryCatch {α : Type} (p : Errand α) {f : Exn → Errand α}
    (hf : ∀ e, (f e).Only Aloof) (s : Store × Surface) :
    Unchanged (p.eval s).2 ((p.tryCatch f).eval s).2 := by
  rw [Program.eval_tryCatch]
  cases p.eval s with
  | mk r s' =>
      cases r with
      | ok a => exact .refl s'
      | error e => exact unchanged_of_only (hf e) s'

/-- The row after an activation for the approval. -/
def Handoff.activatedFor (h : Handoff) (id : Uuid) (now : Time) : Handoff :=
  if h.approvalId = id ∧ h.status = .proposed then
    { h with status := .active, activatedAt := some now }
  else h

/-- The proposed handoffs of the approval are activated, and nothing else is done. -/
structure Activated (s s' : Store × Surface) (id : Uuid) : Prop where
  approvals : s'.1.approvals = s.1.approvals
  handoffs : ∀ x, s'.2.handoffs.find? x =
    (s.2.handoffs.find? x).map (·.activatedFor id s.1.now)

theorem Activated.trans {s s' s'' : Store × Surface} {id : Uuid} (h : Activated s s' id)
    (h' : Unchanged s' s'') : Activated s s'' id :=
  ⟨h'.approvals.trans h.approvals, fun x => by rw [h'.handoffs, h.handoffs]⟩

/-- **What `activate_handoff_for_approval` does**, whatever status the approval has. -/
theorem activated_activateHandoff (id : Uuid) (s : Store × Surface) :
    Activated s ((activateHandoffForApproval id).eval s).2 id := by
  have hfirst : ∃ r s', (stmt (.activateHandoff id)).eval s = (.ok r, s') ∧ Activated s s' id := by
    refine ⟨_, _, Program.eval_op_ok rfl, rfl, fun x => ?_⟩
    dsimp only
    rw [Table.find?_modifyWhere]
    refine congrArg (Option.map · _) (funext fun h => ?_)
    simp only [Handoff.activatedFor, decide_eq_true_eq]
  obtain ⟨r, s', heval, hactivated⟩ := hfirst
  have hrest : Unchanged ((stmt (.activateHandoff id)).eval s).2
      ((activateHandoffForApproval id).eval s).2 := by
    refine unchanged_bind _ (fun handoff => ?_) s
    cases handoff with
    | none => exact .ret _
    | some x => exact .bind (aloof_emitEvent _ _ _) fun _ => .ret _
  rw [heval] at hrest
  exact hactivated.trans hrest

/-- The approval, which was pending, has its verdict, and the others have kept their status. -/
structure Decided (s s' : Store × Surface) (id : Uuid) (decision : ApprovalStatus) : Prop where
  verdict : decision = .approved ∨ decision = .denied
  pending : approvalStatus s id = some .pending
  approvals : ∀ k, approvalStatus s' k = if k = id then some decision else approvalStatus s k

theorem Decided.trans {s s' s'' : Store × Surface} {id : Uuid} {decision : ApprovalStatus}
    (h : Decided s s' id decision) (happrovals : s''.1.approvals = s'.1.approvals) :
    Decided s s'' id decision :=
  ⟨h.verdict, h.pending, fun k => by rw [← h.approvals, approvalStatus, happrovals]; rfl⟩

/-- A verdict that is recorded. -/
theorem decided_resolveApproval {id : Uuid} {decision : ApprovalStatus}
    {resolver workstream : String} {s s' : Store} {row : Approval}
    (h : resolveApproval id decision resolver workstream s = .ok (some row, s'))
    (surface : Surface) :
    Decided (s, surface) (s', surface) id decision ∧ row.status = decision ∧
      s'.tasks = s.tasks := by
  rcases resolveApproval_cases h with ⟨hnone, -⟩ | ⟨old, new, ws, hold, hpending, hverdict, hnew,
    hrow, rfl⟩
  · cases hnone
  · obtain rfl := Option.some.inj hrow
    refine ⟨⟨hverdict, ?_, fun k => ?_⟩, by rw [hnew], rfl⟩
    · rw [approvalStatus, hold, Option.map_some, hpending]
    · by_cases hk : k = id
      · rw [if_pos hk, hk, approvalStatus, Store.appendEvent_approvals,
          find?_setApproval_self _ hold, hnew]
        rfl
      · rw [if_neg hk, approvalStatus, Store.appendEvent_approvals, find?_setApproval_ne _ _ hk]
        rfl

/-- **What `resolve` does**: nothing, or it gives the pending approval that is named the verdict
that is named. It then returns the row, unless the resumption raises. -/
theorem eval_resolve_cases (approvalId decision resolver : String) (s : Store × Surface) :
    (((resolve approvalId decision resolver).eval s).2 = s ∧
      ∀ x, ((resolve approvalId decision resolver).eval s).1 ≠ .ok (some x)) ∨
    ∃ id canonical row s', uuid? approvalId = some id ∧
      normalizeDecision decision = some canonical ∧ Decided s s' id canonical ∧
      s'.2.handoffs = s.2.handoffs ∧ row.status = canonical ∧
      ((resolve approvalId decision resolver).eval s = (.ok (some (id, row)), s') ∨
        ¬ Resumable s.1 ∧ ∃ e, (resolve approvalId decision resolver).eval s = (.error e, s')) := by
  unfold resolve
  cases hcanonical : normalizeDecision decision with
  | none => exact .inl ⟨rfl, fun x h => by cases h⟩
  | some canonical =>
      dsimp only
      unfold parseId
      cases hid : uuid? approvalId with
      | none => exact .inl ⟨rfl, fun x h => by cases h⟩
      | some id =>
          dsimp only
          cases hexec : resolveApproval id canonical resolver "productivity" s.1 with
          | error e =>
              have heval : (runtime (call (.resolveApproval id canonical resolver
                  "productivity"))).eval s = (.error e, s) := by
                rw [Program.eval_inl, Program.eval_op_error hexec]
              exact .inl ⟨by rw [Program.bind_eq, Program.eval_bind_error heval],
                fun x h => by rw [Program.bind_eq, Program.eval_bind_error heval] at h; cases h⟩
          | ok x =>
              obtain ⟨r, s₁⟩ := x
              have heval : (runtime (call (.resolveApproval id canonical resolver
                  "productivity"))).eval s = (.ok r, (s₁, s.2)) := by
                rw [Program.eval_inl, Program.eval_op_ok hexec]
              rw [Program.bind_eq, Program.eval_bind_ok heval]
              cases r with
              | none =>
                  rcases resolveApproval_cases hexec with ⟨-, rfl⟩ | ⟨_, _, _, _, _, _, _, hrow, _⟩
                  · exact .inl ⟨rfl, fun x h => by cases h⟩
                  · cases hrow
              | some row =>
                  obtain ⟨hdecided, hstatus, htasks⟩ := decided_resolveApproval hexec s.2
                  have hrest := Program.eval_bind_ret (runtime resumeApproved)
                    (fun _ => some (id, row)) (s₁, s.2)
                  have haloof := unchanged_of_only (aloof_runtime resumeApproved_only) (s₁, s.2)
                  refine .inr ⟨id, canonical, row, _, rfl, rfl, hdecided.trans haloof.approvals,
                    haloof.handoffs, hstatus, ?_⟩
                  cases hresume : (runtime resumeApproved).eval (s₁, s.2) with
                  | mk out s₂ =>
                      rw [hresume] at hrest
                      cases out with
                      | ok result => exact .inl hrest
                      | error e =>
                          refine .inr ⟨fun hs => ?_, e, hrest⟩
                          obtain ⟨result, s₃, hreturns, -⟩ := resumeApproved_total s₁
                            (by unfold Resumable; rw [htasks]; exact hs)
                          rw [Program.eval_inl, hreturns] at hresume
                          cases (Prod.mk.inj hresume).1

/-- A verdict and what it does to the handoffs: it may activate those of the approval, if it
approves, and where all is `good` it does. -/
structure Resolved (s s' : Store × Surface) (id : Uuid) (decision : ApprovalStatus) (good : Prop) :
    Prop extends Decided s s' id decision where
  handoffs : (s'.2.handoffs = s.2.handoffs ∧ ¬ (good ∧ decision = .approved)) ∨
    (decision = .approved ∧ ∃ now, ∀ x, s'.2.handoffs.find? x =
      (s.2.handoffs.find? x).map (·.activatedFor id now))

theorem Resolved.trans {s s' s'' : Store × Surface} {id : Uuid} {decision : ApprovalStatus}
    {good : Prop} (h : Resolved s s' id decision good) (h' : Unchanged s' s'') :
    Resolved s s'' id decision good where
  toDecided := h.toDecided.trans h'.approvals
  handoffs := by
    rw [h'.handoffs]
    exact h.handoffs

/-- What an errand does to approvals and handoffs, when it is there for the verdict on `id?`. -/
inductive VerdictEffect (s s' : Store × Surface) (id? : Option Uuid)
    (decision? : Option ApprovalStatus) (good : Prop) : Prop where
  | unchanged (h : Unchanged s s')
  | resolved (id : Uuid) (decision : ApprovalStatus) (hid : id? = some id)
      (hdecision : decision? = some decision) (h : Resolved s s' id decision good)

theorem VerdictEffect.trans {s s' s'' : Store × Surface} {id? : Option Uuid}
    {decision? : Option ApprovalStatus} {good : Prop}
    (h : VerdictEffect s s' id? decision? good) (h' : Unchanged s' s'') :
    VerdictEffect s s'' id? decision? good := by
  cases h with
  | unchanged h => exact .unchanged (h.trans h')
  | resolved id decision hid hdecision h => exact .resolved id decision hid hdecision (h.trans h')

/-- `resolve`, followed by an errand that activates the handoffs of what it approves. -/
theorem verdictEffect_resolve {β : Type} (approvalId decision resolver : String)
    (s : Store × Surface) (f : Except Exn (Option (Uuid × Approval)) → Errand β) (spelled : Prop)
    (hraise : ∀ e, (f (.error e)).Only Aloof) (hnone : (f (.ok none)).Only Aloof)
    (hactive : ∀ id row s, row.status = .approved → spelled →
      Activated s ((f (.ok (some (id, row)))).eval s).2 id)
    (haloof : ∀ id row, ¬ (row.status = .approved ∧ spelled) →
      (f (.ok (some (id, row)))).Only Aloof) :
    VerdictEffect s (((resolve approvalId decision resolver).attempt.bind f).eval s).2
      (uuid? approvalId) (normalizeDecision decision) (spelled ∧ Resumable s.1) := by
  rw [Program.eval_bind, Program.eval_attempt]
  rcases eval_resolve_cases approvalId decision resolver s with ⟨hsame, hnot⟩ |
    ⟨id, canonical, row, s', hid, hcanonical, hdecided, hhandoffs, hstatus, heval⟩
  · refine .unchanged ?_
    rw [hsame]
    cases hout : ((resolve approvalId decision resolver).eval s).1 with
    | error e => exact unchanged_of_only (hraise e) s
    | ok x =>
        cases x with
        | none => exact unchanged_of_only hnone s
        | some x => exact absurd hout (hnot x)
  · refine .resolved id canonical hid hcanonical ?_
    rcases heval with heval | ⟨hstuck, e, heval⟩
    · rw [heval]
      dsimp only
      by_cases hgood : row.status = .approved ∧ spelled
      · have hactivated := hactive id row s' hgood.1 hgood.2
        refine ⟨hdecided.trans hactivated.approvals, .inr ⟨hstatus ▸ hgood.1, s'.1.now, fun x => ?_⟩⟩
        rw [hactivated.handoffs, hhandoffs]
      · have hunchanged := unchanged_of_only (haloof id row hgood) s'
        refine ⟨hdecided.trans hunchanged.approvals, .inl ⟨hunchanged.handoffs.trans hhandoffs, ?_⟩⟩
        rintro ⟨⟨hspelled, -⟩, happroved⟩
        exact hgood ⟨hstatus ▸ happroved, hspelled⟩
    · rw [heval]
      have hunchanged := unchanged_of_only (hraise e) s'
      refine ⟨hdecided.trans hunchanged.approvals, .inl ⟨hunchanged.handoffs.trans hhandoffs, ?_⟩⟩
      exact fun hgood => hstuck hgood.1.2

/-! ## The two channels of a verdict -/

namespace Agent

variable (agent : Agent)

/-- A message whose verb gives a verdict is handled by `approve` and `deny`. -/
theorem handleInboundCommand_verdict (path : List Nat) (m : VerdictMessage) :
    ∃ recipient, agent.handleInboundCommand path m.msg =
      (resolveCommand m.verb m.parts (agent.resolver m.msg.sender) recipient).bind fun doc =>
        .ret (some doc) := by
  obtain ⟨msg, verb, parts, hreads, hresolves⟩ := m
  dsimp only
  unfold InboundMessage.command? at hreads
  unfold handleInboundCommand
  cases htext : msg.text with
  | str text =>
      simp only [htext] at hreads ⊢
      cases hwords : words (strip text) with
      | nil =>
          rw [hwords] at hreads
          cases hreads
      | cons word rest =>
          rw [hwords] at hreads
          obtain ⟨rfl, rfl⟩ := Prod.mk.inj (Option.some.inj hreads)
          refine ⟨if msg.sender.truthy then some msg.sender else none, ?_⟩
          have hverb : (decide (lower word = "approve") || decide (lower word = "approved") ||
              decide (lower word = "deny") || decide (lower word = "denied")) = true := by
            simpa [resolveVerbs, or_assoc] using hresolves
          have hstatus : lower word ≠ "status" := by
            intro hstatus
            rw [hstatus] at hverb
            cases hverb
          simp only [if_neg hstatus, if_pos hverb]
  | _ =>
      rw [htext] at hreads
      cases hreads

theorem aloof_sendText (text : String) (recipient : Option (Json Empty)) :
    (sendText text recipient).Only Aloof :=
  .op rfl

/-- The handoffs an approval stands for are activated when the verb is `approve`. -/
theorem activated_handoffReply (approvalId : String) (recipient : Option (Json Empty)) (id : Uuid)
    {row : Approval} (hrow : row.status = .approved) (s : Store × Surface) :
    Activated s ((handoffReply "approve" approvalId recipient id row).eval s).2 id := by
  rw [handoffReply, if_pos (by simp [hrow])]
  refine ((activated_activateHandoff id s).trans (unchanged_bind _ (fun handoff => ?_) s)).trans
    (unchanged_tryCatch _ (fun _ => .ret _) s)
  cases handoff with
  | none => exact .ret _
  | some x => exact .bind (aloof_sendText _ _) fun _ => .ret _

theorem aloof_handoffReply {verb : String} (approvalId : String) (recipient : Option (Json Empty))
    (id : Uuid) {row : Approval} (h : ¬ (row.status = .approved ∧ verb = "approve")) :
    (handoffReply verb approvalId recipient id row).Only Aloof := by
  rw [handoffReply, if_neg (by simpa [and_comm] using h)]
  exact .ret _

theorem aloof_failed (verb invalid : String) (recipient : Option (Json Empty)) (e : Exn) :
    (failed verb invalid recipient e).Only Aloof :=
  .ite (fun _ => .bind (aloof_sendText _ _) fun _ => .ret _)
    fun _ => .bind (aloof_sendText _ _) fun _ => .ret _

/-- After the verdict the command only tells the human. -/
theorem resolveCommand_cons (verb approvalId : String) (parts : List String) (resolver : String)
    (recipient : Option (Json Empty)) :
    ∃ tell : Except Exn (Option (Approval × Option Doc)) → Errand Doc,
      (∀ outcome, (tell outcome).Only Aloof) ∧
        resolveCommand verb (approvalId :: parts) (.ok resolver) recipient =
          (tryResolve verb approvalId resolver recipient).attempt.bind tell := by
  refine ⟨_, fun outcome => ?_, rfl⟩
  rcases outcome with e | _ | ⟨approval, _ | doc⟩
  · exact aloof_failed _ _ _ _
  · exact .bind (aloof_sendText _ _) fun _ => .ret _
  · exact .bind (aloof_sendText _ _) fun _ => .ret _
  · exact .ret _

/-- The command connects, resolves, and answers with the handoff. -/
theorem tryResolve_eq (verb approvalId resolver : String) (recipient : Option (Json Empty)) :
    ∃ reply : Option (Uuid × Approval) → Errand (Option (Approval × Option Doc)),
      reply none = .ret none ∧
      (∀ id row, reply (some (id, row)) =
        (handoffReply verb approvalId recipient id row).bind fun doc => .ret (some (row, doc))) ∧
      tryResolve verb approvalId resolver recipient =
        (stmt .connect).bind fun _ => (resolve approvalId verb resolver).bind reply :=
  ⟨_, rfl, fun _ _ => rfl, rfl⟩

/-- **`approve` and `deny`.** -/
theorem verdictEffect_resolveCommand (verb : String) (parts : List String)
    (resolver : Except Exn String) (recipient : Option (Json Empty)) (s : Store × Surface) :
    VerdictEffect s ((resolveCommand verb parts resolver recipient).eval s).2
      (parts.head?.bind uuid?) (normalizeDecision verb) (verb = "approve" ∧ Resumable s.1) := by
  cases parts with
  | nil => exact .unchanged (unchanged_of_only (.bind (aloof_sendText _ _) fun _ => .ret _) s)
  | cons approvalId parts =>
      cases resolver with
      | error e => exact .unchanged (.refl s)
      | ok resolver =>
          obtain ⟨tell, htell, hcommand⟩ :=
            resolveCommand_cons verb approvalId parts resolver recipient
          obtain ⟨reply, hnone, hsome, htry⟩ := tryResolve_eq verb approvalId resolver recipient
          have hconnect : (stmt .connect).attempt.eval s = (.ok (.ok ()), s) :=
            Program.eval_attempt _ _
          rw [hcommand, htry, Program.attempt_bind, Program.bind_assoc,
            Program.eval_bind_ok hconnect]
          dsimp only
          rw [Program.attempt_bind, Program.bind_assoc, List.head?_cons, Option.bind_some]
          refine verdictEffect_resolve approvalId verb resolver s _ (verb = "approve")
            (fun e => ?_) ?_ (fun id row s hrow hverb => ?_) fun id row hgood => ?_
          · dsimp only
            exact htell _
          · dsimp only
            rw [hnone]
            exact htell _
          · obtain rfl := hverb
            dsimp only
            rw [hsome]
            exact (activated_handoffReply approvalId recipient id hrow s).trans
              ((unchanged_bind _ (fun _ => .ret _) s).trans
                ((unchanged_bind _ (fun _ => .ret _) s).trans
                  ((unchanged_tryCatch _ (fun _ => .ret _) s).trans (unchanged_bind _ htell s))))
          · dsimp only
            rw [hsome]
            exact .bind (.attempt (.bind (aloof_handoffReply approvalId recipient id hgood)
              fun _ => .ret _)) htell

/-- The tool activates the handoffs of what it approves. -/
theorem activated_activated (id : Uuid) {row : Approval} (hrow : row.status = .approved)
    (s : Store × Surface) : Activated s ((activated id row).eval s).2 id := by
  rw [activated, if_pos hrow]
  refine (activated_activateHandoff id s).trans (.trans ?_ (unchanged_bind _ (fun handoff => ?_) s))
  · rw [Program.eval_attempt]
    exact .refl _
  · rcases handoff with e | _ | x <;> exact .ret _

theorem aloof_activated (id : Uuid) {row : Approval} (h : ¬ row.status = .approved) :
    (activated id row).Only Aloof := by
  rw [activated, if_neg h]
  exact .ret _

/-- The approval that is meant is found by a read. -/
theorem eval_meant (args : Doc) (s : Store × Surface) : ((agent.meant args).eval s).2 = s := by
  unfold meant
  dsimp only
  split
  · rfl
  · have hread : (stmt .pendingApprovalsReal).eval s = (.ok (SurfaceOp.pendingReal s.1), s) :=
      Program.eval_op_ok rfl
    rw [Program.bind_eq, Program.eval_bind_ok hread]
    rcases SurfaceOp.pendingReal s.1 with _ | ⟨x, _ | ⟨y, pending⟩⟩ <;> rfl

/-- **`resolve_approval`.** -/
theorem verdictEffect_toolResolve (args : Doc) (s : Store × Surface) :
    VerdictEffect s ((agent.toolResolve args).eval s).2 (agent.toolApprovalId? args s)
      (normalizeDecision (agent.toolDecision args)) (True ∧ Resumable s.1) := by
  unfold toolResolve
  dsimp only
  split
  · exact .unchanged (.refl s)
  · have hread := agent.eval_meant args s
    unfold toolApprovalId?
    cases hmeant : (agent.meant args).eval s with
    | mk out s' =>
        rw [hmeant] at hread
        obtain rfl : s' = s := hread
        rcases out with e | result | approvalId
        · rw [Program.bind_eq, Program.eval_bind_error hmeant]
          exact .unchanged (.refl _)
        · rw [Program.bind_eq, Program.eval_bind_ok hmeant]
          exact .unchanged (.refl _)
        · rw [Program.bind_eq, Program.eval_bind_ok hmeant]
          refine verdictEffect_resolve approvalId _ "spokesman:converse" s' _ True
            (fun e => ?_) (.ret _) (fun id row s hrow _ => ?_) fun id row hgood => ?_
          · exact .ite (fun _ => .ret _) fun _ => .throw _
          · exact (activated_activated id hrow s).trans (unchanged_bind _ (fun _ => .ret _) s)
          · exact .bind (aloof_activated id fun hrow => hgood ⟨hrow, trivial⟩) fun _ => .ret _

end Agent

/-! ## A proposal and an ending -/

/-- A request that finds no open row makes one. -/
theorem eval_requestApproval {id : Uuid} {a : RequestArgs} {s : Store}
    (hopen : s.openApprovals a.fingerprint = []) :
    (∃ e, (requestApproval id a).eval s = (.error e, s)) ∨
      ∃ row s', (requestApproval id a).eval s = (.ok (id, row), s') ∧
        s.approvals.find? id = none ∧
        ∀ k, s'.approvals.find? k = if k = id then some (a.row s.now) else s.approvals.find? k := by
  have hread : (call (.selectOpenApproval a.fingerprint)).eval s = (.ok none, s) :=
    Program.eval_op_ok (by
      show selectOpenApproval a.fingerprint s = .ok (none, s)
      rw [selectOpenApproval, hopen]
      rfl)
  rw [requestApproval, Program.bind_eq, Program.eval_bind_ok hread]
  cases hexec : insertApproval id a s with
  | error e => exact .inl ⟨e, Program.eval_bind_error (Program.eval_op_error hexec)⟩
  | ok x =>
      obtain ⟨row, s'⟩ := x
      obtain ⟨approvals, ws, rfl, hinsert, rfl⟩ := insertApproval_cases hexec
      exact .inr ⟨_, _, Program.eval_bind_ok (Program.eval_op_ok hexec),
        (Table.insert?_eq_some hinsert).1, Table.find?_insert hinsert⟩

/-- The approval is a new one, and pending; the others have kept their status. -/
structure Requested (s s' : Store × Surface) (id : Uuid) : Prop where
  fresh : s.1.approvals.find? id = none
  approvals : ∀ k, approvalStatus s' k = if k = id then some .pending else approvalStatus s k

/-- The handoff is a new one, proposed under the approval. -/
structure Recorded (s s' : Store × Surface) (id x : Uuid) (h : Handoff) : Prop where
  unused : s.2.handoffs.find? x = none
  waits : h.approvalId = id
  proposed : h.status = .proposed
  handoffs : ∀ k, s'.2.handoffs.find? k = if k = x then some h else s.2.handoffs.find? k

theorem proposeHandoff_eq (sha256 : String → String) (approvalId handoffId : Uuid)
    (role reason workstream : String) :
    proposeHandoff sha256 approvalId handoffId role reason workstream =
      (runtime (requestApproval approvalId
        (handoffRequest sha256 (handoffRole role) (handoffReason reason) workstream))).bind fun x =>
      (stmt (.insertHandoff handoffId fun now => ⟨x.1, handoffRole role, .proposed, workstream,
        handoffReason reason, now + defaultHandoff, none, none⟩)).bind fun _ =>
      (runtime (emitEvent workstream none
        (.handoffProposed handoffId x.1 (handoffRole role)))).bind fun _ =>
      .ret (handoffId, x.1) :=
  rfl

theorem eval_insertHandoff (id : Uuid) (row : Time → Handoff) (s : Store × Surface) :
    (∃ e, (stmt (.insertHandoff id row)).eval s = (.error e, s)) ∨
      ∃ handoffs, s.2.handoffs.insert? id (row s.1.now) = some handoffs ∧
        (stmt (.insertHandoff id row)).eval s = (.ok (), (s.1, { s.2 with handoffs := handoffs })) := by
  cases hinsert : s.2.handoffs.insert? id (row s.1.now) with
  | none =>
      refine .inl ⟨.integrityError "spokesman_handoffs_pkey", Program.eval_op_error ?_⟩
      show SurfaceOp.exec (.insertHandoff id row) s = _
      simp only [SurfaceOp.exec, hinsert]
      rfl
  | some handoffs =>
      refine .inr ⟨handoffs, rfl, Program.eval_op_ok ?_⟩
      show SurfaceOp.exec (.insertHandoff id row) s = _
      simp only [SurfaceOp.exec, hinsert]
      rfl

/-- **What `propose_handoff` does** where no request for the role is open: it fails, or it makes a
request, and then the handoff, unless the id of that is taken. -/
theorem eval_proposeHandoff {sha256 : String → String} {approvalId handoffId : Uuid}
    {role reason workstream : String} {s s' : Store × Surface}
    (hopen : s.1.openApprovals
      (handoffRequest sha256 (handoffRole role) (handoffReason reason) workstream).fingerprint = [])
    (hrun : s' = ((proposeHandoff sha256 approvalId handoffId role reason workstream).eval s).2) :
    Unchanged s s' ∨ Requested s s' approvalId ∧
      (s'.2.handoffs = s.2.handoffs ∨ ∃ h, Recorded s s' approvalId handoffId h) := by
  rw [proposeHandoff_eq] at hrun
  rcases eval_requestApproval hopen with ⟨e, heval⟩ | ⟨row, s₁, heval, hfresh, hrows⟩
  · left
    rw [hrun, Program.eval_bind_error (by rw [Program.eval_inl, heval])]
    exact .refl s
  · right
    have hrequest : (runtime (requestApproval approvalId (handoffRequest sha256 (handoffRole role)
        (handoffReason reason) workstream))).eval s = (.ok (approvalId, row), (s₁, s.2)) := by
      rw [Program.eval_inl, heval]
    have hrequested : ∀ s'' : Store × Surface, s''.1.approvals = s₁.approvals →
        Requested s s'' approvalId := by
      intro s'' hsame
      refine ⟨hfresh, fun k => ?_⟩
      rw [approvalStatus, hsame, hrows]
      by_cases hk : k = approvalId
      · rw [if_pos hk, if_pos hk]
        rfl
      · rw [if_neg hk, if_neg hk]
        rfl
    rw [Program.eval_bind_ok hrequest] at hrun
    let waiting : Time → Handoff := fun now => ⟨approvalId, handoffRole role, .proposed, workstream,
      handoffReason reason, now + defaultHandoff, none, none⟩
    rcases eval_insertHandoff handoffId waiting (s₁, s.2) with
      ⟨e, hinsert⟩ | ⟨handoffs, hhandoffs, hinsert⟩
    · rw [Program.eval_bind_error hinsert] at hrun
      rw [hrun]
      exact ⟨hrequested _ rfl, .inl rfl⟩
    · rw [Program.eval_bind_ok hinsert] at hrun
      have haloof := unchanged_of_only (.bind (aloof_emitEvent workstream none
        (.handoffProposed handoffId approvalId (handoffRole role))) fun _ =>
          Program.Only.ret (handoffId, approvalId)) (s₁, { s.2 with handoffs := handoffs })
      rw [← hrun] at haloof
      refine ⟨hrequested _ haloof.approvals, .inr ⟨waiting s₁.now,
        (Table.insert?_eq_some hhandoffs).1, rfl, rfl, fun k => ?_⟩⟩
      rw [haloof.handoffs]
      exact Table.find?_insert hhandoffs k

/-- The row after an ending, when it is chosen for it. -/
def Handoff.endedIf (h : Handoff) (chosen : Bool) (now : Time) : Handoff :=
  if chosen ∧ h.status = .active then { h with status := .ended, endedAt := some now } else h

/-- The active handoffs among the chosen are ended, and nothing else is done. -/
structure Ended (s s' : Store × Surface) (chosen : Uuid → Bool) (now : Time) : Prop where
  approvals : s'.1.approvals = s.1.approvals
  handoffs : ∀ x, s'.2.handoffs.find? x = (s.2.handoffs.find? x).map (·.endedIf (chosen x) now)

theorem Ended.trans {s s' s'' : Store × Surface} {chosen : Uuid → Bool} {now : Time}
    (h : Ended s s' chosen now) (h' : Unchanged s' s'') : Ended s s'' chosen now :=
  ⟨h'.approvals.trans h.approvals, fun x => by rw [h'.handoffs, h.handoffs]⟩

/-- **`end_handoff`** of whatever is active. -/
theorem ended_endHandoff (s : Store × Surface) :
    Ended s (endHandoff.eval s).2 (fun _ => true) s.1.now := by
  have hfirst : Ended s ((stmt .endHandoff).eval s).2 (fun _ => true) s.1.now := by
    refine ⟨rfl, fun x => (Table.find?_modifyWhere _ _ _ _).trans ?_⟩
    refine congrArg (Option.map · _) (funext fun h => ?_)
    simp only [Handoff.endedIf, decide_eq_true_eq, true_and]
  refine hfirst.trans (unchanged_bind _ (fun ended => ?_) s)
  cases ended with
  | none => exact .ret _
  | some x => exact .bind (aloof_emitEvent _ _ _) fun _ => .ret _

/-- **`end_handoff`** of one handoff. -/
theorem ended_endHandoffById (id : Uuid) (s : Store × Surface) :
    Ended s ((endHandoffById id).eval s).2 (fun x => x = id) s.1.now := by
  have hfirst : Ended s ((stmt (.endHandoffById id)).eval s).2 (fun x => x = id) s.1.now := by
    refine ⟨rfl, fun x => (Table.find?_modifyWhere _ _ _ _).trans ?_⟩
    refine congrArg (Option.map · _) (funext fun h => ?_)
    simp only [Handoff.endedIf, decide_eq_true_eq]
  refine hfirst.trans (unchanged_bind _ (fun ended => ?_) s)
  cases ended with
  | none => exact .ret _
  | some x => exact .bind (aloof_emitEvent _ _ _) fun _ => .ret _

end AiStudio.Spokesman
