import AiStudio.Spokesman.Handoffs
import AiStudio.Spokesman.Notifications
import AiStudio.Spokesman.Stakeholder

/-!
# Verbal verdicts

What the tool `resolve_approval` of `spokesman/converse.py` does when it is given no
`approval_id`. It counts the pending approvals of real tasks, while the human was asked about
the pending approvals whose requests a poll presents. `verbal_iff` says for which states a bare
verdict falls on nothing but the one approval the human was asked about.
-/

set_option autoImplicit false

namespace AiStudio.Spokesman

open AiStudio.Data AiStudio.Runtime AiStudio.Concurrency

/-! ## What the human is asked about -/

section Presented

variable (brief : Option String) (s : Store × Surface) (id : Uuid)

/-- The approval is pending, and some poll of the log presents it. -/
def Presented : Prop :=
  approvalStatus s id = some .pending ∧
    ∃ cursor limit, ∃ item ∈ (pollNotifications s.1 brief (eventRows s.1) cursor limit).items,
      item.approvalId = some id

/-- The approval is pending, and it is for a real task. -/
def CountedByTool : Prop :=
  ∃ a, s.1.approvals.find? id = some a ∧ a.status = .pending ∧ ForRealTask s.1 a

/-- The approval is pending, and its request was logged in a workstream that is no noise. -/
def AskedOfHuman : Prop :=
  approvalStatus s id = some .pending ∧ AskedInEarnest (eventRows s.1) 0 id

/-- The approval is the only one with the property. -/
def TheOnly (P : Uuid → Prop) (id : Uuid) : Prop := ∀ k, P k ↔ k = id

variable {brief s id}

theorem mem_readEvents_of_limit {rows : List (Nat × Event)} {cursor : Nat} {limit : Option Nat}
    {r : Nat × Event} (h : r ∈ readEvents rows cursor 0 limit) : r ∈ readEvents rows 0 0 none := by
  have hpast : r ∈ readEvents rows cursor 0 none := by
    cases limit with
    | none => exact h
    | some limit => exact List.mem_of_mem_take h
  obtain ⟨hrow, hlt⟩ := mem_readEvents.1 hpast
  exact mem_readEvents.2 ⟨hrow, by omega⟩

/-- **What is presented**, in one poll or another: what is asked for in a workstream that is no
noise. -/
theorem presented_iff : Presented brief s id ↔ AskedOfHuman s id := by
  rw [Presented, AskedOfHuman, ← announced_iff (s := s.1)]
  refine and_congr_right fun _ => ⟨?_, ?_⟩
  · rintro ⟨cursor, limit, item, hitem, hid⟩
    obtain ⟨r, hr, hann⟩ := List.mem_filterMap.1 hitem
    exact ⟨item, List.mem_filterMap.2 ⟨r, mem_readEvents_of_limit hr, hann⟩, hid⟩
  · rintro ⟨item, hitem, hid⟩
    exact ⟨0, none, item, hitem, hid⟩

end Presented

/-! ## What the tool counts -/

theorem mem_pendingReal {s : Store} {id : Uuid} {a : Approval} :
    (id, a) ∈ SurfaceOp.pendingReal s ↔
      s.approvals.find? id = some a ∧ a.status = .pending ∧ ForRealTask s a := by
  have hjoin : (a.taskId.bind s.tasks.find?).any isReal = true ↔ ForRealTask s a := by
    simp only [Option.any_eq_true, Option.bind_eq_some_iff, isReal_iff, ForRealTask]
    constructor
    · rintro ⟨row, ⟨taskId, htask, hrow⟩, hreal⟩
      exact ⟨taskId, row, htask, hrow, hreal⟩
    · rintro ⟨taskId, row, htask, hrow, hreal⟩
      exact ⟨row, ⟨taskId, htask, hrow⟩, hreal⟩
  rw [SurfaceOp.pendingReal, List.mem_insertionSort, Table.mem_select, Bool.and_eq_true,
    decide_eq_true_eq, hjoin]

/-- The tool counts every approval once. -/
theorem nodup_pendingReal (s : Store) : ((SurfaceOp.pendingReal s).map Prod.fst).Nodup := by
  have hselect : ((s.approvals.select fun _ a => a.status = .pending &&
      ((a.taskId.bind s.tasks.find?).any isReal)).map Prod.fst).Nodup :=
    s.approvals.nodup.sublist (List.filter_sublist.map _)
  exact ((List.perm_insertionSort _ _).map _).nodup_iff.2 hselect

/-- **The tool counts one approval** exactly if one alone is pending for a real task. -/
theorem pendingReal_eq_singleton {s : Store × Surface} {id : Uuid} :
    (∃ a, SurfaceOp.pendingReal s.1 = [(id, a)]) ↔ TheOnly (CountedByTool s) id := by
  have hcounted : ∀ k, CountedByTool s k ↔ k ∈ (SurfaceOp.pendingReal s.1).map Prod.fst := by
    intro k
    rw [List.mem_map]
    constructor
    · rintro ⟨a, ha⟩
      exact ⟨(k, a), mem_pendingReal.2 ha, rfl⟩
    · rintro ⟨⟨k, a⟩, hmem, rfl⟩
      exact ⟨a, mem_pendingReal.1 hmem⟩
  constructor
  · rintro ⟨a, hone⟩ k
    rw [hcounted, hone]
    simp
  · intro honly
    have hkeys : (SurfaceOp.pendingReal s.1).map Prod.fst = [id] := by
      refine List.perm_singleton.1
        ((List.perm_ext_iff_of_nodup (nodup_pendingReal s.1) (List.nodup_singleton id)).2 fun k => ?_)
      rw [← hcounted, honly k, List.mem_singleton]
    obtain ⟨⟨k, a⟩, hone, hk⟩ := List.map_eq_singleton_iff.1 hkeys
    exact ⟨a, by rw [hone, ← hk]⟩

/-! ## What the tool does -/

/-- A pending approval that is named, with a word that is a verdict, gets the verdict. -/
theorem resolveApproval_pending {id : Uuid} {decision : ApprovalStatus} {resolver : String}
    {s : Store} {row : Approval} (hrow : s.approvals.find? id = some row)
    (hpending : row.status = .pending) (hverdict : decision = .approved ∨ decision = .denied) :
    ∃ row' s', resolveApproval id decision resolver "productivity" s = .ok (some row', s') := by
  have hfilter : (s.approvals.find? id).filter (·.status = .pending) = some row := by
    rw [hrow]
    simp [hpending]
  have hnot : ¬ (decision ≠ .approved ∧ decision ≠ .denied) := by
    rintro ⟨happroved, hdenied⟩
    exact hverdict.elim happroved hdenied
  unfold resolveApproval
  rw [if_neg hnot, hfilter]
  exact ⟨_, _, rfl⟩

theorem normalizeDecision_verdict {word : String} {canonical : ApprovalStatus}
    (h : normalizeDecision word = some canonical) : canonical = .approved ∨ canonical = .denied := by
  unfold normalizeDecision at h
  split at h
  all_goals first
    | exact .inl (Option.some.inj h).symm
    | exact .inr (Option.some.inj h).symm
    | cases h

/-- **`resolve` on a pending approval**: it has the verdict afterwards, whether or not the
resumption raises. -/
theorem decided_resolve {approvalId decision resolver : String} {s : Store × Surface} {id : Uuid}
    {canonical : ApprovalStatus} (hid : uuid? approvalId = some id)
    (hcanonical : normalizeDecision decision = some canonical)
    (hpending : approvalStatus s id = some .pending) :
    Decided s ((resolve approvalId decision resolver).eval s).2 id canonical := by
  obtain ⟨row, hrow, hstatus⟩ := Option.map_eq_some_iff.1 hpending
  obtain ⟨row', s₁, hexec⟩ : ∃ row' s₁,
      resolveApproval id canonical resolver "productivity" s.1 = .ok (some row', s₁) :=
    resolveApproval_pending hrow hstatus (normalizeDecision_verdict hcanonical)
  have heval : (runtime (call (.resolveApproval id canonical resolver "productivity"))).eval s =
      (.ok (some row'), (s₁, s.2)) := by
    rw [Program.eval_inl, Program.eval_op_ok hexec]
  have hread : parseId approvalId = .ok id := by rw [parseId, hid]
  unfold resolve
  simp only [hcanonical, hread]
  rw [Program.bind_eq, Program.eval_bind_ok heval]
  refine (decided_resolveApproval hexec s.2).1.trans (unchanged_of_only ?_ (s₁, s.2)).approvals
  exact .bind (aloof_runtime resumeApproved_only) fun _ => .ret _

namespace Agent

variable (agent : Agent) (brief : Option String) (conn : Bool) (path : List Nat) (args : Doc)

/-- The call gives no `approval_id`. -/
def Unnamed : Prop := strip (agent.textOr "" (Doc.getD args "approval_id" .null)) = ""

/-- The state the call leaves, whether or not it raises. -/
def said (s : Store × Surface) : Store × Surface :=
  ((agent.runTool conn path args .resolveApproval).eval s).2

/-- Nothing changes, or the verdict falls on the only approval that is presented. -/
def Unambiguous (s : Store × Surface) : Prop :=
  agent.said conn path args s = s ∨
    ∃ id decision, TheOnly (Presented brief s) id ∧
      Decided s (agent.said conn path args s) id decision

variable {agent conn path args}

/-- What is meant when no approval is named. -/
theorem eval_meant_unnamed (hunnamed : agent.Unnamed args) (s : Store × Surface) :
    (∃ id a, SurfaceOp.pendingReal s.1 = [(id, a)] ∧
        (agent.meant args).eval s = (.ok (.ok id.text), s)) ∨
      (∀ id a, SurfaceOp.pendingReal s.1 ≠ [(id, a)]) ∧
        ∃ result, (agent.meant args).eval s = (.ok (.error result), s) := by
  have hread : (stmt .pendingApprovalsReal).eval s = (.ok (SurfaceOp.pendingReal s.1), s) :=
    Program.eval_op_ok rfl
  unfold meant
  rw [Unnamed] at hunnamed
  simp only [hunnamed, ne_eq, not_true_eq_false, if_false]
  rw [Program.bind_eq, Program.eval_bind_ok hread]
  rcases SurfaceOp.pendingReal s.1 with _ | ⟨⟨id, a⟩, _ | ⟨y, pending⟩⟩
  · exact .inr ⟨(by simp), _, rfl⟩
  · exact .inl ⟨id, a, rfl, rfl⟩
  · exact .inr ⟨(by simp), _, rfl⟩

/-- What follows a verdict leaves the approvals as they are. -/
theorem decided_resolve_bind {β : Type} {approvalId decision resolver : String}
    {s : Store × Surface} {id : Uuid} {canonical : ApprovalStatus}
    (f : Except Exn (Option (Uuid × Approval)) → Errand β)
    (hf : ∀ outcome s, ((f outcome).eval s).2.1.approvals = s.1.approvals)
    (hdecided : Decided s ((resolve approvalId decision resolver).eval s).2 id canonical) :
    Decided s (((resolve approvalId decision resolver).attempt.bind f).eval s).2 id canonical := by
  rw [Program.eval_bind, Program.eval_attempt]
  exact hdecided.trans (hf _ _)

/-- **A bare verdict on the only approval the tool counts** decides it. -/
theorem said_decided (hunnamed : agent.Unnamed args) {s : Store × Surface} {id : Uuid}
    {canonical : ApprovalStatus}
    (hcanonical : normalizeDecision (agent.toolDecision args) = some canonical)
    (honly : TheOnly (CountedByTool s) id) :
    Decided s (agent.said true path args s) id canonical := by
  obtain ⟨a, hone⟩ := pendingReal_eq_singleton.2 honly
  obtain ⟨row, hrow, hstatus, -⟩ := (honly id).2 rfl
  have hpending : approvalStatus s id = some .pending := by
    rw [approvalStatus, hrow, Option.map_some, hstatus]
  have hmeant : (agent.meant args).eval s = (.ok (.ok id.text), s) := by
    rcases agent.eval_meant_unnamed hunnamed s with ⟨id', a', hone', hmeant⟩ | ⟨hnot, -⟩
    · rw [hone] at hone'
      obtain ⟨rfl, -⟩ := Prod.mk.inj (List.singleton_inj.1 hone')
      exact hmeant
    · exact absurd hone (hnot id a)
  have hword : agent.toolDecision args ≠ "" := by
    intro hblank
    rw [hblank] at hcanonical
    cases hcanonical
  unfold said runTool toolResolve
  rw [toolDecision] at hcanonical hword
  simp only [if_true, if_neg hword]
  rw [Program.bind_eq, Program.eval_bind_ok hmeant]
  refine decided_resolve_bind _ (fun outcome s => ?_)
    (decided_resolve (uuid?_text id) hcanonical hpending)
  rcases outcome with e | _ | ⟨k, row⟩
  · exact (unchanged_of_only (.ite (fun _ => .ret _) fun _ => .throw _) s).approvals
  · rfl
  · by_cases happroved : row.status = .approved
    · exact ((activated_activated k happroved s).trans
        (unchanged_bind _ (fun _ => .ret _) s)).approvals
    · exact (unchanged_of_only (.bind (aloof_activated k happroved) fun _ => .ret _) s).approvals

/-- **A bare verdict changes nothing** without a connection, if its word is no verdict, and
unless the tool counts one approval. -/
theorem said_same (hunnamed : agent.Unnamed args) {s : Store × Surface}
    (h : conn = false ∨ normalizeDecision (agent.toolDecision args) = none ∨
      ∀ id, ¬ TheOnly (CountedByTool s) id) : agent.said conn path args s = s := by
  unfold said runTool toolResolve
  cases conn with
  | false => rfl
  | true =>
      replace h := h.resolve_left (by decide)
      rw [toolDecision] at h
      simp only [if_true]
      split
      · rfl
      · rcases agent.eval_meant_unnamed hunnamed s with ⟨id, a, hone, hmeant⟩ | ⟨-, result, hmeant⟩
        · have hword := h.resolve_right fun hnone =>
            hnone id (pendingReal_eq_singleton.1 ⟨a, hone⟩)
          rw [Program.bind_eq, Program.eval_bind_ok hmeant]
          unfold resolve
          simp only [hword]
          rfl
        · rw [Program.bind_eq, Program.eval_bind_ok hmeant]
          rfl

/-- The verdict moves the approval, so the state is another one. -/
theorem said_ne {s s' : Store × Surface} {id : Uuid} {decision : ApprovalStatus}
    (h : Decided s s' id decision) : approvalStatus s' id ≠ approvalStatus s id := by
  rw [h.approvals id, if_pos rfl, h.pending]
  rcases h.verdict with rfl | rfl
  · decide
  · decide

/-- One verdict falls on one approval. -/
theorem decided_unique {s s' : Store × Surface} {id k : Uuid} {decision verdict : ApprovalStatus}
    (h : Decided s s' id decision) (hk : Decided s s' k verdict) : k = id := by
  by_contra hne
  have hsame := h.approvals k
  rw [if_neg hne] at hsame
  exact said_ne hk hsame

/-- **A verbal approval is unambiguous** exactly if nothing is decided for want of a connection
or of a word, or if an approval that is the only one pending for a real task is the only one
that is presented. -/
theorem verbal_iff (hunnamed : agent.Unnamed args) (s : Store × Surface) :
    agent.Unambiguous brief conn path args s ↔
      (conn = true → normalizeDecision (agent.toolDecision args) ≠ none →
        ∀ id, TheOnly (CountedByTool s) id → TheOnly (AskedOfHuman s) id) := by
  have hpresented : ∀ id, TheOnly (Presented brief s) id ↔ TheOnly (AskedOfHuman s) id :=
    fun id => forall_congr' fun k => iff_congr presented_iff Iff.rfl
  simp only [← hpresented]
  constructor
  · intro hsafe hconn hword id honly
    obtain rfl := hconn
    obtain ⟨canonical, hcanonical⟩ := Option.ne_none_iff_exists'.1 hword
    have hdecided : Decided s (agent.said true path args s) id canonical :=
      said_decided hunnamed hcanonical honly
    rcases hsafe with hsame | ⟨k, decision, hpresented, hk⟩
    · rw [hsame] at hdecided
      exact absurd rfl (said_ne hdecided)
    · rwa [decided_unique hdecided hk] at hpresented
  · intro hsafe
    by_cases hdecides : conn = true ∧ normalizeDecision (agent.toolDecision args) ≠ none ∧
        ∃ id, TheOnly (CountedByTool s) id
    · obtain ⟨rfl, hword, id, honly⟩ := hdecides
      obtain ⟨canonical, hcanonical⟩ := Option.ne_none_iff_exists'.1 hword
      exact .inr ⟨id, canonical, hsafe rfl hword id honly, said_decided hunnamed hcanonical honly⟩
    · refine .inl (said_same hunnamed ?_)
      by_contra hnot
      push Not at hnot
      exact hdecides ⟨by simpa using hnot.1, hnot.2⟩

end Agent

/-! ## Two requests -/

/-- The task of a merge that waits for a human. -/
def mergeTask : Uuid := ⟨"7d1f0a52-6c3e-4b0d-8f11-2a9c4e5b6d01", by decide⟩

/-- The approval of the merge. -/
def mergeApproval : Uuid := ⟨"9b2c7e14-0d5f-4a68-b3c9-6e1f2a3b4c05", by decide⟩

/-- The request for it. -/
def mergeRequest : RequestArgs where
  taskId := some mergeTask
  role := "executor"
  tool := "git.merge"
  capabilities := ["git.merge"]
  tier := "red"
  reason := "merge to main"
  fingerprint := "merge"

/-- Both requests are made, the one for a task and the one for none. -/
def bothRequested : Process Unit := do
  let _ ← call (.enqueueTask mergeTask { workstream := "productivity", type := "work.code" })
  let _ ← requestApproval mergeApproval mergeRequest
  let _ ← requestApproval scaleApproval scaleRequest
  return ()

/-- The state a human answers `approve` in. -/
def twoRequests : Store × Surface := ((bothRequested.eval (Store.initial 0)).2, .initial)

/-- A bare `approve`. -/
def bareApprove : Doc := [("decision", .str "approve")]

theorem unnamed_bareApprove : smsAgent.Unnamed bareApprove := by
  unfold Agent.Unnamed
  decide

theorem merge_only : TheOnly (CountedByTool twoRequests) mergeApproval := by
  have hkeys : (SurfaceOp.pendingReal twoRequests.1).map Prod.fst = [mergeApproval] := by
    decide
  obtain ⟨⟨k, a⟩, hone, rfl⟩ := List.map_eq_singleton_iff.1 hkeys
  exact pendingReal_eq_singleton.1 ⟨a, hone⟩

/-- The human was asked about the scaled experiment as well. -/
theorem scale_presented : Presented none twoRequests scaleApproval := by
  refine presented_iff.2 ⟨by decide, ?_⟩
  exact ⟨_, List.mem_of_mem_getLast? rfl, by decide, .inl ⟨_, rfl, rfl⟩, by decide⟩

/-- **A bare `approve` merges**, and the human may have meant the experiment. -/
theorem merge_approved : ¬ smsAgent.Unambiguous none true [] bareApprove twoRequests := by
  have hdecided : Decided twoRequests (smsAgent.said true [] bareApprove twoRequests) mergeApproval
      .approved :=
    Agent.said_decided unnamed_bareApprove (by decide) merge_only
  rintro (hsame | ⟨k, decision, hpresented, hk⟩)
  · rw [hsame] at hdecided
    exact Agent.said_ne hdecided rfl
  · have hscale : scaleApproval = k := (hpresented scaleApproval).1 scale_presented
    rw [Agent.decided_unique hdecided hk] at hscale
    exact absurd hscale (by decide)

/-- The law at the two requests. -/
theorem verbal_iff_twoRequests :
    smsAgent.Unambiguous none true [] bareApprove twoRequests ↔
      (true = true → normalizeDecision (smsAgent.toolDecision bareApprove) ≠ none →
        ∀ id, TheOnly (CountedByTool twoRequests) id → TheOnly (AskedOfHuman twoRequests) id) :=
  Agent.verbal_iff none unnamed_bareApprove twoRequests

end AiStudio.Spokesman
