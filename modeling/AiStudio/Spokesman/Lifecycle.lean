import AiStudio.Spokesman.Handoffs
import AiStudio.Spokesman.Stakeholder

/-!
# The lifecycle of a handoff

A run is a sequence of acts on the handoffs, each carried out alone. A proposed handoff ought to
become active exactly when a human approves the request that was made for it, and an ended one
ought to leave none. Where every act is sound for the state it finds, both hold over the whole run
(`handoff_lifecycle`). A verdict spelled `approved` is not sound (`approved_leaves_proposed`).
-/

set_option autoImplicit false

namespace AiStudio.Spokesman

open AiStudio.Data AiStudio.Runtime AiStudio.Concurrency

/-! ## Sound acts -/

/-- A proposed handoff waits for the approval. -/
def Awaited (s : Store × Surface) (id : Uuid) : Prop :=
  ∃ x h, s.2.handoffs.find? x = some h ∧ h.approvalId = id ∧ h.status = .proposed

/-- The act meets a state in which it does what it is meant to: a proposal finds no open request to
share; a verdict for a handoff is spelled `approve` and its resumption does not raise; nobody
activates what waits; and what is ended by its id is all that a query for it sees. -/
def Agent.Sound (agent : Agent) (s : Store × Surface) : HandoffAct → Prop
  | .propose _ _ role reason workstream =>
      s.1.openApprovals (handoffRequest agent.sha256 (handoffRole role) (handoffReason reason)
        workstream).fingerprint = []
  | .command m => normalizeDecision m.verb = some .approved →
      ∀ id, m.approvalId? = some id → Awaited s id → m.verb = "approve" ∧ Resumable s.1
  | .tool args => normalizeDecision (agent.toolDecision args) = some .approved →
      ∀ id, agent.toolApprovalId? args s = some id → Awaited s id → Resumable s.1
  | .activate id => ¬ Awaited s id
  | .endById id => ∀ workstream h, activeHandoff workstream s = some (id, h) →
      ∀ x h', s.2.handoffs.find? x = some h' → h'.live s.1.now = true →
        h'.within workstream = true → x = id
  | .endCurrent => True
  | .wait _ => True

/-- What a sound act does to approvals and handoffs. -/
inductive HandoffEffect (act : HandoffAct) (s s' : Store × Surface) : Prop where
  | unchanged (approvals : ∀ k, approvalStatus s' k = approvalStatus s k)
      (handoffs : ∀ x, s'.2.handoffs.find? x = s.2.handoffs.find? x)
  | requested (id : Uuid) (h : Requested s s' id) (handoffs : s'.2.handoffs = s.2.handoffs)
  | proposed (proposes : act.isProposal = true) (id x : Uuid) (row : Handoff)
      (h : Requested s s' id) (hrow : Recorded s s' id x row)
  | decided (verdict : act.isVerdict = true) (id : Uuid) (decision : ApprovalStatus) (now : Time)
      (h : Decided s s' id decision)
      (handoffs : ∀ x, s'.2.handoffs.find? x = if decision = .approved then
        (s.2.handoffs.find? x).map (·.activatedFor id now) else s.2.handoffs.find? x)
  | ended (now : Time) (h : Ended s s' act.ends now)

theorem Unchanged.effect {act : HandoffAct} {s s' : Store × Surface} (h : Unchanged s s') :
    HandoffEffect act s s' :=
  .unchanged h.approvalStatus fun x => by rw [h.handoffs]

/-- Nothing waits for the approval: an activation changes nothing. -/
theorem map_activatedFor_of_not_awaited {s : Store × Surface} {id : Uuid} (h : ¬ Awaited s id)
    (now : Time) (x : Uuid) :
    (s.2.handoffs.find? x).map (·.activatedFor id now) = s.2.handoffs.find? x := by
  cases hx : s.2.handoffs.find? x with
  | none => rfl
  | some row =>
      rw [Option.map_some, Handoff.activatedFor, if_neg]
      exact fun hrow => h ⟨x, row, hx, hrow.1, hrow.2⟩

/-- A verdict that is sound activates exactly what waits for the approval, when it approves. -/
theorem VerdictEffect.sound {act : HandoffAct} {s s' : Store × Surface} {id? : Option Uuid}
    {decision? : Option ApprovalStatus} {good : Prop}
    (h : VerdictEffect s s' id? decision? good) (hverdict : act.isVerdict = true)
    (hsound : decision? = some .approved → ∀ id, id? = some id → Awaited s id → good) :
    HandoffEffect act s s' := by
  cases h with
  | unchanged h => exact h.effect
  | resolved id decision hid hdecision h =>
      rcases h.handoffs with ⟨hkept, hbad⟩ | ⟨happroved, now, hactivated⟩
      · refine .decided hverdict id decision 0 h.toDecided fun x => ?_
        split
        · rename_i happroved
          rw [hkept, map_activatedFor_of_not_awaited]
          exact fun hawaited =>
            hbad ⟨hsound (happroved ▸ hdecision) id hid hawaited, happroved⟩
        · rw [hkept]
      · refine .decided hverdict id decision now h.toDecided fun x => ?_
        rw [if_pos happroved, hactivated]

theorem Agent.runTool_resolve (agent : Agent) (path : List Nat) (args : Doc) :
    agent.runTool true path args .resolveApproval = agent.toolResolve args := by
  unfold runTool
  exact if_pos rfl

theorem Agent.next_tool (agent : Agent) (args : Doc) (s : Store × Surface) :
    agent.next s (.tool args) = ((agent.toolResolve args).eval s).2 := by
  rw [next, carryOut, Program.eval_bind_ret, runTool_resolve]

theorem Agent.next_command (agent : Agent) (m : VerdictMessage) (s : Store × Surface) :
    ∃ recipient, agent.next s (.command m) =
      ((resolveCommand m.verb m.parts (agent.resolver m.msg.sender) recipient).eval s).2 := by
  obtain ⟨recipient, hcommand⟩ := agent.handleInboundCommand_verdict [] m
  refine ⟨recipient, ?_⟩
  rw [next, carryOut, Program.eval_bind_ret, hcommand, Program.eval_bind_ret]

/-- **What a sound act does.** -/
theorem Agent.next_effect (agent : Agent) {s : Store × Surface} {act : HandoffAct}
    (hsound : agent.Sound s act) : HandoffEffect act s (agent.next s act) := by
  cases act with
  | propose approvalId handoffId role reason workstream =>
      have hrun : agent.next s (.propose approvalId handoffId role reason workstream) =
          ((proposeHandoff agent.sha256 approvalId handoffId role reason workstream).eval s).2 := by
        rw [next, carryOut, Program.eval_bind_ret]
      rcases eval_proposeHandoff hsound hrun with h | ⟨h, hsame | ⟨row, hrow⟩⟩
      · exact h.effect
      · exact .requested approvalId h hsame
      · exact .proposed rfl approvalId handoffId row h hrow
  | command m =>
      obtain ⟨recipient, hnext⟩ := agent.next_command m s
      rw [hnext]
      exact (verdictEffect_resolveCommand _ _ _ _ s).sound rfl hsound
  | tool args =>
      rw [agent.next_tool]
      exact (agent.verdictEffect_toolResolve args s).sound rfl fun happroved id hid hawaited =>
        ⟨trivial, hsound happroved id hid hawaited⟩
  | activate id =>
      rw [next, carryOut, Program.eval_bind_ret]
      have hactivated := activated_activateHandoff id s
      refine .unchanged (fun k => by rw [approvalStatus, hactivated.approvals]; rfl) fun x => ?_
      rw [hactivated.handoffs, map_activatedFor_of_not_awaited hsound]
  | endCurrent =>
      rw [next, carryOut, Program.eval_bind_ret]
      exact .ended _ (ended_endHandoff s)
  | endById id =>
      rw [next, carryOut, Program.eval_bind_ret]
      exact .ended _ (ended_endHandoffById id s)
  | wait elapsed => exact .unchanged (fun _ => rfl) fun _ => rfl

/-! ## One step of a handoff -/

/-- The row has been written over, and keeps what it is about. -/
structure Handoff.Follows (h h' : Handoff) : Prop where
  approvalId : h'.approvalId = h.approvalId
  workstream : h'.workstream = h.workstream
  expiresAt : h'.expiresAt = h.expiresAt

theorem Handoff.Follows.refl (h : Handoff) : h.Follows h := ⟨rfl, rfl, rfl⟩

theorem Handoff.follows_activatedFor (h : Handoff) (id : Uuid) (now : Time) :
    h.Follows (h.activatedFor id now) := by
  rw [activatedFor]
  split <;> exact ⟨rfl, rfl, rfl⟩

theorem Handoff.follows_endedIf (h : Handoff) (chosen : Bool) (now : Time) :
    h.Follows (h.endedIf chosen now) := by
  rw [endedIf]
  split <;> exact ⟨rfl, rfl, rfl⟩

/-- A row stays. -/
theorem HandoffEffect.kept {act : HandoffAct} {s s' : Store × Surface}
    (he : HandoffEffect act s s') {x : Uuid} {h : Handoff} (hx : s.2.handoffs.find? x = some h) :
    ∃ h', s'.2.handoffs.find? x = some h' ∧ h.Follows h' := by
  cases he with
  | unchanged _ handoffs => exact ⟨h, (handoffs x).trans hx, .refl h⟩
  | requested id _ handoffs => exact ⟨h, by rw [handoffs, hx], .refl h⟩
  | proposed _ id y row _ hrow =>
      have hne : x ≠ y := by
        rintro rfl
        rw [hrow.unused] at hx
        cases hx
      exact ⟨h, by rw [hrow.handoffs, if_neg hne, hx], .refl h⟩
  | decided _ id decision now _ handoffs =>
      rw [handoffs, hx]
      split
      · exact ⟨_, rfl, h.follows_activatedFor id now⟩
      · exact ⟨h, rfl, .refl h⟩
  | ended now hended => exact ⟨_, by rw [hended.handoffs, hx]; rfl, h.follows_endedIf _ now⟩

/-- A row was there, or it has just been proposed. -/
theorem HandoffEffect.origin {act : HandoffAct} {s s' : Store × Surface}
    (he : HandoffEffect act s s') {x : Uuid} {h' : Handoff}
    (hx : s'.2.handoffs.find? x = some h') :
    (∃ h, s.2.handoffs.find? x = some h ∧ h.Follows h') ∨
      act.isProposal = true ∧ Requested s s' h'.approvalId ∧ Recorded s s' h'.approvalId x h' := by
  cases hold : s.2.handoffs.find? x with
  | some h =>
      obtain ⟨h'', hx', hfollows⟩ := he.kept hold
      rw [hx] at hx'
      obtain rfl := Option.some.inj hx'
      exact .inl ⟨h, rfl, hfollows⟩
  | none =>
      right
      cases he with
      | unchanged _ handoffs =>
          rw [handoffs, hold] at hx
          cases hx
      | requested id _ handoffs =>
          rw [handoffs, hold] at hx
          cases hx
      | proposed proposes id y row hrequested hrow =>
          rw [hrow.handoffs, hold] at hx
          split at hx
          · rename_i hxy
            obtain rfl := hxy
            obtain rfl := Option.some.inj hx
            rw [hrow.waits]
            exact ⟨proposes, hrequested, hrow⟩
          · cases hx
      | decided _ id decision now _ handoffs =>
          rw [handoffs, hold] at hx
          split at hx <;> cases hx
      | ended now hended =>
          rw [hended.handoffs, hold] at hx
          cases hx

/-- The status of a handoff. -/
def handoffStatus (s : Store × Surface) (x : Uuid) : Option HandoffStatus :=
  (s.2.handoffs.find? x).map Handoff.status

/-- A handoff is proposed as long as its approval is not approved. -/
def InStep (s : Store × Surface) : Prop :=
  ∀ x h, s.2.handoffs.find? x = some h → ∃ status, approvalStatus s h.approvalId = some status ∧
    (h.status = .proposed ↔ status ≠ .approved)

theorem approvalStatus_of_fresh {s : Store × Surface} {id : Uuid}
    (h : s.1.approvals.find? id = none) : approvalStatus s id = none := by
  rw [approvalStatus, h]
  rfl

/-- A new request is not the request of a handoff there is. -/
theorem Requested.kept {s s' : Store × Surface} {id k : Uuid} {status : ApprovalStatus}
    (h : Requested s s' id) (hk : approvalStatus s k = some status) :
    approvalStatus s' k = some status := by
  have hne : k ≠ id := by
    rintro rfl
    rw [approvalStatus_of_fresh h.fresh] at hk
    cases hk
  rw [h.approvals, if_neg hne, hk]

/-- **A sound act keeps the handoffs in step with their approvals.** -/
theorem HandoffEffect.inStep {act : HandoffAct} {s s' : Store × Surface}
    (he : HandoffEffect act s s') (hs : InStep s) : InStep s' := by
  intro x h' hx'
  cases he with
  | unchanged approvals handoffs =>
      rw [handoffs] at hx'
      rw [approvals]
      exact hs x h' hx'
  | requested id hrequested handoffs =>
      rw [handoffs] at hx'
      obtain ⟨status, hstatus, hiff⟩ := hs x h' hx'
      exact ⟨status, hrequested.kept hstatus, hiff⟩
  | proposed _ id y row hrequested hrow =>
      rw [hrow.handoffs] at hx'
      split at hx'
      · obtain rfl := Option.some.inj hx'
        refine ⟨.pending, by rw [hrequested.approvals, if_pos hrow.waits], ?_⟩
        simp [hrow.proposed]
      · obtain ⟨status, hstatus, hiff⟩ := hs x h' hx'
        exact ⟨status, hrequested.kept hstatus, hiff⟩
  | decided _ id decision now hdecided handoffs =>
      rw [handoffs] at hx'
      split at hx'
      · rename_i happroved
        obtain ⟨h, hx, rfl⟩ := Option.map_eq_some_iff.1 hx'
        obtain ⟨status, hstatus, hiff⟩ := hs x h hx
        rw [(h.follows_activatedFor id now).approvalId, hdecided.approvals]
        by_cases hid : h.approvalId = id
        · -- it was pending, so the handoff was proposed, and now it is active
          rw [hid, hdecided.pending] at hstatus
          obtain rfl := Option.some.inj hstatus
          have hproposed : h.status = .proposed := hiff.2 (by simp)
          refine ⟨decision, if_pos hid, ?_⟩
          rw [Handoff.activatedFor, if_pos ⟨hid, hproposed⟩, happroved]
          simp
        · rw [if_neg hid, Handoff.activatedFor, if_neg fun hrow => hid hrow.1]
          exact ⟨status, hstatus, hiff⟩
      · rename_i hdenied
        obtain ⟨status, hstatus, hiff⟩ := hs x h' hx'
        rw [hdecided.approvals]
        by_cases hid : h'.approvalId = id
        · rw [hid, hdecided.pending] at hstatus
          obtain rfl := Option.some.inj hstatus
          have hproposed : h'.status = .proposed := hiff.2 (by simp)
          exact ⟨decision, if_pos hid, by simp [hproposed, hdenied]⟩
        · rw [if_neg hid]
          exact ⟨status, hstatus, hiff⟩
  | ended now hended =>
      rw [hended.handoffs] at hx'
      obtain ⟨h, hx, rfl⟩ := Option.map_eq_some_iff.1 hx'
      obtain ⟨status, hstatus, hiff⟩ := hs x h hx
      refine ⟨status, ?_, ?_⟩
      · rw [(h.follows_endedIf _ now).approvalId, approvalStatus, hended.approvals]
        exact hstatus
      · rw [← hiff, Handoff.endedIf]
        split
        · rename_i hactive
          simp [hactive.2]
        · rfl

/-- **A sound act activates a handoff exactly when it is a verdict that approves the request the
handoff waits for.** -/
theorem HandoffEffect.activates_iff {act : HandoffAct} {s s' : Store × Surface}
    (he : HandoffEffect act s s') (hs : InStep s) (x : Uuid) :
    (handoffStatus s x ≠ some .active ∧ handoffStatus s' x = some .active) ↔
      ∃ h, s.2.handoffs.find? x = some h ∧ act.isVerdict = true ∧
        approvalStatus s h.approvalId = some .pending ∧
        approvalStatus s' h.approvalId = some .approved := by
  constructor
  · rintro ⟨hbefore, hafter⟩
    obtain ⟨h', hx', hactive⟩ := Option.map_eq_some_iff.1 hafter
    cases he with
    | unchanged _ handoffs =>
        rw [handoffStatus, ← handoffs, ← handoffStatus] at hbefore
        exact absurd hafter hbefore
    | requested id _ handoffs =>
        rw [handoffStatus, ← handoffs, ← handoffStatus] at hbefore
        exact absurd hafter hbefore
    | proposed _ id y row _ hrow =>
        rw [hrow.handoffs] at hx'
        split at hx'
        · obtain rfl := Option.some.inj hx'
          rw [hrow.proposed] at hactive
          cases hactive
        · exact absurd (by rw [handoffStatus, hx', Option.map_some, hactive]) hbefore
    | decided verdict id decision now hdecided handoffs =>
        rw [handoffs] at hx'
        split at hx'
        · rename_i happroved
          obtain ⟨h, hx, rfl⟩ := Option.map_eq_some_iff.1 hx'
          by_cases hrow : h.approvalId = id ∧ h.status = .proposed
          · refine ⟨h, hx, verdict, by rw [hrow.1, hdecided.pending], ?_⟩
            rw [hdecided.approvals, if_pos hrow.1, happroved]
          · rw [Handoff.activatedFor, if_neg hrow] at hactive
            exact absurd (by rw [handoffStatus, hx, Option.map_some, hactive]) hbefore
        · exact absurd (by rw [handoffStatus, hx', Option.map_some, hactive]) hbefore
    | ended now hended =>
        rw [hended.handoffs] at hx'
        obtain ⟨h, hx, rfl⟩ := Option.map_eq_some_iff.1 hx'
        rw [Handoff.endedIf] at hactive
        split at hactive
        · cases hactive
        · exact absurd (by rw [handoffStatus, hx, Option.map_some, hactive]) hbefore
  · rintro ⟨h, hx, -, hpending, happroved⟩
    obtain ⟨status, hstatus, hiff⟩ := hs x h hx
    rw [hpending] at hstatus
    obtain rfl := Option.some.inj hstatus
    have hproposed : h.status = .proposed := hiff.2 (by simp)
    refine ⟨by rw [handoffStatus, hx, Option.map_some, hproposed]; simp, ?_⟩
    -- only a verdict on this very approval makes a pending one approved
    cases he with
    | unchanged approvals _ =>
        rw [approvals, hpending] at happroved
        cases happroved
    | requested id hrequested _ =>
        rw [hrequested.kept hpending] at happroved
        cases happroved
    | proposed _ id y row hrequested _ =>
        rw [hrequested.kept hpending] at happroved
        cases happroved
    | decided verdict id decision now hdecided handoffs =>
        rw [hdecided.approvals] at happroved
        split at happroved
        · rename_i hid
          obtain rfl := Option.some.inj happroved
          rw [handoffStatus, handoffs, if_pos rfl, hx, Option.map_some, Handoff.activatedFor,
            if_pos ⟨hid, hproposed⟩]
          rfl
        · rw [hpending] at happroved
          cases happroved
    | ended now hended =>
        rw [approvalStatus, hended.approvals, ← approvalStatus, hpending] at happroved
        cases happroved

/-! ## An ending -/

/-- A handoff that is live after a step was live before it, unless the step activates it. -/
theorem HandoffEffect.live_of_live {act : HandoffAct} {s s' : Store × Surface}
    (he : HandoffEffect act s s') (hnow : s.1.now ≤ s'.1.now) {x : Uuid} {h' : Handoff}
    (hx' : s'.2.handoffs.find? x = some h') (hlive : h'.live s'.1.now = true)
    (hactivated : handoffStatus s' x = some .active → handoffStatus s x = some .active) :
    ∃ h, s.2.handoffs.find? x = some h ∧ h.Follows h' ∧ h.live s.1.now = true := by
  simp only [Handoff.live, Bool.and_eq_true, decide_eq_true_eq] at hlive
  rcases he.origin hx' with ⟨h, hx, hfollows⟩ | ⟨-, -, hrow⟩
  · have hactive := hactivated (by rw [handoffStatus, hx', Option.map_some, hlive.1])
    rw [handoffStatus, hx, Option.map_some, Option.some.injEq] at hactive
    refine ⟨h, hx, hfollows, ?_⟩
    simp only [Handoff.live, Bool.and_eq_true, decide_eq_true_eq]
    exact ⟨hactive, hnow.trans_lt (hfollows.expiresAt ▸ hlive.2)⟩
  · rw [hrow.proposed] at hlive
    cases hlive.1

namespace Agent

variable (agent : Agent)

theorem now_le_next (s : Store × Surface) (act : HandoffAct) :
    s.1.now ≤ (agent.next s act).1.now :=
  now_le_eval _ s

theorem next_ends {act : HandoffAct} {x : Uuid} (h : act.ends x = true) (s : Store × Surface) :
    Ended s (agent.next s act) act.ends s.1.now := by
  cases act with
  | endCurrent =>
      rw [next, carryOut, Program.eval_bind_ret]
      exact ended_endHandoff s
  | endById id =>
      rw [next, carryOut, Program.eval_bind_ret]
      exact ended_endHandoffById id s
  | _ => cases h

/-- **A sound ending of the handoff a query returns leaves that query nothing.** -/
theorem activeHandoff_next_ends {s : Store × Surface} {act : HandoffAct}
    (hsound : agent.Sound s act) {workstream : Option String} {x : Uuid} {h : Handoff}
    (hactive : activeHandoff workstream s = some (x, h)) (hends : act.ends x = true) :
    activeHandoff workstream (agent.next s act) = none := by
  rw [activeHandoff_eq_none_iff]
  intro y h' hy hlive
  by_contra hwithin
  have hended := agent.next_ends hends s
  rw [hended.handoffs] at hy
  obtain ⟨row, hrow, rfl⟩ := Option.map_eq_some_iff.1 hy
  have hfollows := row.follows_endedIf (act.ends y) s.1.now
  simp only [Handoff.live, Bool.and_eq_true, decide_eq_true_eq] at hlive
  -- a row that is still active has not been chosen
  have hunchosen : act.ends y = false ∧ row.status = .active := by
    rw [Handoff.endedIf] at hlive
    split at hlive
    · cases hlive.1
    · rename_i hnot
      exact ⟨Bool.eq_false_iff.2 fun hchosen => hnot ⟨hchosen, hlive.1⟩, hlive.1⟩
  cases act with
  | endCurrent => cases hunchosen.1
  | endById id =>
      obtain rfl : x = id := of_decide_eq_true hends
      have hsame : y = x := by
        refine hsound workstream h hactive y row hrow ?_ ?_
        · simp only [Handoff.live, Bool.and_eq_true, decide_eq_true_eq]
          exact ⟨hunchosen.2,
            (agent.now_le_next s _).trans_lt (hfollows.expiresAt ▸ hlive.2)⟩
        · simpa [Handoff.within, hfollows.workstream] using hwithin
      exact of_decide_eq_false hunchosen.1 hsame
  | _ => cases hends

/-- **What a query does not see it does not see later**, unless a handoff becomes active. -/
theorem activeHandoff_next_eq_none {s : Store × Surface} {act : HandoffAct}
    (hsound : agent.Sound s act) {workstream : Option String}
    (hnone : activeHandoff workstream s = none)
    (hactivates : ∀ x, handoffStatus (agent.next s act) x = some .active →
      handoffStatus s x = some .active) :
    activeHandoff workstream (agent.next s act) = none := by
  rw [activeHandoff_eq_none_iff] at hnone ⊢
  intro x h' hx' hlive
  obtain ⟨h, hx, hfollows, hbefore⟩ := (agent.next_effect hsound).live_of_live
    (agent.now_le_next s act) hx' hlive (hactivates x)
  rw [Handoff.within, hfollows.workstream]
  exact hnone x h hx hbefore

/-! ## Runs -/

/-- The human approves the approval: a verdict makes it approved, which was pending. -/
structure Approves (s : Store × Surface) (act : HandoffAct) (id : Uuid) : Prop where
  verdict : act.isVerdict = true
  pending : approvalStatus s id = some .pending
  approved : approvalStatus (agent.next s act) id = some .approved

/-- The handoff becomes active. -/
def Activates (s : Store × Surface) (act : HandoffAct) (x : Uuid) : Prop :=
  handoffStatus s x ≠ some .active ∧ handoffStatus (agent.next s act) x = some .active

/-- The act proposes the handoff, and makes the request it waits for. -/
structure Proposes (s : Store × Surface) (act : HandoffAct) (id x : Uuid) : Prop where
  proposal : act.isProposal = true
  fresh : s.1.approvals.find? id = none
  requested : approvalStatus (agent.next s act) id = some .pending
  unused : s.2.handoffs.find? x = none
  waits : ∃ h, (agent.next s act).2.handoffs.find? x = some h ∧ h.approvalId = id

/-- In the run the request was made for the very proposal of the handoff. -/
def CreatedFor (s : Store × Surface) (acts : List HandoffAct) (id x : Uuid) : Prop :=
  ∃ before act later, acts = before ++ act :: later ∧
    agent.Proposes (agent.after s before) act id x

/-- The law of the lifecycle in a run: a handoff becomes active exactly when a human approves the
request that was made for it; and once the handoff that a query returns has been ended, that query
returns none until a human's approval activates a handoff. -/
structure HandoffLaw (s : Store × Surface) (acts : List HandoffAct) : Prop where
  activated : ∀ before act later, acts = before ++ act :: later → ∀ x,
    agent.Activates (agent.after s before) act x ↔
      ∃ id, agent.Approves (agent.after s before) act id ∧ agent.CreatedFor s before id x
  ended : ∀ before act between later, acts = before ++ act :: between ++ later →
    ∀ workstream x h, activeHandoff workstream (agent.after s before) = some (x, h) →
      act.ends x = true →
      activeHandoff workstream (agent.after s (before ++ act :: between)) = none ∨
        ∃ between₁ approval between₂, between = between₁ ++ approval :: between₂ ∧
          ∃ id y, agent.Approves (agent.after s (before ++ act :: between₁)) approval id ∧
            agent.Activates (agent.after s (before ++ act :: between₁)) approval y

/-- Every act of the run is sound for the state it finds. -/
def SoundRun (s : Store × Surface) : List HandoffAct → Prop
  | [] => True
  | act :: acts => agent.Sound s act ∧ SoundRun (agent.next s act) acts

theorem after_append (s : Store × Surface) (acts acts' : List HandoffAct) :
    agent.after s (acts ++ acts') = agent.after (agent.after s acts) acts' :=
  List.foldl_append

theorem soundRun_append {s : Store × Surface} {acts acts' : List HandoffAct} :
    agent.SoundRun s (acts ++ acts') ↔
      agent.SoundRun s acts ∧ agent.SoundRun (agent.after s acts) acts' := by
  induction acts generalizing s with
  | nil => exact (iff_of_eq (true_and _)).symm
  | cons act acts ih =>
      rw [List.cons_append, SoundRun, SoundRun, ih, and_assoc]
      rfl

theorem createdFor_concat {s : Store × Surface} {acts : List HandoffAct} {act : HandoffAct}
    {id x : Uuid} :
    agent.CreatedFor s (acts ++ [act]) id x ↔
      agent.CreatedFor s acts id x ∨ agent.Proposes (agent.after s acts) act id x := by
  constructor
  · rintro ⟨before, act', later, hacts, hproposes⟩
    rcases List.eq_nil_or_concat later with rfl | ⟨later, last, rfl⟩
    · obtain ⟨rfl, hact⟩ := List.append_inj' hacts rfl
      obtain rfl := List.head_eq_of_cons_eq hact
      exact .inr hproposes
    · rw [List.concat_eq_append, ← List.cons_append, ← List.append_assoc] at hacts
      exact .inl ⟨before, act', later, (List.append_inj' hacts rfl).1, hproposes⟩
  · rintro (⟨before, act', later, rfl, hproposes⟩ | hproposes)
    · exact ⟨before, act', later ++ [act], by rw [List.append_assoc, List.cons_append], hproposes⟩
    · exact ⟨acts, act, [], rfl, hproposes⟩

/-- What a sound run keeps: the handoffs are in step with their approvals, and each of them waits
for the request that was made for it. -/
structure Tracked (s : Store × Surface) (acts : List HandoffAct) : Prop where
  inStep : InStep (agent.after s acts)
  created : ∀ x h, (agent.after s acts).2.handoffs.find? x = some h →
    agent.CreatedFor s acts h.approvalId x
  kept : ∀ id x, agent.CreatedFor s acts id x →
    ∃ h, (agent.after s acts).2.handoffs.find? x = some h ∧ h.approvalId = id

/-- A sound act keeps track. -/
theorem Tracked.concat {agent : Agent} {s : Store × Surface} {acts : List HandoffAct}
    {act : HandoffAct} (h : agent.Tracked s acts) (hsound : agent.Sound (agent.after s acts) act) :
    agent.Tracked s (acts ++ [act]) := by
  have he := agent.next_effect hsound
  refine ⟨?_, fun x h' hx' => ?_, fun id x hcreated => ?_⟩
  · rw [after_concat]
    exact he.inStep h.inStep
  · rw [after_concat] at hx'
    rw [createdFor_concat]
    rcases he.origin hx' with ⟨row, hrow, hfollows⟩ | ⟨hproposal, hrequested, hrecorded⟩
    · rw [hfollows.approvalId]
      exact .inl (h.created x row hrow)
    · exact .inr ⟨hproposal, hrequested.fresh, by rw [hrequested.approvals, if_pos rfl],
        hrecorded.unused, h', hx', rfl⟩
  · rw [after_concat]
    rcases (agent.createdFor_concat).1 hcreated with hbefore | hproposes
    · obtain ⟨row, hrow, hid⟩ := h.kept id x hbefore
      obtain ⟨h', hx', hfollows⟩ := he.kept hrow
      exact ⟨h', hx', hfollows.approvalId.trans hid⟩
    · exact hproposes.waits

theorem tracked_of_soundRun {s : Store × Surface} (hempty : ∀ x, s.2.handoffs.find? x = none)
    {acts : List HandoffAct} (hsound : agent.SoundRun s acts) : agent.Tracked s acts := by
  induction acts using List.reverseRecOn with
  | nil =>
      refine ⟨fun x h hx => ?_, fun x h hx => ?_, fun id x hcreated => ?_⟩
      · rw [after_nil, hempty] at hx
        cases hx
      · rw [after_nil, hempty] at hx
        cases hx
      · obtain ⟨before, act, later, hacts, -⟩ := hcreated
        exact absurd hacts.symm (List.append_ne_nil_of_right_ne_nil _ (List.cons_ne_nil _ _))
  | append_singleton acts act ih =>
      obtain ⟨hacts, hact, -⟩ := agent.soundRun_append.1 hsound
      exact (ih hacts).concat hact

/-- **A handoff becomes active exactly by the approval of its own request.** -/
theorem Tracked.activates_iff {agent : Agent} {s : Store × Surface} {acts : List HandoffAct}
    {act : HandoffAct} (h : agent.Tracked s acts) (hsound : agent.Sound (agent.after s acts) act)
    (x : Uuid) :
    agent.Activates (agent.after s acts) act x ↔
      ∃ id, agent.Approves (agent.after s acts) act id ∧ agent.CreatedFor s acts id x := by
  refine ((agent.next_effect hsound).activates_iff h.inStep x).trans ⟨?_, ?_⟩
  · rintro ⟨row, hrow, hverdict, hpending, happroved⟩
    exact ⟨row.approvalId, ⟨hverdict, hpending, happroved⟩, h.created x row hrow⟩
  · rintro ⟨id, happroves, hcreated⟩
    obtain ⟨row, hrow, rfl⟩ := h.kept id x hcreated
    exact ⟨row, hrow, happroves.verdict, happroves.pending, happroves.approved⟩

/-- **The lifecycle of handoffs.** In every run whose acts are sound, each handoff becomes active
exactly when a human approves the request that was made for it, and an ended one leaves none until
the next approval. -/
theorem handoff_lifecycle {s : Store × Surface} (hempty : ∀ x, s.2.handoffs.find? x = none)
    {acts : List HandoffAct} (hsound : agent.SoundRun s acts) : agent.HandoffLaw s acts where
  activated := by
    rintro before act later rfl x
    obtain ⟨hbefore, hact, -⟩ := agent.soundRun_append.1 hsound
    exact (agent.tracked_of_soundRun hempty hbefore).activates_iff hact x
  ended := by
    intro before act between later hacts workstream x h hactive hends
    rw [List.append_assoc] at hacts
    subst hacts
    induction between using List.reverseRecOn generalizing later with
    | nil =>
        obtain ⟨-, hact, -⟩ := agent.soundRun_append.1 hsound
        left
        rw [after_concat]
        exact agent.activeHandoff_next_ends hact hactive hends
    | append_singleton between next ih =>
        have hrun : agent.SoundRun s ((before ++ act :: between) ++ next :: later) := by
          simpa using hsound
        obtain ⟨hearlier, hnext, -⟩ := agent.soundRun_append.1 hrun
        have htracked := agent.tracked_of_soundRun hempty hearlier
        rw [← List.cons_append, ← List.append_assoc, after_concat]
        rcases ih (next :: later) (by simpa using hsound) with hnone |
          ⟨between₁, approval, between₂, rfl, happroval⟩
        · by_cases hactivates : ∃ y, agent.Activates (agent.after s (before ++ act :: between)) next y
          · obtain ⟨y, hy⟩ := hactivates
            obtain ⟨id, happroves, -⟩ := (htracked.activates_iff hnext y).1 hy
            exact .inr ⟨between, next, [], rfl, id, y, happroves, hy⟩
          · left
            refine agent.activeHandoff_next_eq_none hnext hnone fun y hy => ?_
            by_contra hbefore
            exact hactivates ⟨y, hbefore, hy⟩
        · exact .inr ⟨between₁, approval, between₂ ++ [next], by simp, happroval⟩

end Agent

/-! ## The other spelling -/

/-- The request for the handoff, and the handoff. -/
def handoffApproval : Uuid := ⟨"6d0b3a4e-51c7-4a0e-9f0e-7a1d2c3b4e31", by decide⟩

def pmHandoff : Uuid := ⟨"6d0b3a4e-51c7-4a0e-9f0e-7a1d2c3b4e32", by decide⟩

/-- The proposal of a handoff to the PM. -/
def proposePm : HandoffAct := .propose handoffApproval pmHandoff "pm" "scope" "productivity"

/-- A text message of the human. -/
def textMessage (text : String) : InboundMessage where
  messageId := .str "SM1"
  sender := .str "+15559990000"
  text := .str text
  timestamp := .null

theorem reads_approve :
    (textMessage "approve 6d0b3a4e-51c7-4a0e-9f0e-7a1d2c3b4e31").command? =
      some ("approve", ["6d0b3a4e-51c7-4a0e-9f0e-7a1d2c3b4e31"]) := by
  decide

theorem reads_approved :
    (textMessage "approved 6d0b3a4e-51c7-4a0e-9f0e-7a1d2c3b4e31").command? =
      some ("approved", ["6d0b3a4e-51c7-4a0e-9f0e-7a1d2c3b4e31"]) := by
  decide

def approveIt : HandoffAct := .command ⟨_, _, _, reads_approve, List.mem_cons_self⟩

def approvedIt : HandoffAct :=
  .command ⟨_, _, _, reads_approved, List.mem_cons_of_mem _ List.mem_cons_self⟩

/-- A studio with an empty database. -/
def newStudio : Store × Surface := (Store.initial 0, .initial)

theorem proposes_proposePm :
    smsAgent.Proposes newStudio proposePm handoffApproval pmHandoff where
  proposal := rfl
  fresh := rfl
  requested := by decide
  unused := rfl
  waits := Option.map_eq_some_iff.1 (show ((smsAgent.next newStudio proposePm).2.handoffs.find?
    pmHandoff).map Handoff.approvalId = some handoffApproval by decide)

/-- **`approved` leaves the handoff proposed.** The request is approved, as by `approve`, and by the
tool under any spelling, but the handoff that waits for it does not become active. -/
theorem approved_leaves_proposed : ¬ smsAgent.HandoffLaw newStudio [proposePm, approvedIt] := by
  intro hlaw
  have happroves : smsAgent.Approves (smsAgent.after newStudio [proposePm]) approvedIt
      handoffApproval :=
    ⟨rfl, by decide, by decide⟩
  have hcreated : smsAgent.CreatedFor newStudio [proposePm] handoffApproval pmHandoff :=
    ⟨[], proposePm, [], rfl, proposes_proposePm⟩
  have hactive := ((hlaw.activated [proposePm] approvedIt [] rfl pmHandoff).2
    ⟨handoffApproval, happroves, hcreated⟩).2
  have hproposed : handoffStatus (smsAgent.next (smsAgent.after newStudio [proposePm]) approvedIt)
      pmHandoff = some .proposed := by
    decide
  rw [hproposed] at hactive
  cases hactive

/-- The handoff is proposed, approved, and ended. -/
theorem lifecycle_of_pm :
    smsAgent.HandoffLaw newStudio [proposePm, approveIt, .endCurrent] := by
  refine smsAgent.handoff_lifecycle (fun _ => rfl) ⟨rfl, fun _ id _ _ => ⟨rfl, ?_⟩, trivial, trivial⟩
  have htasks : (smsAgent.next newStudio proposePm).1.tasks.rows.isEmpty = true := by
    decide
  intro task row hrow
  rw [Table.find?_eq_some_iff, List.isEmpty_iff.1 htasks] at hrow
  cases hrow

end AiStudio.Spokesman
