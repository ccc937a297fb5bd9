import AiStudio.Runtime.Effects
import AiStudio.Runtime.Enforce

/-!
# One-shot grants

In every interleaving of `invoke` and `resolve_approval` calls, each run of a tool on a
verdict that needed approval has spent an approved row of its fingerprint, and no row
is spent twice (`oneShot_of_reach`).
-/

set_option autoImplicit false

namespace AiStudio.Runtime

open AiStudio.Data AiStudio.Concurrency

/-- The runs of tools on a verdict that needed approval. -/
def Store.gatedRuns (s : Store) : List ToolRun :=
  s.toolRuns.filter (·.effect = .needsApproval)

/-- The row was resolved to approved; its grant is live or spent. -/
def Approval.wasApproved (a : Approval) : Bool := a.status = .approved || a.status = .consumed

/-- The rows of a fingerprint that were resolved to approved. -/
def Store.approvedRows (s : Store) (fingerprint : String) : List (Uuid × Approval) :=
  s.approvals.select fun _ a => a.requestFingerprint = fingerprint && a.wasApproved

/-- A call of `invoke`, or the resolution of an approval. -/
inductive GrantCall where
  | invoke (sha256 : String → String) (registry : ToolRegistry) (config : Policy.PolicyConfig)
      (newId : Uuid) (a : InvokeArgs)
  | resolve (id : Uuid) (decision : ApprovalStatus) (resolver workstream : String)

/-- The program of a call; a resolution returns no result. -/
def GrantCall.program : GrantCall → Process (Option InvokeResult)
  | .invoke sha256 registry config newId a =>
      (a.invoke sha256 registry config newId).bind fun result => .ret (some result)
  | .resolve id decision resolver workstream =>
      (call (.resolveApproval id decision resolver workstream)).bind fun _ => .ret none

/-- The calls `calls`, about to run on the database `s`. -/
def grantPool {P : Type} (s : Store) (calls : P → GrantCall) :
    Config database P (Option InvokeResult) :=
  ⟨s, fun p => (calls p).program⟩

section Steps

variable {P α : Type}

/-- The step resolves a pending approval to approved. -/
structure Approves (st : Step database P α) (id : Uuid) : Prop where
  call : ∃ resolver workstream, st.op = .resolveApproval id .approved resolver workstream
  pending : ∃ row, st.before.state.approvals.find? id = some row ∧ row.status = .pending
  approved : ∃ row, st.after.state.approvals.find? id = some row ∧ row.status = .approved

/-- The approval was resolved to approved before the run, or by one of its steps. -/
def ResolvedApproved (s : Store) (τ : List (Step database P α)) (id : Uuid) : Prop :=
  (∃ row, s.approvals.find? id = some row ∧ row.wasApproved = true) ∨ ∃ st ∈ τ, Approves st id

/-- The runs of tools in `s'`, reached from `s` by the steps `τ`, are paid for by
grants. -/
structure OneShot (s : Store) (τ : List (Step database P α)) (s' : Store) : Prop where
  /-- Every gated run has spent a row of its fingerprint that was resolved to approved. -/
  backed : ∀ run ∈ s'.gatedRuns, ∃ id row, run.approvalId = some id ∧
    s'.approvals.find? id = some row ∧ row.status = .consumed ∧
    row.requestFingerprint = run.fingerprint ∧ ResolvedApproved s τ id
  /-- No two gated runs have spent the same row. -/
  distinct : (s'.gatedRuns.map (·.approvalId)).Nodup
  /-- The gated runs of a fingerprint are at most as many as its approved rows. -/
  counted : ∀ fingerprint, (s'.gatedRuns.filter (·.fingerprint = fingerprint)).length ≤
    (s'.approvedRows fingerprint).length
  /-- Those rows were resolved to approved. -/
  resolved : ∀ fingerprint, ∀ entry ∈ s'.approvedRows fingerprint, ResolvedApproved s τ entry.1

end Steps

/-! ## The outline of a call -/

/-- What a call holds: nothing, a grant it found, or a grant it spent. -/
inductive GrantPhase where
  | free
  | found (fingerprint : String) (id : Uuid)
  | spent (fingerprint : String) (id : Uuid)

/-- What a call does next. A gated run comes from a spent grant only. -/
def grantOutline {α : Type} : Outline database GrantPhase α where
  allows
    | .free, .executeTool run => run.effect ≠ .needsApproval
    | .free, .emit .. => True
    | .free, .findGrant _ => True
    | .free, .selectOpenApproval _ => True
    | .free, .insertApproval .. => True
    | .free, .resolveApproval .. => True
    | .found _ id, .consumeGrant id' => id' = id
    | .spent _ _, .emit .. => True
    | .spent fingerprint id, .executeTool run =>
        run.approvalId = some id ∧ run.fingerprint = fingerprint
    | _, _ => False
  next
    | .free, .findGrant fingerprint, .ok (some (id, _)) => .found fingerprint id
    | .found fingerprint id, .consumeGrant _, .ok (some _) => .spent fingerprint id
    | .spent fingerprint id, .emit .., _ => .spent fingerprint id
    | _, _, _ => .free
  ends _ _ := True

variable {α : Type}

theorem free_ne_found (fingerprint : String) (id : Uuid) :
    GrantPhase.free ≠ .found fingerprint id := by simp

theorem spent_ne_found (fp : String) (id : Uuid) (fingerprint : String) (id' : Uuid) :
    GrantPhase.spent fp id ≠ .found fingerprint id' := by simp

/-- Recording an event changes nothing about grants. -/
theorem holds_emitEvent {β : Type} {l : GrantPhase} (hl : ∀ fp id, l ≠ .found fp id)
    (workstream : String) (taskId : Option Uuid) (payload : SinkPayload)
    {f : Unit → Process β} (h : (grantOutline (α := β)).Holds l (f ())) :
    (grantOutline (α := β)).Holds l ((emitEvent workstream taskId payload).bind f) := by
  unfold emitEvent
  cases requireWorkstream workstream with
  | error e => trivial
  | ok ws =>
      cases l with
      | found fp id => exact absurd rfl (hl fp id)
      | free =>
          refine ⟨trivial, fun r => ?_⟩
          cases r with
          | ok v => exact h
          | error e => trivial
      | spent fp id =>
          refine ⟨trivial, fun r => ?_⟩
          cases r with
          | ok v => exact h
          | error e => trivial

/-- What the tool returns changes nothing about grants. -/
theorem holds_report (l : GrantPhase) (a : InvokeArgs) (tool : Tool)
    (decision : Policy.Decision) (approvalId : Option Uuid) :
    grantOutline.Holds l (a.report tool decision approvalId) := by
  unfold InvokeArgs.report
  cases tool.execute a.kwargs with
  | error e => trivial
  | ok result => trivial

/-- Running the tool of an authorized call. -/
theorem holds_execute {l : GrantPhase} (hl : ∀ fp id, l ≠ .found fp id) (a : InvokeArgs)
    (tool : Tool) (decision : Policy.Decision) (fingerprint : String) (approvalId : Option Uuid)
    (hrun : (grantOutline (α := InvokeResult)).allows l (.executeTool
      ⟨a.toolName, a.role, a.kwargs, fingerprint, decision.effect, approvalId⟩)) :
    grantOutline.Holds l (a.execute tool decision fingerprint approvalId) := by
  refine holds_emitEvent hl _ _ _ ⟨hrun, fun r => ?_⟩
  cases r with
  | error e => trivial
  | ok v => exact holds_report _ a tool decision approvalId

/-- A call that no grant authorizes asks for one. -/
theorem holds_pend (a : InvokeArgs) (sha256 : String → String)
    (required : Finset Policy.Capability) (decision : Policy.Decision) (newId : Uuid) :
    grantOutline.Holds .free (a.pend sha256 required decision newId) := by
  refine ⟨trivial, fun r => ?_⟩
  cases r with
  | error e => trivial
  | ok existing =>
      cases existing with
      | some row => trivial
      | none =>
          refine ⟨trivial, fun r => ?_⟩
          cases r with
          | ok row => trivial
          | error e => trivial

/-- A call that needs approval. -/
theorem holds_approvalLoop (a : InvokeArgs) (sha256 : String → String) (tool : Tool)
    (required : Finset Policy.Capability) (decision : Policy.Decision) (newId : Uuid) :
    grantOutline.Holds .free (a.approvalLoop sha256 tool required decision newId) := by
  refine ⟨trivial, fun r => ?_⟩
  cases r with
  | error e => trivial
  | ok grant =>
      cases grant with
      | none => exact holds_pend a sha256 required decision newId
      | some found =>
          refine ⟨rfl, fun r => ?_⟩
          cases r with
          | error e => trivial
          | ok consumed =>
              cases consumed with
              | none => exact holds_pend a sha256 required decision newId
              | some row => exact holds_execute (spent_ne_found _ _) a tool decision _ _ ⟨rfl, rfl⟩

/-- What a verdict leads to. -/
theorem holds_act (a : InvokeArgs) (sha256 : String → String) (tool : Tool)
    (required : Finset Policy.Capability) (decision : Policy.Decision) (newId : Uuid) :
    grantOutline.Holds .free (a.act sha256 tool required decision newId) := by
  unfold InvokeArgs.act
  cases heffect : decision.effect with
  | deny => trivial
  | needsApproval =>
      cases a.conn with
      | true => exact holds_approvalLoop a sha256 tool required decision newId
      | false => exact holds_emitEvent free_ne_found _ _ _ trivial
  | allow =>
      refine holds_execute free_ne_found a tool decision _ _ ?_
      change decision.effect ≠ .needsApproval
      rw [heffect]
      exact fun h => nomatch h

/-- **Every invocation follows the outline.** -/
theorem holds_invoke (a : InvokeArgs) (sha256 : String → String) (registry : ToolRegistry)
    (config : Policy.PolicyConfig) (newId : Uuid) :
    grantOutline.Holds .free (a.invoke sha256 registry config newId) := by
  unfold InvokeArgs.invoke
  cases registry a.toolName with
  | none => exact holds_emitEvent free_ne_found _ _ _ trivial
  | some tool =>
      exact holds_emitEvent free_ne_found _ _ _ (holds_act a sha256 tool _ _ newId)

/-- **Every call of the pool follows the outline.** -/
theorem GrantCall.holds (c : GrantCall) : grantOutline.Holds .free c.program := by
  cases c with
  | invoke sha256 registry config newId a =>
      exact Outline.holds_bind (fun _ _ h => h) (fun _ _ _ => rfl) (fun _ _ _ => trivial)
        (fun _ _ _ => trivial) (holds_invoke a sha256 registry config newId)
  | resolve id decision resolver workstream =>
      refine ⟨trivial, fun r => ?_⟩
      cases r with
      | ok v => trivial
      | error e => trivial

/-! ## The ledger of grants -/

/-- The row is a spent grant of the fingerprint. -/
def Store.Spent (s : Store) (fingerprint : String) (id : Uuid) : Prop :=
  ∃ row, s.approvals.find? id = some row ∧ row.status = .consumed ∧
    row.requestFingerprint = fingerprint

/-- Every gated run has its own spent row, and the rows that calls have spent and not
yet used are others. -/
structure Ledger {P : Type} (s : Store) (ls : P → GrantPhase) : Prop where
  backed : ∀ run ∈ s.gatedRuns, ∃ id, run.approvalId = some id ∧ s.Spent run.fingerprint id
  distinct : (s.gatedRuns.map (·.approvalId)).Nodup
  found : ∀ p fingerprint id, ls p = .found fingerprint id →
    ∃ row, s.approvals.find? id = some row ∧ row.requestFingerprint = fingerprint
  spent : ∀ p fingerprint id, ls p = .spent fingerprint id →
    s.Spent fingerprint id ∧ some id ∉ s.gatedRuns.map (·.approvalId)
  unique : ∀ p q fingerprint fingerprint' id, ls p = .spent fingerprint id →
    ls q = .spent fingerprint' id → p = q

/-- A row keeps its fingerprint, and a spent one stays spent. -/
theorem ApprovalEffect.row_kept {o : StoreOp} {s s' : Store} {id : Uuid}
    (h : ApprovalEffect o s s' id) {row : Approval} (hrow : s.approvals.find? id = some row) :
    ∃ row', s'.approvals.find? id = some row' ∧
      row'.requestFingerprint = row.requestFingerprint ∧
      (row.status = .consumed → row'.status = .consumed) := by
  cases h with
  | same hsame => exact ⟨row, hsame.trans hrow, rfl, fun h => h⟩
  | requested a op fresh hrow' =>
      rw [fresh] at hrow
      cases hrow
  | resolved old decision resolver workstream op found pending verdict hrow' =>
      obtain rfl := Option.some.inj (found.symm.trans hrow)
      exact ⟨_, hrow', rfl, fun h => nomatch pending.symm.trans h⟩
  | consumed old op found approved hrow' =>
      obtain rfl := Option.some.inj (found.symm.trans hrow)
      exact ⟨_, hrow', rfl, fun _ => rfl⟩

theorem Store.Spent.step {P : Type} [DecidableEq P] {st : Step database P α} (hf : Fires st)
    {fingerprint : String} {id : Uuid} (h : st.before.state.Spent fingerprint id) :
    st.after.state.Spent fingerprint id := by
  obtain ⟨row, hrow, hstatus, hfp⟩ := h
  obtain ⟨row', hrow', hfp', hconsumed⟩ := (step_approvalEffect hf id).row_kept hrow
  exact ⟨row', hrow', hconsumed hstatus, hfp'.trans hfp⟩

/-- A call that has run its tool holds nothing. -/
theorem next_executeTool {o : StoreOp} {run : ToolRun} (ho : o = .executeTool run)
    {l : GrantPhase} {r : Except Exn o.Res} : (grantOutline (α := α)).next l o r = .free := by
  subst ho
  cases l <;> rfl

/-- What a step does to the gated runs. -/
theorem step_gatedRuns {P : Type} [DecidableEq P] {st : Step database P α} (hf : Fires st) :
    st.after.state.gatedRuns = st.before.state.gatedRuns ∨
      ∃ run, st.op = .executeTool run ∧ run.effect = .needsApproval ∧
        st.after.state.gatedRuns = st.before.state.gatedRuns ++ [run] := by
  obtain ⟨pid, op, out, before, after⟩ := st
  have hcommit := exec_or_abort hf
  dsimp only at hcommit ⊢
  rcases hcommit with ⟨v, -, hexec⟩ | ⟨e, -, hs⟩
  · cases op with
    | executeTool run =>
        obtain ⟨-, hs⟩ := Prod.mk.inj (Except.ok.inj hexec)
        have hruns : after.state.gatedRuns =
            before.state.gatedRuns ++ [run].filter (·.effect = .needsApproval) := by
          rw [← hs, Store.gatedRuns, Store.gatedRuns, List.filter_append]
        by_cases hrun : run.effect = .needsApproval
        · refine Or.inr ⟨run, rfl, hrun, ?_⟩
          simpa [hrun] using hruns
        · refine Or.inl ?_
          simpa [hrun] using hruns
    | _ => exact Or.inl (by rw [Store.gatedRuns, (exec_frame hexec).tools rfl]; rfl)
  · exact Or.inl (by rw [hs])

/-- A call that comes to hold a found grant has just found it. -/
theorem found_of_next {P : Type} [DecidableEq P] {ls : P → GrantPhase} {st : Step database P α}
    (hf : Fires st) {fingerprint : String} {id : Uuid}
    (h : (grantOutline (α := α)).next (ls st.pid) st.op st.out = .found fingerprint id) :
    ∃ row, st.after.state.approvals.find? id = some row ∧
      row.requestFingerprint = fingerprint := by
  obtain ⟨pid, op, out, before, after⟩ := st
  have hcommit := exec_or_abort hf
  dsimp only at hcommit h ⊢
  cases hl : ls pid with
  | found fp id' =>
      rw [hl] at h
      cases op with
      | consumeGrant id'' =>
          rcases out with e | _ | row
          · cases h
          · cases h
          · cases h
      | _ => cases h
  | spent fp id' => rw [hl] at h; cases op <;> cases h
  | free =>
      rw [hl] at h
      cases op with
      | findGrant fp =>
          rcases hcommit with ⟨v, rfl, hexec⟩ | ⟨e, rfl, -⟩
          · cases v with
            | none => cases h
            | some found =>
                obtain ⟨id', row⟩ := found
                obtain ⟨rfl, rfl⟩ := GrantPhase.found.inj h
                obtain ⟨hrow, hfp, -, hs⟩ := findGrant_eq_some hexec
                exact ⟨row, by rw [hs]; exact hrow, hfp⟩
          · cases h
      | _ => cases h

/-- A call that comes to hold a spent grant has just spent it, or held it before. -/
theorem spent_of_next {P : Type} [DecidableEq P] {ls : P → GrantPhase} {st : Step database P α}
    (hf : Fires st) (hallow : (grantOutline (α := α)).allows (ls st.pid) st.op)
    {fingerprint : String} {id : Uuid}
    (h : (grantOutline (α := α)).next (ls st.pid) st.op st.out = .spent fingerprint id) :
    ls st.pid = .spent fingerprint id ∨
      (ls st.pid = .found fingerprint id ∧ ∃ row,
        st.before.state.approvals.find? id = some row ∧ row.status = .approved ∧
        st.after.state.approvals.find? id = some { row with status := .consumed }) := by
  obtain ⟨pid, op, out, before, after⟩ := st
  have hcommit := exec_or_abort hf
  dsimp only at hcommit h hallow ⊢
  cases hl : ls pid with
  | free =>
      rw [hl] at h
      cases op with
      | findGrant fp =>
          rcases out with e | _ | ⟨id', row⟩
          · cases h
          · cases h
          · cases h
      | _ => cases h
  | spent fp id' =>
      rw [hl] at h
      cases op with
      | emit taskId ws payload => exact Or.inl h
      | _ => cases h
  | found fp id' =>
      rw [hl] at h hallow
      cases op with
      | consumeGrant id'' =>
          obtain rfl : id'' = id' := hallow
          rcases hcommit with ⟨v, rfl, hexec⟩ | ⟨e, rfl, -⟩
          · rcases consumeGrant_cases hexec with ⟨rfl, -⟩ | ⟨row, hrow, happroved, rfl, hs⟩
            · cases h
            · obtain ⟨rfl, rfl⟩ := GrantPhase.spent.inj h
              exact Or.inr ⟨rfl, row, hrow, happroved,
                by rw [hs]; exact find?_setApproval_self _ hrow⟩
          · cases h
      | _ => cases h

section Ledger

variable {P : Type} [DecidableEq P] {ls : P → GrantPhase} {st : Step database P α}

/-- A call finds grants of its fingerprint only. -/
theorem Ledger.found_step (hf : Fires st) (hinv : Ledger st.before.state ls) (p : P)
    (fingerprint : String) (id : Uuid)
    (hp : (grantOutline (α := α)).advance ls st p = .found fingerprint id) :
    ∃ row, st.after.state.approvals.find? id = some row ∧
      row.requestFingerprint = fingerprint := by
  by_cases hpid : p = st.pid
  · subst hpid
    rw [Outline.advance_self] at hp
    exact found_of_next hf hp
  · rw [Outline.advance_ne _ _ _ hpid] at hp
    obtain ⟨row, hrow, hfp⟩ := hinv.found p fingerprint id hp
    obtain ⟨row', hrow', hfp', -⟩ := (step_approvalEffect hf id).row_kept hrow
    exact ⟨row', hrow', hfp'.trans hfp⟩

omit [DecidableEq P] in
/-- No gated run has used a live grant. -/
theorem Ledger.not_used (hinv : Ledger st.before.state ls) {id : Uuid} {row : Approval}
    (hrow : st.before.state.approvals.find? id = some row) (happroved : row.status = .approved) :
    some id ∉ st.before.state.gatedRuns.map (·.approvalId) := by
  intro hmem
  obtain ⟨run, hrun, hid⟩ := List.mem_map.1 hmem
  obtain ⟨id', hid', row', hrow', hconsumed, -⟩ := hinv.backed run hrun
  obtain rfl := Option.some.inj (hid.symm.trans hid')
  obtain rfl := Option.some.inj (hrow.symm.trans hrow')
  cases happroved.symm.trans hconsumed

/-- A call that holds a spent grant is the only one that can use it. -/
theorem Ledger.spent_step (hf : Fires st)
    (hallow : (grantOutline (α := α)).allows (ls st.pid) st.op)
    (hinv : Ledger st.before.state ls) (p : P) (fingerprint : String) (id : Uuid)
    (hp : (grantOutline (α := α)).advance ls st p = .spent fingerprint id) :
    st.after.state.Spent fingerprint id ∧
      some id ∉ st.before.state.gatedRuns.map (·.approvalId) := by
  by_cases hpid : p = st.pid
  · subst hpid
    rw [Outline.advance_self] at hp
    rcases spent_of_next hf hallow hp with hl | ⟨hl, row, hrow, happroved, hafter⟩
    · obtain ⟨hspent, hunused⟩ := hinv.spent _ _ _ hl
      exact ⟨hspent.step hf, hunused⟩
    · obtain ⟨row', hrow', hfp⟩ := hinv.found _ _ _ hl
      obtain rfl := Option.some.inj (hrow.symm.trans hrow')
      exact ⟨⟨_, hafter, rfl, hfp⟩, hinv.not_used hrow happroved⟩
  · rw [Outline.advance_ne _ _ _ hpid] at hp
    obtain ⟨hspent, hunused⟩ := hinv.spent _ _ _ hp
    exact ⟨hspent.step hf, hunused⟩

/-- No two calls hold one spent grant. -/
theorem Ledger.unique_step (hf : Fires st)
    (hallow : (grantOutline (α := α)).allows (ls st.pid) st.op)
    (hinv : Ledger st.before.state ls) (p q : P) (fingerprint fingerprint' : String) (id : Uuid)
    (hp : (grantOutline (α := α)).advance ls st p = .spent fingerprint id)
    (hq : (grantOutline (α := α)).advance ls st q = .spent fingerprint' id) : p = q := by
  -- what the stepping call holds now, another call did not hold before
  have hapart : ∀ q fp fp', q ≠ st.pid →
      (grantOutline (α := α)).next (ls st.pid) st.op st.out = .spent fp id →
      ls q = .spent fp' id → False := by
    intro q fp fp' hne hnext hlq
    rcases spent_of_next hf hallow hnext with hl | ⟨-, row, hrow, happroved, -⟩
    · exact hne (hinv.unique _ _ _ _ _ hlq hl)
    · obtain ⟨⟨row', hrow', hconsumed, -⟩, -⟩ := hinv.spent _ _ _ hlq
      obtain rfl := Option.some.inj (hrow.symm.trans hrow')
      cases happroved.symm.trans hconsumed
  by_cases hpid : p = st.pid
  · by_cases hqid : q = st.pid
    · rw [hpid, hqid]
    · rw [hpid, Outline.advance_self] at hp
      rw [Outline.advance_ne _ _ _ hqid] at hq
      exact (hapart q _ _ hqid hp hq).elim
  · rw [Outline.advance_ne _ _ _ hpid] at hp
    by_cases hqid : q = st.pid
    · rw [hqid, Outline.advance_self] at hq
      exact (hapart p _ _ hpid hq hp).elim
    · rw [Outline.advance_ne _ _ _ hqid] at hq
      exact hinv.unique p q _ _ id hp hq

omit [DecidableEq P] in
/-- The call that makes a gated run holds a spent grant of its fingerprint. -/
theorem spent_of_gatedRun {run : ToolRun}
    (hallow : (grantOutline (α := α)).allows (ls st.pid) st.op) (hop : st.op = .executeTool run)
    (hrun : run.effect = .needsApproval) :
    ∃ id, ls st.pid = .spent run.fingerprint id ∧ run.approvalId = some id := by
  rw [hop] at hallow
  cases hl : ls st.pid with
  | free => rw [hl] at hallow; exact absurd hrun hallow
  | found fp id => rw [hl] at hallow; exact hallow.elim
  | spent fp id =>
      rw [hl] at hallow
      obtain ⟨hid, rfl⟩ : run.approvalId = some id ∧ run.fingerprint = fp := hallow
      exact ⟨id, rfl, hid⟩

/-- **One step keeps the ledger.** -/
theorem Ledger.step (hf : Fires st)
    (hallow : (grantOutline (α := α)).allows (ls st.pid) st.op)
    (hinv : Ledger st.before.state ls) :
    Ledger st.after.state ((grantOutline (α := α)).advance ls st) := by
  have hbacked : ∀ run ∈ st.before.state.gatedRuns, ∃ id, run.approvalId = some id ∧
      st.after.state.Spent run.fingerprint id := fun run hrun => by
    obtain ⟨id, hid, hspent⟩ := hinv.backed run hrun
    exact ⟨id, hid, hspent.step hf⟩
  rcases step_gatedRuns hf with hruns | ⟨run, hop, hrun, hruns⟩
  · refine ⟨fun run hrun => hbacked run (by rwa [hruns] at hrun), ?_, hinv.found_step hf,
      fun p fp id hp => ?_, hinv.unique_step hf hallow⟩
    · rw [hruns]
      exact hinv.distinct
    · rw [hruns]
      exact hinv.spent_step hf hallow p fp id hp
  · obtain ⟨id, hl, hid⟩ := spent_of_gatedRun hallow hop hrun
    obtain ⟨hspent, hunused⟩ := hinv.spent _ _ _ hl
    refine ⟨fun run' hrun' => ?_, ?_, hinv.found_step hf, fun p fp id' hp => ?_,
      hinv.unique_step hf hallow⟩
    · rw [hruns] at hrun'
      rcases List.mem_append.1 hrun' with hrun' | hrun'
      · exact hbacked run' hrun'
      · obtain rfl := List.mem_singleton.1 hrun'
        exact ⟨id, hid, hspent.step hf⟩
    · rw [hruns, List.map_append, List.map_singleton, hid]
      refine List.Nodup.append hinv.distinct (List.nodup_singleton _) ?_
      rw [List.disjoint_singleton]
      exact hunused
    · obtain ⟨hspent', hunused'⟩ := hinv.spent_step hf hallow p fp id' hp
      refine ⟨hspent', ?_⟩
      rw [hruns, List.map_append, List.map_singleton, hid]
      intro hmem
      rcases List.mem_append.1 hmem with hmem | hmem
      · exact hunused' hmem
      · -- the stepping call has used its grant, so it is another call that holds this one
        obtain rfl := Option.some.inj (List.mem_singleton.1 hmem)
        by_cases hpid : p = st.pid
        · subst hpid
          rw [Outline.advance_self, next_executeTool hop] at hp
          cases hp
        · rw [Outline.advance_ne _ _ _ hpid] at hp
          exact hpid (hinv.unique _ _ _ _ _ hp hl)

end Ledger

/-! ## Every run -/

variable {P : Type} [DecidableEq P]

/-- The rows that were resolved to approved before the run or during it. -/
theorem resolvedApproved_reach {c c' : Config database P α} {τ : List (Step database P α)}
    (h : Reach c τ c') : ∀ id row, c'.state.approvals.find? id = some row →
      row.wasApproved = true → ResolvedApproved c.state τ id := by
  refine h.induct (motive := fun τ c' => ∀ id row, c'.state.approvals.find? id = some row →
    row.wasApproved = true → ResolvedApproved c.state τ id) ?_ ?_
  · intro id row hrow happroved
    exact Or.inl ⟨row, hrow, happroved⟩
  · intro τ₁ st _ hf ih id row hrow happroved
    have hearlier : ∀ old, st.before.state.approvals.find? id = some old →
        old.wasApproved = true → ResolvedApproved c.state (τ₁ ++ [st]) id := by
      intro old hold hwas
      rcases ih id old hold hwas with hinit | ⟨st', hst', hres⟩
      · exact Or.inl hinit
      · exact Or.inr ⟨st', by simp [hst'], hres⟩
    cases step_approvalEffect hf id with
    | same hsame => exact hearlier row (hsame.symm.trans hrow) happroved
    | requested a op fresh hrow' =>
        obtain rfl := Option.some.inj (hrow'.symm.trans hrow)
        cases happroved
    | consumed old op found approved hrow' =>
        exact hearlier old found (by simp [Approval.wasApproved, approved])
    | resolved old decision resolver workstream op found pending verdict hrow' =>
        rcases verdict with rfl | rfl
        · exact Or.inr ⟨st, by simp, ⟨resolver, workstream, op⟩, ⟨old, found, pending⟩,
            ⟨_, hrow', rfl⟩⟩
        · obtain rfl := Option.some.inj (hrow'.symm.trans hrow)
          cases happroved

omit [DecidableEq P] in
/-- The gated runs of a fingerprint have spent different approved rows of it. -/
theorem Ledger.counted {s : Store} {ls : P → GrantPhase} (h : Ledger s ls)
    (fingerprint : String) :
    (s.gatedRuns.filter (·.fingerprint = fingerprint)).length ≤
      (s.approvedRows fingerprint).length := by
  have hsub : (s.gatedRuns.filter (·.fingerprint = fingerprint)).map (·.approvalId) ⊆
      (s.approvedRows fingerprint).map (some ·.1) := by
    intro grant hgrant
    obtain ⟨run, hrun, rfl⟩ := List.mem_map.1 hgrant
    obtain ⟨hrun, hfp⟩ := List.mem_filter.1 hrun
    obtain ⟨id, hid, row, hrow, hconsumed, hrowfp⟩ := h.backed run hrun
    refine List.mem_map.2 ⟨(id, row), ?_, hid.symm⟩
    rw [Store.approvedRows, Table.mem_select]
    refine ⟨hrow, ?_⟩
    simpa [Approval.wasApproved, hconsumed, hrowfp] using hfp
  have hnodup : ((s.gatedRuns.filter (·.fingerprint = fingerprint)).map (·.approvalId)).Nodup :=
    h.distinct.sublist (List.filter_sublist.map _)
  simpa using (hnodup.subperm hsub).length_le

/-- **Grants are one-shot** in every interleaving of any number of `invoke` and
`resolve_approval` calls. -/
theorem oneShot_of_reach {s : Store} {calls : P → GrantCall}
    {c' : Config database P (Option InvokeResult)}
    {τ : List (Step database P (Option InvokeResult))} (h : Reach (grantPool s calls) τ c')
    (hfresh : s.toolRuns = []) : OneShot s τ c'.state := by
  have hnone : s.gatedRuns = [] := by rw [Store.gatedRuns, hfresh, List.filter_nil]
  have hledger : Ledger c'.state (grantOutline.track (fun _ => .free) τ) := by
    refine Outline.invariant Ledger (fun _ => True) h (fun p => (calls p).holds)
      (fun _ _ => trivial) ?_ fun ls st hf _ _ hallow hinv => hinv.step hf hallow
    have hunspent : ∀ fp id, GrantPhase.free ≠ .spent fp id := by simp
    refine ⟨fun run hrun => ?_, ?_, fun _ fp id hp => absurd hp (free_ne_found fp id),
      fun _ fp id hp => absurd hp (hunspent fp id),
      fun _ _ fp _ id hp => absurd hp (hunspent fp id)⟩
    · rw [show (grantPool s calls).state.gatedRuns = [] from hnone] at hrun
      cases hrun
    · rw [show (grantPool s calls).state.gatedRuns = [] from hnone]
      exact List.nodup_nil
  have hresolved := resolvedApproved_reach h
  refine ⟨fun run hrun => ?_, hledger.distinct, hledger.counted, fun fp entry hentry => ?_⟩
  · obtain ⟨id, hid, row, hrow, hconsumed, hfp⟩ := hledger.backed run hrun
    exact ⟨id, row, hid, hrow, hconsumed, hfp,
      hresolved id row hrow (by simp [Approval.wasApproved, hconsumed])⟩
  · obtain ⟨id, row⟩ := entry
    rw [Store.approvedRows, Table.mem_select] at hentry
    simp only [Bool.and_eq_true] at hentry
    exact hresolved id row hentry.1 hentry.2.2

/-! ## One deletion, two calls -/

/-- A tool that deletes a file. -/
def deleteTool : Tool where
  capabilitiesFor _ := {.fsDelete}
  execute _ := .ok { ok := true }

/-- A call that deletes a file, which needs approval. -/
def deleteCall : InvokeArgs where
  role := "executor"
  toolName := "filesystem"
  kwargs := [("op", .str "delete"), ("path", .str "plan.md")]

/-- The rows of the requests. -/
def approvalA : Uuid := ⟨"0c8f1f5e-2f0b-4a39-9a70-3f4f0c1d2e01", by decide⟩

def approvalB : Uuid := ⟨"0c8f1f5e-2f0b-4a39-9a70-3f4f0c1d2e02", by decide⟩

/-- Two calls of one deletion, a human, and a third call after the resolution. -/
inductive Deleter where
  | first
  | second
  | human
  | third
  deriving DecidableEq

/-- The first call asks, the human approves, the others find the grant. -/
def Deleter.call : Deleter → GrantCall
  | first => delete approvalA
  | human => .resolve approvalA .approved "ana" "productivity"
  | second => delete approvalB
  | third => delete approvalB
where
  /-- One call of the deletion. -/
  delete (newId : Uuid) : GrantCall :=
    .invoke sampleHash (fun _ => some deleteTool) { roles := [("executor", {.fsDelete})] } newId
      deleteCall

/-- The deletions on a database without rows. -/
def deletions : Config database Deleter (Option InvokeResult) :=
  grantPool (Store.initial 0) Deleter.call

/-- The first call pends, the human approves, and the others race for the grant. -/
def grantRace : List (Choice Deleter Exn) :=
  List.replicate 4 (.first, none) ++ [(.human, none)] ++
    [(.second, none), (.third, none), (.second, none), (.third, none)] ++
    List.replicate 3 (.second, none) ++ List.replicate 3 (.third, none)

/-- One of the two calls runs its tool, the other one asks again. -/
theorem oneShot_deletions :
    ((deletions.run grantRace).state.gatedRuns.length = 1) ∧
      OneShot (Store.initial 0) (deletions.trace grantRace) (deletions.run grantRace).state :=
  ⟨by decide, oneShot_of_reach (Reach.of_run deletions grantRace) rfl⟩

end AiStudio.Runtime
