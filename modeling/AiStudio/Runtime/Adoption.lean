import AiStudio.Runtime.Effects
import AiStudio.Runtime.Grants
import AiStudio.Runtime.Skills

/-!
# What a grant to adopt a skill binds

The grant is keyed on the slug. A promotion that spends it reads the candidate's file
again, so what is adopted is what the file holds then. The adopted text is the reviewed
form of the approved one exactly when the file has not changed, up to the gate, between
the approval and that read.
-/

set_option autoImplicit false

namespace AiStudio.Runtime

open AiStudio.Data AiStudio.Concurrency

/-! ## The scan -/

namespace Promotion

variable (a : Promotion)

/-- The queue on a disk that nobody changes. -/
def queue (disk : Disk) : List Candidate :=
  (FileOp.sortedPaths disk).filterMap fun path => (disk.find? path).bind (a.candidateIn path)

/-- The candidate of the slug on a disk. -/
def candidate? (disk : Disk) : Option Candidate :=
  ((a.queue disk).insertionSort fun x y => x.slug ≤ y.slug).find? (·.slug = a.slug)

/-- The text a reviewer of the slug has before them. -/
def reviewedText (disk : Disk) : Option String :=
  (a.candidate? disk).bind fun candidate => disk.find? candidate.path

theorem eval_loadCandidate (path : String) (s : Store × Disk) :
    (a.loadCandidate path).eval s = (.ok ((s.2.find? path).bind (a.candidateIn path)), s) := by
  cases hpath : s.2.find? path with
  | none =>
      have hexec : library.exec (.inr (.readText path)) s =
          .error (.runtimeError "FileNotFoundError") := by
        change FileOp.exec (.readText path) s = _
        simp only [FileOp.exec, hpath]
        rfl
      exact Program.eval_call_error hexec
  | some text =>
      have hexec : library.exec (.inr (.readText path)) s = .ok (text, s) := by
        change FileOp.exec (.readText path) s = _
        simp only [FileOp.exec, hpath]
        rfl
      exact Program.eval_call_ok hexec

theorem eval_loadAll (paths : List String) (s : Store × Disk) :
    (a.loadAll paths).eval s =
      (.ok (paths.filterMap fun path => (s.2.find? path).bind (a.candidateIn path)), s) := by
  induction paths with
  | nil => rfl
  | cons path paths ih =>
      rw [loadAll, Program.eval_bind_ok (a.eval_loadCandidate path s), Program.eval_bind_ok ih,
        Program.eval_ret]
      cases hcandidate : (s.2.find? path).bind (a.candidateIn path) with
      | none => rw [List.filterMap_cons, hcandidate]; rfl
      | some candidate => rw [List.filterMap_cons, hcandidate]; rfl

/-- **Undisturbed, the scan finds the candidate that is on the disk.** -/
theorem eval_findCandidate (s : Store × Disk) :
    a.findCandidate.eval s = (.ok (a.candidate? s.2), s) := by
  have hfiles : (file .skillFiles).eval s = (.ok (FileOp.sortedPaths s.2), s) :=
    Program.eval_op_ok rfl
  exact (Program.eval_bind_ok hfiles).trans
    ((Program.eval_bind_ok (a.eval_loadAll _ s)).trans (Program.eval_ret _ _))

end Promotion

/-! ## Runs -/

section Steps

variable {P : Type}

/-- Promotions beside any other processes: humans, workers, writers of candidates. -/
def promotionPool (s : Store × Disk) (promotions : P → Option Promotion)
    (others : P → Librarian PromoteResult) : Config library P PromoteResult where
  state := s
  pool p :=
    match promotions p with
    | some a => a.promoteCandidate
    | none => others p

/-- The step resolves a pending approval to approved. -/
structure Grants (st : Step library P PromoteResult) (id : Uuid) : Prop where
  call : ∃ resolver workstream, st.op = .inl (.resolveApproval id .approved resolver workstream)
  pending : ∃ row, st.before.state.1.approvals.find? id = some row ∧ row.status = .pending
  approved : ∃ row, st.after.state.1.approvals.find? id = some row ∧ row.status = .approved

/-- The grant a step spends. -/
def spent? (st : Step library P PromoteResult) : Option Uuid :=
  match st with
  | ⟨_, .inl (.consumeGrant id), .ok (some _), _, _⟩ => some id
  | _ => none

/-- The text on the disk when a step reads it. -/
def read? (st : Step library P PromoteResult) : Option String :=
  match st with
  | ⟨_, .inr (.readText path), .ok _, before, _⟩ => before.state.2.find? path
  | _ => none

/-- The content a step has a tool write. -/
def written? (st : Step library P PromoteResult) : Option String :=
  match st with
  | ⟨_, .inl (.executeTool run), .ok _, _, _⟩ => (run.args.lookup "content").bind Json.asStr?
  | _ => none

variable [DecidableEq P]

/-- The grant a promotion spends: the first that its process does. -/
def spentBy (τ : List (Step library P PromoteResult)) (p : P) : Option Uuid :=
  (τ.filter (·.pid = p)).findSome? spent?

/-- The text a promotion reads last, which is the one it adopts. -/
def readBy (τ : List (Step library P PromoteResult)) (p : P) : Option String :=
  ((τ.filter (·.pid = p)).filterMap read?).getLast?

/-- The written content is the reviewed form of the candidate that was on the disk when the
grant it is written under was approved. -/
def BindsReviewed (τ : List (Step library P PromoteResult)) (a : Promotion) (p : P)
    (content : String) : Prop :=
  ∃ id st text, spentBy τ p = some id ∧ st ∈ τ ∧ Grants st id ∧
    a.reviewedText st.before.state.2 = some text ∧ markReviewed text = some content

/-- The candidate of the slug has, when the grant is approved, the text that the promotion
finds on the disk when it reads it; the two may differ in what the flipped gate drops. -/
def Unchanged (τ : List (Step library P PromoteResult)) (a : Promotion) (p : P) : Prop :=
  ∀ id st raw, spentBy τ p = some id → st ∈ τ → Grants st id → readBy τ p = some raw →
    ∃ text, a.reviewedText st.before.state.2 = some text ∧ markReviewed text = markReviewed raw

end Steps

/-! ## The outline of a promotion -/

/-- How far a promotion is: it holds nothing, a spent grant, or the text it adopts. -/
inductive PromotePhase where
  | free
  | granted (id : Uuid)
  | holding (id : Uuid) (raw : String)
  | closed

/-- The tool runs of a call write the reviewed form of a text. -/
def StoreOp.WritesReviewed (raw : String) : StoreOp → Prop
  | .executeTool run => ∃ content, markReviewed raw = some content ∧
      (run.args.lookup "content").bind Json.asStr? = some content
  | _ => True

/-- What a promotion does next. It runs a tool only with a text it read under a grant. -/
def promoteOutline {α : Type} : Outline library PromotePhase α where
  allows
    | .free, .inl (.executeTool _) => False
    | .free, .inl _ => True
    | .free, .inr _ => True
    | .granted _, .inr (.readText _) => True
    | .holding _ raw, .inl o => o.WritesReviewed raw
    | _, _ => False
  next
    | .free, .inl (.consumeGrant id), .ok (some _) => .granted id
    | .free, _, _ => .free
    | .granted id, .inr (.readText _), .ok raw => .holding id raw
    | .holding id raw, _, _ => .holding id raw
    | _, _, _ => .closed
  ends _ _ := True

namespace Promotion

variable (a : Promotion)

/-- The calls on files. -/
def OnFiles : library.Op → Prop
  | .inl _ => False
  | .inr _ => True

theorem file_only (o : FileOp) : (file o).Only OnFiles := .op trivial

theorem loadCandidate_only (path : String) : (a.loadCandidate path).Only OnFiles := by
  refine .tryCatch (.bind (file_only _) fun _ => .ret _) fun e => ?_
  exact .ite (fun _ => .ret _) fun _ => .throw _

theorem loadAll_only (paths : List String) : (a.loadAll paths).Only OnFiles := by
  induction paths with
  | nil => exact .ret _
  | cons path paths ih =>
      exact .bind (a.loadCandidate_only path) fun _ => .bind ih fun _ => .ret _

theorem findCandidate_only : a.findCandidate.Only OnFiles :=
  .bind (file_only _) fun _ => .bind (a.loadAll_only _) fun _ => .ret _

/-- The calls of the database that run no tool but on the text. -/
def Writes (raw : String) : library.Op → Prop
  | .inl o => o.WritesReviewed raw
  | .inr _ => False

end Promotion

theorem emitEvent_writes (raw workstream : String) (taskId : Option Uuid) (payload : SinkPayload) :
    (emitEvent workstream taskId payload).Only (StoreOp.WritesReviewed raw) := by
  unfold emitEvent
  cases requireWorkstream workstream with
  | error e => exact .throw _
  | ok workstream => exact .op trivial

theorem requestApproval_writes (raw : String) (newId : Uuid) (r : RequestArgs) :
    (requestApproval newId r).Only (StoreOp.WritesReviewed raw) := by
  refine .bind (.op trivial) fun existing => ?_
  cases existing with
  | some row => exact .ret _
  | none => exact .bind (.op trivial) fun _ => .ret _

namespace InvokeArgs

variable {a : InvokeArgs} {raw content : String}

theorem execute_writes (hraw : markReviewed raw = some content)
    (hargs : (a.kwargs.lookup "content").bind Json.asStr? = some content) (tool : Tool)
    (decision : Policy.Decision) (fingerprint : String) (approvalId : Option Uuid) :
    (a.execute tool decision fingerprint approvalId).Only (StoreOp.WritesReviewed raw) := by
  refine .bind (emitEvent_writes _ _ _ _) fun _ => .bind (.op ⟨content, hraw, hargs⟩) fun _ => ?_
  unfold report
  cases tool.execute a.kwargs with
  | error e => exact .throw _
  | ok result => exact .ret _

/-- **An invocation runs its tool on its own arguments only.** -/
theorem invoke_writes (hraw : markReviewed raw = some content)
    (hargs : (a.kwargs.lookup "content").bind Json.asStr? = some content)
    (sha256 : String → String) (registry : ToolRegistry) (config : Policy.PolicyConfig)
    (newId : Uuid) : (a.invoke sha256 registry config newId).Only (StoreOp.WritesReviewed raw) := by
  have hpend (required : Finset Policy.Capability) (decision : Policy.Decision) :
      (a.pend sha256 required decision newId).Only (StoreOp.WritesReviewed raw) :=
    .bind (requestApproval_writes _ _ _) fun _ => .ret _
  unfold invoke
  cases registry a.toolName with
  | none => exact .bind (emitEvent_writes _ _ _ _) fun _ => .ret _
  | some tool =>
      refine .bind (emitEvent_writes _ _ _ _) fun _ => ?_
      unfold act
      split
      · exact .ret _
      · refine .ite (fun _ => .bind (.op trivial) fun grant => ?_) fun _ =>
          .bind (emitEvent_writes _ _ _ _) fun _ => .ret _
        cases grant with
        | none => exact hpend _ _
        | some found =>
            refine .bind (.op trivial) fun consumed => ?_
            cases consumed with
            | none => exact hpend _ _
            | some row => exact execute_writes hraw hargs _ _ _ _
      · exact execute_writes hraw hargs _ _ _ _

end InvokeArgs

namespace Promotion

variable (a : Promotion)

/-- A process that holds a text may make the calls of its write. -/
theorem holding_of_writes {α : Type} {id : Uuid} {raw : String} {o : library.Op}
    (ho : Writes raw o) : (promoteOutline (α := α)).allows (.holding id raw) o ∧
      ∀ r, (promoteOutline (α := α)).next (.holding id raw) o r = .holding id raw := by
  cases o with
  | inl o => exact ⟨ho, fun _ => rfl⟩
  | inr o => exact ho.elim

theorem holds_report (id : Uuid) (raw : String) (candidate : Candidate) (grantId : Uuid)
    (result : InvokeResult) :
    promoteOutline.Holds (.holding id raw) (a.report candidate grantId result) := by
  unfold report
  dsimp only
  split
  · trivial
  · exact Outline.holds_only_bind ((emitEvent_writes raw _ _ _).inl (B := Writes raw) fun _ h => h)
      (fun _ => holding_of_writes) (fun _ => trivial) fun _ => trivial

/-- The adoption of the text that was read. -/
def adoptText (candidate : Candidate) (grantId : Uuid) (raw : String) : Librarian PromoteResult :=
  match markReviewed raw with
  | none => .throw (.valueError "candidate has no 'reviewed: false' frontmatter line to flip")
  | some adopted =>
      ((a.write adopted).invoke a.sha256 a.registry a.config a.writeId).inl.bind fun result =>
        a.report candidate grantId result

theorem adopt_eq (candidate : Candidate) (grantId : Uuid) : a.adopt candidate grantId =
    (file (.readText candidate.path)).bind (a.adoptText candidate grantId) := rfl

theorem holds_adoptText (id : Uuid) (raw : String) (candidate : Candidate) (grantId : Uuid) :
    promoteOutline.Holds (.holding id raw) (a.adoptText candidate grantId raw) := by
  unfold adoptText
  split
  · trivial
  · rename_i adopted hraw
    exact Outline.holds_only_bind
      ((InvokeArgs.invoke_writes (a := a.write adopted) hraw rfl _ _ _ _).inl
        (B := Writes raw) fun _ h => h)
      (fun _ => holding_of_writes)
      (fun result => a.holds_report id raw candidate grantId result) fun _ => trivial

theorem holds_adopt (id : Uuid) (candidate : Candidate) (grantId : Uuid) :
    promoteOutline.Holds (.granted id) (a.adopt candidate grantId) := by
  rw [adopt_eq]
  refine ⟨trivial, fun r => ?_⟩
  cases r with
  | error e => trivial
  | ok raw => exact a.holds_adoptText id raw candidate grantId

theorem holds_pend (candidate : Candidate) : promoteOutline.Holds .free (a.pend candidate) := by
  refine ⟨trivial, fun r => ?_⟩
  cases r with
  | error e => trivial
  | ok existing =>
      cases existing with
      | some row => trivial
      | none =>
          refine ⟨trivial, fun r => ?_⟩
          cases r with
          | ok row => trivial
          | error e => trivial

theorem holds_gate (candidate : Candidate) : promoteOutline.Holds .free (a.gate candidate) := by
  refine ⟨trivial, fun r => ?_⟩
  cases r with
  | error e => trivial
  | ok grant =>
      match grant with
      | none => exact a.holds_pend candidate
      | some (grantId, _) =>
          refine ⟨trivial, fun r => ?_⟩
          cases r with
          | error e => trivial
          | ok consumed =>
              cases consumed with
              | none => exact a.holds_pend candidate
              | some row => exact a.holds_adopt grantId candidate grantId

/-- Scanning holds nothing. -/
theorem free_of_onFiles {α : Type} {o : library.Op} (ho : OnFiles o) :
    (promoteOutline (α := α)).allows .free o ∧
      ∀ r, (promoteOutline (α := α)).next .free o r = .free := by
  cases o with
  | inl o => exact ho.elim
  | inr o => exact ⟨trivial, fun _ => rfl⟩

/-- **Every promotion follows the outline.** -/
theorem holds_promoteCandidate : promoteOutline.Holds .free a.promoteCandidate := by
  rw [promoteCandidate]
  refine Outline.holds_only_bind a.findCandidate_only (fun _ => free_of_onFiles) ?_
    fun _ => trivial
  intro candidate
  cases candidate with
  | none => trivial
  | some candidate => exact a.holds_gate candidate

end Promotion

/-! ## Grants over a run -/

/-- A call on the candidate files leaves the database alone. -/
theorem FileOp.exec_store {o : FileOp} {s s' : Store × Disk} {r : o.Res}
    (h : o.exec s = .ok (r, s')) : s'.1 = s.1 := by
  cases o with
  | readText path =>
      simp only [exec] at h
      split at h
      · cases h
      · exact (congrArg (·.2.1) (Except.ok.inj h)).symm
  | _ => exact (congrArg (·.2.1) (Except.ok.inj h)).symm

section Runs

variable {P : Type} [DecidableEq P] {st : Step library P PromoteResult}

/-- **What a step is to an approval**: the effect of a transaction, or nothing. -/
theorem library_approvalEffect (hf : Fires st) (id : Uuid) :
    (∃ o, st.op = .inl o ∧ ApprovalEffect o st.before.state.1 st.after.state.1 id) ∨
      st.after.state.1 = st.before.state.1 := by
  obtain ⟨pid, op, out, before, after⟩ := st
  rcases hf.committed with ⟨v, -, -, hexec⟩ | ⟨e, -, hs⟩
  · cases op with
    | inl o =>
        have hexec : (o.exec before.state.1).map (fun x => (x.1, (x.2, before.state.2))) =
            .ok (v, after.state) := hexec
        cases hx : o.exec before.state.1 with
        | error e => rw [hx] at hexec; cases hexec
        | ok x =>
            rw [hx] at hexec
            have hafter : x.2 = after.state.1 := congrArg (·.2.1) (Except.ok.inj hexec)
            exact Or.inl ⟨o, rfl, hafter ▸ exec_approvalEffect hx id⟩
    | inr o => exact Or.inr (FileOp.exec_store hexec)
  · refine Or.inr ?_
    dsimp only at hs ⊢
    rw [hs]
    cases op with
    | inl o => rfl
    | inr o => rfl

/-- The grant a step spends was approved. -/
theorem approved_of_spent (hf : Fires st) {id : Uuid} (h : spent? st = some id) :
    ∃ row, st.before.state.1.approvals.find? id = some row ∧ row.status = .approved := by
  obtain ⟨pid, op, out, before, after⟩ := st
  unfold spent? at h
  split at h
  · rename_i _ _ _ id' _ _ _ heq
    obtain ⟨rfl, hop, hout, rfl, rfl⟩ := Step.mk.inj heq
    obtain rfl := Option.some.inj h
    subst hop
    obtain rfl := eq_of_heq hout
    rcases hf.committed with ⟨v, hv, -, hexec⟩ | ⟨e, he, -⟩
    · dsimp only at hv hexec ⊢
      have hexec : (consumeGrant id' before.state.1).map
          (fun x => (x.1, (x.2, before.state.2))) = .ok (v, after.state) := hexec
      cases hx : consumeGrant id' before.state.1 with
      | error e => rw [hx] at hexec; cases hexec
      | ok x =>
          rw [hx] at hexec
          have hres : x.1 = v := congrArg (·.1) (Except.ok.inj hexec)
          rcases consumeGrant_cases hx with ⟨hnone, -⟩ | ⟨row, hrow, happroved, -⟩
          · rw [← hres, hnone] at hv
            cases hv
          · exact ⟨row, hrow, happroved⟩
    · cases he
  · cases h

variable {c c' : Config library P PromoteResult} {τ : List (Step library P PromoteResult)}

/-- In a run that starts without grants, a step of it approved what is approved. -/
theorem granted_reach (h : Reach c τ c')
    (hnone : ∀ id row, c.state.1.approvals.find? id = some row → row.wasApproved = false) :
    ∀ id row, c'.state.1.approvals.find? id = some row → row.wasApproved = true →
      ∃ st ∈ τ, Grants st id := by
  refine h.induct (motive := fun τ c' => ∀ id row, c'.state.1.approvals.find? id = some row →
    row.wasApproved = true → ∃ st ∈ τ, Grants st id) ?_ ?_
  · intro id row hrow happroved
    rw [hnone id row hrow] at happroved
    cases happroved
  · intro τ₁ st _ hf ih id row hrow happroved
    have hearlier : ∀ old, st.before.state.1.approvals.find? id = some old →
        old.wasApproved = true → ∃ st' ∈ τ₁ ++ [st], Grants st' id := by
      intro old hold hwas
      obtain ⟨st', hst', hgrants⟩ := ih id old hold hwas
      exact ⟨st', by simp [hst'], hgrants⟩
    rcases library_approvalEffect hf id with ⟨o, hop, heffect⟩ | hsame
    · cases heffect with
      | same hsame => exact hearlier row (hsame.symm.trans hrow) happroved
      | requested a _ fresh hrow' =>
          obtain rfl := Option.some.inj (hrow'.symm.trans hrow)
          cases happroved
      | consumed old _ found approved hrow' =>
          exact hearlier old found (by simp [Approval.wasApproved, approved])
      | resolved old decision resolver workstream ho found pending verdict hrow' =>
          rcases verdict with rfl | rfl
          · exact ⟨st, by simp, ⟨resolver, workstream, by rw [hop, ho]⟩, ⟨old, found, pending⟩,
              ⟨_, hrow', rfl⟩⟩
          · obtain rfl := Option.some.inj (hrow'.symm.trans hrow)
            cases happroved
    · exact hearlier row (by rw [← hsame]; exact hrow) happroved

/-- A decided approval stays decided. -/
theorem decided_reach (h : Reach c τ c') {id : Uuid}
    (hrow : ∃ row, c.state.1.approvals.find? id = some row ∧ row.status ≠ .pending) :
    ∃ row, c'.state.1.approvals.find? id = some row ∧ row.status ≠ .pending := by
  refine h.induct (motive := fun _ c' =>
    ∃ row, c'.state.1.approvals.find? id = some row ∧ row.status ≠ .pending) hrow ?_
  intro τ₁ st _ hf ⟨row, hrow, hdecided⟩
  rcases library_approvalEffect hf id with ⟨o, -, heffect⟩ | hsame
  · cases heffect with
    | same hsame => exact ⟨row, hsame.trans hrow, hdecided⟩
    | requested a _ fresh => rw [fresh] at hrow; cases hrow
    | resolved old _ _ _ _ found pending =>
        obtain rfl := Option.some.inj (found.symm.trans hrow)
        exact absurd pending hdecided
    | consumed old _ _ _ hrow' => exact ⟨_, hrow', nofun⟩
  · exact ⟨row, by rw [hsame]; exact hrow, hdecided⟩

/-- **A grant is approved once.** -/
theorem Grants.unique {st st' : Step library P PromoteResult} {id : Uuid} (h : Reach c τ c')
    (hst : st ∈ τ) (hst' : st' ∈ τ) (hgrants : Grants st id) (hgrants' : Grants st' id) :
    st = st' := by
  have hlater : ∀ {st st' : Step library P PromoteResult}, Grants st id → Grants st' id →
      ¬ [st, st'].Sublist τ := by
    intro st st' hg hg' hsub
    obtain ⟨-, -, τ', hbetween⟩ := h.between hsub
    obtain ⟨row, hrow, happroved⟩ := hg.approved
    obtain ⟨row', hrow', hpending⟩ := hg'.pending
    obtain ⟨row'', hrow'', hdecided⟩ := decided_reach hbetween
      ⟨row, hrow, by rw [happroved]; exact nofun⟩
    obtain rfl := Option.some.inj (hrow'.symm.trans hrow'')
    exact hdecided hpending
  obtain ⟨τ₁, τ₂, rfl⟩ := List.append_of_mem hst
  rcases List.mem_append.1 hst' with hleft | hright
  · refine absurd ?_ (hlater hgrants' hgrants)
    exact (List.singleton_sublist.2 hleft).append (List.singleton_sublist.2 List.mem_cons_self)
  · rcases List.mem_cons.1 hright with rfl | hright
    · rfl
    · refine absurd ?_ (hlater hgrants hgrants')
      exact ((List.singleton_sublist.2 hright).cons_cons st).trans (List.sublist_append_right _ _)

/-! ## A promotion over a run -/

/-- What the steps of a promotion have done by the time its process is in a phase. -/
def Tracked (τ : List (Step library P PromoteResult)) (p : P) : Option PromotePhase → Prop
  | none => True
  | some .free => spentBy τ p = none ∧ ∀ st ∈ τ, st.pid = p → written? st = none
  | some (.granted id) => spentBy τ p = some id ∧ ∀ st ∈ τ, st.pid = p → written? st = none
  | some (.holding id raw) => spentBy τ p = some id ∧ readBy τ p = some raw ∧
      ∀ st ∈ τ, st.pid = p → ∀ content, written? st = some content →
        markReviewed raw = some content
  | some .closed => ∀ st ∈ τ, st.pid = p → written? st = none

theorem spentBy_concat_self (τ : List (Step library P PromoteResult))
    (st : Step library P PromoteResult) :
    spentBy (τ ++ [st]) st.pid = (spentBy τ st.pid).or (spent? st) := by
  simp [spentBy, List.filter_append, List.findSome?_append]

theorem spentBy_concat_ne (τ : List (Step library P PromoteResult))
    {st : Step library P PromoteResult} {p : P} (hp : p ≠ st.pid) :
    spentBy (τ ++ [st]) p = spentBy τ p := by
  simp [spentBy, List.filter_append, Ne.symm hp]

theorem readBy_concat_self (τ : List (Step library P PromoteResult))
    (st : Step library P PromoteResult) :
    readBy (τ ++ [st]) st.pid = (read? st).or (readBy τ st.pid) := by
  simp only [readBy, List.filter_append, List.filterMap_append, List.getLast?_append]
  cases hread : read? st with
  | none => simp [hread]
  | some text => simp [hread]

theorem readBy_concat_ne (τ : List (Step library P PromoteResult))
    {st : Step library P PromoteResult} {p : P} (hp : p ≠ st.pid) :
    readBy (τ ++ [st]) p = readBy τ p := by
  simp [readBy, List.filter_append, Ne.symm hp]

omit [DecidableEq P] in
/-- What is true of the earlier writes of a process and of its step is true of all. -/
theorem writes_concat {Q : Step library P PromoteResult → Prop} {p : P}
    (hτ : ∀ st ∈ τ, st.pid = p → Q st) (hst : st.pid = p → Q st) :
    ∀ st' ∈ τ ++ [st], st'.pid = p → Q st' := by
  intro st' hst' hpid
  rcases List.mem_append.1 hst' with hst' | hst'
  · exact hτ st' hst' hpid
  · rw [List.mem_singleton.1 hst'] at hpid ⊢
    exact hst hpid

/-- The steps of other processes do not count. -/
theorem Tracked.other {p : P} {l : Option PromotePhase} (hp : p ≠ st.pid) (h : Tracked τ p l) :
    Tracked (τ ++ [st]) p l := by
  have hst (Q : Prop) : st.pid = p → Q := fun hpid => absurd hpid.symm hp
  match l, h with
  | none, _ => trivial
  | some .free, ⟨hspent, hw⟩ =>
      exact ⟨by rw [spentBy_concat_ne _ hp, hspent], writes_concat hw (hst _)⟩
  | some (.granted id), ⟨hspent, hw⟩ =>
      exact ⟨by rw [spentBy_concat_ne _ hp, hspent], writes_concat hw (hst _)⟩
  | some (.holding id raw), ⟨hspent, hread, hw⟩ =>
      exact ⟨by rw [spentBy_concat_ne _ hp, hspent], by rw [readBy_concat_ne _ hp, hread],
        writes_concat hw (hst _)⟩
  | some .closed, hw => exact writes_concat (τ := τ) hw (hst _)

omit [DecidableEq P] in
/-- A process that holds nothing runs no tool; it is granted what its step spends. -/
theorem free_step (hallow : (promoteOutline (α := PromoteResult)).allows .free st.op) :
    written? st = none ∧ (promoteOutline (α := PromoteResult)).next .free st.op st.out =
      (spent? st).elim .free .granted := by
  obtain ⟨pid, op, out, before, after⟩ := st
  cases op with
  | inr o => exact ⟨rfl, rfl⟩
  | inl o =>
      cases o with
      | executeTool run => exact hallow.elim
      | consumeGrant id =>
          cases out with
          | error e => exact ⟨rfl, rfl⟩
          | ok v => cases v with
              | none => exact ⟨rfl, rfl⟩
              | some row => exact ⟨rfl, rfl⟩
      | _ => exact ⟨rfl, rfl⟩

/-- Under a grant a process reads the text it will hold, or is done. -/
theorem granted_step (hf : Fires st) {id : Uuid}
    (hallow : (promoteOutline (α := PromoteResult)).allows (.granted id) st.op) :
    written? st = none ∧ spent? st = none ∧
      ((promoteOutline (α := PromoteResult)).next (.granted id) st.op st.out = .closed ∨
        ∃ raw, read? st = some raw ∧
          (promoteOutline (α := PromoteResult)).next (.granted id) st.op st.out =
            .holding id raw) := by
  obtain ⟨pid, op, out, before, after⟩ := st
  cases op with
  | inl o => exact hallow.elim
  | inr o =>
      cases o with
      | skillFiles => exact hallow.elim
      | writeText => exact hallow.elim
      | readText path =>
          refine ⟨rfl, rfl, ?_⟩
          cases out with
          | error e => exact Or.inl rfl
          | ok raw =>
              refine Or.inr ⟨raw, ?_, rfl⟩
              rcases hf.committed with ⟨v, hv, -, hexec⟩ | ⟨e, he, -⟩
              · obtain rfl := Except.ok.inj hv
                change FileOp.exec (.readText path) before.state = .ok (raw, after.state) at hexec
                change before.state.2.find? path = some raw
                simp only [FileOp.exec] at hexec
                split at hexec
                · cases hexec
                · rename_i text htext
                  rw [htext]
                  exact congrArg some (Prod.mk.inj (Except.ok.inj hexec)).1
              · cases he

omit [DecidableEq P] in
/-- A process that holds a text reads no other, and writes its reviewed form. -/
theorem holding_step {id : Uuid} {raw : String}
    (hallow : (promoteOutline (α := PromoteResult)).allows (.holding id raw) st.op) :
    read? st = none ∧ (∀ content, written? st = some content → markReviewed raw = some content) ∧
      (promoteOutline (α := PromoteResult)).next (.holding id raw) st.op st.out =
        .holding id raw := by
  obtain ⟨pid, op, out, before, after⟩ := st
  cases op with
  | inr o => exact hallow.elim
  | inl o =>
      refine ⟨rfl, fun content hcontent => ?_, rfl⟩
      cases o with
      | executeTool run =>
          obtain ⟨content', hraw, hargs⟩ : StoreOp.WritesReviewed raw (.executeTool run) := hallow
          cases out with
          | error e => cases hcontent
          | ok v =>
              change (run.args.lookup "content").bind Json.asStr? = some content at hcontent
              rw [hraw, ← hargs, hcontent]
      | _ => cases hcontent

/-- **What a step of a promotion adds.** -/
theorem Tracked.self (hf : Fires st) {l : PromotePhase}
    (hallow : (promoteOutline (α := PromoteResult)).allows l st.op)
    (h : Tracked τ st.pid (some l)) :
    Tracked (τ ++ [st]) st.pid
      (some ((promoteOutline (α := PromoteResult)).next l st.op st.out)) := by
  match l, h with
  | .free, ⟨hspent, hw⟩ =>
      obtain ⟨hwritten, hnext⟩ := free_step hallow
      rw [hnext]
      cases hst : spent? st with
      | none =>
          exact ⟨by rw [spentBy_concat_self, hspent, hst]; rfl, writes_concat hw fun _ => hwritten⟩
      | some id =>
          exact ⟨by rw [spentBy_concat_self, hspent, hst]; rfl, writes_concat hw fun _ => hwritten⟩
  | .granted id, ⟨hspent, hw⟩ =>
      obtain ⟨hwritten, -, hnext | ⟨raw, hread, hnext⟩⟩ := granted_step hf hallow
      · rw [hnext]
        exact writes_concat (τ := τ) hw fun _ => hwritten
      · rw [hnext]
        refine ⟨by rw [spentBy_concat_self, hspent]; rfl, by rw [readBy_concat_self, hread]; rfl,
          writes_concat (fun st' hst' hpid content hcontent => ?_) fun _ content hcontent => ?_⟩
        · rw [hw st' hst' hpid] at hcontent
          cases hcontent
        · rw [hwritten] at hcontent
          cases hcontent
  | .holding id raw, ⟨hspent, hread, hw⟩ =>
      obtain ⟨hnone, hwritten, hnext⟩ := holding_step hallow
      rw [hnext]
      exact ⟨by rw [spentBy_concat_self, hspent]; rfl,
        by rw [readBy_concat_self, hnone, hread]; rfl, writes_concat hw fun _ => hwritten⟩
  | .closed, _ =>
      obtain ⟨pid, op, out, before, after⟩ := st
      cases op with
      | inl o => exact hallow.elim
      | inr o => exact hallow.elim

variable {s : Store × Disk} {promotions : P → Option Promotion}
  {others : P → Librarian PromoteResult}

/-- **A promotion writes the reviewed form of the text it read, under the grant it spent.** -/
theorem written_of_reach (h : Reach (promotionPool s promotions others) τ c')
    (hst : st ∈ τ) {a : Promotion} (ha : promotions st.pid = some a) {content : String}
    (hcontent : written? st = some content) :
    ∃ id raw, spentBy τ st.pid = some id ∧ readBy τ st.pid = some raw ∧
      markReviewed raw = some content := by
  let O := (promoteOutline (α := PromoteResult)).orFree
  let ls : P → Option PromotePhase := fun p => (promotions p).map fun _ => .free
  have hholds : ∀ p, O.Holds (ls p) ((promotionPool s promotions others).pool p) := by
    intro p
    cases hp : promotions p with
    | none =>
        have hls : ls p = none := by simp only [ls, hp, Option.map_none]
        rw [hls]
        exact Outline.holds_orFree_none _ _
    | some a =>
        have hls : ls p = some .free := by simp only [ls, hp, Option.map_some]
        have hpool : (promotionPool s promotions others).pool p = a.promoteCandidate := by
          simp only [promotionPool, hp]
        rw [hls, hpool]
        exact Outline.holds_orFree_some a.holds_promoteCandidate
  have htracked : ∀ p, Tracked τ p (O.track ls τ p) ∧
      ((O.track ls τ p).isSome = (promotions p).isSome) := by
    refine h.induct (motive := fun τ _ => ∀ p, Tracked τ p (O.track ls τ p) ∧
      ((O.track ls τ p).isSome = (promotions p).isSome)) ?_ ?_
    · intro p
      cases hp : promotions p with
      | none => simp [ls, hp, Tracked]
      | some a => simp [ls, hp, Tracked, spentBy]
    · intro τ₁ st hr hf ih p
      rw [Outline.track_concat]
      by_cases hpid : p = st.pid
      · subst hpid
        rw [Outline.advance_self]
        have hallow := (Outline.holds_step hf (Outline.holds_reach hr hholds)).1
        cases hl : O.track ls τ₁ st.pid with
        | none => exact ⟨trivial, by rw [← (ih st.pid).2, hl]; rfl⟩
        | some l =>
            rw [hl] at hallow
            have hbefore := (ih st.pid).1
            rw [hl] at hbefore
            exact ⟨hbefore.self hf hallow, by rw [← (ih st.pid).2, hl]; rfl⟩
      · rw [Outline.advance_ne _ _ _ hpid]
        exact ⟨(ih p).1.other hpid, (ih p).2⟩
  obtain ⟨hphase, hsome⟩ := htracked st.pid
  cases hl : O.track ls τ st.pid with
  | none => rw [hl, ha] at hsome; cases hsome
  | some l =>
      rw [hl] at hphase
      match l, hphase with
      | .free, ⟨_, hw⟩ => rw [hw st hst rfl] at hcontent; cases hcontent
      | .granted id, ⟨_, hw⟩ => rw [hw st hst rfl] at hcontent; cases hcontent
      | .holding id raw, ⟨hspent, hread, hw⟩ =>
          exact ⟨id, raw, hspent, hread, hw st hst rfl content hcontent⟩
      | .closed, hw => rw [hw st hst rfl] at hcontent; cases hcontent

/-- The grant a process spent was approved in the run. -/
theorem granted_of_spentBy (h : Reach c τ c')
    (hnone : ∀ id row, c.state.1.approvals.find? id = some row → row.wasApproved = false)
    {p : P} {id : Uuid} (hspent : spentBy τ p = some id) : ∃ st ∈ τ, Grants st id := by
  obtain ⟨st, hst, hid⟩ := List.exists_of_findSome?_eq_some hspent
  have hst := (List.mem_filter.1 hst).1
  obtain ⟨row, hrow, happroved⟩ := approved_of_spent (h.fires hst) hid
  obtain ⟨τ₁, τ₂, rfl⟩ := List.append_of_mem hst
  obtain ⟨-, hbefore, -⟩ := h.split_at
  obtain ⟨st', hst', hgrants⟩ := granted_reach hbefore hnone id row hrow
    (by simp [Approval.wasApproved, happroved])
  exact ⟨st', by simp [hst'], hgrants⟩

/-- **What a promotion adopts is what the human approved exactly when the candidate is
unchanged between the approval and the read.** -/
theorem bindsReviewed_iff (h : Reach (promotionPool s promotions others) τ c')
    (hnone : ∀ id row, s.1.approvals.find? id = some row → row.wasApproved = false) :
    (∀ st ∈ τ, ∀ a content, promotions st.pid = some a → written? st = some content →
        BindsReviewed τ a st.pid content) ↔
      ∀ st ∈ τ, ∀ a, promotions st.pid = some a → (written? st).isSome →
        Unchanged τ a st.pid := by
  constructor
  · intro hbinds st hst a ha hwritten id st' raw hspent hst' hgrants hread
    obtain ⟨content, hcontent⟩ := Option.isSome_iff_exists.1 hwritten
    obtain ⟨id', st'', text, hspent', hst'', hgrants'', htext, hmark⟩ :=
      hbinds st hst a content ha hcontent
    obtain rfl := Option.some.inj (hspent.symm.trans hspent')
    obtain rfl := hgrants.unique h hst' hst'' hgrants''
    obtain ⟨-, raw', -, hread', hraw⟩ := written_of_reach h hst ha hcontent
    obtain rfl := Option.some.inj (hread.symm.trans hread')
    exact ⟨text, htext, hmark.trans hraw.symm⟩
  · intro hsame st hst a content ha hcontent
    obtain ⟨id, raw, hspent, hread, hraw⟩ := written_of_reach h hst ha hcontent
    obtain ⟨st', hst', hgrants⟩ := granted_of_spentBy h hnone hspent
    obtain ⟨text, htext, hmark⟩ :=
      hsame st hst a ha (by rw [hcontent]; rfl) id st' raw hspent hst' hgrants hread
    exact ⟨id, st', text, hspent, hst', hgrants, htext, hmark.trans hraw⟩

end Runs

/-! ## A file that changes after its approval -/

/-- The candidate a human reads, and the one that replaces it. -/
def approvedText : String :=
  "---\nname: tidy\ndescription: d\nreviewed: false\n---\na"

def swappedText : String :=
  "---\nname: tidy\ndescription: d\nreviewed: false\n---\nb"

/-- The path of the candidate. -/
def tidyPath : String := "skills/tidy/SKILL.md"

/-- SHA-256 of the only material whose digest the run compares. -/
def adoptionHash (s : String) : String :=
  if s = "|skill.adopt|slug=tidy,ws=productivity||" then
    "e1ab7908125df572ffa55fa97181e85a8a47dde3cf2b80ed82f43ce222d36eb5"
  else s

/-- The promotion of the candidate. Both texts parse to the skill `tidy`. -/
def promoteTidy : Promotion where
  slug := "tidy"
  approver := "human:ana"
  sha256 := adoptionHash
  repr s := "'" ++ s ++ "'"
  parse _ _ := some { name := "tidy" }
  registry _ := some { capabilitiesFor := fun _ => {.fsWrite}, execute := fun _ => .ok { ok := true } }
  config := { roles := [("skill_promoter", {.fsWrite})] }
  requestId := approvalA
  writeId := approvalB

/-- A studio in which the adoption waits for a human. -/
def askedToAdopt : Store × Disk :=
  ({ Store.initial 0 with
    approvals := ⟨[(approvalA,
      { taskId := none, role := "skill_promoter", tool := "skills", capabilities := ["fs.write"],
        tier := "red", reason := "adopt", requestFingerprint := promoteTidy.fingerprint,
        status := .pending, createdAt := 0 })], List.nodup_singleton _⟩ },
    ⟨[(tidyPath, approvedText)], List.nodup_singleton _⟩)

/-- The human who approves, the writer of candidates, and the promotion. -/
inductive Adopter where
  | human
  | writer
  | promoter
  deriving DecidableEq

/-- Which of them promotes. -/
def Adopter.promotion : Adopter → Option Promotion
  | promoter => some promoteTidy
  | _ => none

/-- The human approves the request, and the writer replaces the candidate. -/
def adopting : Config library Adopter PromoteResult :=
  promotionPool askedToAdopt Adopter.promotion fun
    | .human =>
        (call (.resolveApproval approvalA .approved "ana" "productivity")).inl.bind fun _ =>
          .ret { slug := "tidy", status := .pending }
    | _ => (file (.writeText tidyPath swappedText)).bind fun _ =>
        .ret { slug := "tidy", status := .pending }

/-- The candidate is replaced between the approval and the promotion. -/
def baited : List (Choice Adopter Exn) :=
  [(.human, none), (.writer, none)] ++ List.replicate 9 (.promoter, none)

/-- The call answers a request. -/
def isVerdict : library.Op → Bool
  | .inl (.resolveApproval ..) => true
  | _ => false

/-- **The promotion adopts what nobody has approved.** -/
theorem swapped_after_approval :
    ¬ ∀ τ c', Reach adopting τ c' → ∀ st ∈ τ, ∀ a content, Adopter.promotion st.pid = some a →
      written? st = some content → BindsReviewed τ a st.pid content := by
  intro hbinds
  have hrun := hbinds _ _ (Reach.of_run adopting baited)
  have hwritten : (adopting.trace baited).any (fun st => st.pid = .promoter &&
      (written? st).any fun content => content = (markReviewed swappedText).getD "") = true := by
    decide
  have happroved : (adopting.trace baited).all (fun st => st.pid ≠ .human ||
      promoteTidy.reviewedText st.before.state.2 = some approvedText) = true := by
    decide
  have honly : (adopting.trace baited).all (fun st => st.pid = .human || !isVerdict st.op) = true := by
    decide
  obtain ⟨st, hst, hbait⟩ := List.any_eq_true.1 hwritten
  simp only [Bool.and_eq_true, decide_eq_true_eq, Option.any_eq_true] at hbait
  obtain ⟨hpid, content, hcontent, hswapped⟩ := hbait
  obtain ⟨id, st', text, -, hst', hgrants, htext, hmark⟩ :=
    hrun st hst promoteTidy content (by rw [hpid]; rfl) hcontent
  have hhuman : st'.pid = .human := by
    obtain ⟨resolver, workstream, hop⟩ := hgrants.call
    simpa [hop, isVerdict] using List.all_eq_true.1 honly st' hst'
  have hread : promoteTidy.reviewedText st'.before.state.2 = some approvedText := by
    simpa [hhuman] using List.all_eq_true.1 happroved st' hst'
  obtain rfl := Option.some.inj (htext.symm.trans hread)
  rw [hswapped] at hmark
  exact absurd hmark (by decide)

/-- The candidate stays as it is. -/
def undisturbed : List (Choice Adopter Exn) := (.human, none) :: List.replicate 9 (.promoter, none)

/-- The run in which nobody writes the candidate adopts it. -/
theorem bindsReviewed_iff_undisturbed :
    ((adopting.trace undisturbed).any fun st => (written? st).isSome) = true ∧
      ((∀ st ∈ adopting.trace undisturbed, ∀ a content, Adopter.promotion st.pid = some a →
          written? st = some content →
            BindsReviewed (adopting.trace undisturbed) a st.pid content) ↔
        ∀ st ∈ adopting.trace undisturbed, ∀ a, Adopter.promotion st.pid = some a →
          (written? st).isSome → Unchanged (adopting.trace undisturbed) a st.pid) := by
  refine ⟨by decide, bindsReviewed_iff (Reach.of_run adopting undisturbed) ?_⟩
  intro id row hrow
  rw [Table.find?_eq_some_iff] at hrow
  rw [(Prod.mk.inj (List.mem_singleton.1 hrow)).2]
  rfl

end AiStudio.Runtime
