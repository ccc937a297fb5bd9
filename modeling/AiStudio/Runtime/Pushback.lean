import AiStudio.Runtime.Worker

/-!
# The grant of a pushback

A `pm.tick` that is pushed back parks on an approval and looks for its grant when it runs
again. The grant is found under the fingerprint of the pushback and consumed under the same
text, where `consume_grant` takes the id of a row: the digest is no id, so the database
refuses the statement and the tick raises before it plans (`pushback_never_proceeds`). An
escalated `feature_request` does not look for its grant at all.
-/

set_option autoImplicit false

namespace AiStudio.Runtime

open AiStudio.Data AiStudio.Concurrency

/-! ## Programs that leave the grants alone -/

/-- The call looks for a grant or consumes one. -/
def StoreOp.touchesGrants : StoreOp → Bool
  | .findGrant _ => true
  | .consumeGrant _ => true
  | _ => false

/-- Programs that neither look for grants nor consume them. -/
def grantFree {α : Type} : Outline database Unit α where
  allows _ o := o.touchesGrants = false
  next _ _ _ := ()
  ends _ _ := True

/-- The call is a lookup that found a grant. -/
def StoreOp.hits : (o : StoreOp) → Except Exn o.Res → Bool
  | .findGrant _, .ok (some _) => true
  | _, _ => false

/-- Programs that consume no grant and raise `e` once they found one. -/
def refused {α : Type} (e : Exn) : Outline database Bool α where
  allows hit o := hit = false ∧ ∀ id, o ≠ .consumeGrant id
  next hit o r := hit || o.hits r
  ends hit r := hit = true → r = .error e

section Programs

variable {α β : Type} {e : Exn}

theorem grantFree_bind {p : Process α} {f : α → Process β} (hp : grantFree.Holds () p)
    (hf : ∀ a, grantFree.Holds () (f a)) : grantFree.Holds () (p.bind f) :=
  Outline.holds_bind (fun _ _ h => h) (fun _ _ _ => rfl) (fun _ a _ => hf a)
    (fun _ _ _ => trivial) hp

theorem grantFree_call {o : StoreOp} (h : o.touchesGrants = false) :
    grantFree.Holds () (call o) :=
  ⟨h, fun r => by cases r <;> trivial⟩

theorem grantFree_ite {c : Prop} [Decidable c] {p q : Process α} (hp : grantFree.Holds () p)
    (hq : grantFree.Holds () q) : grantFree.Holds () (if c then p else q) := by
  split
  · exact hp
  · exact hq

/-- A program that leaves the grants alone is not refused before it has ended. -/
theorem refused_bind {p : Process α} {f : α → Process β} (hp : grantFree.Holds () p)
    (hf : ∀ a, (refused e).Holds false (f a)) : (refused e).Holds false (p.bind f) := by
  induction p with
  | ret a => exact hf a
  | throw e' => exact fun h => nomatch h
  | call o k ih =>
      obtain ⟨hfree, hnext⟩ := hp
      refine ⟨⟨rfl, fun id hop => by subst hop; exact nomatch hfree⟩, fun r => ?_⟩
      have hhit : o.hits r = false := by
        cases o with
        | findGrant fingerprint => cases hfree
        | _ => rfl
      change (refused e).Holds (false || o.hits r) _
      rw [hhit]
      exact ih r (hnext r)

/-- The result of a refused program may be wrapped. -/
theorem refused_map {p : Process α} {f : α → β} {hit : Bool} (hp : (refused e).Holds hit p) :
    (refused e).Holds hit (f <$> p) := by
  refine Outline.holds_bind (O := refused e) (fun _ _ h => h) (fun _ _ _ => rfl) ?_ ?_ hp
  · intro l a h hl
    cases h hl
  · intro l e' h hl
    rw [Except.error.inj (h hl)]

theorem refused_of_grantFree {p : Process α} (hp : grantFree.Holds () p) :
    (refused e).Holds false p := by
  rw [← Program.bind_ret p]
  exact refused_bind hp fun a h => nomatch h

end Programs

/-! ## The handlers -/

theorem grantFree_requestApproval (newId : Uuid) (a : RequestArgs) :
    grantFree.Holds () (requestApproval newId a) := by
  refine grantFree_bind (grantFree_call rfl) fun existing => ?_
  cases existing with
  | none => exact grantFree_bind (grantFree_call rfl) fun _ => trivial
  | some row => trivial

theorem grantFree_completeTask (id : Uuid) (a : CompleteArgs) :
    grantFree.Holds () (completeTask id a) := by
  unfold completeTask
  split
  · trivial
  · refine grantFree_ite ?_ (grantFree_call rfl)
    · refine grantFree_bind (grantFree_call rfl) fun submitted => ?_
      cases submitted with
      | none => trivial
      | some _ =>
          refine grantFree_bind (grantFree_call rfl) fun approved => ?_
          cases approved with
          | none => trivial
          | some _ => exact grantFree_call rfl

namespace Worker

variable (w : Worker)

/-- The parts of the PM and of the intake that the model leaves open use no grants. -/
structure GrantFree : Prop where
  obtainPlan : ∀ id row, grantFree.Holds () (w.obtainPlan.program id row)
  decompose : ∀ plan id row, grantFree.Holds () ((w.decompose plan).program id row)
  triage : ∀ id row, grantFree.Holds () (w.triage.decompose.program id row)

variable {w}

theorem grantFree_beat (id : Uuid) : grantFree.Holds () (w.beat id) :=
  grantFree_bind (grantFree_call rfl) fun _ => trivial

theorem grantFree_gate (h : w.GrantFree) (plan : Plan) (newId id : Uuid) (row : Task) :
    grantFree.Holds () (w.pm.gate plan newId id row) := by
  unfold Pm.gate
  split
  · refine grantFree_bind (grantFree_call rfl) fun _ => ?_
    exact grantFree_bind (grantFree_requestApproval _ _) fun _ => trivial
  · split
    · exact grantFree_bind (grantFree_call rfl) fun _ => trivial
    · exact grantFree_bind (h.decompose plan id row) fun _ => trivial

theorem grantFree_record (fromWs : String) (id : Uuid) (row : Task) (status : String)
    (decision : Option String) (reason : String) (workTaskIds : Option (List String))
    (approvalId : Option String) : grantFree.Holds ()
      (Triage.record fromWs id row status decision reason workTaskIds approvalId) :=
  grantFree_bind (grantFree_call rfl) fun _ => grantFree_call rfl

theorem grantFree_settle (h : w.GrantFree) (fromWs : String) (decision : TriageDecision)
    (newId id : Uuid) (row : Task) :
    grantFree.Holds () (w.triage.settle fromWs decision newId id row) := by
  unfold Triage.settle
  split
  · refine grantFree_bind (h.triage id row) fun ids => ?_
    refine grantFree_bind (grantFree_record _ _ _ _ _ _ _ _) fun _ => ?_
    exact grantFree_bind (grantFree_completeTask _ _) fun _ => trivial
  · refine grantFree_bind (grantFree_record _ _ _ _ _ _ _ _) fun _ => ?_
    exact grantFree_bind (grantFree_completeTask _ _) fun _ => trivial
  · refine grantFree_bind (grantFree_record _ _ _ _ _ _ _ _) fun _ => ?_
    exact grantFree_bind (grantFree_call rfl) fun _ => trivial
  · refine grantFree_bind (grantFree_requestApproval _ _) fun _ => ?_
    refine grantFree_bind (grantFree_record _ _ _ _ _ _ _ _) fun _ => ?_
    exact grantFree_bind (grantFree_call rfl) fun _ => trivial

/-- The intake of a feature request uses no grants. -/
theorem grantFree_handleFeatureRequest (h : w.GrantFree) (id : Uuid) (row : Task) :
    grantFree.Holds () (w.handleFeatureRequest id row) := by
  refine grantFree_bind (grantFree_beat id) fun _ => grantFree_bind ?_ fun _ => trivial
  unfold Triage.run
  split
  · trivial
  · refine grantFree_bind ?_ fun _ => ?_
    · refine grantFree_bind (grantFree_call rfl) fun _ => ?_
      exact grantFree_bind (grantFree_call rfl) fun _ => trivial
    · refine grantFree_bind (grantFree_record _ _ _ _ _ _ _ _) fun _ => ?_
      split
      · trivial
      · exact grantFree_settle h _ _ _ _ _

/-- What the database says of a digest where it wants the id of a row. -/
def digestRefused : Exn := .dataError "invalid input syntax for type uuid"

/-- A digest is no id: it has no dashes. -/
theorem parseUuid_digest {text : String} (h : ∀ c ∈ text.toList, isHexDigit c = true) :
    parseUuid text = .error digestRefused := by
  have hdash : ∀ c ∈ text.toList, (c == '-') = false := by
    intro c hc
    rw [beq_eq_false_iff_ne]
    rintro rfl
    exact absurd (h _ hc) (by decide)
  unfold parseUuid
  rw [dif_neg]
  · rfl
  · simp [isUuidText, List.splitOn_eq_splitOnP, List.splitOnP_eq_singleton hdash]

/-- What the handler does with the outcome of a tick. -/
def settleTick (id : Uuid) (row : Task) (plan : PlanResult) : Process RunResult := do
  w.beat id
  match (if plan.decision = "pushback" then plan.approvalId else none).map parseUuid with
  | some (.ok approvalId) => do
      let _ ← blockTask id approvalId
        (if plan.reason = "" then "PM pushback awaiting human approval" else plan.reason)
      return ⟨id, row.type, .pm, .blocked⟩
  | _ => do
      let _ ← completeTask id { result := some plan.dump }
      return ⟨id, row.type, .pm, .done⟩

theorem handlePmTick_eq (id : Uuid) (row : Task) :
    w.handlePmTick id row = (w.pm.runTick (w.approvalId 1) id row).bind (w.settleTick id row) :=
  rfl

theorem grantFree_settleTick (id : Uuid) (row : Task) (plan : PlanResult) :
    grantFree.Holds () (w.settleTick id row plan) := by
  refine grantFree_bind (grantFree_beat id) fun _ => ?_
  split
  · exact grantFree_bind (grantFree_call rfl) fun _ => trivial
  · exact grantFree_bind (grantFree_completeTask _ _) fun _ => trivial

/-- The tick raises once it found the grant. -/
theorem refused_handlePmTick (h : w.GrantFree)
    (hdigest : ∀ text, ∀ c ∈ (w.sha256 text).toList, isHexDigit c = true) (id : Uuid)
    (row : Task) : (refused digestRefused).Holds false (w.handlePmTick id row) := by
  have hparse : parseUuid (w.pm.pushbackFingerprint id row) = .error digestRefused :=
    parseUuid_digest (hdigest _)
  rw [handlePmTick_eq]
  unfold Pm.runTick
  simp only [hparse]
  change (refused digestRefused).Holds false (((w.obtainPlan.program id row).bind _).bind _)
  rw [Program.bind_assoc]
  refine refused_bind (h.obtainPlan id row) fun plan => ?_
  refine ⟨⟨rfl, fun id hop => by cases hop⟩, fun r => ?_⟩
  rcases r with e | (_ | grant)
  · exact fun hhit => by cases hhit
  · exact refused_bind (grantFree_gate h plan _ id row) fun plan =>
      refused_of_grantFree (w.grantFree_settleTick id row plan)
  · exact fun _ => rfl

/-! ## The pushback loop -/

variable {P : Type} [DecidableEq P] {c c' : Config database P (Option RunResult)}
  {τ : List (Step database P (Option RunResult))}

/-- The process consumes the approval in the run. -/
def Consumes (τ : List (Step database P (Option RunResult))) (p : P) (approvalId : Uuid) : Prop :=
  ∃ st ∈ τ, st.pid = p ∧ st.op = .consumeGrant approvalId

/-- **No run of a tick or a feature request proceeds on an approval**: it consumes none, and
if it finds one it has raised. -/
theorem pushback_never_proceeds (h : w.GrantFree)
    (hdigest : ∀ text, ∀ c ∈ (w.sha256 text).toList, isHexDigit c = true) {p : P} {id : Uuid}
    {row : Task} {handler : Handler} (hhandler : handler = .pmTick ∨ handler = .featureRequest)
    (hp : c.pool p = w.handle id row handler) (hr : Reach c τ c') :
    (∀ approvalId, ¬ Consumes τ p approvalId) ∧
      ((∃ st ∈ τ, st.pid = p ∧ st.op.hits st.out = true) → c'.pool p = .throw digestRefused) := by
  let O : Outline database (Option Bool) (Option RunResult) := (refused digestRefused).orFree
  let ls₀ : P → Option Bool := fun q => if q = p then some false else none
  have h₀ : ∀ q, O.Holds (ls₀ q) (c.pool q) := by
    intro q
    by_cases hq : q = p
    · subst hq
      rw [hp, show ls₀ q = some false from if_pos rfl]
      refine Outline.holds_orFree_some ?_
      rcases hhandler with rfl | rfl
      · exact refused_map (refused_handlePmTick h hdigest id row)
      · exact refused_map (refused_of_grantFree (grantFree_handleFeatureRequest h id row))
    · rw [show ls₀ q = none from if_neg hq]
      exact Outline.holds_orFree_none _ _
  -- the local state tells whether the process found a grant
  have key : ∃ hit, O.track ls₀ τ p = some hit ∧
      ((∃ st ∈ τ, st.pid = p ∧ st.op.hits st.out = true) → hit = true) ∧
      ∀ approvalId, ¬ Consumes τ p approvalId := by
    refine hr.induct (motive := fun (τ : List (Step database P (Option RunResult)))
        (_ : Config database P (Option RunResult)) => ∃ hit, O.track ls₀ τ p = some hit ∧
      ((∃ st ∈ τ, st.pid = p ∧ st.op.hits st.out = true) → hit = true) ∧
      ∀ approvalId, ¬ Consumes τ p approvalId) ?_ ?_
    · refine ⟨false, if_pos rfl, ?_, ?_⟩
      · rintro ⟨st, hst, -⟩
        cases hst
      · rintro approvalId ⟨st, hst, -⟩
        cases hst
    · rintro τ₁ st hr hf ⟨hit, hl, hhit, hnone⟩
      have hold : ∀ {approvalId : Uuid}, Consumes (τ₁ ++ [st]) p approvalId →
          st.pid = p ∧ st.op = .consumeGrant approvalId := by
        rintro approvalId ⟨st', hst', hpid, hop⟩
        rcases List.mem_append.1 hst' with hst' | hst'
        · exact (hnone approvalId ⟨st', hst', hpid, hop⟩).elim
        · obtain rfl := List.mem_singleton.1 hst'
          exact ⟨hpid, hop⟩
      rw [Outline.track_concat]
      by_cases hpid : st.pid = p
      · have hallow := (Outline.holds_step hf (Outline.holds_reach hr h₀)).1
        rw [hpid, hl] at hallow
        refine ⟨hit || st.op.hits st.out, ?_, ?_, ?_⟩
        · rw [← hpid, Outline.advance_self, hpid, hl]
          rfl
        · rintro ⟨st', hst', hpid', hhits⟩
          rcases List.mem_append.1 hst' with hst' | hst'
          · rw [hhit ⟨st', hst', hpid', hhits⟩, Bool.true_or]
          · obtain rfl := List.mem_singleton.1 hst'
            rw [hhits, Bool.or_true]
        · intro approvalId hcon
          exact hallow.2 approvalId (hold hcon).2
      · refine ⟨hit, ?_, ?_, fun approvalId hcon => hpid (hold hcon).1⟩
        · rw [O.advance_ne _ st fun h => hpid h.symm, hl]
        · rintro ⟨st', hst', hpid', hhits⟩
          rcases List.mem_append.1 hst' with hst' | hst'
          · exact hhit ⟨st', hst', hpid', hhits⟩
          · obtain rfl := List.mem_singleton.1 hst'
            exact absurd hpid' hpid
  obtain ⟨hit, hl, hhit, hnone⟩ := key
  refine ⟨hnone, fun hfound => ?_⟩
  have hholds := Outline.holds_reach hr h₀ p
  rw [hl, hhit hfound] at hholds
  cases hpool : c'.pool p with
  | ret a =>
      rw [hpool] at hholds
      cases hholds rfl
  | throw e =>
      rw [hpool] at hholds
      rw [Except.error.inj (hholds rfl)]
  | call o k =>
      rw [hpool] at hholds
      cases hholds.1.1

/-! ## A tick that is pushed back -/

/-- SHA-256 on the text of the pushback below, and a hash free of collisions elsewhere. -/
def tickHash (s : String) : String :=
  if s = "5f6e6b0c-4d0e-4a51-9d2c-0d5a5a7a1f01|pm.plan||productivity|" then
    "37db813d663a06ed839b2fa46f2accefcf464367fa96bb96a225984fd48e2a04"
  else sampleHash s

theorem tickHash_hex (s : String) : ∀ c ∈ (tickHash s).toList, isHexDigit c = true := by
  unfold tickHash
  split
  · exact List.all_eq_true.1 (by decide)
  · exact collisionFree_sampleHash.hex s

/-- A worker whose PM judges every plan infeasible. -/
def doubter : Worker where
  workerId := "worker-a"
  sha256 := tickHash
  str := fun value => value.asStr?.getD ""
  registry _ := none
  config _ := {}
  approvalId _ := ⟨"0c8f1f5e-2f0b-4a39-9a70-3f4f0c1d2e33", by decide⟩
  retroId := ⟨"0c8f1f5e-2f0b-4a39-9a70-3f4f0c1d2e34", by decide⟩
  reviewId := ⟨"0c8f1f5e-2f0b-4a39-9a70-3f4f0c1d2e35", by decide⟩
  complete := .answer ""
  verify _ := .answer ⟨true, ""⟩
  resolveIntensity review retro := .answer (review, retro)
  commit _ := .answer []
  replan _ := .answer []
  prep := .answer []
  obtainPlan := .answer ⟨false, true, "out of scope", "", .null, .null⟩
  decompose _ := .answer []
  triage := ⟨tickHash, fun _ => .ok "design", fun _ => .ok ⟨.accept, ""⟩, .answer []⟩

theorem grantFree_doubter : doubter.GrantFree :=
  ⟨fun _ _ => trivial, fun _ _ _ => trivial, fun _ _ => trivial⟩

/-- The tick. -/
def tickTask : Task := { freshTask 0 with type := "pm.tick" }

/-- The parties of the loop. -/
inductive LoopParty where
  | firstRun
  | human
  | resume
  | secondRun
  deriving DecidableEq, Repr

/-- The first run of the tick, the human who approves, the pass that resumes it, and the
second run. -/
def pushbackLoop : Config database LoopParty (Option RunResult) :=
  ⟨Store.single taskT tickTask 0, fun
    | .firstRun => doubter.runOnce []
    | .human => (call (.resolveApproval (doubter.approvalId 1) .approved "human"
        "productivity")).bind fun _ => .ret none
    | .resume => resumeApproved.bind fun _ => .ret none
    | .secondRun => doubter.runOnce []⟩

/-- The tick parks and is approved. -/
def parkedTurns : List (Choice LoopParty Exn) :=
  List.replicate 8 (.firstRun, none) ++ [(.human, none)]

/-- The tick is resumed and runs again. -/
def resumedTurns : List (Choice LoopParty Exn) :=
  List.replicate 4 (.resume, none) ++ List.replicate 3 (.secondRun, none)

/-- **The approved tick raises when it runs again**, and its approval is not spent. -/
theorem pushback_grant_fails :
    ((pushbackLoop.run parkedTurns).state.tasks.find? taskT).any (fun row =>
        row.status = .blocked &&
          row.blockedOnApproval = some (doubter.approvalId 1).text) = true ∧
      ((pushbackLoop.run parkedTurns).state.approvals.find? (doubter.approvalId 1)).map
        Approval.status = some .approved ∧
      (pushbackLoop.run (parkedTurns ++ resumedTurns)).pool .secondRun = .throw digestRefused ∧
      ((pushbackLoop.run (parkedTurns ++ resumedTurns)).state.approvals.find?
        (doubter.approvalId 1)).map Approval.status = some .approved :=
  ⟨by decide, by decide, rfl, by decide⟩

/-- The tick alone, after the approval. -/
def resumedTick : Config database Unit (Option RunResult) :=
  ⟨(pushbackLoop.run parkedTurns).state, fun _ => doubter.handle taskT tickTask .pmTick⟩

theorem pushback_never_proceeds_doubter :
    (∀ approvalId, ¬ Consumes (resumedTick.trace [((), none)]) () approvalId) ∧
      (resumedTick.run [((), none)]).pool () = .throw digestRefused := by
  obtain ⟨hnone, hraised⟩ := pushback_never_proceeds grantFree_doubter tickHash_hex (Or.inl rfl)
    (show resumedTick.pool () = doubter.handle taskT tickTask .pmTick from rfl)
    (Reach.of_run resumedTick [((), none)])
  exact ⟨hnone, hraised (by decide)⟩

end Worker

end AiStudio.Runtime
