import AiStudio.Runtime.Revocation
import AiStudio.Spokesman.Classify
import AiStudio.Spokesman.Verdicts

/-!
# The relay gate

Embeds `relay_claims` of `spokesman/grounding_gate.py` with the notifier of
`spokesman/classify.py` behind it. A run reads its permission once, records and verifies its
claims one after the other, and sends at the end; every statement in between is a step at
which other runs may move. A strike of one run revokes the identity while another run of it has
its permission already, so that run still sends (`sends_after_revocation`).
`noRelayAfterRevocation_iff` says that this is the only way.
-/

set_option autoImplicit false

namespace AiStudio.Spokesman

open AiStudio.Data AiStudio.Runtime AiStudio.Concurrency

/-! ## The statements of the gate -/

/-- What the gate does beside the transactions of the runtime. `source` is the identity whose
claims make up a text, `none` for an alarm of the gate itself. -/
inductive GateOp where
  | resolveRef (ref : EvidenceRef)
  | selectApprovers (taskIds : List Uuid)
  | notify (kind text : String) (source : Option String)

namespace GateOp

/-- What a statement returns. -/
def Res : GateOp → Type
  | resolveRef .. => RefResolution
  | selectApprovers .. => List String
  | notify .. => Unit

/-- The agents on the `ready_for_review → approved` hops of the tasks. -/
def approvers (s : Store) (taskIds : List Uuid) : List String :=
  ((s.taskTransitions.filter fun t => taskIds.contains t.taskId && t.fromStatus = .readyForReview &&
    t.toStatus = .approved).filterMap TaskTransition.agentId).dedup

/-- The effect of a statement; `view` is the source of truth of a database. -/
def exec (view : Store → SourceOfTruth) :
    (o : GateOp) → Store × Outbox → Except Exn (o.Res × (Store × Outbox))
  | resolveRef ref => fun s => .ok ((view s.1).resolveRef ref, s)
  | selectApprovers taskIds => fun s => .ok (approvers s.1 taskIds, s)
  | notify kind text _ => fun s => (s.2.notify kind text).map fun box => ((), s.1, box)

/-- **A statement of the gate leaves the database alone.** -/
theorem exec_store {view : Store → SourceOfTruth} {o : GateOp} {s s' : Store × Outbox} {r : o.Res}
    (h : o.exec view s = .ok (r, s')) : s'.1 = s.1 := by
  cases o with
  | resolveRef ref => exact (congrArg (·.2.1) (Except.ok.inj h)).symm
  | selectApprovers taskIds => exact (congrArg (·.2.1) (Except.ok.inj h)).symm
  | notify kind text source =>
      simp only [exec] at h
      cases hbox : s.2.notify kind text with
      | error e => rw [hbox] at h; cases h
      | ok box =>
          rw [hbox] at h
          exact (congrArg (·.2.1) (Except.ok.inj h)).symm

end GateOp

/-- The statements of the gate. -/
abbrev gateOps (view : Store → SourceOfTruth) : Interface (Store × Outbox) Exn where
  Op := GateOp
  Res := GateOp.Res
  exec := GateOp.exec view

/-- The database and the notifier as the gate sees them. -/
abbrev gate (view : Store → SourceOfTruth) : Interface (Store × Outbox) Exn :=
  database.beside (gateOps view)

section Programs

variable (view : Store → SourceOfTruth)

/-- A program of the gate. -/
abbrev Relaying (α : Type) := Program (gate view) α

/-- A transaction of the runtime, made by the gate. -/
def Relaying.call (o : StoreOp) : Relaying view o.Res := Program.op (I := gate view) (.inl o)

/-- A statement of the gate. -/
def Relaying.stmt (o : GateOp) : Relaying view o.Res := Program.op (I := gate view) (.inr o)

/-! ## `relay_claims` -/

/-- `GATE_IDENTITY`. -/
def gateIdentity : String := "spokesman-gate"

/-- `evidence.model_dump`. -/
def EvidenceRef.dump (ref : EvidenceRef) : Doc :=
  [("kind", .str ref.kind.value), ("locator", .str ref.locator),
    ("expected", .ofOption .str ref.expected)]

/-- `record_claim_from`. -/
def Claim.recordArgs (claim : Claim) (identity : String) (messageRef : Option String) :
    ClaimArgs where
  originatingIdentity := identity
  statement := claim.statement
  evidence := claim.evidence.map EvidenceRef.dump
  isJudgment := claim.isJudgment
  messageRef := messageRef

/-- `resolve_ref` on every reference; a failure leaves a reference unresolved. -/
def resolveRefs : List EvidenceRef → Relaying view (List RefResolution)
  | [] => return []
  | ref :: refs => do
      let res ← (Relaying.stmt view (.resolveRef ref)).tryCatch fun _ =>
        .ret (ref.resolution .unresolved "resolution error: OperationalError")
      let rest ← resolveRefs refs
      return res :: rest

/-- `verify_claim`. -/
def verifyClaim (claim : Claim) : Relaying view ClaimVerdict := do
  let refs ← resolveRefs view claim.evidence
  return SourceOfTruth.judge refs

/-- `_task_ids_from_claim`: the tasks a claim refers to. -/
def Claim.taskIds (claim : Claim) : List Uuid :=
  claim.evidence.filterMap fun ref =>
    let loc := strip ref.locator
    match ref.kind with
    | .task => uuid? ((afterPrefix? "task:" loc).getD loc)
    | .dbRow =>
        let (table, rest) := partition ':' loc
        if strip table = "tasks" ∧ rest ≠ "" ∧ '=' ∉ rest.toList then uuid? (strip rest) else none
    | _ => none

/-- Strike each of the identities. -/
def strikeAll (claimId : Uuid) : List String → Relaying view Unit
  | [] => return ()
  | identity :: identities => do
      let _ ← Relaying.call view (.recordStrike identity (some claimId.text) strikeFabrication none)
      strikeAll claimId identities

/-- `cascade_strike_to_approvers`: strike who approved a task the claim rests on. -/
def cascadeStrike (claim : Claim) (claimId : Uuid) (identity : String) :
    Relaying view (List String) := do
  let found ← (Relaying.stmt view (.selectApprovers claim.taskIds)).tryCatch fun _ => .ret []
  let struck := (found.filter (· ≠ identity)).insertionSort (· ≤ ·)
  strikeAll view claimId struck
  return struck

/-- What became of a claim. -/
inductive ClaimResult where
  | judgment (claimId : Uuid)
  | verified (claimId : Uuid)
  | unverifiable (claimId : Uuid)
  | rejected (claimId : Uuid) (cascadeStruck : List String)

/-- The claim was a fabrication. -/
def ClaimResult.isRejected : ClaimResult → Bool
  | rejected .. => true
  | _ => false

/-- One claim: recorded, then labelled, or verified and judged. -/
def relayClaim (identity : String) (messageRef : Option String) (cid : Uuid) (claim : Claim) :
    Relaying view ClaimResult := do
  let _ ← Relaying.call view (.recordClaim cid (claim.recordArgs identity messageRef))
  if claim.isJudgment then return .judgment cid
  else do
    let verdict ← verifyClaim view claim
    let _ ← Relaying.call view
      (.setClaimVerification cid verdict.status gateIdentity (some verdict.reason))
    match verdict.status with
    | .verified => return .verified cid
    | .unverifiable => do
        let _ ← Relaying.call view (.recordProofRequest identity (some cid.text))
        return .unverifiable cid
    | .rejected => do
        let _ ← Relaying.call view
          (.recordStrike identity (some cid.text) strikeFabrication none)
        let struck ← cascadeStrike view claim cid identity
        return .rejected cid struck

/-- The claims one after the other, each under the id it draws. -/
def relayEach (identity : String) (messageRef : Option String) :
    List (Uuid × Claim) → Relaying view (List ClaimResult)
  | [] => return []
  | (cid, claim) :: claims => do
      let result ← relayClaim view identity messageRef cid claim
      let results ← relayEach identity messageRef claims
      return result :: results

/-- The line a claim contributes to the message, if it may be sent. -/
def sendable : ClaimResult × Claim → Option String
  | (.judgment _, claim) => some ("[judgment] " ++ claim.statement)
  | (.verified _, claim) => some claim.statement
  | _ => none

/-- What `relay_claims` returns. -/
structure RelaySummary where
  blocked : Bool
  fabrication : Option Bool := none
  escalated : Bool := false
  relayed : List String := []
  claims : List ClaimResult := []
  reason : Option String := none

/-- The keyword arguments of `relay_claims`, the claims with the ids they draw. -/
structure RelayArgs where
  kind : String
  originatingIdentity : String
  claims : List (Uuid × Claim)
  messageRef : Option String := none

/-- The alarm about a fabrication. -/
def fabricationAlarm (identity : String) : String :=
  "Fabrication detected from " ++ identity ++
    "; relay permanently revoked. Nothing from this source was sent — see the trust ledger."

/-- The claims of a permitted run, and what is sent at its end. -/
def relayBatch (a : RelayArgs) : Relaying view RelaySummary := do
  let results ← relayEach view a.originatingIdentity a.messageRef a.claims
  if results.any ClaimResult.isRejected then do
    let _ ← Relaying.stmt view (.notify "alarm" (fabricationAlarm a.originatingIdentity) none)
    return { blocked := true, fabrication := some true, escalated := true, claims := results
             reason := some "fabrication in batch — source revoked, batch withheld" }
  else
    let judged := results.zip (a.claims.map Prod.snd)
    let lines := judged.filterMap sendable
    if lines = [] then
      return { blocked := false, fabrication := some false, claims := results }
    else do
      let _ ← Relaying.stmt view
        (.notify a.kind ("\n".intercalate lines) (some a.originatingIdentity))
      return { blocked := false, fabrication := some false, claims := results
               relayed := (judged.filter fun x => (sendable x).isSome).map (·.2.statement) }

/-- `relay_claims`. -/
def relayClaims (a : RelayArgs) : Relaying view RelaySummary := do
  let rec_ ← (Relaying.call view (.getTrust a.originatingIdentity)).attempt
  match rec_ with
  | .error _ => return { blocked := true, reason := some "trust ledger unreachable (fail closed)" }
  | .ok trust =>
      if !trust.relayAllowed then
        return { blocked := true
                 reason := some "originating identity is not permitted to relay" }
      else relayBatch view a

end Programs

/-! ## The permission a run holds -/

/-- How far a run is: it has not asked for its permission, it holds it, it may not relay, or it
has struck its own identity. -/
inductive RelayPhase where
  | unasked
  | permitted
  | refused
  | struck
  deriving DecidableEq

section Outlines

variable {view : Store → SourceOfTruth} {identity : String} {α β : Type}

/-- The phase of a run for `identity` after a call. -/
def RelayPhase.next (identity : String) :
    RelayPhase → (o : (gate view).Op) → Except Exn ((gate view).Res o) → RelayPhase
  | .unasked, .inl (.getTrust _), .ok row => if row.relayAllowed then .permitted else .refused
  | .unasked, _, .error _ => .refused
  | .permitted, .inl (.recordStrike other _ kind _), .ok _ =>
      if other = identity ∧ kind = strikeFabrication then .struck else .permitted
  | l, _, _ => l

/-- The call sends a text attributed to the identity. -/
def SendsFor (identity : String) : (gate view).Op → Prop
  | .inr (.notify _ _ source) => source = some identity
  | _ => False

/-- The call is a statement of the gate. -/
def IsStmt : (gate view).Op → Prop
  | .inr _ => True
  | .inl _ => False

/-- The call neither sends for the identity nor strikes it. -/
def IsPlain (identity : String) : (gate view).Op → Prop
  | .inl (.recordStrike other _ _ _) => other ≠ identity
  | .inr (.notify _ _ source) => source ≠ some identity
  | _ => True

/-- A run asks for its own identity, sends while it is permitted, and attributes nothing to the
identity otherwise. -/
def relayOutline (identity : String) (post : RelayPhase → Except Exn α → Prop) :
    Outline (gate view) RelayPhase α where
  allows
    | .unasked => (· = .inl (.getTrust identity))
    | .permitted => fun _ => True
    | .refused | .struck => fun o => ¬ SendsFor identity o
  next := RelayPhase.next identity
  ends := post

theorem IsPlain.not_sends {o : (gate view).Op} (h : IsPlain identity o) :
    ¬ SendsFor identity o := by
  cases o with
  | inl o => exact fun hs => hs
  | inr o =>
      cases o with
      | notify kind text source => exact h
      | resolveRef ref => exact fun hs => hs
      | selectApprovers taskIds => exact fun hs => hs

theorem next_struck (identity : String) (o : (gate view).Op) (r : Except Exn ((gate view).Res o)) :
    RelayPhase.struck.next identity o r = .struck := by
  cases o <;> rfl

theorem next_refused (identity : String) (o : (gate view).Op) (r : Except Exn ((gate view).Res o)) :
    RelayPhase.refused.next identity o r = .refused := by
  cases o <;> rfl

theorem next_of_plain {o : (gate view).Op} (h : IsPlain identity o)
    (r : Except Exn ((gate view).Res o)) : RelayPhase.permitted.next identity o r = .permitted := by
  cases o with
  | inr o => rfl
  | inl o =>
      cases o with
      | recordStrike other claimId kind at? =>
          cases r with
          | error e => rfl
          | ok row => exact if_neg fun hboth => h hboth.1
      | _ => rfl

/-- A part that is plain keeps a permission. -/
theorem holds_plain_bind {post : RelayPhase → Except Exn β → Prop} {p : Relaying view α}
    {f : α → Relaying view β} (h : p.Only (IsPlain identity))
    (hf : ∀ a, (relayOutline identity post).Holds .permitted (f a))
    (hends : ∀ e, post .permitted (.error e)) :
    (relayOutline identity post).Holds .permitted (p.bind f) :=
  Outline.holds_only_bind h (fun _ ho => ⟨trivial, next_of_plain ho⟩) hf hends

/-- Once an identity is struck, a run of which no call sends for it may do anything. -/
theorem holds_struck {post : RelayPhase → Except Exn α → Prop} {p : Relaying view α}
    (h : p.Only fun o => ¬ SendsFor identity o) (hends : ∀ r, post .struck r) :
    (relayOutline identity post).Holds .struck p := by
  induction h with
  | ret a => exact hends _
  | throw e => exact hends _
  | call ho _ ih =>
      refine ⟨ho, fun r => ?_⟩
      change (relayOutline identity post).Holds (RelayPhase.struck.next identity _ r) _
      rw [next_struck identity]
      exact ih r

/-! ### The parts of a run -/

theorem plain_stmt {o : GateOp} (h : IsPlain identity (.inr o : (gate view).Op)) :
    (Relaying.stmt view o).Only (IsPlain identity) :=
  .op h

/-- The call resolves a reference. -/
def Resolves (o : (gate view).Op) : Prop := ∃ ref, o = .inr (.resolveRef ref)

theorem only_resolveRefs (refs : List EvidenceRef) : (resolveRefs view refs).Only Resolves := by
  induction refs with
  | nil => exact .ret []
  | cons ref refs ih =>
      refine .bind (.tryCatch (.op ⟨ref, rfl⟩) fun _ => .ret _) fun res => ?_
      exact ih.bind fun rest => .ret _

theorem only_verifyClaim (claim : Claim) : (verifyClaim view claim).Only Resolves :=
  (only_resolveRefs claim.evidence).bind fun _ => .ret _

theorem plain_verifyClaim (claim : Claim) :
    (verifyClaim view claim).Only (IsPlain identity) := by
  refine (only_verifyClaim claim).mono ?_
  rintro o ⟨ref, rfl⟩
  trivial

theorem plain_strikeAll {claimId : Uuid} {struck : List String} (h : identity ∉ struck) :
    (strikeAll view claimId struck).Only (IsPlain identity) := by
  induction struck with
  | nil => exact .ret ()
  | cons other struck ih =>
      rw [List.mem_cons, not_or] at h
      exact .bind (.op (A := IsPlain identity) (Ne.symm h.1)) fun _ => ih h.2

/-- The cascade strikes others than the identity itself. -/
theorem plain_cascadeStrike (claim : Claim) (claimId : Uuid) :
    (cascadeStrike view claim claimId identity).Only (IsPlain identity) := by
  refine .bind (.tryCatch (plain_stmt (o := .selectApprovers claim.taskIds) trivial) fun _ =>
    .ret _) fun found => ?_
  refine .bind (plain_strikeAll fun hmem => ?_) fun _ => .ret _
  have hmem := (List.perm_insertionSort (· ≤ ·) _).mem_iff.1 hmem
  have hne := List.of_mem_filter hmem
  exact of_decide_eq_true hne rfl

/-- A run of a claim that has struck the identity answers that the claim is rejected. -/
def Answers (l : RelayPhase) (r : Except Exn ClaimResult) : Prop :=
  l = .permitted ∨ l = .struck ∧ ∀ v, r = .ok v → v.isRejected = true

theorem answers_relayClaim (messageRef : Option String) (cid : Uuid) (claim : Claim) :
    (relayOutline identity Answers).Holds .permitted
      (relayClaim view identity messageRef cid claim) := by
  have hkept : ∀ r : Except Exn ClaimResult, Answers .permitted r := fun r => Or.inl rfl
  refine holds_plain_bind (.op trivial) (fun _ => ?_) fun e => hkept _
  by_cases hjudgment : claim.isJudgment = true
  · rw [if_pos hjudgment]
    exact hkept _
  rw [if_neg hjudgment]
  refine holds_plain_bind (plain_verifyClaim claim) (fun verdict => ?_) fun e => hkept _
  refine holds_plain_bind (.op trivial) (fun _ => ?_) fun e => hkept _
  cases verdict.status with
  | verified => exact hkept _
  | unverifiable => exact holds_plain_bind (.op trivial) (fun _ => hkept _) fun e => hkept _
  | rejected =>
      refine ⟨trivial, fun r => ?_⟩
      cases r with
      | error e => exact hkept _
      | ok row =>
          have hnext : RelayPhase.permitted.next identity
              (.inl (.recordStrike identity (some cid.text) strikeFabrication none) : (gate view).Op)
              (.ok row) = .struck := if_pos ⟨rfl, rfl⟩
          have hcascade : (relayOutline identity Answers).Holds .struck
              ((cascadeStrike view claim cid identity).bind fun struck =>
                .ret (.rejected cid struck)) := by
            refine Outline.holds_only_bind (plain_cascadeStrike claim cid)
              (fun o ho => ⟨ho.not_sends, next_struck identity o⟩) (fun struck => ?_) fun e => ?_
            · exact Or.inr ⟨rfl, fun v hv => by rw [← Except.ok.inj hv]; rfl⟩
            · exact Or.inr ⟨rfl, fun v hv => by cases hv⟩
          rw [← hnext] at hcascade
          exact hcascade

/-- The call sends nothing. -/
def Silent : (gate view).Op → Prop
  | .inr (.notify ..) => False
  | _ => True

theorem Silent.not_sends {o : (gate view).Op} (h : Silent o) : ¬ SendsFor identity o := by
  cases o with
  | inl o => exact fun hs => hs
  | inr o =>
      cases o with
      | notify kind text source => exact h.elim
      | resolveRef ref => exact fun hs => hs
      | selectApprovers taskIds => exact fun hs => hs

/-- A run of a claim sends nothing. -/
theorem silent_relayClaim (messageRef : Option String) (cid : Uuid) (claim : Claim) :
    (relayClaim view identity messageRef cid claim).Only Silent := by
  refine .bind (.op (A := Silent) trivial) fun _ => ?_
  by_cases hjudgment : claim.isJudgment = true
  · rw [if_pos hjudgment]
    exact .ret _
  rw [if_neg hjudgment]
  have hverify : (verifyClaim view claim).Only Silent := by
    refine (only_verifyClaim claim).mono ?_
    rintro o ⟨ref, rfl⟩
    trivial
  refine .bind hverify fun verdict => .bind (.op (A := Silent) trivial) fun _ => ?_
  cases verdict.status with
  | verified => exact .ret _
  | unverifiable => exact .bind (.op (A := Silent) trivial) fun _ => .ret _
  | rejected =>
      refine .bind (.op (A := Silent) trivial) fun _ => .bind ?_ fun struck => .ret _
      refine .bind (.tryCatch (.op (A := Silent) trivial) fun _ => .ret _) fun found =>
        .bind ?_ fun _ => .ret _
      induction (found.filter (· ≠ identity)).insertionSort (· ≤ ·) with
      | nil => exact .ret ()
      | cons other struck ih => exact .bind (.op (A := Silent) trivial) fun _ => ih

theorem silent_relayEach (messageRef : Option String) (claims : List (Uuid × Claim)) :
    (relayEach view identity messageRef claims).Only Silent := by
  induction claims with
  | nil => exact .ret []
  | cons claim claims ih =>
      obtain ⟨cid, claim⟩ := claim
      exact .bind (silent_relayClaim messageRef cid claim) fun _ => ih.bind fun _ => .ret _

/-- The calls of a batch send nothing for anyone before its end. -/
theorem quiet_relayEach {other : String} (messageRef : Option String) (claims : List (Uuid × Claim)) :
    (relayEach view identity messageRef claims).Only fun o => ¬ SendsFor other o :=
  (silent_relayEach messageRef claims).mono fun _ ho => ho.not_sends

/-- A batch that has struck the identity has a rejected claim. -/
def Withheld (l : RelayPhase) (r : Except Exn (List ClaimResult)) : Prop :=
  l = .permitted ∨ l = .struck ∧ ∀ results, r = .ok results → results.any ClaimResult.isRejected = true

theorem withheld_relayEach (messageRef : Option String) (claims : List (Uuid × Claim)) :
    (relayOutline identity Withheld).Holds .permitted
      (relayEach view identity messageRef claims) := by
  induction claims with
  | nil => exact Or.inl rfl
  | cons claim claims ih =>
      obtain ⟨cid, claim⟩ := claim
      refine Outline.holds_bind (O := relayOutline identity Answers) (fun _ _ h => h)
        (fun _ _ _ => rfl) ?_ ?_ (answers_relayClaim messageRef cid claim)
      · rintro l result (rfl | ⟨rfl, hanswer⟩)
        · refine Outline.holds_bind (O := relayOutline identity Withheld) (fun _ _ h => h)
            (fun _ _ _ => rfl) ?_ ?_ ih
          · rintro l results (rfl | ⟨rfl, hwithheld⟩)
            · exact Or.inl rfl
            · refine Or.inr ⟨rfl, fun results' h => ?_⟩
              rw [← Except.ok.inj h, List.any_cons, hwithheld results rfl, Bool.or_true]
          · rintro l e (rfl | ⟨rfl, -⟩)
            · exact Or.inl rfl
            · exact Or.inr ⟨rfl, fun _ h => by cases h⟩
        · refine Outline.holds_only_bind (quiet_relayEach messageRef claims)
            (fun o ho => ⟨ho, next_struck identity o⟩) (fun results => ?_) fun e => ?_
          · refine Or.inr ⟨rfl, fun results' h => ?_⟩
            rw [← Except.ok.inj h, List.any_cons, hanswer result rfl, Bool.true_or]
          · exact Or.inr ⟨rfl, fun _ h => by cases h⟩
      · rintro l e (rfl | ⟨rfl, -⟩)
        · exact Or.inl rfl
        · exact Or.inr ⟨rfl, fun _ h => by cases h⟩

/-- A permitted run keeps to the outline. -/
theorem holds_relayBatch (a : RelayArgs) :
    (relayOutline a.originatingIdentity fun _ _ => True).Holds .permitted (relayBatch view a) := by
  have hpermitted : ∀ p : Relaying view RelaySummary, p.Only IsStmt →
      (relayOutline a.originatingIdentity fun _ _ => True).Holds .permitted p := by
    intro p hp
    induction hp with
    | ret v => trivial
    | throw e => trivial
    | call ho _ ih =>
        rename_i o k hk
        cases o with
        | inl o => exact ho.elim
        | inr o => exact ⟨trivial, fun r => ih r⟩
  refine Outline.holds_bind (O := relayOutline a.originatingIdentity Withheld) (fun _ _ h => h)
    (fun _ _ _ => rfl) ?_ (fun _ _ _ => trivial) (withheld_relayEach a.messageRef a.claims)
  rintro l results (rfl | ⟨rfl, hwithheld⟩)
  · refine hpermitted _ (.ite (fun _ => .bind (.op trivial) fun _ => .ret _) fun _ => ?_)
    exact .ite (fun _ => .ret _) fun _ => .bind (.op trivial) fun _ => .ret _
  · rw [if_pos (hwithheld results rfl)]
    refine holds_struck (.bind (.op ?_) fun _ => .ret _) fun _ => trivial
    intro hs
    cases hs

/-- **A run sends for its identity only with a permission, and not once it has struck it.** -/
theorem holds_relayClaims (a : RelayArgs) :
    (relayOutline a.originatingIdentity fun _ _ => True).Holds .unasked (relayClaims view a) := by
  refine ⟨rfl, fun r => ?_⟩
  cases r with
  | error e => trivial
  | ok row =>
      have hcont : ∀ b : Bool, (relayOutline a.originatingIdentity fun _ _ => True).Holds
          (if b then .permitted else .refused)
          (if !b then .ret
            { blocked := true
              reason := some "originating identity is not permitted to relay" }
          else relayBatch view a) := by
        intro b
        cases b with
        | false => trivial
        | true => exact holds_relayBatch a
      exact hcont row.relayAllowed

/-- A run sends for no identity but its own. -/
theorem own_relayClaims {identity : String} (a : RelayArgs) (ha : a.originatingIdentity ≠ identity) :
    (relayClaims view a).Only fun o => ¬ SendsFor identity o := by
  refine .bind (.attempt (.op fun hs => hs)) fun trust => ?_
  cases trust with
  | error e => exact .ret _
  | ok row =>
      refine .ite (fun _ => .ret _) fun _ => .bind (quiet_relayEach _ _) fun results => ?_
      refine .ite (fun _ => .bind (.op fun hs => (by cases hs)) fun _ => .ret _) fun _ => ?_
      exact .ite (fun _ => .ret _) fun _ =>
        .bind (.op fun hs => ha (Option.some.inj hs)) fun _ => .ret _

end Outlines

/-! ## Every interleaving of runs -/

section Runs

variable {view : Store → SourceOfTruth} {P : Type}

/-- Runs of the gate beside other processes. -/
def relays (s : Store × Outbox) (runs : P → Option RelayArgs)
    (others : P → Relaying view RelaySummary) : Config (gate view) P RelaySummary where
  state := s
  pool p :=
    match runs p with
    | some a => relayClaims view a
    | none => others p

/-- The step reads that the identity may relay. -/
def passes (identity : String) (st : Step (gate view) P RelaySummary) : Bool :=
  match st with
  | ⟨_, .inl (.getTrust other), .ok row, _, _⟩ => other = identity && row.relayAllowed
  | _ => false

/-- The step commits a fabrication strike against the identity. -/
def revokes (identity : String) (st : Step (gate view) P RelaySummary) : Bool :=
  match st with
  | ⟨_, .inl (.recordStrike other _ kind _), .ok _, _, _⟩ =>
      other = identity && kind = strikeFabrication
  | _ => false

/-- The step sends a text attributed to the identity. -/
def sendsFor (identity : String) (st : Step (gate view) P RelaySummary) : Bool :=
  match st with
  | ⟨_, .inr (.notify _ _ source), .ok _, _, _⟩ => source = some identity
  | _ => false

/-- Nothing is sent for the identity after a strike has revoked it. -/
def NoRelayAfterRevocation (identity : String) (τ : List (Step (gate view) P RelaySummary)) :
    Prop :=
  ∀ r s, [r, s].Sublist τ → revokes identity r = true → sendsFor identity s = false

/-- When a strike revokes the identity, every other run that has passed the check of its
permission has ended. -/
def AloneAtRevocation (identity : String) (τ : List (Step (gate view) P RelaySummary)) : Prop :=
  ∀ k r, [k, r].Sublist τ → passes identity k = true → revokes identity r = true →
    k.pid ≠ r.pid → (r.before.pool k.pid).head? = none

/-- What the trace shows of the phase a run is in. -/
def ShowsPhase (identity : String) (τ : List (Step (gate view) P RelaySummary)) (p : P) :
    Option RelayPhase → Prop
  | some .unasked => ∀ r ∈ τ, r.pid = p → revokes identity r = false
  | some .permitted => (∃ k ∈ τ, k.pid = p ∧ passes identity k = true) ∧
      ∀ r ∈ τ, r.pid = p → revokes identity r = false
  | _ => True

variable [DecidableEq P] {identity : String} {st : Step (gate view) P RelaySummary}
  {τ : List (Step (gate view) P RelaySummary)} {c c' : Config (gate view) P RelaySummary} {p : P}

/-! ### A revocation lasts -/

/-- **Every step of the gate keeps a revocation.** -/
theorem revoked_step (hf : Fires st) (hrev : st.before.state.1.Revoked identity) :
    st.after.state.1.Revoked identity := by
  obtain ⟨pid, op, out, before, after⟩ := st
  cases op with
  | inl o =>
      cases out with
      | ok v => exact hrev.exec (exec_of_inl (I := database) hf).1
      | error e =>
          rcases hf.committed with ⟨v, hv, -⟩ | ⟨e', -, hafter⟩
          · cases hv
          · have hafter : after.state = before.state := hafter
            change after.state.1.Revoked identity
            rw [hafter]
            exact hrev
  | inr o =>
      rcases hf.committed with ⟨v, -, -, hexec⟩ | ⟨e', -, hafter⟩
      · have hstore : after.state.1 = before.state.1 := GateOp.exec_store hexec
        change after.state.1.Revoked identity
        rw [hstore]
        exact hrev
      · have hafter : after.state = before.state := hafter
        change after.state.1.Revoked identity
        rw [hafter]
        exact hrev

theorem revoked_run (h : Reach c τ c') (hrev : c.state.1.Revoked identity) :
    c'.state.1.Revoked identity :=
  h.invariant (fun c => c.state.1.Revoked identity) (fun _ => True) (fun _ _ => trivial) hrev
    fun _ hf _ hst => revoked_step hf hst

/-- A strike for a fabrication revokes. -/
theorem revoked_of_revokes (hf : Fires st) (h : revokes identity st = true) :
    st.after.state.1.Revoked identity := by
  obtain ⟨pid, op, out, before, after⟩ := st
  cases op with
  | inr o => cases h
  | inl o =>
      cases out with
      | error e => cases o <;> cases h
      | ok v =>
          cases o with
          | recordStrike other claimId kind at? =>
              have h : (decide (other = identity) && decide (kind = strikeFabrication)) = true := h
              simp only [Bool.and_eq_true, decide_eq_true_eq] at h
              obtain ⟨rfl, rfl⟩ := h
              have hexec : recordStrike other claimId strikeFabrication at? before.state.1 =
                  .ok (v, after.state.1) := (exec_of_inl (I := database) hf).1
              exact revoked_of_fabrication hexec
          | _ => cases h

/-- A revoked identity passes no check. -/
theorem not_passes_of_revoked (hf : Fires st) (hrev : st.before.state.1.Revoked identity) :
    passes identity st = false := by
  obtain ⟨pid, op, out, before, after⟩ := st
  cases op with
  | inr o => rfl
  | inl o =>
      cases out with
      | error e => cases o <;> rfl
      | ok v =>
          cases o with
          | getTrust other =>
              change (decide (other = identity) && IdentityTrust.relayAllowed v) = false
              by_cases hother : other = identity
              · subst hother
                have hexec : getTrust other before.state.1 = .ok (v, after.state.1) :=
                  (exec_of_inl (I := database) hf).1
                have hallowed : isRelayAllowed other before.state.1 =
                    .ok (v.relayAllowed, after.state.1) := by
                  simp only [isRelayAllowed, hexec]
                  rfl
                have hblank : isBlank other = false := by
                  by_contra hblank
                  rw [Bool.not_eq_false] at hblank
                  rw [getTrust, if_pos hblank] at hexec
                  cases hexec
                rw [hrev.isRelayAllowed hblank] at hallowed
                rw [← (Prod.mk.inj (Except.ok.inj hallowed)).1, Bool.and_false]
              · rw [decide_eq_false hother, Bool.false_and]
          | _ => rfl

/-! ### The phase of a run -/

omit [DecidableEq P] in
theorem ShowsPhase.other (hpid : p ≠ st.pid) {l : Option RelayPhase}
    (h : ShowsPhase identity τ p l) : ShowsPhase identity (τ ++ [st]) p l := by
  have hrest : (∀ r ∈ τ, r.pid = p → revokes identity r = false) →
      ∀ r ∈ τ ++ [st], r.pid = p → revokes identity r = false := by
    intro hnone r hr hrp
    rcases List.mem_append.1 hr with hr | hr
    · exact hnone r hr hrp
    · rw [List.mem_singleton.1 hr] at hrp
      exact absurd hrp.symm hpid
  rcases l with _ | (_ | _ | _ | _)
  · trivial
  · exact hrest h
  · obtain ⟨⟨k, hk, hkp, hpass⟩, hnone⟩ := h
    exact ⟨⟨k, List.mem_append_left _ hk, hkp, hpass⟩, hrest hnone⟩
  · trivial
  · trivial

omit [DecidableEq P] in
/-- A call moves a run to the phase that the trace shows. -/
theorem ShowsPhase.next {l : RelayPhase} (h : ShowsPhase identity τ st.pid (some l))
    (hallow : (relayOutline (α := RelaySummary) identity fun _ _ => True).allows l st.op) :
    ShowsPhase identity (τ ++ [st]) st.pid (some (l.next identity st.op st.out)) := by
  have hrest : revokes identity st = false → (∀ r ∈ τ, r.pid = st.pid → revokes identity r = false) →
      ∀ r ∈ τ ++ [st], r.pid = st.pid → revokes identity r = false := by
    intro hst hnone r hr hrp
    rcases List.mem_append.1 hr with hr | hr
    · exact hnone r hr hrp
    · rw [List.mem_singleton.1 hr]
      exact hst
  obtain ⟨pid, op, out, before, after⟩ := st
  cases l with
  | refused =>
      rw [next_refused identity]
      trivial
  | struck =>
      rw [next_struck identity]
      trivial
  | unasked =>
      obtain rfl : op = .inl (.getTrust identity) := hallow
      cases out with
      | error e => trivial
      | ok row =>
          change ShowsPhase identity _ pid
            (some (if row.relayAllowed = true then .permitted else .refused))
          by_cases hallowed : row.relayAllowed = true
          · rw [if_pos hallowed]
            refine ⟨⟨_, List.mem_append_right _ (List.mem_singleton_self _), rfl, ?_⟩, hrest rfl h⟩
            change (decide (identity = identity) && row.relayAllowed) = true
            rw [hallowed, decide_eq_true rfl, Bool.and_true]
          · rw [if_neg hallowed]
            trivial
  | permitted =>
      obtain ⟨⟨k, hk, hkp, hpass⟩, hnone⟩ := h
      have hkeep : revokes identity (⟨pid, op, out, before, after⟩ : Step (gate view) P RelaySummary) =
          false → ShowsPhase identity (τ ++ [⟨pid, op, out, before, after⟩]) pid (some .permitted) :=
        fun hst => ⟨⟨k, List.mem_append_left _ hk, hkp, hpass⟩, hrest hst hnone⟩
      cases op with
      | inr o => exact hkeep rfl
      | inl o =>
          cases o with
          | recordStrike other claimId kind at? =>
              cases out with
              | error e => exact hkeep rfl
              | ok row =>
                  change ShowsPhase identity _ pid
                    (some (if other = identity ∧ kind = strikeFabrication then .struck else .permitted))
                  by_cases hboth : other = identity ∧ kind = strikeFabrication
                  · rw [if_pos hboth]
                    trivial
                  · rw [if_neg hboth]
                    refine hkeep ?_
                    change (decide (other = identity) && decide (kind = strikeFabrication)) = false
                    rw [← Bool.decide_and, decide_eq_false hboth]
          | _ => cases out <;> exact hkeep rfl

/-- The phases at the start: a run for the identity has not asked. -/
def startPhase (identity : String) (runs : P → Option RelayArgs) (p : P) : Option RelayPhase :=
  (runs p).bind fun a => if a.originatingIdentity = identity then some .unasked else none

/-- The outline of a pool: a run for the identity, or a process that sends nothing for it. -/
def anyRun (view : Store → SourceOfTruth) (identity : String) :
    Outline (gate view) (Option RelayPhase) RelaySummary :=
  (relayOutline identity fun _ _ => True).orOnly fun o => ¬ SendsFor identity o

variable {s : Store × Outbox} {runs : P → Option RelayArgs} {others : P → Relaying view RelaySummary}

omit [DecidableEq P] in
/-- The processes of a pool keep to the outline of the identity. -/
theorem holds_relays (hothers : ∀ p, runs p = none → (others p).Only fun o => ¬ SendsFor identity o)
    (p : P) : (anyRun view identity).Holds (startPhase identity runs p)
      ((relays s runs others).pool p) := by
  cases hrun : runs p with
  | none =>
      simp only [startPhase, relays, hrun, Option.bind_none]
      exact Outline.holds_orOnly_none _ (hothers p hrun)
  | some a =>
      simp only [startPhase, relays, hrun, Option.bind_some]
      by_cases ha : a.originatingIdentity = identity
      · subst ha
        rw [if_pos rfl]
        exact Outline.holds_orOnly_some (holds_relayClaims a)
      · rw [if_neg ha]
        exact Outline.holds_orOnly_none _ (own_relayClaims a ha)

/-- The phases that the steps so far lead to are those that the trace shows. -/
theorem showsPhase_reach
    (hothers : ∀ p, runs p = none → (others p).Only fun o => ¬ SendsFor identity o)
    (h : Reach (relays s runs others) τ c') (p : P) :
    ShowsPhase identity τ p ((anyRun view identity).track (startPhase identity runs) τ p) := by
  refine h.induct (motive := fun τ _ => ShowsPhase identity τ p
    ((anyRun view identity).track (startPhase identity runs) τ p)) ?_ ?_
  · cases hrun : runs p with
    | none =>
        simp only [Outline.track_nil, startPhase, hrun, Option.bind_none]
        trivial
    | some a =>
        simp only [Outline.track_nil, startPhase, hrun, Option.bind_some]
        by_cases ha : a.originatingIdentity = identity
        · rw [if_pos ha]
          exact fun r hr => by cases hr
        · rw [if_neg ha]
          trivial
  · intro τ₁ st hr hf ih
    rw [Outline.track_concat]
    by_cases hpid : p = st.pid
    · subst hpid
      rw [Outline.advance_self]
      have hallow := (Outline.holds_step hf (Outline.holds_reach hr (holds_relays hothers))).1
      generalize Outline.track _ _ τ₁ st.pid = l at ih hallow ⊢
      cases l with
      | none => trivial
      | some l => exact ih.next hallow
    · rw [Outline.advance_ne _ _ _ hpid]
      exact ih.other hpid

omit [DecidableEq P] in
theorem sends_of_sendsFor (h : sendsFor identity st = true) : SendsFor identity st.op := by
  obtain ⟨pid, op, out, before, after⟩ := st
  cases op with
  | inl o => cases h
  | inr o =>
      cases o with
      | notify kind text source =>
          cases out with
          | ok v =>
              have hsource : source = some identity := of_decide_eq_true (p := source = some identity) h
              exact hsource
          | error e => cases h
      | _ => cases h

/-- **Who sends for an identity that is revoked** has passed its check before the strike of
another process. -/
theorem passed_before_revocation
    (hothers : ∀ p, runs p = none → (others p).Only fun o => ¬ SendsFor identity o)
    (h : Reach (relays s runs others) τ c') {st₁ st₂ : Step (gate view) P RelaySummary}
    (hsub : [st₁, st₂].Sublist τ) (hrevoke : revokes identity st₁ = true)
    (hsend : sendsFor identity st₂ = true) :
    ∃ k, [k, st₁].Sublist τ ∧ passes identity k = true ∧ k.pid = st₂.pid ∧ k.pid ≠ st₁.pid := by
  obtain ⟨τ₁, τ₂, rfl, hst₁, hsub⟩ := List.cons_sublist_iff.1 hsub
  obtain ⟨τ₃, τ₄, rfl⟩ := List.append_of_mem (List.singleton_sublist.1 hsub)
  obtain ⟨τ₅, τ₆, rfl⟩ := List.append_of_mem hst₁
  rw [← List.append_assoc] at h
  obtain ⟨hf₂, hr, -⟩ := h.split_at
  have hphase := showsPhase_reach hothers hr st₂.pid
  have hallow := (Outline.holds_step hf₂ (Outline.holds_reach hr (holds_relays hothers))).1
  have hsends : SendsFor identity st₂.op := sends_of_sendsFor hsend
  generalize Outline.track _ _ _ st₂.pid = l at hphase hallow
  rcases l with _ | (_ | _ | _ | _)
  · exact absurd hsends hallow
  · rw [show st₂.op = .inl (.getTrust identity) from hallow] at hsends
    exact hsends.elim
  · obtain ⟨⟨k, hk, hkp, hpass⟩, hnone⟩ := hphase
    have hne : k.pid ≠ st₁.pid := by
      intro heq
      rw [hnone st₁ (by simp) (heq.symm.trans hkp)] at hrevoke
      cases hrevoke
    rw [List.append_assoc, List.cons_append] at hr hk
    obtain ⟨hf₁, -, hmid⟩ := hr.split_at
    rcases List.mem_append.1 hk with hbefore | hafter
    · refine ⟨k, ?_, hpass, hkp, hne⟩
      rw [List.append_assoc]
      exact (List.singleton_sublist.2 hbefore).append
        (List.singleton_sublist.2 (List.mem_cons_self ..) |>.trans (List.sublist_append_left _ _))
    · rcases List.mem_cons.1 hafter with rfl | hafter
      · exact absurd rfl hne
      · -- the check would have read the revocation
        obtain ⟨μ, μ', hμ⟩ := List.append_of_mem hafter
        rw [hμ] at hmid
        obtain ⟨hfk, hmid, -⟩ := hmid.split_at
        have hrevoked := revoked_run hmid (revoked_of_revokes hf₁ hrevoke)
        rw [not_passes_of_revoked hfk hrevoked] at hpass
        cases hpass
  · exact absurd hsends hallow
  · exact absurd hsends hallow

/-- **No relay after a revocation**: in every interleaving in which a strike finds every other
permitted run of the identity ended, nothing is sent for the identity after it. -/
theorem noRelayAfterRevocation_of_alone
    (hothers : ∀ p, runs p = none → (others p).Only fun o => ¬ SendsFor identity o)
    (h : Reach (relays s runs others) τ c') (halone : AloneAtRevocation identity τ) :
    NoRelayAfterRevocation identity τ := by
  intro st₁ st₂ hsub hrevoke
  by_contra hsend
  rw [Bool.not_eq_false] at hsend
  obtain ⟨k, hk, hpass, hkp, hne⟩ := passed_before_revocation hothers h hsub hrevoke hsend
  have hended := halone k st₁ hk hpass hrevoke hne
  obtain ⟨hf₁, hf₂, μ, hmid⟩ := h.between hsub
  have hpool : st₁.after.pool k.pid = st₁.before.pool k.pid := hf₁.pool_ne hne
  have honly : (st₁.after.pool k.pid).Only fun _ => False := by
    rw [hpool]
    exact .of_head? hended
  obtain ⟨k₂, hcall, -⟩ := hf₂.called
  have hbefore := (hmid.only honly).1
  rw [hkp, hcall] at hbefore
  cases hbefore with
  | call ho _ => exact ho

end Runs

/-! ## Two runs for one identity -/

/-- A claim that is a judgment. -/
def goodShape : Claim where
  statement := "the build is in good shape"
  isJudgment := true
  stated := by decide
  backed := fun h => by cases h

/-- A claim that the event log contradicts. -/
def merged : Claim where
  statement := "the task was merged"
  evidence := [{ kind := .event, locator := "1", expected := some "task.merged"
                 located := by decide }]
  stated := by decide
  backed := fun _ => List.cons_ne_nil _ _

/-- The ids the two runs draw. -/
def claimId : Bool → Uuid
  | true => ⟨"5a0de5c1-7e6b-4b62-8d25-9d54c1b02e81", by decide⟩
  | false => ⟨"5a0de5c1-7e6b-4b62-8d25-9d54c1b02e82", by decide⟩

/-- One run relays a judgment, the other a claim that the store contradicts. -/
def relayOf (honest : Bool) : RelayArgs where
  kind := "alarm"
  originatingIdentity := "agent-x"
  claims := [(claimId honest, if honest then goodShape else merged)]

/-- The two runs. -/
def twoRuns : Config (gate fun _ => sampleTruth) Bool RelaySummary :=
  relays (Store.initial 0, ⟨[], []⟩) (fun p => some (relayOf p)) fun _ => .ret { blocked := false }

/-- The honest run reads its permission, the other one runs, and the honest run goes on. -/
def struckBetween : List (Choice Bool Exn) :=
  (true, none) :: List.replicate 7 (false, none) ++ List.replicate 2 (true, none)

/-- **The honest run sends for the identity that the other one has revoked.** -/
theorem relay_after_revocation :
    ¬ ∀ τ c', Reach twoRuns τ c' → NoRelayAfterRevocation "agent-x" τ := by
  intro hall
  have hpairs := List.pairwise_iff_forall_sublist.2 fun {r s} =>
    hall _ _ (Reach.of_run twoRuns struckBetween) r s
  revert hpairs
  decide +kernel

/-- One run after the other: nothing is sent after the strike. -/
theorem noRelayAfterRevocation_inTurn :
    (∃ st ∈ twoRuns.trace (List.replicate 3 (true, none) ++ List.replicate 7 (false, none)),
        revokes "agent-x" st = true) ∧
      NoRelayAfterRevocation "agent-x"
        (twoRuns.trace (List.replicate 3 (true, none) ++ List.replicate 7 (false, none))) := by
  have hpairs : (twoRuns.trace (List.replicate 3 (true, none) ++ List.replicate 7 (false, none))).Pairwise
      fun k r => passes "agent-x" k = true → revokes "agent-x" r = true → k.pid ≠ r.pid →
        (r.before.pool k.pid).head? = none := by
    decide +kernel
  exact ⟨List.any_eq_true.1 (by decide), noRelayAfterRevocation_of_alone
    (fun p hp => by cases hp) (Reach.of_run twoRuns _) fun k r hsub =>
      List.pairwise_iff_forall_sublist.1 hpairs hsub⟩

end AiStudio.Spokesman
