import AiStudio.Data.Text
import AiStudio.Runtime.Store

/-!
# The trust ledger

Embeds `runtime/trust.py`: the ledger row of an identity, its strikes, the claims it
made and their verdicts. Every operation is one transaction.
-/

set_option autoImplicit false

namespace AiStudio.Runtime

open AiStudio.Data

/-- `COMMS_WORKSTREAM`. -/
def commsWorkstream : Workstream := ⟨"spokesman", by decide⟩

/-- `STRIKE_FABRICATION`. -/
def strikeFabrication : String := "fabrication"

namespace Store

/-- `INSERT ... ON CONFLICT (identity) DO NOTHING`. -/
def ensureTrust (s : Store) (identity : String) : Store :=
  match s.identityTrust.insert? identity { createdAt := s.now, updatedAt := s.now } with
  | none => s
  | some identityTrust => { s with identityTrust := identityTrust }

/-- Append an event of the comms workstream. -/
def emitComms (s : Store) (payload : Payload) : Store := s.appendEvent none commsWorkstream payload

end Store

/-- The trust record of an identity, created on first contact. -/
def getTrust (identity : String) : Tx IdentityTrust := fun s =>
  if isBlank identity then .error (.valueError "identity must be non-empty")
  else
    let s := s.ensureTrust identity
    match s.identityTrust.find? identity with
    | none => .error (.dataError "identity_trust row missing")
    | some row => .ok (row, s)

/-- The identity of a record may relay to the human. -/
def IdentityTrust.relayAllowed (rec : IdentityTrust) : Bool :=
  rec.humanRelayAllowed && !(rec.trustState = .revoked || rec.trustState = .quarantined)

/-- `is_relay_allowed`. -/
def isRelayAllowed (identity : String) : Tx Bool := fun s => do
  let (rec, s) ← getTrust identity s
  return (rec.relayAllowed, s)

/-- The ledger row after a strike. -/
def IdentityTrust.strike (isFabrication : Bool) (time : Time) (row : IdentityTrust) :
    IdentityTrust :=
  if isFabrication then
    { row with
      strikes := row.strikes + 1
      lastStrikeAt := some time
      trustState := .revoked
      humanRelayAllowed := false
      updatedAt := time }
  else
    { row with
      strikes := row.strikes + 1
      lastStrikeAt := some time
      updatedAt := time }

/-- The kind of a strike is the one that revokes. -/
def isFabrication (kind : String) : Bool := kind = strikeFabrication

/-- The events of a strike: the strike, and around it the alarm and the revocation of a
fabrication. -/
def Store.emitStrike (s : Store) (identity : String) (claimId : Option String) (kind : String)
    (strikes : Nat) : Store :=
  if isFabrication kind then
    ((s.emitComms (.commsFabricationDetected identity claimId kind strikes)).emitComms
      (.trustStrike identity claimId kind strikes)).emitComms
      (.trustCapabilityRevoked identity claimId kind)
  else s.emitComms (.trustStrike identity claimId kind strikes)

/-- Replace the ledger row of an identity. -/
def Store.setTrust (s : Store) (identity : String) (row : IdentityTrust) : Store :=
  { s with identityTrust := s.identityTrust.modify identity fun _ => row }

/-- Record a strike; a fabrication revokes the identity. -/
def recordStrike (identity : String) (claimId : Option String) (kind : String)
    (at? : Option Time) : Tx IdentityTrust := fun s =>
  if isBlank identity then .error (.valueError "identity must be non-empty")
  else if isBlank kind then .error (.valueError "strike kind must be non-empty")
  else
    let s := s.ensureTrust identity
    match s.identityTrust.find? identity with
    | none => .error (.dataError "identity_trust row missing")
    | some row =>
        let struck := row.strike (isFabrication kind) (at?.getD s.now)
        .ok (struck, (s.setTrust identity struck).emitStrike identity claimId kind struck.strikes)

/-- **What a strike does.** -/
theorem recordStrike_cases {identity : String} {claimId : Option String} {kind : String}
    {at? : Option Time} {s s' : Store} {r : IdentityTrust}
    (h : recordStrike identity claimId kind at? s = .ok (r, s')) :
    ∃ row, (s.ensureTrust identity).identityTrust.find? identity = some row ∧
      r = row.strike (isFabrication kind) (at?.getD (s.ensureTrust identity).now) ∧
      s' = ((s.ensureTrust identity).setTrust identity r).emitStrike identity claimId kind
        r.strikes := by
  unfold recordStrike at h
  split at h
  · cases h
  · split at h
    · cases h
    · dsimp only at h
      split at h
      · cases h
      · rename_i row hrow
        obtain ⟨rfl, rfl⟩ := Prod.mk.inj (Except.ok.inj h)
        exact ⟨row, hrow, rfl, rfl⟩

/-- The keyword arguments of `record_claim`. -/
structure ClaimArgs where
  originatingIdentity : String
  statement : String
  evidence : List Doc := []
  isJudgment : Bool := false
  messageRef : Option String := none
  now : Option Time := none

/-- The row of a fresh claim. -/
def ClaimArgs.row (a : ClaimArgs) (seq : Nat) (now : Time) : CommsClaim where
  messageRef := a.messageRef
  originatingIdentity := a.originatingIdentity
  statement := a.statement
  evidence := a.evidence
  isJudgment := a.isJudgment
  seq := seq
  createdAt := a.now.getD now

/-- Persist one human-facing claim; `id` is the fresh id the database draws. -/
def recordClaim (id : Uuid) (a : ClaimArgs) : Tx Unit := fun s =>
  if isBlank a.originatingIdentity then
    .error (.valueError "originating_identity must be non-empty")
  else if isBlank a.statement then .error (.valueError "claim statement must be non-empty")
  else
    match s.commsClaims.insert? id (a.row s.commsClaimsSeq s.now) with
    | none => .error (.integrityError "comms_claims_pkey")
    | some commsClaims =>
        .ok ((), { s with commsClaims := commsClaims, commsClaimsSeq := s.commsClaimsSeq + 1 })

/-- Record the verdict on a claim; an unverifiable one leaves no event. -/
def setClaimVerification (id : Uuid) (status : VerificationStatus) (verifiedBy : String)
    (reason : Option String) : Tx (Option CommsClaim) := fun s =>
  if isBlank verifiedBy then .error (.valueError "verified_by must be non-empty")
  else
    match s.commsClaims.find? id with
    | none => .ok (none, s)
    | some row =>
        let row := { row with
          verificationStatus := some status, verifiedBy := some verifiedBy, reason := reason }
        let s := { s with commsClaims := s.commsClaims.modify id fun _ => row }
        match status with
        | .verified =>
            .ok (some row,
              s.emitComms (.commsClaimVerified id row.originatingIdentity verifiedBy))
        | .rejected =>
            .ok (some row,
              s.emitComms (.commsClaimRejected id row.originatingIdentity verifiedBy))
        | .unverifiable => .ok (some row, s)

/-- Ask the originating identity of a claim for proof. -/
def recordProofRequest (identity : String) (claimId : Option String) : Tx Unit := fun s =>
  if isBlank identity then .error (.valueError "identity must be non-empty")
  else .ok ((), s.emitComms (.commsProofRequested identity claimId))

end AiStudio.Runtime
