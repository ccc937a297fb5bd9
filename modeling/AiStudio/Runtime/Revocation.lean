import AiStudio.Runtime.Footprint

/-!
# Revocation is permanent

Only `get_trust` and `record_strike` write the trust ledger, the first never a row
that exists and the second never a trust state other than `revoked`. So a fabrication
strike holds for ever: every later relay is refused and every later grab under the
identity claims nothing, whatever else runs in between. The strike counter is the
number of strikes on record.
-/

set_option autoImplicit false

namespace AiStudio.Runtime

open AiStudio.Data AiStudio.Concurrency

namespace Store

/-- The strike counter of an identity; an identity without a row has none. -/
def strikes (s : Store) (identity : String) : Nat :=
  ((s.identityTrust.find? identity).map IdentityTrust.strikes).getD 0

/-- The strikes on record against an identity. -/
def strikeRecords (s : Store) (identity : String) : List Event :=
  s.events.filter (·.payload.isStrikeOf identity)

/-- The identity is revoked and may not relay. -/
def Revoked (s : Store) (identity : String) : Prop :=
  ∃ row, s.identityTrust.find? identity = some row ∧ row.trustState = .revoked ∧
    row.humanRelayAllowed = false

/-- Every strike counter is the number of strikes on record. -/
def StrikesCounted (s : Store) : Prop :=
  ∀ identity, s.strikes identity = (s.strikeRecords identity).length

/-! ## One transaction -/

/-- First contact adds a trusted row without strikes and touches no other. -/
theorem find?_ensureTrust (s : Store) (identity other : String) :
    (s.ensureTrust identity).identityTrust.find? other =
      if other = identity then
        some ((s.identityTrust.find? identity).getD { createdAt := s.now, updatedAt := s.now })
      else s.identityTrust.find? other := by
  unfold ensureTrust
  cases h : s.identityTrust.insert? identity { createdAt := s.now, updatedAt := s.now } with
  | none =>
      unfold Table.insert? at h
      split at h
      · simp at h
      · rename_i hfound
        obtain ⟨row, hrow⟩ := Option.ne_none_iff_exists'.1 hfound
        by_cases ho : other = identity <;> simp [ho, hrow]
  | some identityTrust =>
      have hnone := (Table.insert?_eq_some h).1
      simp only [Table.find?_insert h, hnone, Option.getD_none]

@[simp] theorem ensureTrust_events (s : Store) (identity : String) :
    (s.ensureTrust identity).events = s.events := by
  unfold ensureTrust
  split <;> rfl

theorem strikes_ensureTrust (s : Store) (identity other : String) :
    (s.ensureTrust identity).strikes other = s.strikes other := by
  by_cases ho : other = identity
  · subst ho
    cases h : s.identityTrust.find? other <;> simp [strikes, find?_ensureTrust, h]
  · simp [strikes, find?_ensureTrust, ho]

theorem Revoked.ensureTrust {s : Store} {identity : String} (h : s.Revoked identity)
    (other : String) : (s.ensureTrust other).Revoked identity := by
  obtain ⟨row, hrow, hstate, hrelay⟩ := h
  refine ⟨row, ?_, hstate, hrelay⟩
  rw [find?_ensureTrust]
  by_cases ho : identity = other
  · subst ho
    simp [hrow]
  · simp [ho, hrow]

theorem find?_setTrust (s : Store) {identity : String} {row row' : IdentityTrust}
    (h : s.identityTrust.find? identity = some row) (other : String) :
    (s.setTrust identity row').identityTrust.find? other =
      if other = identity then some row' else s.identityTrust.find? other := by
  rw [setTrust, Table.find?_modify]
  by_cases ho : other = identity
  · subst ho
    simp [h]
  · simp [ho]

@[simp] theorem emitStrike_identityTrust (s : Store) (identity : String)
    (claimId : Option String) (kind : String) (n : Nat) :
    (s.emitStrike identity claimId kind n).identityTrust = s.identityTrust := by
  unfold emitStrike
  split <;> rfl

/-- Whatever its kind, a strike leaves exactly one record. -/
theorem strikeRecords_emitStrike (s : Store) (identity other : String)
    (claimId : Option String) (kind : String) (n : Nat) :
    ((s.emitStrike identity claimId kind n).strikeRecords other).length =
      (s.strikeRecords other).length + if identity = other then 1 else 0 := by
  unfold emitStrike
  by_cases ho : identity = other <;> split <;>
    simp [strikeRecords, emitComms, Payload.isStrikeOf, ho]

end Store

open Store

theorem IdentityTrust.strike_strikes (fabrication : Bool) (time : Time) (row : IdentityTrust) :
    (row.strike fabrication time).strikes = row.strikes + 1 := by
  cases fabrication <;> rfl

/-- A strike never lifts a revocation. -/
theorem IdentityTrust.strike_revoked {fabrication : Bool} {time : Time} {row : IdentityTrust}
    (h : fabrication = true ∨ row.trustState = .revoked ∧ row.humanRelayAllowed = false) :
    (row.strike fabrication time).trustState = .revoked ∧
      (row.strike fabrication time).humanRelayAllowed = false := by
  cases fabrication with
  | true => exact ⟨rfl, rfl⟩
  | false => exact h.resolve_left (by simp)

/-- A strike adds one to the counter of its identity. -/
theorem strikes_recordStrike {identity : String} {claimId : Option String} {kind : String}
    {at? : Option Time} {s s' : Store} {r : IdentityTrust}
    (h : recordStrike identity claimId kind at? s = .ok (r, s')) (other : String) :
    s'.strikes other = s.strikes other + if identity = other then 1 else 0 := by
  obtain ⟨row, hrow, rfl, rfl⟩ := recordStrike_cases h
  rw [← s.strikes_ensureTrust identity other]
  simp only [strikes, emitStrike_identityTrust, find?_setTrust _ hrow]
  by_cases ho : other = identity
  · subst ho
    simp [hrow, IdentityTrust.strike_strikes]
  · rw [if_neg ho, if_neg (Ne.symm ho), Nat.add_zero]

theorem strikeRecords_recordStrike {identity : String} {claimId : Option String} {kind : String}
    {at? : Option Time} {s s' : Store} {r : IdentityTrust}
    (h : recordStrike identity claimId kind at? s = .ok (r, s')) (other : String) :
    (s'.strikeRecords other).length =
      (s.strikeRecords other).length + if identity = other then 1 else 0 := by
  obtain ⟨row, -, -, rfl⟩ := recordStrike_cases h
  rw [strikeRecords_emitStrike]
  simp [strikeRecords, setTrust]

/-- **A fabrication strike revokes.** -/
theorem revoked_of_fabrication {identity : String} {claimId : Option String}
    {at? : Option Time} {s s' : Store} {r : IdentityTrust}
    (h : recordStrike identity claimId strikeFabrication at? s = .ok (r, s')) :
    s'.Revoked identity := by
  obtain ⟨row, hrow, hr, rfl⟩ := recordStrike_cases h
  refine ⟨r, ?_, ?_⟩
  · rw [emitStrike_identityTrust, find?_setTrust _ hrow, if_pos rfl]
  · rw [hr]
    exact IdentityTrust.strike_revoked (Or.inl rfl)

/-- Further strikes, against whomever, keep a revocation. -/
theorem Store.Revoked.recordStrike {identity other : String} {claimId : Option String}
    {kind : String} {at? : Option Time} {s s' : Store} {r : IdentityTrust}
    (hrev : s.Revoked identity)
    (h : Runtime.recordStrike other claimId kind at? s = .ok (r, s')) :
    s'.Revoked identity := by
  obtain ⟨row, hrow, hr, rfl⟩ := recordStrike_cases h
  obtain ⟨row', hrow', hstate, hrelay⟩ := hrev.ensureTrust other
  by_cases ho : identity = other
  · subst ho
    rw [hrow] at hrow'
    obtain rfl := Option.some.inj hrow'
    refine ⟨r, ?_, ?_⟩
    · rw [emitStrike_identityTrust, find?_setTrust _ hrow, if_pos rfl]
    · rw [hr]
      exact IdentityTrust.strike_revoked (Or.inr ⟨hstate, hrelay⟩)
  · refine ⟨row', ?_, hstate, hrelay⟩
    rw [emitStrike_identityTrust, find?_setTrust _ hrow, if_neg ho, hrow']

theorem getTrust_eq {identity : String} {s s' : Store} {r : IdentityTrust}
    (h : getTrust identity s = .ok (r, s')) : s' = s.ensureTrust identity := by
  unfold getTrust at h
  split at h
  · cases h
  · dsimp only at h
    split at h
    · cases h
    · exact (Prod.mk.inj (Except.ok.inj h)).2.symm

/-- The calls that write the trust ledger. -/
theorem trust_writers {o : StoreOp} (h : o.footprint.contains .trust = true) :
    (∃ identity, o = .getTrust identity) ∨
      ∃ identity claimId kind at?, o = .recordStrike identity claimId kind at? := by
  cases o <;> simp [StoreOp.footprint] at h
  · exact Or.inl ⟨_, rfl⟩
  · exact Or.inr ⟨_, _, _, _, rfl⟩

/-- A call that does not write the ledger leaves no strike. -/
theorem strikeRecords_of_frame {w : List Region} {s s' : Store} (h : Frame w s s')
    (hw : w.contains .trust = false) (identity : String) :
    s'.strikeRecords identity = s.strikeRecords identity := by
  obtain ⟨es, hes, hregion⟩ := h.events
  have hnone : es.filter (·.payload.isStrikeOf identity) = [] := by
    rw [List.filter_eq_nil_iff]
    intro e he hstrike
    have hr := hregion e he
    cases hp : e.payload <;> simp [hp, Payload.isStrikeOf] at hstrike
    rw [hp, Payload.region, hw] at hr
    cases hr
  rw [strikeRecords, strikeRecords, hes, List.filter_append, hnone, List.append_nil]

/-- **Every call keeps a revocation.** -/
theorem Store.Revoked.exec {o : StoreOp} {s s' : Store} {r : o.Res} {identity : String}
    (hrev : s.Revoked identity) (h : o.exec s = .ok (r, s')) : s'.Revoked identity := by
  cases hw : o.footprint.contains .trust with
  | false =>
      obtain ⟨row, hrow, hstate⟩ := hrev
      exact ⟨row, by rw [(exec_frame h).trust hw]; exact hrow, hstate⟩
  | true =>
      rcases trust_writers hw with ⟨other, rfl⟩ | ⟨other, claimId, kind, at?, rfl⟩
      · rw [getTrust_eq h]
        exact hrev.ensureTrust other
      · exact hrev.recordStrike h

/-- **Every call keeps the strikes counted.** -/
theorem Store.StrikesCounted.exec {o : StoreOp} {s s' : Store} {r : o.Res}
    (hcount : s.StrikesCounted) (h : o.exec s = .ok (r, s')) : s'.StrikesCounted := by
  intro identity
  cases hw : o.footprint.contains .trust with
  | false =>
      have hf := exec_frame h
      rw [strikeRecords_of_frame hf hw, ← hcount identity, strikes, hf.trust hw, strikes]
  | true =>
      rcases trust_writers hw with ⟨other, rfl⟩ | ⟨other, claimId, kind, at?, rfl⟩
      · rw [getTrust_eq h, strikes_ensureTrust, hcount identity, strikeRecords, strikeRecords,
          ensureTrust_events]
      · rw [strikes_recordStrike h, strikeRecords_recordStrike h, hcount identity]

/-! ## What a revoked identity can still do -/

/-- A revoked identity may not relay. -/
theorem Store.Revoked.isRelayAllowed {s : Store} {identity : String} (h : s.Revoked identity)
    (hid : isBlank identity = false) :
    Runtime.isRelayAllowed identity s = .ok (false, s.ensureTrust identity) := by
  obtain ⟨row, hrow, hstate, hrelay⟩ := h.ensureTrust identity
  have hallowed : row.relayAllowed = false := by simp [IdentityTrust.relayAllowed, hrelay]
  simp only [Runtime.isRelayAllowed, getTrust, hid, hrow, Bool.false_eq_true, if_false]
  rw [← hallowed]
  rfl

/-- A revoked identity claims nothing. -/
theorem Store.Revoked.grabTask {s : Store} {identity : String} (h : s.Revoked identity)
    (hid : isBlank identity = false) {a : GrabArgs} (ha : a.workerId = identity)
    (locked : List Uuid) : Runtime.grabTask a locked s = .ok (none, s) := by
  obtain ⟨row, hrow, hstate, -⟩ := h
  have hne : identity ≠ "" := by
    rintro rfl
    exact absurd hid (by decide)
  have hq : s.identityQuarantined a.workerId = true := by
    simp [identityQuarantined, ha, hne, hrow, hstate]
  simp [Runtime.grabTask, hq]

/-- A strike is recorded under no blank identity. -/
theorem isBlank_of_recordStrike {identity : String} {claimId : Option String} {kind : String}
    {at? : Option Time} {s s' : Store} {r : IdentityTrust}
    (h : recordStrike identity claimId kind at? s = .ok (r, s')) : isBlank identity = false := by
  unfold recordStrike at h
  split at h
  · cases h
  · rename_i hid
    simpa using hid

/-! ## Every run -/

variable {P α : Type} [DecidableEq P]

/-- The step commits a fabrication strike against the identity. -/
def CommitsFabrication (st : Step database P α) (identity : String) : Prop :=
  ∃ claimId at? r,
    recordStrike identity claimId strikeFabrication at? st.before.state = .ok (r, st.after.state)
      ∧ st.op = .recordStrike identity claimId strikeFabrication at?

/-- What a revocation means in a state: the row says so, a relay is refused and a grab
under the identity claims nothing. -/
structure Fenced (s : Store) (identity : String) : Prop where
  revoked : s.Revoked identity
  relay : ∃ s', isRelayAllowed identity s = .ok (false, s')
  grab : ∀ a locked, a.workerId = identity → grabTask a locked s = .ok (none, s)

theorem revoked_reach {c c' : Config database P α} {τ : List (Step database P α)}
    {identity : String} (h : Reach c τ c') (hrev : c.state.Revoked identity) :
    c'.state.Revoked identity := by
  refine h.invariant (fun c => c.state.Revoked identity) (fun _ => True) (fun _ _ => trivial) hrev
    fun st hf _ hst => ?_
  rcases exec_or_abort hf with ⟨v, -, hexec⟩ | ⟨e, -, hs⟩
  · exact hst.exec hexec
  · rw [hs]
    exact hst

theorem strikesCounted_reach {c c' : Config database P α} {τ : List (Step database P α)}
    (h : Reach c τ c') (hcount : c.state.StrikesCounted) : c'.state.StrikesCounted := by
  refine h.invariant (fun c => c.state.StrikesCounted) (fun _ => True) (fun _ _ => trivial) hcount
    fun st hf _ hst => ?_
  rcases exec_or_abort hf with ⟨v, -, hexec⟩ | ⟨e, -, hs⟩
  · exact hst.exec hexec
  · rw [hs]
    exact hst

/-- **Revocation is permanent.** In every interleaving, from a state whose strikes are
counted, they stay counted; and once a fabrication strike against an identity has
committed, the identity is fenced in every state after it. -/
theorem revocation_is_permanent {c c' : Config database P α} {τ : List (Step database P α)}
    (h : Reach c τ c') (hcount : c.state.StrikesCounted) :
    c'.state.StrikesCounted ∧
      ∀ identity, (∃ st ∈ τ, CommitsFabrication st identity) → Fenced c'.state identity := by
  refine ⟨strikesCounted_reach h hcount, fun identity hst => ?_⟩
  obtain ⟨st, hmem, claimId, at?, r, hstrike, -⟩ := hst
  obtain ⟨τ₁, τ₂, rfl⟩ := List.append_of_mem hmem
  obtain ⟨-, -, hrest⟩ := Reach.split_at h
  have hid := isBlank_of_recordStrike hstrike
  have hrev := revoked_reach hrest (revoked_of_fabrication hstrike)
  exact ⟨hrev, ⟨_, hrev.isRelayAllowed hid⟩, fun a locked ha => hrev.grabTask hid ha locked⟩

/-- A process that strikes one identity for a fabrication. -/
def striker : Config database Unit IdentityTrust :=
  ⟨Store.initial 0, fun _ => call (.recordStrike "agent-x" none strikeFabrication none)⟩

/-- The struck identity, right after the strike. -/
theorem fenced_after_strike : Fenced (striker.run [((), none)]).state "agent-x" := by
  have hcount : striker.state.StrikesCounted := fun _ => rfl
  refine (revocation_is_permanent (Reach.of_run striker [((), none)]) hcount).2 _ ?_
  exact ⟨_, List.mem_singleton.2 rfl, none, none, _, rfl, rfl⟩

end AiStudio.Runtime
