import AiStudio.Concurrency.Schedule
import AiStudio.Spokesman.Classify
import Mathlib.Data.Finsupp.Basic
import Mathlib.Data.Multiset.OrderedMonoid

/-!
# The digest

Embeds `compose_digest` and the `Notifier` of `spokesman/classify.py` as threads share one. A flush
takes everything that is pending before it sends it, so an item is neither pending nor sent while
the send is under way, and is gone where the send raises. That is all that can happen to an item
that was accepted (`digest_conserved_iff`).
-/

set_option autoImplicit false

namespace AiStudio.Spokesman

open AiStudio.Data AiStudio.Runtime AiStudio.Concurrency

/-! ## The notifier as threads share it -/

/-- A `PendingItem`; nothing reads when it came in. -/
abbrev PendingItem := NotifyKind × String

/-- `_EMOJI`. -/
def NotifyKind.emoji : NotifyKind → String
  | approve => "🛑"
  | inform => "📣"
  | alarm => "🚨"

/-- The part of a digest for one kind, left out where it is empty. -/
def digestPart (kind : NotifyKind) (title : String) (items : List PendingItem) : List String :=
  let part := items.filter fun item => item.1 = kind
  if part = [] then []
  else ("\n" ++ kind.emoji ++ " " ++ title ++ " (" ++ toString part.length ++ "):") ::
    part.map fun item => "  • " ++ item.2

/-- `compose_digest`. -/
def composeDigest (items : List PendingItem) : String :=
  if items = [] then "No pending updates."
  else "\n".intercalate (["*AI Studio digest*"] ++ digestPart .approve "Needs approval" items ++
    digestPart .inform "FYI" items)

/-- What the notifier hands to the channel. -/
inductive Outgoing where
  | alarm (text : String)
  | digest (items : List PendingItem)

/-- The text that is sent. -/
def Outgoing.body : Outgoing → String
  | alarm text => NotifyKind.alarm.emoji ++ " " ++ text
  | digest items => composeDigest items

/-- The atomic steps of the notifier: two under its lock, and the send. -/
inductive NotifierOp where
  | append (item : PendingItem)
  | take
  | sendText (message : Outgoing)

/-- What they return. -/
def NotifierOp.Res : NotifierOp → Type
  | append _ => Nat
  | take => List PendingItem
  | sendText _ => Unit

/-- What they do. -/
def NotifierOp.exec : (o : NotifierOp) → Outbox → NotifierOp.Res o × Outbox
  | .append item => fun box =>
      let pending := box.pending ++ [item]
      (pending.length, { box with pending := pending })
  | .take => fun box => (box.pending, { box with pending := [] })
  | .sendText message => fun box => ((), { box with sent := box.sent ++ [message.body] })

/-- The notifier; whether a send raises is up to the run. -/
def notifier : Interface Outbox Exn where
  Op := NotifierOp
  Res := NotifierOp.Res
  exec o box := .ok (o.exec box)

/-- What `notify` returns; the result of the send is left out. -/
structure NotifyResult where
  routed : String
  sent : Bool
  pendingCount : Option Nat := none

/-- `Notifier.notify`. -/
def notify (kind text : String) : Program notifier NotifyResult :=
  match coerceKind kind with
  | none => .throw (.valueError "unknown notify kind")
  | some kind =>
      if strip text = "" then .throw (.valueError "notification text must not be empty")
      else if kind = .alarm then
        (Program.op (I := notifier) (.sendText (.alarm (strip text)))).bind fun _ =>
          .ret { routed := "alarm", sent := true }
      else
        (Program.op (I := notifier) (.append (kind, strip text))).bind fun count =>
          .ret { routed := "digest", sent := false, pendingCount := some count }

/-- What `flush` returns. -/
structure FlushResult where
  flushed : Nat
  sent : Bool

/-- `Notifier.flush`. -/
def flush : Program notifier FlushResult :=
  (Program.op (I := notifier) .take).bind fun (items : List PendingItem) =>
    if items = [] then .ret { flushed := 0, sent := false }
    else (Program.op (I := notifier) (.sendText (.digest items))).bind fun _ =>
      .ret { flushed := items.length, sent := true }

/-- The notifier with nothing else moving does what `Outbox.notify` says. -/
theorem eval_notify (kind text : String) (box : Outbox) :
    match box.notify kind text with
    | .ok box' => ∃ result, (notify kind text).eval box = (.ok result, box')
    | .error e => (notify kind text).eval box = (.error e, box) := by
  unfold Outbox.notify notify
  cases coerceKind kind with
  | none => rfl
  | some kind =>
      dsimp only
      generalize strip text = body
      by_cases hblank : body = ""
      · simp only [if_pos hblank]
        rfl
      · by_cases halarm : kind = .alarm
        · subst halarm
          simp only [if_neg hblank, if_true]
          exact ⟨_, rfl⟩
        · simp only [if_neg hblank, if_neg halarm]
          exact ⟨_, rfl⟩

/-- A thread that uses the notifier through `notify` and `flush`, whatever it makes of their
outcomes. -/
inductive Uses {α : Type} : Program notifier α → Prop where
  | ret (a : α) : Uses (.ret a)
  | throw (e : Exn) : Uses (.throw e)
  | notify (kind text : String) {k : Except Exn NotifyResult → Program notifier α}
      (next : ∀ r, Uses (k r)) : Uses ((notify kind text).attempt.bind k)
  | flush {k : Except Exn FlushResult → Program notifier α} (next : ∀ r, Uses (k r)) :
      Uses (Spokesman.flush.attempt.bind k)

/-! ## What a flush holds -/

/-- The call is one of a thread that holds these items. -/
def MayCall (held : List PendingItem) : NotifierOp → Prop
  | .sendText (.digest items) => held = items ∧ items ≠ []
  | _ => held = []

/-- What a thread holds after a call. -/
def heldAfter (held : List PendingItem) :
    (o : NotifierOp) → Except Exn (NotifierOp.Res o) → List PendingItem
  | .take, .ok (items : List PendingItem) => items
  | .take, .error _ => []
  | .sendText (.digest _), _ => []
  | _, _ => held

/-- A thread holds the items it took until it has sent them; it sends no others. -/
def holdsDigest {α : Type} : Outline notifier (List PendingItem) α where
  allows := MayCall
  next := heldAfter
  ends held _ := held = []

variable {α : Type}

theorem holds_notify {kind text : String} {p : Program notifier NotifyResult}
    (h : p = notify kind text) : holdsDigest.Holds [] p := by
  rw [h]
  unfold notify
  cases coerceKind kind with
  | none => exact rfl
  | some kind =>
      dsimp only
      generalize strip text = body
      split
      · exact rfl
      · split
        · exact ⟨rfl, fun r => by cases r <;> exact rfl⟩
        · exact ⟨rfl, fun r => by cases r <;> exact rfl⟩

theorem holds_flush : holdsDigest.Holds [] flush := by
  refine ⟨rfl, fun r => ?_⟩
  rcases r with e | (items : List PendingItem)
  · exact rfl
  · by_cases hnil : items = []
    · subst hnil
      exact rfl
    · change holdsDigest.Holds items (if items = [] then _ else _)
      rw [if_neg hnil]
      exact ⟨⟨rfl, hnil⟩, fun r => by cases r <;> exact rfl⟩

theorem holds_attempt_bind {β : Type} {p : Program notifier β} (hp : holdsDigest.Holds [] p)
    {k : Except Exn β → Program notifier α} (hk : ∀ r, holdsDigest.Holds [] (k r)) :
    holdsDigest.Holds [] (p.attempt.bind k) := by
  have hattempt : (holdsDigest : Outline notifier _ (Except Exn β)).Holds [] p.attempt :=
    Outline.holds_attempt (fun _ _ h => h) (fun _ _ _ => rfl)
      (fun _ _ h => h) hp
  refine Outline.holds_bind (fun _ _ h => h) (fun _ _ _ => rfl) ?_
    (fun _ _ h => h) hattempt
  intro held r hend
  obtain rfl : held = [] := hend
  exact hk r

theorem Uses.holds {p : Program notifier α} (h : Uses p) : holdsDigest.Holds [] p := by
  induction h with
  | ret a => exact rfl
  | throw e => exact rfl
  | notify kind text next ih =>
      -- as a variable, `notify` is not evaluated on the way
      generalize hp : Spokesman.notify kind text = p
      exact holds_attempt_bind (holds_notify hp.symm) ih
  | flush next ih => exact holds_attempt_bind holds_flush ih

/-- The next call of the program sends a digest of these items. -/
def Sends (p : Program notifier α) (items : List PendingItem) : Prop :=
  ∃ k, p = .call (.sendText (.digest items)) k

/-- **A thread that holds items is about to send them.** -/
theorem sends_iff {p : Program notifier α} {held : List PendingItem}
    (h : holdsDigest.Holds held p) (items : List PendingItem) :
    Sends p items ↔ held = items ∧ items ≠ [] := by
  constructor
  · rintro ⟨k, rfl⟩
    exact h.1
  · rintro ⟨rfl, hne⟩
    cases p with
    | ret a => exact absurd h hne
    | throw e => exact absurd h hne
    | call o k =>
        rcases o with item | _ | (text | items)
        · exact absurd h.1 hne
        · exact absurd h.1 hne
        · exact absurd h.1 hne
        · obtain rfl : held = items := h.1.1
          exact ⟨k, rfl⟩

/-! ## Where an accepted item is -/

/-- The item a call adds to the pending digest. -/
def accepted? : (o : NotifierOp) → Except Exn (NotifierOp.Res o) → Option PendingItem
  | .append item, .ok _ => some item
  | _, _ => none

/-- The digest a call sends. -/
def sentDigest? : (o : NotifierOp) → Except Exn (NotifierOp.Res o) → Option (List PendingItem)
  | .sendText (.digest items), .ok _ => some items
  | _, _ => none

/-- The digest of a send that raises. -/
def lostDigest? : (o : NotifierOp) → Except Exn (NotifierOp.Res o) → Option (List PendingItem)
  | .sendText (.digest items), .error _ => some items
  | _, _ => none

/-- A digest that is lost had items. -/
theorem ne_nil_of_lostDigest? {o : NotifierOp} {out : Except Exn (NotifierOp.Res o)}
    {held items : List PendingItem} (hcall : MayCall held o) (h : lostDigest? o out = some items) :
    items ≠ [] := by
  rcases o with item | _ | (text | sent)
  · cases h
  · cases h
  · cases h
  · cases out with
    | ok v => cases h
    | error e =>
        obtain rfl : sent = items := Option.some.inj h
        exact hcall.2

section Runs

variable {P : Type} [DecidableEq P]

/-- The items accepted in a run, the digests sent in it, and those that were not. -/
def accepted (τ : List (Step notifier P α)) : List PendingItem :=
  τ.filterMap fun st => accepted? st.op st.out

def sentDigests (τ : List (Step notifier P α)) : List (List PendingItem) :=
  τ.filterMap fun st => sentDigest? st.op st.out

def lostDigests (τ : List (Step notifier P α)) : List (List PendingItem) :=
  τ.filterMap fun st => lostDigest? st.op st.out

/-- Each accepted item is pending, or is in one digest that was sent: a value was accepted as
often as it is in these. -/
def Conserved (τ : List (Step notifier P α)) (box : Outbox) : Prop :=
  (accepted τ).Perm (box.pending ++ (sentDigests τ).flatten)

/-- **What one step does with the items.** -/
theorem accounts_step {o : NotifierOp} {out : Except Exn (NotifierOp.Res o)} {box box' : Outbox}
    (h : (∃ v, out = .ok v ∧ notifier.exec o box = .ok (v, box')) ∨ ∃ e, out = .error e ∧ box' = box)
    {held : List PendingItem} (hcall : MayCall held o) :
    ((accepted? o out).toList : Multiset PendingItem) + (box.pending + held) =
      box'.pending + ((sentDigest? o out).getD [] : Multiset PendingItem) +
        ((lostDigest? o out).getD [] : Multiset PendingItem) + heldAfter held o out := by
  rcases h with ⟨v, rfl, hexec⟩ | ⟨e, rfl, rfl⟩
  · have hexec : o.exec box = (v, box') := Except.ok.inj hexec
    obtain ⟨hv, rfl⟩ : (o.exec box).1 = v ∧ (o.exec box).2 = box' := by
      rw [hexec]
      exact ⟨rfl, rfl⟩
    rcases o with item | _ | (text | items)
    · obtain rfl : held = [] := hcall
      simp [accepted?, sentDigest?, lostDigest?, heldAfter, NotifierOp.exec, ← Multiset.coe_add,
        add_comm]
    · obtain rfl : held = [] := hcall
      obtain rfl : box.pending = v := hv
      simp [accepted?, sentDigest?, lostDigest?, heldAfter, NotifierOp.exec]
    · simp [accepted?, sentDigest?, lostDigest?, heldAfter, NotifierOp.exec]
    · obtain ⟨rfl, -⟩ := hcall
      simp [accepted?, sentDigest?, lostDigest?, heldAfter, NotifierOp.exec]
  · rcases o with item | _ | (text | items)
    · simp [accepted?, sentDigest?, lostDigest?, heldAfter]
    · obtain rfl : held = [] := hcall
      simp [accepted?, sentDigest?, lostDigest?, heldAfter]
    · simp [accepted?, sentDigest?, lostDigest?, heldAfter]
    · obtain ⟨rfl, -⟩ := hcall
      simp [accepted?, sentDigest?, lostDigest?, heldAfter]

omit [DecidableEq P] in
theorem filterMap_concat {β : Type} (f : Step notifier P α → Option β)
    (τ : List (Step notifier P α)) (st : Step notifier P α) :
    (τ ++ [st]).filterMap f = τ.filterMap f ++ (f st).toList := by
  rw [List.filterMap_append, List.filterMap_cons]
  cases f st <;> rfl

theorem flatten_toList {β : Type} (o : Option (List β)) : o.toList.flatten = o.getD [] := by
  cases o <;> simp

/-- The items the threads hold, a thread that holds none left out. -/
def Holding (ls : P → List PendingItem) (held : P →₀ Multiset PendingItem) : Prop :=
  ∀ p, held p = (ls p : Multiset PendingItem)

/-- Where the items accepted in a run are: pending, sent, lost, or held by a thread. -/
def Accounted (τ : List (Step notifier P α)) (box : Outbox) (held : P →₀ Multiset PendingItem) :
    Prop :=
  (accepted τ : Multiset PendingItem) =
    box.pending + (sentDigests τ).flatten + (lostDigests τ).flatten + held.sum fun _ items => items

theorem Holding.step {ls : P → List PendingItem} {held : P →₀ Multiset PendingItem}
    (h : Holding ls held) (st : Step notifier P α) :
    Holding (holdsDigest.advance ls st)
      (held.update st.pid (heldAfter (ls st.pid) st.op st.out)) := by
  intro p
  by_cases hp : p = st.pid
  · subst hp
    rw [Outline.advance_self, Finsupp.coe_update, Function.update_self]
    rfl
  · rw [Outline.advance_ne _ _ _ hp, Finsupp.coe_update, Function.update_of_ne hp, h p]

/-- The books stay balanced when a step's part of them is. -/
theorem balance {β : Type} {all pending pending' sent lost kept kept' new sends loses held held' :
    Multiset β} (hall : all = pending + sent + lost + kept)
    (hstep : new + (pending + held) = pending' + sends + loses + held')
    (hkept : kept' + held = kept + held') :
    all + new = pending' + (sent + sends) + (lost + loses) + kept' := by
  refine add_right_cancel (b := held) ?_
  calc all + new + held = sent + lost + kept + (new + (pending + held)) := by
        rw [hall]
        ac_rfl
    _ = sent + lost + pending' + sends + loses + (kept + held') := by
        rw [hstep]
        ac_rfl
    _ = pending' + (sent + sends) + (lost + loses) + kept' + held := by
        rw [← hkept]
        ac_rfl

/-- **What a run does with the items.** -/
theorem accounted_of_reach {sent : List String} {pool : P → Program notifier α}
    {τ : List (Step notifier P α)} {c' : Config notifier P α} (h : Reach ⟨⟨[], sent⟩, pool⟩ τ c')
    (hpool : ∀ p, holdsDigest.Holds [] (pool p)) :
    ∃ held, Holding (holdsDigest.track (fun _ => []) τ) held ∧ Accounted τ c'.state held := by
  refine h.induct (motive := fun τ c' => ∃ held, Holding (holdsDigest.track (fun _ => []) τ) held ∧
    Accounted τ c'.state held) ⟨0, fun p => rfl, rfl⟩ ?_
  rintro τ st hreach hf ⟨held, hheld, haccount⟩
  have hholds := Outline.holds_reach hreach hpool
  obtain ⟨hcall, -⟩ := Outline.holds_step hf hholds
  refine ⟨_, by rw [Outline.track_concat]; exact hheld.step st, ?_⟩
  have hstep := @accounts_step st.op st.out st.before.state st.after.state
    hf.outcome _ hcall
  have hsum := held.sum_update_add st.pid
    (heldAfter (holdsDigest.track (fun _ => []) τ st.pid) st.op st.out)
    (fun _ items => items) (fun _ => rfl) fun _ _ _ => rfl
  rw [hheld st.pid] at hsum
  unfold Accounted accepted sentDigests lostDigests at haccount ⊢
  simp only [filterMap_concat, List.flatten_append, flatten_toList, ← Multiset.coe_add]
  exact balance haccount hstep hsum

theorem ne_nil_of_lost {sent : List String} {pool : P → Program notifier α}
    {τ : List (Step notifier P α)} {c' : Config notifier P α} (h : Reach ⟨⟨[], sent⟩, pool⟩ τ c')
    (hpool : ∀ p, holdsDigest.Holds [] (pool p)) {items : List PendingItem}
    (hlost : items ∈ lostDigests τ) : items ≠ [] := by
  obtain ⟨st, hst, hitems⟩ := List.mem_filterMap.1 hlost
  obtain ⟨τ₁, τ₂, rfl⟩ := List.append_of_mem hst
  obtain ⟨hf, hreach, -⟩ := h.split_at
  obtain ⟨hcall, -⟩ := Outline.holds_step hf (Outline.holds_reach hreach hpool)
  exact ne_nil_of_lostDigest? hcall hitems

omit [DecidableEq P] in
theorem sum_eq_zero_iff {held : P →₀ Multiset PendingItem} :
    (held.sum fun _ items => items) = 0 ↔ ∀ p, held p = 0 := by
  rw [Finsupp.sum, Finset.sum_eq_zero_iff]
  constructor
  · intro h p
    by_contra hp
    exact hp (h p (Finsupp.mem_support_iff.2 hp))
  · intro h p _
    exact h p

/-- **The digest loses nothing but what a send loses.** Whatever threads use the notifier, and in
whatever order: in a state they reach, each accepted item is pending or in one digest that was sent
exactly when no digest is being sent, and no send of one has raised. -/
theorem digest_conserved_iff {sent : List String} {pool : P → Program notifier α}
    {τ : List (Step notifier P α)} {c' : Config notifier P α} (h : Reach ⟨⟨[], sent⟩, pool⟩ τ c')
    (huses : ∀ p, Uses (pool p)) :
    Conserved τ c'.state ↔
      (∀ p items, ¬ Sends (c'.pool p) items) ∧ ∀ st ∈ τ, lostDigest? st.op st.out = none := by
  have hpool := fun p => (huses p).holds
  obtain ⟨held, hheld, haccount⟩ := accounted_of_reach h hpool
  have hholds := Outline.holds_reach h hpool
  have hsends : (∀ p, held p = 0) ↔ ∀ p items, ¬ Sends (c'.pool p) items := by
    refine forall_congr' fun p => ?_
    rw [hheld p, Multiset.coe_eq_zero]
    constructor
    · intro hnil items hsends
      obtain ⟨rfl, hne⟩ := (sends_iff (hholds p) items).1 hsends
      exact hne hnil
    · intro hnone
      by_contra hne
      exact hnone _ ((sends_iff (hholds p) _).2 ⟨rfl, hne⟩)
  have hlost : ((lostDigests τ).flatten : Multiset PendingItem) = 0 ↔
      ∀ st ∈ τ, lostDigest? st.op st.out = none := by
    rw [Multiset.coe_eq_zero, List.flatten_eq_nil_iff, ← List.filterMap_eq_nil_iff]
    constructor
    · intro hall
      by_contra hne
      obtain ⟨items, hmem⟩ := List.exists_mem_of_ne_nil _ hne
      exact ne_nil_of_lost h hpool hmem (hall items hmem)
    · intro hnone items hmem
      rw [lostDigests, hnone] at hmem
      cases hmem
  rw [← hsends, ← hlost, Conserved, ← Multiset.coe_eq_coe, haccount, ← Multiset.coe_add,
    add_assoc, add_eq_left, add_eq_zero, sum_eq_zero_iff, and_comm]

end Runs

/-! ## One thread -/

/-- A thread that flushes. -/
def flushOnce : Program notifier Unit := flush.attempt.bind fun _ => .ret ()

/-- A thread that adds an item and flushes. -/
def flushingDesk : Config notifier Unit Unit :=
  ⟨⟨[], []⟩, fun _ => (notify "inform" "nightly build finished").attempt.bind fun _ => flushOnce⟩

theorem flushingDesk_uses (p : Unit) : Uses (flushingDesk.pool p) :=
  @Uses.notify Unit "inform" "nightly build finished" (fun _ => flushOnce) fun _ =>
    @Uses.flush Unit (fun _ => .ret ()) fun _ => .ret ()

/-- The channel raises, and the item is gone. -/
theorem failed_flush_drops :
    ¬ ∀ τ c', Reach flushingDesk τ c' → Conserved τ c'.state := by
  intro hall
  have hconserved := hall _ _ (Reach.of_run flushingDesk
    [((), none), ((), none), ((), some (.runtimeError "send failed"))])
  have haccepted : (accepted (flushingDesk.trace
      [((), none), ((), none), ((), some (.runtimeError "send failed"))])).length = 1 := by
    decide
  have hnowhere : ((flushingDesk.run
      [((), none), ((), none), ((), some (.runtimeError "send failed"))]).state.pending ++
        (sentDigests (flushingDesk.trace
          [((), none), ((), none), ((), some (.runtimeError "send failed"))])).flatten).length =
        0 := by
    decide
  have hlength := hconserved.length_eq
  rw [haccepted, hnowhere] at hlength
  cases hlength

/-- The channel takes the digest, and the item is in it. -/
theorem flush_delivers :
    Conserved (flushingDesk.trace [((), none), ((), none), ((), none)])
      (flushingDesk.run [((), none), ((), none), ((), none)]).state := by
  refine (digest_conserved_iff (Reach.of_run flushingDesk [((), none), ((), none), ((), none)])
    flushingDesk_uses).2 ⟨?_, ?_⟩
  · rintro p items ⟨k, hk⟩
    have hdone : ((flushingDesk.run [((), none), ((), none), ((), none)]).pool p).head?.isNone =
        true := by
      cases p
      decide
    rw [hk] at hdone
    cases hdone
  · exact List.filterMap_eq_nil_iff.1 (List.length_eq_zero_iff.1 (by decide))

end AiStudio.Spokesman
