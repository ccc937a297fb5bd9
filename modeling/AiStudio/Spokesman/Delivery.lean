import AiStudio.Concurrency.Schedule
import AiStudio.Spokesman.Notifications
import Mathlib.Data.Fintype.Basic

/-!
# Delivery of notifications

Embeds `run_notifier_pass` of `spokesman/app.py` beside the transactions that append to the
log. A `seq` is drawn at the insert and the row is visible at the commit, in any order of
commits; a pass reads past the saved cursor, hands over its items and saves the cursor last.
So an event that commits late is passed over (`late_commit_lost`), and what one pass has handed
over and not saved another one hands over again. `exactly_once` is for the runs in which a poll
meets neither.
-/

set_option autoImplicit false

namespace AiStudio.Spokesman

open AiStudio.Data AiStudio.Runtime AiStudio.Concurrency

/-! ## The log, the cursor and the notifier -/

/-- The log with its transactions in flight, the cursor file, and the notifier. -/
structure Feed where
  /-- What the texts of the items are read from. -/
  store : Store
  brief : Option String
  nextSeq : Nat
  inFlight : List (Nat × Event)
  rows : List (Nat × Event)
  cursor : Nat
  outbox : Outbox
  /-- The events whose items were handed to `Notifier.notify`, in order. -/
  handed : List Nat

/-- An empty log, and a Spokesman that starts for the first time. -/
def Feed.initial (store : Store) : Feed :=
  ⟨store, none, 1, [], [], 0, ⟨[], []⟩, []⟩

/-- The statements of writers and of a pass. -/
inductive FeedOp where
  | insertEvent (e : Event)
  | commit (seq : Nat)
  | rollback (seq : Nat)
  | write (store : Store)
  | connect
  | loadCursor
  | poll (sinceCursor : Nat)
  | refreshPrepCache (brief : Option String)
  | notify (item : NotificationItem)
  | saveCursor (seq : Nat)
  | pendingCount

namespace FeedOp

/-- What a statement returns. -/
def Res : FeedOp → Type
  | insertEvent .. => Nat
  | loadCursor => Nat
  | poll .. => NotificationBatch
  | pendingCount => Nat
  | _ => Unit

/-- A statement that goes through. -/
def exec : (o : FeedOp) → Feed → Except Exn (o.Res × Feed)
  | insertEvent e => fun f =>
      .ok (f.nextSeq, { f with nextSeq := f.nextSeq + 1, inFlight := f.inFlight ++ [(f.nextSeq, e)] })
  | commit seq => fun f =>
      .ok ((), { f with
        rows := f.rows ++ f.inFlight.filter (·.1 = seq)
        inFlight := f.inFlight.filter (·.1 ≠ seq) })
  | rollback seq => fun f => .ok ((), { f with inFlight := f.inFlight.filter (·.1 ≠ seq) })
  | write store => fun f => .ok ((), { f with store })
  | connect => fun f => .ok ((), f)
  | loadCursor => fun f => .ok (f.cursor, f)
  | poll sinceCursor => fun f =>
      .ok (pollNotifications f.store f.brief f.rows sinceCursor none, f)
  | refreshPrepCache brief => fun f => .ok ((), { f with brief })
  | notify item => fun f =>
      (f.outbox.notify item.kind.value item.text).map fun outbox =>
        ((), { f with outbox, handed := f.handed ++ [item.seq] })
  | saveCursor seq => fun f => .ok ((), { f with cursor := seq })
  | pendingCount => fun f => .ok (f.outbox.pending.length, f)

/-- A statement that fails. An item whose alarm could not be sent was handed over. -/
def abort : FeedOp → Feed → Feed
  | notify item => fun f => { f with handed := f.handed ++ [item.seq] }
  | _ => fun f => f

/-- Whether a statement hands over an item. -/
def isNotify : FeedOp → Bool
  | notify _ => true
  | _ => false

/-- Whether a statement polls. -/
def isPoll : FeedOp → Bool
  | poll _ => true
  | _ => false

/-- Whether a statement saves the cursor. -/
def isSave : FeedOp → Bool
  | saveCursor _ => true
  | _ => false

end FeedOp

/-- The log, the cursor and the notifier as the processes see them. -/
abbrev feed : Interface Feed Exn where
  Op := FeedOp
  Res := FeedOp.Res
  exec := FeedOp.exec
  abort := FeedOp.abort

/-- A program over them. -/
abbrev Feeding (α : Type) := Program feed α

/-- One statement. -/
abbrev feedStmt (o : FeedOp) : Feeding o.Res := Program.op (I := feed) o

/-- What a pass returns. -/
structure PassReport where
  scannedToSeq : Nat
  alarmsSent : Nat
  digestQueued : Nat
  pendingDigest : Nat

/-- `notifier.notify` of each item. -/
def notifyEach : List NotificationItem → Feeding Unit
  | [] => .ret ()
  | item :: items => (feedStmt (.notify item)).bind fun _ => notifyEach items

/-- The end of a pass: the cursor is saved when it has moved. -/
def finishPass (cursor : Nat) (batch : NotificationBatch) : Feeding PassReport := do
  let () ← if batch.cursor ≠ cursor then feedStmt (.saveCursor batch.cursor) else .ret ()
  let pending ← feedStmt .pendingCount
  let alarms := (batch.items.filter (·.kind = .alarm)).length
  return ⟨batch.cursor, alarms, batch.items.length - alarms, pending⟩

/-- `run_notifier_pass`; `brief` is what the refreshed prep cache renders to. -/
def runNotifierPass (brief : Option String) : Feeding PassReport := do
  feedStmt .connect
  let cursor ← feedStmt .loadCursor
  let batch ← feedStmt (.poll cursor)
  let _ ← (feedStmt (.refreshPrepCache brief)).attempt
  notifyEach batch.items
  finishPass cursor batch

/-! ## What a poll reads -/

/-- The events that `classify_event` makes items of. -/
def isShown : Payload → Bool
  | .sink (.reviewAlarm ..) => true
  | .approvalRequested _ => true
  | .sink (.approvalRequestedEphemeral ..) => true
  | .decisionRequested _ => true
  | .sink (.reviewFlagged _ _ severity _ _) => severity ≠ "high"
  | .sink (.spokesmanPrepReady ..) => true
  | .taskFailedExhausted .. => true
  | _ => false

/-- The event is notifiable, and its workstream is no noise. -/
def Notifiable (e : Event) : Prop :=
  isNoiseWorkstream (some e.workstream.name) = false ∧ isShown e.payload = true

instance (e : Event) : Decidable (Notifiable e) :=
  inferInstanceAs (Decidable (_ ∧ _))

theorem classifyEvent_isSome {s : Store} {brief : Option String} {seq : Nat} {e : Event} :
    (∃ item, classifyEvent s brief seq e = some item) ↔ isShown e.payload = true := by
  obtain ⟨ts, taskId, workstream, payload⟩ := e
  cases payload with
  | sink payload =>
      cases payload with
      | reviewFlagged target type severity count reasons =>
          by_cases hhigh : severity = "high" <;> simp [classifyEvent, isShown, hhigh]
      | _ => simp [classifyEvent, isShown]
  | _ => simp [classifyEvent, isShown]

theorem classifyEvent_seq {s : Store} {brief : Option String} {seq : Nat} {e : Event}
    {item : NotificationItem} (h : classifyEvent s brief seq e = some item) : item.seq = seq := by
  unfold classifyEvent at h
  split at h
  case h_5 =>
    split at h
    · cases h
    · exact (Option.some.inj h) ▸ rfl
  all_goals first | exact (Option.some.inj h) ▸ rfl | cases h

/-- An item is announced for each notifiable event, under its number. -/
theorem announce_cases (s : Store) (brief : Option String) (r : Nat × Event) :
    (Notifiable r.2 ∧ ∃ item, announce s brief r = some item ∧ item.seq = r.1) ∨
      (¬ Notifiable r.2 ∧ announce s brief r = none) := by
  unfold announce Notifiable
  cases hnoise : isNoiseWorkstream (some r.2.workstream.name) with
  | true => simp
  | false =>
      simp only [Bool.false_eq_true, if_false, true_and, ← @classifyEvent_isSome s brief r.1]
      cases hclass : classifyEvent s brief r.1 r.2 with
      | none => simp
      | some item => exact .inl ⟨⟨item, rfl⟩, item, rfl, classifyEvent_seq hclass⟩

section Poll

variable {s : Store} {brief : Option String} {rows : List (Nat × Event)} {cursor n : Nat}

/-- The numbers of a batch's items. -/
def NotificationBatch.seqs (batch : NotificationBatch) : List Nat :=
  batch.items.map NotificationItem.seq

/-- **A poll has an item for each notifiable row past the cursor.** -/
theorem mem_seqs_poll :
    n ∈ (pollNotifications s brief rows cursor none).seqs ↔
      ∃ r ∈ rows, r.1 = n ∧ Notifiable r.2 ∧ cursor < n := by
  simp only [NotificationBatch.seqs, pollNotifications, List.mem_map, List.mem_filterMap]
  constructor
  · rintro ⟨item, ⟨r, hr, hitem⟩, rfl⟩
    obtain ⟨hrow, hpast⟩ := mem_readEvents.1 hr
    rcases announce_cases s brief r with ⟨hnote, item', hitem', hseq⟩ | ⟨-, hnone⟩
    · obtain rfl : item = item' := Option.some.inj (hitem.symm.trans hitem')
      exact ⟨r, hrow, hseq.symm, hnote, by rw [hseq]; simpa using hpast⟩
    · rw [hnone] at hitem
      cases hitem
  · rintro ⟨r, hrow, rfl, hnote, hpast⟩
    rcases announce_cases s brief r with ⟨-, item, hitem, hseq⟩ | ⟨hnot, -⟩
    · exact ⟨item, ⟨r, mem_readEvents.2 ⟨hrow, by simpa using hpast⟩, hitem⟩, hseq⟩
    · exact absurd hnote hnot

theorem nodup_seqs_poll (h : (rows.map Prod.fst).Nodup) :
    (pollNotifications s brief rows cursor none).seqs.Nodup := by
  have hread : ((readEvents rows cursor 0 none).map Prod.fst).Nodup := by
    have hperm : (readEvents rows cursor 0 none).Perm (rows.filter fun r => cursor - 0 < r.1) :=
      List.perm_insertionSort _ _
    exact (hperm.map Prod.fst).nodup_iff.2 ((List.filter_sublist.map Prod.fst).nodup h)
  have hsub : (pollNotifications s brief rows cursor none).seqs.Sublist
      ((readEvents rows cursor 0 none).map Prod.fst) := by
    simp only [NotificationBatch.seqs, pollNotifications]
    generalize readEvents rows cursor 0 none = events
    induction events with
    | nil => exact .slnil
    | cons r events ih =>
        rcases announce_cases s brief r with ⟨-, item, hitem, hseq⟩ | ⟨-, hnone⟩
        · rw [List.filterMap_cons_some hitem, List.map_cons, List.map_cons, hseq]
          exact ih.cons_cons _
        · rw [List.filterMap_cons_none hnone, List.map_cons]
          exact ih.cons _
  exact hsub.nodup hread

/-- The cursor of a batch is that of the last row it read, or where it began. -/
theorem cursor_poll :
    cursor ≤ (pollNotifications s brief rows cursor none).cursor ∧
      (∀ r ∈ rows, r.1 ≤ (pollNotifications s brief rows cursor none).cursor) ∧
      ∀ bound, cursor ≤ bound → (∀ r ∈ rows, r.1 ≤ bound) →
        (pollNotifications s brief rows cursor none).cursor ≤ bound := by
  have hfold : ∀ (seqs : List Nat) (start : Nat), start ≤ seqs.foldl max start ∧
      (∀ n ∈ seqs, n ≤ seqs.foldl max start) ∧
      ∀ bound, start ≤ bound → (∀ n ∈ seqs, n ≤ bound) → seqs.foldl max start ≤ bound := by
    intro seqs
    induction seqs with
    | nil => exact fun start => ⟨le_refl _, by simp, fun bound h _ => h⟩
    | cons n seqs ih =>
        intro start
        obtain ⟨hstart, hall, hleast⟩ := ih (max start n)
        refine ⟨(le_max_left _ _).trans hstart, ?_, fun bound hb hn => ?_⟩
        · intro m hm
          rcases List.mem_cons.1 hm with rfl | hm
          · exact (le_max_right _ _).trans hstart
          · exact hall m hm
        · rw [List.forall_mem_cons] at hn
          exact hleast bound (max_le hb hn.1) hn.2
  obtain ⟨hstart, hall, hleast⟩ :=
    hfold ((readEvents rows cursor 0 none).map Prod.fst) cursor
  refine ⟨hstart, fun r hr => ?_, fun bound hb hn => hleast bound hb fun m hm => ?_⟩
  · by_cases hpast : cursor < r.1
    · exact hall _ (List.mem_map_of_mem (mem_readEvents.2 ⟨hr, by simpa using hpast⟩))
    · exact (Nat.le_of_not_lt hpast).trans hstart
  · obtain ⟨r, hr, rfl⟩ := List.mem_map.1 hm
    exact hn r (mem_readEvents.1 hr).1

end Poll

/-! ## The phases of a pass -/

/-- Where a pass stands: the cursor it loaded, the one it will save, and the numbers of the items
it has still to hand over and of those it has handed over. -/
inductive PassPhase where
  | before
  | loaded (cursor : Nat)
  | holding (cursor reached : Nat) (rest done : List Nat)
  | saved (reached : Nat)

namespace PassPhase

/-- The phase after a statement. An item counts as handed over when the notifier raises. -/
def next : PassPhase → (o : FeedOp) → Except Exn o.Res → PassPhase
  | .before, .loadCursor, .ok cursor => .loaded cursor
  | .loaded cursor, .poll _, .ok batch => .holding cursor batch.cursor batch.seqs []
  | .holding cursor reached rest done, .notify item, _ =>
      .holding cursor reached rest.tail (item.seq :: done)
  | .holding .., .saveCursor seq, .ok _ => .saved seq
  | l, _, _ => l

/-- The statements of a pass. -/
def allows : PassPhase → FeedOp → Prop
  | .before, o => o = .connect ∨ o = .loadCursor
  | .loaded cursor, o => o = .poll cursor
  | .holding _ reached rest _, o =>
      (∃ brief, o = .refreshPrepCache brief) ∨ (∃ item, o = .notify item ∧ rest.head? = some item.seq) ∨
        rest = [] ∧ (o = .pendingCount ∨ o = .saveCursor reached)
  | .saved _, o => o = .pendingCount

/-- A pass that returns has handed over all its items, and saved the cursor if it moved. -/
def ends {α : Type} : PassPhase → Except Exn α → Prop
  | _, .error _ => True
  | .holding cursor reached rest _, .ok _ => rest = [] ∧ reached = cursor
  | .saved _, .ok _ => True
  | _, .ok _ => False

end PassPhase

/-- The outline of a pass. -/
def passOutline : Outline feed PassPhase PassReport where
  allows := PassPhase.allows
  next := PassPhase.next
  ends := PassPhase.ends

/-- A last statement, from a phase it leaves alone. -/
theorem holds_pendingCount {l : PassPhase} (f : Nat → PassReport)
    (hallow : l.allows .pendingCount) (hnext : ∀ r, l.next .pendingCount r = l)
    (hends : ∀ report : PassReport, l.ends (.ok report)) :
    passOutline.Holds l ((feedStmt .pendingCount).bind fun n => .ret (f n)) := by
  refine ⟨hallow, fun r => ?_⟩
  change passOutline.Holds (l.next .pendingCount r) _
  rw [hnext r]
  cases r with
  | ok n => exact hends _
  | error e => trivial

theorem holds_finishPass (cursor : Nat) (batch : NotificationBatch) (done : List Nat) :
    passOutline.Holds (.holding cursor batch.cursor [] done) (finishPass cursor batch) := by
  unfold finishPass
  by_cases hmoved : batch.cursor ≠ cursor
  · rw [if_pos hmoved]
    refine ⟨.inr (.inr ⟨rfl, .inr rfl⟩), fun r => ?_⟩
    cases r with
    | ok _ => exact holds_pendingCount _ rfl (fun _ => rfl) fun _ => trivial
    | error e => trivial
  · rw [if_neg hmoved]
    exact holds_pendingCount _ (.inr (.inr ⟨rfl, .inl rfl⟩)) (fun _ => rfl) fun _ =>
      ⟨rfl, not_not.1 hmoved⟩

theorem holds_notifyEach (cursor : Nat) (batch : NotificationBatch) (items : List NotificationItem)
    (done : List Nat) :
    passOutline.Holds (.holding cursor batch.cursor (items.map NotificationItem.seq) done)
      ((notifyEach items).bind fun _ => finishPass cursor batch) := by
  induction items generalizing done with
  | nil => exact holds_finishPass cursor batch done
  | cons item items ih =>
      refine ⟨.inr (.inl ⟨item, rfl, rfl⟩), fun r => ?_⟩
      cases r with
      | ok _ => exact ih (item.seq :: done)
      | error e => trivial

/-- **A pass follows its outline.** -/
theorem holds_runNotifierPass (brief : Option String) :
    passOutline.Holds .before (runNotifierPass brief) := by
  refine ⟨.inl rfl, fun r => ?_⟩
  cases r with
  | error e => trivial
  | ok _ =>
      refine ⟨.inr rfl, fun r => ?_⟩
      cases r with
      | error e => trivial
      | ok cursor =>
          refine ⟨rfl, fun r => ?_⟩
          cases r with
          | error e => trivial
          | ok batch =>
              refine ⟨.inl ⟨brief, rfl⟩, fun r => ?_⟩
              cases r with
              | error e => exact holds_notifyEach cursor batch batch.items []
              | ok _ => exact holds_notifyEach cursor batch batch.items []

/-! ## Runs of passes and writers -/

section Runs

variable {P : Type}

/-- A turn of a run. -/
abbrev PassStep (P : Type) := Step feed P PassReport

/-- The pass `p` polls from `cursor`. -/
def Polls (st : PassStep P) (p : P) (cursor : Nat) : Prop :=
  st.pid = p ∧ st.op = .poll cursor ∧ ∃ v, st.out = .ok v

/-- The pass `p` saves the cursor. -/
def Saves (st : PassStep P) (p : P) : Prop :=
  st.pid = p ∧ (∃ seq, st.op = .saveCursor seq) ∧ ∃ v, st.out = .ok v

/-- The pass `p` hands over an item. -/
def Hands (st : PassStep P) (p : P) : Prop :=
  st.pid = p ∧ ∃ item, st.op = .notify item

/-- The pass `p` has handed over an item, and the cursor is not saved past it. -/
def Unsaved (τ : List (PassStep P)) (p : P) : Prop :=
  (∃ st ∈ τ, Hands st p) ∧ ∀ st ∈ τ, ¬ Saves st p

/-- The step comes in time, after the steps `τ`. An event commits before the cursor has passed
it. An item is handed over before the cursor has passed it, and while no other pass has handed
over items it has not saved; the cursor is saved forwards, and while no event has become visible
below those the pass has read. -/
def InTime (τ : List (PassStep P)) (st : PassStep P) : Prop :=
  match st.op with
  | .commit seq => ∀ o ∈ st.before.state.inFlight, o.1 = seq → Notifiable o.2 →
      st.before.state.cursor < seq
  | .notify item => st.before.state.cursor < item.seq ∧ ∀ q, q ≠ st.pid → ¬ Unsaved τ q
  | .saveCursor seq => st.before.state.cursor ≤ seq ∧
      ∀ poll ∈ τ, (∃ cursor, Polls poll st.pid cursor) →
        ∀ r ∈ st.before.state.rows, Notifiable r.2 → r.1 ∉ poll.before.state.rows.map Prod.fst →
          ∀ r' ∈ poll.before.state.rows, r'.1 < r.1
  | _ => True

/-- Each step comes in time, after the steps `τ` and those before it. -/
def TimelyAfter (τ : List (PassStep P)) : List (PassStep P) → Prop
  | [] => True
  | st :: rest => InTime τ st ∧ TimelyAfter (τ ++ [st]) rest

/-- Every step of a run comes in time. -/
def Timely (τ : List (PassStep P)) : Prop :=
  TimelyAfter [] τ

theorem timelyAfter_concat {st : PassStep P} {τ₀ τ : List (PassStep P)} :
    TimelyAfter τ₀ (τ ++ [st]) ↔ TimelyAfter τ₀ τ ∧ InTime (τ₀ ++ τ) st := by
  induction τ generalizing τ₀ with
  | nil => simp [TimelyAfter]
  | cons st' τ ih =>
      rw [List.cons_append, TimelyAfter, TimelyAfter, ih, List.append_assoc, List.singleton_append,
        and_assoc]

instance {α : Type} (out : Except Exn α) : Decidable (∃ v, out = .ok v) :=
  match out with
  | .ok v => isTrue ⟨v, rfl⟩
  | .error _ => isFalse (by rintro ⟨_, ⟨⟩⟩)

section Decidable

variable [DecidableEq P]

instance (st : PassStep P) (p : P) : Decidable (Hands st p) :=
  decidable_of_iff (st.pid = p ∧ st.op.isNotify = true)
    (and_congr_right fun _ => by cases st.op <;> simp [FeedOp.isNotify])

instance (st : PassStep P) (p : P) : Decidable (Saves st p) :=
  decidable_of_iff (st.pid = p ∧ st.op.isSave = true ∧ ∃ v, st.out = .ok v)
    (and_congr_right fun _ => and_congr_left fun _ => by
      cases st.op <;> simp [FeedOp.isSave])

instance (st : PassStep P) (p : P) : Decidable (∃ cursor, Polls st p cursor) :=
  decidable_of_iff (st.pid = p ∧ st.op.isPoll = true ∧ ∃ v, st.out = .ok v) (by
    simp only [Polls, exists_and_left, exists_and_right]
    exact and_congr_right fun _ => and_congr_left fun _ => by
      cases st.op <;> simp [FeedOp.isPoll])

instance (τ : List (PassStep P)) (p : P) : Decidable (Unsaved τ p) :=
  inferInstanceAs (Decidable (_ ∧ _))

instance [Fintype P] (τ : List (PassStep P)) (st : PassStep P) : Decidable (InTime τ st) := by
  unfold InTime
  split <;> infer_instance

instance decidableTimelyAfter [Fintype P] :
    ∀ τ₀ τ : List (PassStep P), Decidable (TimelyAfter τ₀ τ)
  | _, [] => isTrue trivial
  | τ₀, st :: τ =>
      haveI := decidableTimelyAfter (τ₀ ++ [st]) τ
      inferInstanceAs (Decidable (InTime τ₀ st ∧ TimelyAfter (τ₀ ++ [st]) τ))

instance [Fintype P] (τ : List (PassStep P)) : Decidable (Timely τ) :=
  inferInstanceAs (Decidable (TimelyAfter [] τ))

end Decidable

/-- The statements of a writer. -/
def Writes (o : FeedOp) : Prop :=
  (∃ e, o = .insertEvent e) ∨ (∃ seq, o = .commit seq) ∨ (∃ seq, o = .rollback seq) ∨
    ∃ store, o = .write store

/-- **Exactly once.** No event is handed over twice; one behind the cursor was handed over, and
one that was visible when a pass polled has been when the pass has returned. -/
structure ExactlyOnce (τ : List (PassStep P)) (c : Config feed P PassReport) : Prop where
  once : c.state.handed.Nodup
  behind : ∀ r ∈ c.state.rows, Notifiable r.2 → r.1 ≤ c.state.cursor → r.1 ∈ c.state.handed
  read : ∀ st ∈ τ, ∀ p cursor report, Polls st p cursor → c.pool p = .ret report →
    ∀ r ∈ st.before.state.rows, Notifiable r.2 → r.1 ∈ c.state.handed

/-! ### What a pass has done -/

variable {st : PassStep P}

/-- `poll` is the poll of the pass `p`. -/
structure PollOf (τ : List (PassStep P)) (p : P) (cursor : Nat) (poll : PassStep P) : Prop where
  mem : poll ∈ τ
  polls : Polls poll p cursor
  only : ∀ st ∈ τ, ∀ cursor', Polls st p cursor' → st = poll

/-- What a poll from `cursor` returns. -/
abbrev Feed.batch (f : Feed) (cursor : Nat) : NotificationBatch :=
  pollNotifications f.store f.brief f.rows cursor none

/-- A pass that holds the items of its poll. -/
structure Held (τ : List (PassStep P)) (f : Feed) (p : P) (cursor reached : Nat)
    (rest done : List Nat) : Prop where
  poll : ∃ poll, PollOf τ p cursor poll ∧
    (poll.before.state.batch cursor).seqs = done.reverse ++ rest ∧
    (poll.before.state.batch cursor).cursor = reached
  loaded : cursor ≤ f.cursor
  nodup : (done.reverse ++ rest).Nodup
  handed : ∀ n ∈ done, n ∈ f.handed
  hands : done ≠ [] → ∃ st ∈ τ, Hands st p
  unsaved : ∀ st ∈ τ, ¬ Saves st p

/-- The steps `τ` have brought the pass `p` to its phase. -/
def Traced (τ : List (PassStep P)) (f : Feed) (p : P) : PassPhase → Prop
  | .before => (∀ st ∈ τ, ∀ cursor, ¬ Polls st p cursor) ∧ ∀ st ∈ τ, ¬ Saves st p
  | .loaded cursor => cursor ≤ f.cursor ∧
      (∀ st ∈ τ, ∀ cursor', ¬ Polls st p cursor') ∧ ∀ st ∈ τ, ¬ Saves st p
  | .holding cursor reached rest done => Held τ f p cursor reached rest done
  | .saved reached => reached ≤ f.cursor ∧
      ∀ st ∈ τ, ∀ cursor, Polls st p cursor → ∀ r ∈ st.before.state.rows, r.1 ≤ reached

theorem forall_mem_concat {Q : PassStep P → Prop} {τ : List (PassStep P)}
    (h : ∀ st' ∈ τ, Q st') (hst : Q st) : ∀ st' ∈ τ ++ [st], Q st' := by
  intro st' hst'
  rcases List.mem_append.1 hst' with hst' | hst'
  · exact h st' hst'
  · rwa [List.mem_singleton.1 hst']

section Frame

variable {τ : List (PassStep P)} {f f' : Feed} {p : P}

theorem PollOf.concat {cursor : Nat} {poll : PassStep P} (h : PollOf τ p cursor poll)
    (hpolls : ∀ cursor', ¬ Polls st p cursor') : PollOf (τ ++ [st]) p cursor poll where
  mem := List.mem_append_left _ h.mem
  polls := h.polls
  only := forall_mem_concat h.only fun cursor' hpoll => absurd hpoll (hpolls cursor')

/-- **Frame.** A phase outlasts the steps in which its pass neither polls nor saves. -/
theorem Traced.frame {l : PassPhase} (h : Traced τ f p l)
    (hpolls : ∀ cursor, ¬ Polls st p cursor) (hsaves : ¬ Saves st p) (hcursor : f.cursor ≤ f'.cursor)
    (hhanded : ∀ n ∈ f.handed, n ∈ f'.handed) : Traced (τ ++ [st]) f' p l := by
  cases l with
  | before => exact ⟨forall_mem_concat h.1 hpolls, forall_mem_concat h.2 hsaves⟩
  | loaded cursor =>
      obtain ⟨hle, hnone, hunsaved⟩ := h
      exact ⟨hle.trans hcursor, forall_mem_concat hnone hpolls, forall_mem_concat hunsaved hsaves⟩
  | holding cursor reached rest done =>
      obtain ⟨⟨poll, hpoll, hseqs, hreached⟩, hloaded, hnodup, hdone, hhands, hunsaved⟩ := h
      refine ⟨⟨poll, hpoll.concat hpolls, hseqs, hreached⟩, hloaded.trans hcursor, hnodup,
        fun n hn => hhanded n (hdone n hn), fun hne => ?_, forall_mem_concat hunsaved hsaves⟩
      obtain ⟨st', hst', hhand⟩ := hhands hne
      exact ⟨st', List.mem_append_left _ hst', hhand⟩
  | saved reached =>
      obtain ⟨hle, hread⟩ := h
      exact ⟨hle.trans hcursor,
        forall_mem_concat hread fun cursor hpoll => absurd hpoll (hpolls cursor)⟩

end Frame

/-! ### The invariant -/

/-- The items a pass has handed over and not saved. -/
def PassPhase.done : PassPhase → List Nat
  | .holding _ _ _ done => done
  | _ => []

/-- **The invariant.** What was handed over is behind the cursor or with a pass that has not saved
it, and what is behind the cursor was handed over. -/
structure Between (τ : List (PassStep P)) (f : Feed) (ls : P → Option PassPhase) : Prop where
  once : f.handed.Nodup
  behind : ∀ n ∈ f.handed, n ≤ f.cursor ∨ ∃ p l, ls p = some l ∧ n ∈ l.done
  passed : ∀ r ∈ f.rows, Notifiable r.2 → r.1 ≤ f.cursor → r.1 ∈ f.handed
  traced : ∀ p l, ls p = some l → Traced τ f p l

namespace Between

variable {τ : List (PassStep P)} {f f' : Feed} {ls ls' : P → Option PassPhase}

theorem initial (store : Store) (h : ∀ p, ls p = none ∨ ls p = some .before) :
    Between [] (Feed.initial store) ls where
  once := List.nodup_nil
  behind := by simp [Feed.initial]
  passed := by simp [Feed.initial]
  traced p l hl := by
    rcases h p with hp | hp <;> rw [hp] at hl
    · cases hl
    · obtain rfl := Option.some.inj hl
      exact ⟨List.forall_mem_nil _, List.forall_mem_nil _⟩

/-- The phases of the others are framed. -/
theorem traced_of (h : Between τ f ls) (hls : ∀ q, q ≠ st.pid → ls' q = ls q)
    (hcursor : f.cursor ≤ f'.cursor) (hhanded : ∀ n ∈ f.handed, n ∈ f'.handed)
    (hown : ∀ l, ls' st.pid = some l → Traced (τ ++ [st]) f' st.pid l) :
    ∀ p l, ls' p = some l → Traced (τ ++ [st]) f' p l := by
  intro p l hl
  by_cases hp : p = st.pid
  · subst hp
    exact hown l hl
  · rw [hls p hp] at hl
    refine (h.traced p l hl).frame ?_ ?_ hcursor hhanded
    · rintro cursor ⟨hpid, -⟩
      exact hp hpid.symm
    · rintro ⟨hpid, -⟩
      exact hp hpid.symm

end Between

/-! ### What a step does to the log -/

variable [DecidableEq P]

/-- The rows of a log have numbers of their own, below the next one. -/
structure Numbered (f : Feed) : Prop where
  nodup : ((f.rows ++ f.inFlight).map Prod.fst).Nodup
  drawn : ∀ r ∈ f.rows ++ f.inFlight, r.1 < f.nextSeq

/-- A visible row is found by its number. -/
theorem Numbered.unique {f : Feed} (h : Numbered f) {r r' : Nat × Event} (hr : r ∈ f.rows)
    (hr' : r' ∈ f.rows) (heq : r.1 = r'.1) : r = r' :=
  List.inj_on_of_nodup_map h.nodup (List.mem_append_left _ hr) (List.mem_append_left _ hr') heq

theorem Numbered.insertEvent {f : Feed} (h : Numbered f) (e : Event) :
    Numbered { f with nextSeq := f.nextSeq + 1, inFlight := f.inFlight ++ [(f.nextSeq, e)] } where
  nodup := by
    rw [← List.append_assoc, List.map_append]
    refine List.Nodup.append h.nodup (List.nodup_singleton _) ?_
    rintro n hn hn'
    obtain rfl := List.mem_singleton.1 hn'
    obtain ⟨r, hr, hseq⟩ := List.mem_map.1 hn
    exact absurd (hseq ▸ h.drawn r hr) (lt_irrefl _)
  drawn r hr := by
    rw [← List.append_assoc, List.mem_append, List.mem_singleton] at hr
    rcases hr with hr | rfl
    · exact (h.drawn r hr).trans (Nat.lt_succ_self _)
    · exact Nat.lt_succ_self _

theorem Numbered.commit {f : Feed} (h : Numbered f) (seq : Nat) :
    Numbered { f with
      rows := f.rows ++ f.inFlight.filter (·.1 = seq)
      inFlight := f.inFlight.filter (·.1 ≠ seq) } := by
  have hperm : (f.rows ++ f.inFlight.filter (·.1 = seq) ++ f.inFlight.filter (·.1 ≠ seq)).Perm
      (f.rows ++ f.inFlight) := by
    rw [List.append_assoc]
    refine List.Perm.append_left _ ?_
    simpa using List.filter_append_perm (fun r : Nat × Event => decide (r.1 = seq)) f.inFlight
  exact ⟨(hperm.map Prod.fst).nodup_iff.2 h.nodup, fun r hr => h.drawn r (hperm.mem_iff.1 hr)⟩

theorem Numbered.rollback {f : Feed} (h : Numbered f) (seq : Nat) :
    Numbered { f with inFlight := f.inFlight.filter (·.1 ≠ seq) } := by
  have hsub : (f.rows ++ f.inFlight.filter (·.1 ≠ seq)).Sublist (f.rows ++ f.inFlight) :=
    List.Sublist.append_left List.filter_sublist _
  exact ⟨(hsub.map Prod.fst).nodup h.nodup, fun r hr => h.drawn r (hsub.mem hr)⟩

theorem handed_of_notify {item : NotificationItem} {f f' : Feed} {v : feed.Res (.notify item)}
    (h : feed.exec (.notify item) f = .ok (v, f')) :
    ∃ outbox, { f with outbox, handed := f.handed ++ [item.seq] } = f' := by
  simp only [feed, FeedOp.exec] at h
  generalize f.outbox.notify item.kind.value item.text = sent at h
  cases sent with
  | error e => cases h
  | ok outbox => exact ⟨outbox, (Prod.mk.inj (Except.ok.inj h)).2⟩

/-- **What a step does.** It commits, saves the cursor or hands over an item, or it leaves what
is visible, the cursor and the items handed over as they were. -/
theorem feed_cases (hf : Fires st) :
    (∃ seq, st.op = .commit seq ∧
        st.after.state.rows =
          st.before.state.rows ++ st.before.state.inFlight.filter (·.1 = seq) ∧
        st.after.state.cursor = st.before.state.cursor ∧
        st.after.state.handed = st.before.state.handed) ∨
      (∃ seq, st.op = .saveCursor seq ∧ Saves st st.pid ∧
        st.after.state = { st.before.state with cursor := seq }) ∨
      (∃ item, st.op = .notify item ∧ st.after.state.rows = st.before.state.rows ∧
        st.after.state.cursor = st.before.state.cursor ∧
        st.after.state.handed = st.before.state.handed ++ [item.seq]) ∨
      (∀ p, ¬ Saves st p ∧ ¬ Hands st p) ∧ st.after.state.rows = st.before.state.rows ∧
        st.after.state.cursor = st.before.state.cursor ∧
        st.after.state.handed = st.before.state.handed := by
  obtain ⟨pid, op, out, before, after⟩ := st
  rcases hf.committed with ⟨v, hout, -, hexec⟩ | ⟨e, hout, habort⟩
  · cases op with
    | commit seq =>
        obtain ⟨-, hafter⟩ := Prod.mk.inj (Except.ok.inj hexec)
        exact .inl ⟨seq, rfl, hafter ▸ ⟨rfl, rfl, rfl⟩⟩
    | saveCursor seq =>
        obtain ⟨-, hafter⟩ := Prod.mk.inj (Except.ok.inj hexec)
        exact .inr (.inl ⟨seq, rfl, ⟨rfl, ⟨seq, rfl⟩, v, hout⟩, hafter.symm⟩)
    | notify item =>
        obtain ⟨outbox, hafter⟩ := handed_of_notify hexec
        exact .inr (.inr (.inl ⟨item, rfl, hafter ▸ ⟨rfl, rfl, rfl⟩⟩))
    | _ =>
        obtain ⟨-, hafter⟩ := Prod.mk.inj (Except.ok.inj hexec)
        refine .inr (.inr (.inr ⟨fun p => ⟨?_, ?_⟩, hafter ▸ ⟨rfl, rfl, rfl⟩⟩))
        · rintro ⟨-, ⟨seq, hop⟩, -⟩
          cases hop
        · rintro ⟨-, item, hop⟩
          cases hop
  · have hsaves : ∀ p, ¬ Saves (⟨pid, op, out, before, after⟩ : PassStep P) p := by
      rintro p ⟨-, -, v, hok⟩
      cases hout.symm.trans hok
    cases op with
    | notify item => exact .inr (.inr (.inl ⟨item, rfl, habort ▸ ⟨rfl, rfl, rfl⟩⟩))
    | _ =>
        refine .inr (.inr (.inr ⟨fun p => ⟨hsaves p, ?_⟩, habort ▸ ⟨rfl, rfl, rfl⟩⟩))
        rintro ⟨-, item, hop⟩
        cases hop

/-- Numbers stay what they are. -/
theorem Numbered.step (hf : Fires st) (h : Numbered st.before.state) :
    Numbered st.after.state := by
  obtain ⟨pid, op, out, before, after⟩ := st
  rcases hf.committed with ⟨v, hout, -, hexec⟩ | ⟨e, hout, habort⟩
  · cases op with
    | insertEvent e =>
        obtain ⟨-, hafter⟩ := Prod.mk.inj (Except.ok.inj hexec)
        exact hafter ▸ h.insertEvent e
    | commit seq =>
        obtain ⟨-, hafter⟩ := Prod.mk.inj (Except.ok.inj hexec)
        exact hafter ▸ h.commit seq
    | rollback seq =>
        obtain ⟨-, hafter⟩ := Prod.mk.inj (Except.ok.inj hexec)
        exact hafter ▸ h.rollback seq
    | notify item =>
        obtain ⟨outbox, hafter⟩ := handed_of_notify hexec
        exact hafter ▸ ⟨h.nodup, h.drawn⟩
    | _ =>
        obtain ⟨-, hafter⟩ := Prod.mk.inj (Except.ok.inj hexec)
        exact hafter ▸ ⟨h.nodup, h.drawn⟩
  · cases op with
    | _ => exact habort ▸ ⟨h.nodup, h.drawn⟩

namespace Between

variable {τ : List (PassStep P)} {f f' : Feed} {ls : P → Option PassPhase}

/-- A step that keeps the phases. -/
theorem quiet (h : Between τ st.before.state ls) (hf : Fires st) (hin : InTime τ st)
    (hpolls : ∀ p cursor, ¬ Polls st p cursor) (hsaves : ∀ p, ¬ Saves st p)
    (hhands : ∀ p, ¬ Hands st p) : Between (τ ++ [st]) st.after.state ls := by
  have hkeep : ∀ f', f'.cursor = st.before.state.cursor → f'.handed = st.before.state.handed →
      (∀ r ∈ f'.rows, Notifiable r.2 → r ∈ st.before.state.rows ∨ st.before.state.cursor < r.1) →
      Between (τ ++ [st]) f' ls := by
    intro f' hcursor hhanded hrows
    refine ⟨hhanded ▸ h.once, fun n hn => ?_, fun r hr hnote hle => ?_, fun p l hl => ?_⟩
    · rw [hcursor]
      exact h.behind n (hhanded ▸ hn)
    · rw [hcursor] at hle
      rw [hhanded]
      exact h.passed r ((hrows r hr hnote).resolve_right (Nat.not_lt_of_le hle)) hnote hle
    · exact (h.traced p l hl).frame (hpolls p) (hsaves p) (le_of_eq hcursor.symm)
        fun n hn => hhanded ▸ hn
  rcases feed_cases hf with ⟨seq, hop, hrows, hcursor, hhanded⟩ | ⟨seq, -, hsave, -⟩ |
    ⟨item, hop, -⟩ | ⟨-, hrows, hcursor, hhanded⟩
  · refine hkeep _ hcursor hhanded fun r hr hnote => ?_
    rw [hrows] at hr
    refine (List.mem_append.1 hr).imp_right fun hr => ?_
    obtain ⟨hflight, hseq⟩ := List.mem_filter.1 hr
    simp only [InTime, hop] at hin
    have hseq : r.1 = seq := by simpa using hseq
    exact hseq ▸ hin r hflight hseq hnote
  · exact absurd hsave (hsaves _)
  · exact absurd ⟨rfl, item, hop⟩ (hhands st.pid)
  · exact hkeep _ hcursor hhanded fun r hr _ => .inl (hrows ▸ hr)

/-- A pass goes on, with the items it has handed over. -/
theorem turn (h : Between τ f ls) {l l' : PassPhase} (hp : ls st.pid = some l)
    (hrows : f'.rows = f.rows) (hcursor : f'.cursor = f.cursor) (hhanded : f'.handed = f.handed)
    (hdone : ∀ n ∈ l.done, n ∈ l'.done) (hown : Traced (τ ++ [st]) f' st.pid l') :
    Between (τ ++ [st]) f' (Function.update ls st.pid (some l')) where
  once := hhanded ▸ h.once
  behind n hn := by
    rw [hcursor]
    refine (h.behind n (hhanded ▸ hn)).imp_right ?_
    rintro ⟨q, k, hq, hmem⟩
    by_cases hqp : q = st.pid
    · subst hqp
      obtain rfl : l = k := Option.some.inj (hp.symm.trans hq)
      exact ⟨st.pid, l', Function.update_self .., hdone n hmem⟩
    · exact ⟨q, k, (Function.update_of_ne hqp _ _).trans hq, hmem⟩
  passed r hr hnote hle := by
    rw [hhanded]
    exact h.passed r (hrows ▸ hr) hnote (hcursor ▸ hle)
  traced := by
    refine h.traced_of (fun q hq => Function.update_of_ne hq _ _) (le_of_eq hcursor.symm)
      (fun n hn => hhanded ▸ hn) fun k hk => ?_
    rw [Function.update_self] at hk
    exact Option.some.inj hk ▸ hown

/-- **A pass hands over its next item.** -/
theorem hand (h : Between τ f ls) {cursor reached : Nat} {rest done : List Nat}
    {item : NotificationItem} (hp : ls st.pid = some (.holding cursor reached rest done))
    (hop : st.op = .notify item) (hhead : rest.head? = some item.seq)
    (hpast : f.cursor < item.seq) (halone : ∀ q, q ≠ st.pid → ¬ Unsaved τ q)
    (hrows : f'.rows = f.rows) (hcursor : f'.cursor = f.cursor)
    (hhanded : f'.handed = f.handed ++ [item.seq]) :
    Between (τ ++ [st]) f' (Function.update ls st.pid
      (some (.holding cursor reached rest.tail (item.seq :: done)))) := by
  have hheld : Held τ f st.pid cursor reached rest done := h.traced _ _ hp
  have hrest : rest = item.seq :: rest.tail := (List.cons_head?_tail hhead).symm
  have hnew : item.seq ∉ f.handed := by
    intro hmem
    rcases h.behind _ hmem with hle | ⟨q, l, hq, hdone⟩
    · exact absurd hle (Nat.not_le_of_lt hpast)
    · by_cases hqp : q = st.pid
      · subst hqp
        obtain rfl : _ = l := Option.some.inj (hp.symm.trans hq)
        refine List.disjoint_of_nodup_append hheld.nodup (List.mem_reverse.2 hdone) ?_
        rw [hrest]
        exact List.mem_cons_self
      · cases l with
        | holding cursor' reached' rest' done' =>
            have hheld' : Held τ f q cursor' reached' rest' done' := h.traced _ _ hq
            exact halone q hqp ⟨hheld'.hands (List.ne_nil_of_mem hdone), hheld'.unsaved⟩
        | _ => cases hdone
  have hmono : ∀ n ∈ f.handed, n ∈ f'.handed := by
    intro n hn
    rw [hhanded]
    exact List.mem_append_left _ hn
  refine ⟨?_, fun n hn => ?_, fun r hr hnote hle => ?_, ?_⟩
  · rw [hhanded]
    exact List.concat_eq_append ▸ h.once.concat hnew
  · rw [hcursor]
    rw [hhanded, List.mem_append, List.mem_singleton] at hn
    rcases hn with hn | rfl
    · refine (h.behind n hn).imp_right ?_
      rintro ⟨q, l, hq, hmem⟩
      by_cases hqp : q = st.pid
      · subst hqp
        obtain rfl : _ = l := Option.some.inj (hp.symm.trans hq)
        exact ⟨st.pid, _, Function.update_self .., List.mem_cons_of_mem _ hmem⟩
      · exact ⟨q, l, (Function.update_of_ne hqp _ _).trans hq, hmem⟩
    · exact .inr ⟨st.pid, _, Function.update_self .., List.mem_cons_self⟩
  · exact hmono _ (h.passed r (hrows ▸ hr) hnote (hcursor ▸ hle))
  · refine h.traced_of (fun q hq => Function.update_of_ne hq _ _) (le_of_eq hcursor.symm) hmono
      fun l hl => ?_
    rw [Function.update_self] at hl
    obtain rfl := Option.some.inj hl
    have hpolls : ∀ cursor', ¬ Polls st st.pid cursor' := by
      rintro cursor' ⟨-, hpoll, -⟩
      rw [hop] at hpoll
      cases hpoll
    have hsaves : ¬ Saves st st.pid := by
      rintro ⟨-, ⟨seq, hsave⟩, -⟩
      rw [hop] at hsave
      cases hsave
    have hsame : (item.seq :: done).reverse ++ rest.tail = done.reverse ++ rest := by
      rw [List.reverse_cons, List.append_assoc, List.singleton_append, ← hrest]
    obtain ⟨⟨poll, hpoll, hseqs, hreached⟩, hloaded, hnodup, hdone, -, hunsaved⟩ := hheld
    refine ⟨⟨poll, hpoll.concat hpolls, hseqs.trans hsame.symm, hreached⟩, hcursor ▸ hloaded,
      hsame ▸ hnodup, fun n hn => ?_, fun _ => ?_, forall_mem_concat hunsaved hsaves⟩
    · rw [hhanded, List.mem_append, List.mem_singleton]
      exact (List.mem_cons.1 hn).symm.imp_left (hdone n)
    · exact ⟨st, List.mem_append_right _ (List.mem_singleton_self st), rfl, item, hop⟩

/-- **A pass that has handed over its items saves the cursor.** -/
theorem save (h : Between τ f ls) {cursor reached : Nat} {done : List Nat}
    (hp : ls st.pid = some (.holding cursor reached [] done)) (hop : st.op = .saveCursor reached)
    (hle : f.cursor ≤ reached) (hnum : Numbered f)
    (hgrown : ∀ poll ∈ τ, ∀ r ∈ poll.before.state.rows, r ∈ f.rows)
    (hseen : ∀ poll ∈ τ, (∃ cursor', Polls poll st.pid cursor') → ∀ r ∈ f.rows, Notifiable r.2 →
      r.1 ∉ poll.before.state.rows.map Prod.fst → ∀ r' ∈ poll.before.state.rows, r'.1 < r.1) :
    Between (τ ++ [st]) { f with cursor := reached }
      (Function.update ls st.pid (some (.saved reached))) := by
  obtain ⟨⟨poll, hpoll, hseqs, hreached⟩, hloaded, hnodup, hdone, -, hunsaved⟩ :
    Held τ f st.pid cursor reached [] done := h.traced _ _ hp
  rw [List.append_nil] at hseqs
  obtain ⟨hfrom, hall, hleast⟩ := @cursor_poll poll.before.state.store poll.before.state.brief
    poll.before.state.rows cursor
  rw [hreached] at hfrom hall hleast
  have hwithin : ∀ n ∈ done, n ≤ reached := by
    intro n hn
    rw [← List.mem_reverse, ← hseqs] at hn
    obtain ⟨r, hr, rfl, -, -⟩ := mem_seqs_poll.1 hn
    exact hall r hr
  refine ⟨h.once, fun n hn => ?_, fun r hr hnote hreach => ?_, ?_⟩
  · rcases h.behind n hn with hold | ⟨q, l, hq, hmem⟩
    · exact .inl (hold.trans hle)
    · by_cases hqp : q = st.pid
      · subst hqp
        obtain rfl : _ = l := Option.some.inj (hp.symm.trans hq)
        exact .inl (hwithin n hmem)
      · exact .inr ⟨q, l, (Function.update_of_ne hqp _ _).trans hq, hmem⟩
  · by_cases hold : r.1 ≤ f.cursor
    · exact h.passed r hr hnote hold
    · have hreach : r.1 ≤ reached := hreach
      have hpast : cursor < r.1 := hloaded.trans_lt (Nat.lt_of_not_le hold)
      have hread : r.1 ∈ poll.before.state.rows.map Prod.fst := by
        by_contra hunread
        have hbelow := hseen poll hpoll.mem ⟨cursor, hpoll.polls⟩ r hr hnote hunread
        have hbound : reached ≤ r.1 - 1 := hleast _ (Nat.le_sub_one_of_lt hpast)
          fun r' hr' => Nat.le_sub_one_of_lt (hbelow r' hr')
        omega
      obtain ⟨r', hr', hseq⟩ := List.mem_map.1 hread
      obtain rfl : r' = r := hnum.unique (hgrown poll hpoll.mem r' hr') hr hseq
      refine hdone _ (List.mem_reverse.1 ?_)
      rw [← hseqs]
      exact mem_seqs_poll.2 ⟨r', hr', rfl, hnote, hpast⟩
  · refine h.traced_of (fun q hq => Function.update_of_ne hq _ _) hle (fun n hn => hn) fun l hl => ?_
    rw [Function.update_self] at hl
    obtain rfl := Option.some.inj hl
    refine ⟨le_refl _, forall_mem_concat (fun st' hst' cursor' hpoll' => ?_) ?_⟩
    · obtain rfl := hpoll.only st' hst' cursor' hpoll'
      exact hall
    · rintro cursor' ⟨-, hpoll', -⟩
      rw [hop] at hpoll'
      cases hpoll'

/-- A statement that is no poll, no save and no hand-over. -/
theorem quiet_of_op (h : Between τ st.before.state ls) (hf : Fires st) (hin : InTime τ st)
    (hpoll : ∀ cursor, st.op ≠ .poll cursor) (hsave : ∀ seq, st.op ≠ .saveCursor seq)
    (hnotify : ∀ item, st.op ≠ .notify item) : Between (τ ++ [st]) st.after.state ls := by
  refine h.quiet hf hin ?_ ?_ ?_
  · rintro p cursor ⟨-, hop, -⟩
    exact hpoll cursor hop
  · rintro p ⟨-, ⟨seq, hop⟩, -⟩
    exact hsave seq hop
  · rintro p ⟨-, item, hop⟩
    exact hnotify item hop

/-- A poll or a save that fails. -/
theorem quiet_of_error (h : Between τ st.before.state ls) (hf : Fires st) (hin : InTime τ st)
    {e : Exn} (hout : st.out = .error e) (hnotify : ∀ item, st.op ≠ .notify item) :
    Between (τ ++ [st]) st.after.state ls := by
  refine h.quiet hf hin ?_ ?_ ?_
  · rintro p cursor ⟨-, -, v, hok⟩
    cases hout.symm.trans hok
  · rintro p ⟨-, -, v, hok⟩
    cases hout.symm.trans hok
  · rintro p ⟨-, item, hop⟩
    exact hnotify item hop

section Phases

variable {pid : P} {op : FeedOp} {out : Except Exn op.Res} {before after : Config feed P PassReport}

/-- A statement after which the phase is what it was. -/
theorem stay (h : Between (τ ++ [⟨pid, op, out, before, after⟩]) after.state ls) {l : PassPhase}
    (hp : ls pid = some l) :
    Between (τ ++ [⟨pid, op, out, before, after⟩]) after.state
      (Function.update ls pid (some l)) := by
  rw [← hp, Function.update_eq_self]
  exact h

theorem step_before (h : Between τ before.state ls)
    (hf : Fires (⟨pid, op, out, before, after⟩ : PassStep P))
    (hin : InTime τ ⟨pid, op, out, before, after⟩) (hp : ls pid = some .before)
    (hallow : PassPhase.before.allows op) :
    Between (τ ++ [⟨pid, op, out, before, after⟩]) after.state
      (Function.update ls pid (some (PassPhase.before.next op out))) := by
  have hquiet : (∀ cursor, op ≠ .poll cursor) →
      Between (τ ++ [⟨pid, op, out, before, after⟩]) after.state ls := fun hpoll =>
    h.quiet_of_op hf hin hpoll (by rcases hallow with rfl | rfl <;> rintro _ ⟨⟩)
      (by rcases hallow with rfl | rfl <;> rintro _ ⟨⟩)
  rcases hallow with rfl | rfl
  · exact stay (hquiet (by rintro _ ⟨⟩)) hp
  · cases out with
    | error e => exact stay (hquiet (by rintro _ ⟨⟩)) hp
    | ok cursor =>
        obtain ⟨hnone, hunsaved⟩ := h.traced pid _ hp
        rcases hf.committed with ⟨v, hv, -, hexec⟩ | ⟨e, he, -⟩
        · obtain rfl : cursor = v := Except.ok.inj hv
          obtain ⟨hcursor, hafter⟩ := Prod.mk.inj (Except.ok.inj hexec)
          have hafter : before.state = after.state := hafter
          rw [← hafter]
          refine h.turn hp rfl rfl rfl (fun n hn => hn) ⟨le_of_eq hcursor.symm, ?_, ?_⟩
          · refine forall_mem_concat hnone ?_
            rintro cursor' ⟨-, hop, -⟩
            cases hop
          · refine forall_mem_concat hunsaved ?_
            rintro ⟨-, ⟨seq, hop⟩, -⟩
            cases hop
        · cases he

theorem step_loaded (h : Between τ before.state ls)
    (hf : Fires (⟨pid, op, out, before, after⟩ : PassStep P)) (hnum : Numbered before.state)
    (hin : InTime τ ⟨pid, op, out, before, after⟩) {cursor : Nat}
    (hp : ls pid = some (.loaded cursor)) (hallow : (PassPhase.loaded cursor).allows op) :
    Between (τ ++ [⟨pid, op, out, before, after⟩]) after.state
      (Function.update ls pid (some ((PassPhase.loaded cursor).next op out))) := by
  obtain rfl : op = .poll cursor := hallow
  cases out with
  | error e => exact stay (h.quiet_of_error hf hin rfl (by rintro _ ⟨⟩)) hp
  | ok batch =>
      obtain ⟨hle, hnone, hunsaved⟩ := h.traced pid _ hp
      rcases hf.committed with ⟨v, hv, -, hexec⟩ | ⟨e, he, -⟩
      · obtain rfl : batch = v := Except.ok.inj hv
        obtain ⟨hbatch, hafter⟩ := Prod.mk.inj (Except.ok.inj hexec)
        have hbatch : before.state.batch cursor = batch := hbatch
        have hafter : before.state = after.state := hafter
        have hrows : (before.state.rows.map Prod.fst).Nodup :=
          ((List.sublist_append_left _ _).map Prod.fst).nodup hnum.nodup
        rw [← hafter]
        refine h.turn hp rfl rfl rfl (fun n hn => hn)
          { poll := ⟨⟨pid, .poll cursor, .ok batch, before, after⟩, ⟨?_, ?_, ?_⟩, ?_, ?_⟩
            loaded := hle
            nodup := ?_
            handed := List.forall_mem_nil _
            hands := fun hne => absurd rfl hne
            unsaved := forall_mem_concat hunsaved ?_ }
        · exact List.mem_append_right _ (List.mem_singleton_self _)
        · exact ⟨rfl, rfl, batch, rfl⟩
        · exact forall_mem_concat (fun st hst cursor' hpoll => absurd hpoll (hnone st hst cursor'))
            fun _ _ => rfl
        · exact congrArg NotificationBatch.seqs hbatch
        · exact congrArg NotificationBatch.cursor hbatch
        · exact hbatch ▸ nodup_seqs_poll hrows
        · rintro ⟨-, ⟨seq, hop⟩, -⟩
          cases hop
      · cases he

theorem step_holding (h : Between τ before.state ls)
    (hf : Fires (⟨pid, op, out, before, after⟩ : PassStep P))
    (hnum : Numbered before.state)
    (hgrown : ∀ poll ∈ τ, ∀ r ∈ poll.before.state.rows, r ∈ before.state.rows)
    (hin : InTime τ ⟨pid, op, out, before, after⟩) {cursor reached : Nat} {rest done : List Nat}
    (hp : ls pid = some (.holding cursor reached rest done))
    (hallow : (PassPhase.holding cursor reached rest done).allows op) :
    Between (τ ++ [⟨pid, op, out, before, after⟩]) after.state
      (Function.update ls pid (some ((PassPhase.holding cursor reached rest done).next op out))) := by
  rcases hallow with ⟨brief, rfl⟩ | ⟨item, rfl, hhead⟩ | ⟨rfl, rfl | rfl⟩
  · exact stay (h.quiet_of_op hf hin (by rintro _ ⟨⟩) (by rintro _ ⟨⟩) (by rintro _ ⟨⟩)) hp
  · rcases feed_cases hf with ⟨seq, hop, -⟩ | ⟨seq, hop, -⟩ | ⟨item', hop, hrows, hcursor, hhanded⟩ |
      ⟨hnot, -⟩
    · cases hop
    · cases hop
    · obtain rfl : item = item' := FeedOp.notify.inj hop
      obtain ⟨hpast, halone⟩ := hin
      exact h.hand hp rfl hhead hpast halone hrows hcursor hhanded
    · exact absurd ⟨rfl, item, rfl⟩ (hnot pid).2
  · exact stay (h.quiet_of_op hf hin (by rintro _ ⟨⟩) (by rintro _ ⟨⟩) (by rintro _ ⟨⟩)) hp
  · cases out with
    | error e => exact stay (h.quiet_of_error hf hin rfl (by rintro _ ⟨⟩)) hp
    | ok v =>
        obtain ⟨hle, hseen⟩ := hin
        have hsave := h.save hp rfl hle hnum hgrown hseen
        rcases hf.committed with ⟨v', hv, -, hexec⟩ | ⟨e, he, -⟩
        · obtain ⟨-, hafter⟩ := Prod.mk.inj (Except.ok.inj hexec)
          have hafter : { before.state with cursor := reached } = after.state := hafter
          exact hafter ▸ hsave
        · cases he

theorem step_saved (h : Between τ before.state ls)
    (hf : Fires (⟨pid, op, out, before, after⟩ : PassStep P))
    (hin : InTime τ ⟨pid, op, out, before, after⟩) {reached : Nat}
    (hp : ls pid = some (.saved reached)) (hallow : (PassPhase.saved reached).allows op) :
    Between (τ ++ [⟨pid, op, out, before, after⟩]) after.state
      (Function.update ls pid (some ((PassPhase.saved reached).next op out))) := by
  obtain rfl : op = .pendingCount := hallow
  exact stay (h.quiet_of_op hf hin (by rintro _ ⟨⟩) (by rintro _ ⟨⟩) (by rintro _ ⟨⟩)) hp

end Phases

/-- **Step.** What a step in time preserves. -/
theorem step (h : Between τ st.before.state ls) (hf : Fires st) (hnum : Numbered st.before.state)
    (hgrown : ∀ poll ∈ τ, ∀ r ∈ poll.before.state.rows, r ∈ st.before.state.rows)
    (hin : InTime τ st) (hallow : (passOutline.orOnly Writes).allows (ls st.pid) st.op) :
    Between (τ ++ [st]) st.after.state ((passOutline.orOnly Writes).advance ls st) := by
  obtain ⟨pid, op, out, before, after⟩ := st
  unfold Outline.advance
  change Between _ _ (Function.update ls pid ((ls pid).map (passOutline.next · op out)))
  have hsame : ∀ l, ls pid = l → Function.update ls pid l = ls := by
    rintro _ rfl
    exact Function.update_eq_self ..
  cases hp : ls pid with
  | none =>
      rw [Option.map_none, hsame _ hp]
      change (ls pid).elim (Writes op) _ at hallow
      rw [hp] at hallow
      rcases hallow with ⟨e, rfl⟩ | ⟨seq, rfl⟩ | ⟨seq, rfl⟩ | ⟨store, rfl⟩ <;>
        exact h.quiet_of_op hf hin (by rintro _ ⟨⟩) (by rintro _ ⟨⟩) (by rintro _ ⟨⟩)
  | some l =>
      change (ls pid).elim (Writes op) _ at hallow
      rw [hp] at hallow
      cases l with
      | before => exact h.step_before hf hin hp hallow
      | loaded cursor => exact h.step_loaded hf hnum hin hp hallow
      | holding cursor reached rest done => exact h.step_holding hf hnum hgrown hin hp hallow
      | saved reached => exact h.step_saved hf hin hp hallow

end Between

/-! ### Runs -/

variable {c c' : Config feed P PassReport} {τ : List (PassStep P)}

/-- A row that is visible stays so. -/
theorem rows_step {st : PassStep P} (hf : Fires st) :
    ∀ r ∈ st.before.state.rows, r ∈ st.after.state.rows := by
  intro r hr
  rcases feed_cases hf with ⟨seq, -, hrows, -⟩ | ⟨seq, -, -, hafter⟩ | ⟨item, -, hrows, -⟩ |
    ⟨-, hrows, -⟩
  · rw [hrows]
    exact List.mem_append_left _ hr
  · rw [hafter]
    exact hr
  · rw [hrows]
    exact hr
  · rw [hrows]
    exact hr

theorem rows_reach (h : Reach c τ c') : ∀ r ∈ c.state.rows, r ∈ c'.state.rows :=
  h.induct (motive := fun _ c' => ∀ r ∈ c.state.rows, r ∈ c'.state.rows) (fun _ hr => hr)
    fun _ _ _ hf ih r hr => rows_step hf r (ih r hr)

/-- What was visible at a step of a run is visible after the run. -/
theorem rows_of_mem (h : Reach c τ c') {st : PassStep P} (hst : st ∈ τ) :
    ∀ r ∈ st.before.state.rows, r ∈ c'.state.rows := by
  obtain ⟨τ₁, τ₂, rfl⟩ := List.append_of_mem hst
  obtain ⟨hf, -, hrest⟩ := h.split_at
  exact fun r hr => rows_reach hrest r (rows_step hf r hr)

/-- The phases at the start: a pass has not begun, a writer has none. -/
def startPass (passes : P → Option (Option String)) (p : P) : Option PassPhase :=
  (passes p).map fun _ => .before

/-- Passes, each with the brief its prep cache will show, and writers. -/
def spokesmen (store : Store) (passes : P → Option (Option String))
    (writers : P → Feeding PassReport) : Config feed P PassReport :=
  ⟨Feed.initial store, fun p => (passes p).elim (writers p) runNotifierPass⟩

variable {store : Store} {passes : P → Option (Option String)} {writers : P → Feeding PassReport}

omit [DecidableEq P] in
theorem holds_spokesmen (hwriters : ∀ p, (writers p).Only Writes) (p : P) :
    (passOutline.orOnly Writes).Holds (startPass passes p)
      ((spokesmen store passes writers).pool p) := by
  simp only [startPass, spokesmen]
  cases passes p with
  | none => exact Outline.holds_orOnly_none _ (hwriters p)
  | some brief => exact Outline.holds_orOnly_some (holds_runNotifierPass brief)

/-- **Run.** What a run in time preserves. -/
theorem between_reach (hwriters : ∀ p, (writers p).Only Writes)
    (h : Reach (spokesmen store passes writers) τ c') (htimely : Timely τ) :
    Numbered c'.state ∧ Between τ c'.state
      ((passOutline.orOnly Writes).track (startPass passes) τ) := by
  refine h.induct (motive := fun τ c' => Timely τ → Numbered c'.state ∧ Between τ c'.state
    ((passOutline.orOnly Writes).track (startPass passes) τ)) ?_ ?_ htimely
  · intro _
    refine ⟨⟨List.nodup_nil, List.forall_mem_nil _⟩, Between.initial store fun p => ?_⟩
    rw [Outline.track_nil, startPass]
    cases passes p with
    | none => exact .inl rfl
    | some brief => exact .inr rfl
  · intro τ₁ st hreach hf ih htimely
    obtain ⟨hbefore, hin⟩ := timelyAfter_concat.1 htimely
    obtain ⟨hnum, hbetween⟩ := ih hbefore
    obtain ⟨hallow, -⟩ :=
      Outline.holds_step hf (Outline.holds_reach hreach (holds_spokesmen hwriters))
    refine ⟨hnum.step hf, ?_⟩
    rw [Outline.track_concat]
    exact hbetween.step hf hnum (fun poll hpoll => rows_of_mem hreach hpoll) hin hallow

/-- **The notifier in runs in time.** -/
theorem exactly_once (hwriters : ∀ p, (writers p).Only Writes)
    (h : Reach (spokesmen store passes writers) τ c') (htimely : Timely τ) :
    ExactlyOnce τ c' := by
  obtain ⟨-, hbetween⟩ := between_reach hwriters h htimely
  refine ⟨hbetween.once, hbetween.passed, ?_⟩
  intro st hst p cursor report hpolls hret r hr hnote
  have hrow : r ∈ c'.state.rows := rows_of_mem h hst r hr
  have hholds := Outline.holds_reach h (holds_spokesmen hwriters) p
  have hsome := Outline.track_orOnly_isSome passOutline (A := Writes) (startPass passes) τ p
  rw [hret] at hholds
  cases hl : (passOutline.orOnly Writes).track (startPass passes) τ p with
  | none =>
      rw [hl, startPass, Option.isSome_map] at hsome
      have hwriter : ((spokesmen store passes writers).pool p).Only Writes := by
        simp only [spokesmen]
        cases hp : passes p with
        | none => exact hwriters p
        | some brief => rw [hp] at hsome; cases hsome
      have hwrites := (h.only hwriter).2 st hst hpolls.1
      rw [hpolls.2.1] at hwrites
      rcases hwrites with ⟨_, hop⟩ | ⟨_, hop⟩ | ⟨_, hop⟩ | ⟨_, hop⟩ <;> cases hop
  | some l =>
      rw [hl] at hholds
      have hends : l.ends (.ok report) := hholds
      have htraced := hbetween.traced p l hl
      cases l with
      | before => exact hends.elim
      | loaded cursor' => exact hends.elim
      | holding cursor' reached rest done =>
          obtain ⟨rfl, rfl⟩ := hends
          obtain ⟨⟨poll, hpoll, hseqs, -⟩, hloaded, -, hdone, -⟩ := htraced
          obtain rfl := hpoll.only st hst cursor hpolls
          by_cases hpast : reached < r.1
          · refine hdone _ (List.mem_reverse.1 ?_)
            rw [← List.append_nil done.reverse, ← hseqs]
            exact mem_seqs_poll.2 ⟨r, hr, rfl, hnote, hpast⟩
          · exact hbetween.passed r hrow hnote ((Nat.le_of_not_lt hpast).trans hloaded)
      | saved reached =>
          obtain ⟨hle, hread⟩ := htraced
          exact hbetween.passed r hrow hnote ((hread st hst cursor hpolls r hr).trans hle)

end Runs

/-! ### Three runs -/

/-- A task of a workstream is given up. -/
def exhausted : Event :=
  ⟨0, none, ⟨"research", by decide⟩, .taskFailedExhausted .abandoned 3 3⟩

/-- A transaction with one event. -/
def appendEvent (e : Event) : Feeding PassReport := do
  let seq ← feedStmt (.insertEvent e)
  feedStmt (.commit seq)
  return ⟨0, 0, 0, 0⟩

theorem only_appendEvent (e : Event) : (appendEvent e).Only Writes := by
  refine .call (.inl ⟨e, rfl⟩) fun r => ?_
  cases r with
  | error e => exact .throw e
  | ok seq =>
      refine .call (.inr (.inl ⟨seq, rfl⟩)) fun r => ?_
      cases r with
      | error e => exact .throw e
      | ok v => exact .ret _

/-- Two writers, the background loop and a request to poll. -/
inductive Actor where
  | first
  | second
  | loop
  | request
  deriving DecidableEq

theorem mem_actors (a : Actor) : a ∈ [Actor.first, .second, .loop, .request] := by
  cases a <;> simp

instance : Fintype Actor := .ofList _ mem_actors

/-- The writers, and the passes. -/
def Actor.pass : Actor → Option (Option String)
  | .loop | .request => some none
  | .first | .second => none

/-- The four of them. -/
def twoPasses : Config feed Actor PassReport :=
  spokesmen (Store.initial 0) Actor.pass fun _ => appendEvent exhausted

/-- Turns of one process. -/
def passTurns (a : Actor) (n : Nat) : List (Choice Actor Exn) :=
  List.replicate n (a, none)

/-- The first event commits after a pass has saved the cursor past it. -/
def lateCommit : List (Choice Actor Exn) :=
  passTurns .first 1 ++ passTurns .second 2 ++ passTurns .loop 7 ++ passTurns .first 1

/-- A pass crashes between its item and the cursor, and another one follows. -/
def crashedPass : List (Choice Actor Exn) :=
  passTurns .first 2 ++ passTurns .loop 5 ++ passTurns .request 7

/-- Events and passes in order. -/
def orderly : List (Choice Actor Exn) :=
  passTurns .first 2 ++ passTurns .loop 7 ++ passTurns .second 2 ++ passTurns .request 7

/-- **An event is lost, and one is handed over twice.** -/
theorem late_commit_lost :
    (Reach twoPasses (twoPasses.trace lateCommit) (twoPasses.run lateCommit) ∧
      ¬ ExactlyOnce (twoPasses.trace lateCommit) (twoPasses.run lateCommit)) ∧
    Reach twoPasses (twoPasses.trace crashedPass) (twoPasses.run crashedPass) ∧
      ¬ ExactlyOnce (twoPasses.trace crashedPass) (twoPasses.run crashedPass) := by
  refine ⟨⟨Reach.of_run _ _, fun hexact => ?_⟩, Reach.of_run _ _, fun hexact => ?_⟩
  · have hrows : (twoPasses.run lateCommit).state.rows = [(2, exhausted), (1, exhausted)] := by rfl
    have hcursor : 1 ≤ (twoPasses.run lateCommit).state.cursor := by decide
    have hlost : 1 ∉ (twoPasses.run lateCommit).state.handed := by decide
    have hnote : Notifiable exhausted := by decide
    refine hlost (hexact.behind (1, exhausted) ?_ hnote hcursor)
    rw [hrows]
    exact List.mem_cons_of_mem _ (List.mem_singleton_self _)
  · have htwice : ¬ (twoPasses.run crashedPass).state.handed.Nodup := by decide
    exact htwice hexact.once

/-- Two passes one after the other. -/
theorem orderly_exactly_once :
    ExactlyOnce (twoPasses.trace orderly) (twoPasses.run orderly) :=
  exactly_once (fun _ => only_appendEvent exhausted) (Reach.of_run twoPasses orderly)
    (by decide)

end AiStudio.Spokesman
