import AiStudio.Runtime.Scheduler

/-!
# Stuck signals that commit out of order

What becomes of the `task.stuck` signals under `dispatch_replans`. A turn reads the first 200
signals from 1000 numbers behind its cursor on.

- `covered_of_reach`: a signal that commits before its lookback is drawn is never left behind.
- `answered_of_reach`: where no lookback of numbers holds as many signals as a turn reads, every one
  of them gets its replan.
- `stalled_of_full`: where the lookback behind the cursor does, no later signal ever gets one.
-/

set_option autoImplicit false

namespace AiStudio.Runtime

open AiStudio.Data AiStudio.Concurrency

/-! ## No signal is left behind -/

section Coverage

variable {P : Type} [DecidableEq P] {c : Scheduler} {p₀ : P} {c₀ c' : Config scheduling P ℕ}
  {τ : List (Step scheduling P ℕ)} {st : Step scheduling P ℕ} {l l' : Dispatch}
  {s s' : Store × Signals} {made : Option NamedSignal}

/-- A signal commits before the lookback past its number is drawn. -/
def Timely (st : Step scheduling P ℕ) : Prop :=
  ∀ seq, st.op = .inr (.commit seq) → st.before.state.2.drawn < seq + defaultLookback

/-- Every committed signal of a task is answered, or in the window of the next read, or still to be
looked at by the dispatch that is under way. -/
structure InReach (l : Dispatch) (s : Store × Signals) : Prop where
  order : l.cursor ≤ l.ahead
  drawn : l.ahead ≤ s.2.drawn
  within : ∀ x ∈ l.rest, l.cursor < x.1 + defaultLookback
  covered : ∀ r ∈ s.2.committed, ∀ id, r.2.taskId = some id →
    s.1.HasReplan id ∨ l.ahead < r.1 + defaultLookback ∨ (r.1, id, r.2.workstream) ∈ l.rest

namespace InReach

theorem settle (h : InReach l s) : InReach l.settle s := by
  unfold Dispatch.settle
  split
  · rename_i hrest
    refine ⟨le_refl _, h.drawn, fun x hx => ?_, h.covered⟩
    have hx' : x ∈ l.rest := hx
    rw [hrest] at hx'
    cases hx'
  · exact h

/-- A dispatch that fails leaves what it has not looked at in the window. -/
theorem abandon (h : InReach l s) : InReach l.abandon s := by
  refine ⟨le_refl _, h.order.trans h.drawn, (fun x hx => by cases hx), fun r hr id hid => ?_⟩
  rcases h.covered r hr id hid with hreplan | hahead | hrest
  · exact .inl hreplan
  · exact .inr (.inl (h.order.trans_lt hahead))
  · exact .inr (.inl (h.within _ hrest))

/-- The first signal is answered. -/
theorem pass {x : NamedSignal} {rest : List NamedSignal} (h : InReach l s) (first : l.rest = x :: rest)
    (has : s.1.HasReplan x.2.1) : InReach l.pass s := by
  refine settle ⟨h.order, h.drawn, fun y hy => h.within y (List.mem_of_mem_tail hy), ?_⟩
  intro r hr id hid
  rcases h.covered r hr id hid with hreplan | hahead | hrest
  · exact .inl hreplan
  · exact .inr (.inl hahead)
  · rw [first] at hrest
    rcases List.mem_cons.1 hrest with rfl | hrest
    · exact .inl has
    · exact .inr (.inr (by rw [first]; exact hrest))

/-- A read takes what is in the window, or leaves it in the window of the next one. -/
theorem read {cursor : ℕ} (h : InReach l s) (low : cursor ≤ l.cursor) :
    InReach (.read cursor (Cursor.page s.2.committed defaultLookback replanDispatchLimit cursor)) s := by
  have hpos : ∀ r ∈ s.2.committed, 0 < r.1 :=
    fun r hr => (s.2.within r (List.mem_append_right _ hr)).1
  refine settle ⟨Cursor.le_reached, ?_, fun x hx => ?_, fun r hr id hid => ?_⟩
  · refine Cursor.reached_le (low.trans (h.order.trans h.drawn)) fun r hr => ?_
    exact (s.2.within r (List.mem_append_right _ (Cursor.mem_of_mem_page hr).1)).2
  · obtain ⟨-, hpast⟩ := Cursor.mem_of_mem_page (mem_named hx)
    show cursor < x.1 + defaultLookback
    have hpast' : cursor - defaultLookback < x.1 := hpast
    omega
  · have hwindow : s.1.HasReplan id ∨ cursor < r.1 + defaultLookback := by
      rcases h.covered r hr id hid with hreplan | hahead | hrest
      · exact .inl hreplan
      · exact .inr (low.trans_lt (h.order.trans_lt hahead))
      · exact .inr (low.trans_lt (h.within _ hrest))
    rcases hwindow with hreplan | hwindow
    · exact .inl hreplan
    · have hpast : cursor - defaultLookback < r.1 := by
        have := hpos r hr
        omega
      have hread : r ∈ Cursor.page s.2.committed defaultLookback replanDispatchLimit cursor ∨ _ :=
        Cursor.read_or_ahead (by decide) hr hpast hwindow
      rcases hread with hread | hahead
      · exact .inr (.inr (mem_named_of_mem hread hid))
      · exact .inr (.inl hahead)

/-- A call that commits no late signal keeps the cover. -/
theorem grows (h : InReach l s) (hgrows : Grows s s')
    (hnew : ∀ r ∈ s'.2.committed, r ∈ s.2.committed ∨ l.ahead < r.1 + defaultLookback) :
    InReach l s' := by
  refine ⟨h.order, h.drawn.trans hgrows.drawn, h.within, fun r hr id hid => ?_⟩
  rcases hnew r hr with hold | hahead
  · rcases h.covered r hold id hid with hreplan | hcovered
    · exact .inl (hgrows.replans id hreplan)
    · exact .inr hcovered
  · exact .inr (.inl hahead)

theorem step (h : InReach l s) (hd : Dispatched c l s s' made l') (hgrows : Grows s s') :
    InReach l' s' := by
  cases hd with
  | failed => exact h.abandon
  | looked pending live =>
      exact ⟨h.abandon.order, h.abandon.drawn, h.abandon.within, h.abandon.covered⟩
  | read cursor low => exact h.read low
  | answered x rest first has => exact h.pass first has
  | unanswered x rest first hasNot => exact ⟨h.order, h.drawn, h.within, h.covered⟩
  | replanned x rest first fresh id row store enqueued =>
      exact (h.grows hgrows fun r hr => .inl hr).pass first (hasReplan_of_enqueueTask enqueued)
  | pulsed clear id row store enqueued =>
      have hgrown := h.grows hgrows fun r hr => .inl hr
      exact ⟨hgrown.order, hgrown.drawn, hgrown.within, hgrown.covered⟩

/-- Whoever makes the call: a signal that commits in time is in the window. -/
theorem fires (h : InReach l st.before.state) (hf : Fires st) (htimely : Timely st) :
    InReach l st.after.state := by
  refine h.grows (grows_of_fires hf) fun r hr => ?_
  rcases scheduling_outcome hf with ⟨v, -, hexec⟩ | ⟨e, -, hsame⟩
  · rcases committed_of_exec hexec hr with hold | ⟨hcommit, -⟩
    · exact .inl hold
    · exact .inr (h.drawn.trans_lt (htimely r.1 hcommit))
  · rw [hsame] at hr
    exact .inl hr

end InReach

/-- A turn that is about to begin starts its read below the cursor of the outline. -/
theorem cursor_le_of_holds_run {n turns cursor : ℕ}
    (h : (dispatching c EndsBelow).Holds l (c.run n turns cursor)) : cursor ≤ l.cursor := by
  cases turns with
  | zero => exact h cursor rfl
  | succ turns => exact ((h.2 (.ok true)).1).1

/-- **No signal is left behind.** In every run of one scheduler beside any other processes in which
each signal commits in time, a turn that begins finds every committed signal of a task answered or
within its reach, whatever failed and however often the scheduler was killed. -/
theorem covered_of_reach {n turns n' turns' cursor : ℕ} {kills : List ℕ} (hrun : Reach c₀ τ c')
    (htimely : ∀ st ∈ τ, Timely st) (hstart : c₀.pool p₀ = c.lives n kills turns)
    (hturn : c'.pool p₀ = c.run n' turns' cursor) :
    ∀ r ∈ c'.state.2.committed, ∀ id, r.2.taskId = some id →
      c'.state.1.HasReplan id ∨ cursor < r.1 + defaultLookback := by
  obtain ⟨l, hholds, hinv⟩ := scheduler_rule c Timely (fun l s _ => InReach l s)
    { cursor := 0, ahead := 0 } hrun htimely (hstart ▸ holds_lives)
    ⟨le_refl _, Nat.zero_le _, by simp, fun r _ _ _ => .inr (.inl (by simp [defaultLookback]))⟩
    (fun st l l' made replans hf _ _ hd hinv => hinv.step hd (grows_of_fires hf))
    fun st l replans hf htimely _ hinv => hinv.fires hf htimely
  have hcursor := cursor_le_of_holds_run (hturn ▸ hholds)
  intro r hr id hid
  rcases hinv.abandon.covered r hr id hid with hreplan | hahead | hrest
  · exact .inl hreplan
  · exact .inr (hcursor.trans_lt hahead)
  · cases hrest

end Coverage

/-! ## Turns of the scheduler alone -/

section Alone

variable {c : Scheduler} {s : Store × Signals} {newId : ℕ → Uuid}

/-- An enqueue under a new id goes through, and writes no other row. -/
theorem enqueueTask_of_fresh {id : Uuid} {a : EnqueueArgs} {s : Store} (hname : a.workstream ≠ "")
    (hdeps : a.dependsOn = []) (hfresh : s.tasks.find? id = none) :
    ∃ row s', enqueueTask id a s = .ok (row, s') ∧
      ∀ id', id' ≠ id → s'.tasks.find? id' = s.tasks.find? id' := by
  have hws : requireWorkstream a.workstream = .ok ⟨a.workstream, hname⟩ := dif_neg hname
  obtain ⟨tasks, hinsert⟩ := Table.insert?_of_find?_none (a.row ⟨a.workstream, hname⟩ s.now) hfresh
  refine ⟨a.row ⟨a.workstream, hname⟩ s.now,
    { s with tasks := tasks }.appendEvent (some id) ⟨a.workstream, hname⟩
      (.taskCreated .upForGrabs a.type a.priority), ?_, fun id' hne => ?_⟩
  · unfold enqueueTask
    rw [hdeps]
    simp only [List.contains_nil, Bool.false_eq_true, if_false, hws, bind, Except.bind, hinsert]
    rfl
  · rw [Store.appendEvent_tasks, Table.find?_insert hinsert id', if_neg hne]

/-- What a part of a turn does that meets no failure. -/
structure Smooth (ids : Uuid → Prop) (s s' : Store × Signals) : Prop where
  signals : s'.2 = s.2
  replans : ∀ id, s.1.HasReplan id → s'.1.HasReplan id
  others : ∀ id, ¬ ids id → s'.1.tasks.find? id = s.1.tasks.find? id

theorem Smooth.trans {ids ids' : Uuid → Prop} {s s' s'' : Store × Signals} (h : Smooth ids s s')
    (h' : Smooth ids' s' s'') : Smooth (fun id => ids id ∨ ids' id) s s'' := by
  refine ⟨h'.signals.trans h.signals, fun id hid => h'.replans id (h.replans id hid), fun id hid => ?_⟩
  rw [h'.others id fun hids => hid (.inr hids), h.others id fun hids => hid (.inl hids)]

theorem Smooth.mono {ids ids' : Uuid → Prop} {s s' : Store × Signals} (h : Smooth ids s s')
    (hids : ∀ id, ids id → ids' id) : Smooth ids' s s' :=
  ⟨h.signals, h.replans, fun id hid => h.others id fun h => hid (hids id h)⟩

/-- An enqueue under a new id. -/
theorem eval_enqueue {id : Uuid} {a : EnqueueArgs} (hname : a.workstream ≠ "")
    (hdeps : a.dependsOn = []) (hfresh : s.1.tasks.find? id = none) :
    ∃ row s', (Scheduler.enqueue id a).eval s = (.ok row, s') ∧ Smooth (· = id) s s' ∧
      enqueueTask id a s.1 = .ok (row, s'.1) := by
  obtain ⟨row, store, henqueue, hothers⟩ := enqueueTask_of_fresh hname hdeps hfresh
  have hexec : scheduling.exec (.inl (.enqueueTask id a)) s = .ok (row, (store, s.2)) := by
    show (Except.map _ (enqueueTask id a s.1)) = _
    rw [henqueue]
    rfl
  refine ⟨row, (store, s.2), Program.eval_op_ok hexec, ⟨rfl, ?_, hothers⟩, henqueue⟩
  exact fun id' hid' => Store.HasReplan.exec (o := .enqueueTask id a) henqueue hid'

theorem eval_hasReplanTask (id : Uuid) :
    (Scheduler.hasReplanTask id).eval s =
      (.ok (!(s.1.tasks.select fun _ row => row.isReplanOf id).isEmpty), s) := rfl

/-- **The loop over a page** answers all its signals. -/
theorem eval_dispatchEvents (events : List (ℕ × StuckSignal)) (k cursor : ℕ) {bound : ℕ} (hbound : k + events.length ≤ bound) (hinj : Set.InjOn newId {j | j < bound})
    (hfresh : ∀ j, k ≤ j → j < bound → s.1.tasks.find? (newId j) = none) :
    ∃ ids s', (c.dispatchEvents newId k cursor events).eval s =
        (.ok (Cursor.reached cursor events, ids), s') ∧
      Smooth (fun id => ∃ j < bound, id = newId j) s s' ∧
      ∀ x ∈ named events, s'.1.HasReplan x.2.1 := by
  induction events generalizing k cursor s with
  | nil => exact ⟨[], s, rfl, ⟨rfl, fun _ h => h, fun _ _ => rfl⟩, fun x hx => nomatch hx⟩
  | cons r events ih =>
      obtain ⟨seq, taskId, workstream⟩ := r
      rw [List.length_cons] at hbound
      cases taskId with
      | none => exact ih k (max cursor seq) (by omega) hfresh
      | some id =>
          rw [Scheduler.dispatchEvents]
          show ∃ ids s', ((Scheduler.hasReplanTask id).bind _).eval s = _ ∧ _
          rw [Program.eval_bind_ok (eval_hasReplanTask id)]
          by_cases hhas : s.1.HasReplan id
          · rw [if_pos (hasReplan_iff.2 hhas)]
            obtain ⟨ids, s', heval, hquiet, hanswered⟩ := ih k (max cursor seq) (by omega) hfresh
            refine ⟨ids, s', heval, hquiet, fun x hx => ?_⟩
            rcases List.mem_cons.1 hx with rfl | hx
            · exact hquiet.replans id hhas
            · exact hanswered x hx
          · rw [if_neg (fun h => hhas (hasReplan_iff.1 h))]
            obtain ⟨row, s₁, henqueue, hquiet₁, hrow⟩ := eval_enqueue (a := c.replan id workstream)
              workstream.nonempty rfl (hfresh k (le_refl k) (by omega))
            have hfresh₁ : ∀ j, k + 1 ≤ j → j < bound → s₁.1.tasks.find? (newId j) = none := by
              intro j hj hlt
              rw [hquiet₁.others _ fun heq => ?_]
              · exact hfresh j (by omega) hlt
              · have := hinj (show j < bound from hlt) (show k < bound by omega) heq
                omega
            obtain ⟨ids, s', heval, hquiet, hanswered⟩ :=
              ih (k + 1) (max cursor seq) (by omega) hfresh₁
            refine ⟨newId k :: ids, s', ?_, ?_, fun x hx => ?_⟩
            · exact (Program.eval_bind_ok henqueue).trans (Program.eval_bind_ok heval)
            · refine (hquiet₁.trans hquiet).mono ?_
              rintro id' (rfl | hid')
              · exact ⟨k, by omega, rfl⟩
              · exact hid'
            · rcases List.mem_cons.1 hx with rfl | hx
              · exact hquiet.replans id (hasReplan_of_enqueueTask hrow)
              · exact hanswered x hx

theorem eval_pmTickPending (workstream : String) :
    (Scheduler.pmTickPending workstream).eval s =
      (.ok (!(s.1.tasks.select fun _ row => row.isPulse workstream).isEmpty), s) := rfl

theorem eval_tickOnce {id : Uuid} (hname : c.workstream ≠ "") (hfresh : s.1.tasks.find? id = none) :
    ∃ task s', (c.tickOnce id).eval s = (.ok task, s') ∧ Smooth (· = id) s s' := by
  rw [Scheduler.tickOnce]
  show ∃ task s', ((Scheduler.pmTickPending c.workstream).bind _).eval s = _ ∧ _
  rw [Program.eval_bind_ok (eval_pmTickPending c.workstream)]
  cases !(s.1.tasks.select fun _ row => row.isPulse c.workstream).isEmpty with
  | true => exact ⟨none, s, rfl, rfl, fun _ h => h, fun _ _ => rfl⟩
  | false =>
      obtain ⟨row, s', henqueue, hquiet, -⟩ := eval_enqueue (a := c.pulse) hname rfl hfresh
      exact ⟨some row, s', Program.eval_bind_ok henqueue, hquiet⟩

/-- The page a turn reads. -/
def pageAt (s : Store × Signals) (cursor : ℕ) : List (ℕ × StuckSignal) :=
  Cursor.page s.2.committed defaultLookback replanDispatchLimit cursor

/-- The cursor after some turns. -/
def cursorAt (s : Store × Signals) (cursor n : ℕ) : ℕ :=
  Cursor.passes s.2.committed defaultLookback replanDispatchLimit cursor n

theorem length_pageAt_le (s : Store × Signals) (cursor : ℕ) :
    (pageAt s cursor).length ≤ s.2.committed.length :=
  Cursor.length_page_le

/-- The ids the database draws in a turn are new. -/
structure Scheduler.Draws (c : Scheduler) (n : ℕ) (s : Store × Signals) : Prop where
  distinct : Set.InjOn (c.newId n) {k | k ≤ s.2.committed.length}
  fresh : ∀ k ≤ s.2.committed.length, s.1.tasks.find? (c.newId n k) = none

/-- **A turn answers the page it reads**, and moves the cursor past it. -/
theorem eval_turn {n : ℕ} (cursor : ℕ) (hname : c.workstream ≠ "") (hdraws : c.Draws n s) :
    ∃ s', (c.turn n cursor).eval s = (.ok (Cursor.reached cursor (pageAt s cursor)), s') ∧
      Smooth (fun id => ∃ k ≤ s.2.committed.length, id = c.newId n k) s s' ∧
      ∀ r ∈ pageAt s cursor, ∀ id, r.2.taskId = some id → s'.1.HasReplan id := by
  obtain ⟨task, s₁, htick, hquiet₁⟩ := eval_tickOnce hname (hdraws.fresh 0 (Nat.zero_le _))
  have hfresh₁ : ∀ j, 0 ≤ j → j < s.2.committed.length →
      s₁.1.tasks.find? (c.newId n (j + 1)) = none := by
    intro j _ hj
    rw [hquiet₁.others _ fun heq => ?_]
    · exact hdraws.fresh (j + 1) hj
    · have := hdraws.distinct (show j + 1 ≤ _ from hj) (Nat.zero_le _) heq
      omega
  have hinj : Set.InjOn (fun k => c.newId n (k + 1)) {j | j < s.2.committed.length} := by
    intro j hj j' hj' heq
    have := hdraws.distinct (show j + 1 ≤ _ from hj) (show j' + 1 ≤ _ from hj') heq
    omega
  obtain ⟨ids, s', hloop, hquiet, hanswered⟩ := eval_dispatchEvents (c := c) (pageAt s cursor) 0 cursor
    ((Nat.zero_add _).trans_le (length_pageAt_le s cursor)) hinj hfresh₁
  have hread : (Scheduler.readStuck cursor defaultLookback replanDispatchLimit).eval s₁ =
      (Except.ok (pageAt s cursor), s₁) := by
    rw [pageAt, ← hquiet₁.signals]
    rfl
  have hdispatch : ((c.dispatchReplans (fun k => c.newId n (k + 1)) cursor defaultLookback
      replanDispatchLimit).bind fun x => .ret x.1).eval s₁ =
        (.ok (Cursor.reached cursor (pageAt s cursor)), s') :=
    Program.eval_bind_ok ((Program.eval_bind_ok hread).trans hloop)
  refine ⟨s', ?_, (hquiet₁.trans hquiet).mono ?_, fun r hr id hid => ?_⟩
  · show (((c.tickOnce (c.newId n 0)).bind fun _ => (c.dispatchReplans (fun k => c.newId n (k + 1))
      cursor defaultLookback replanDispatchLimit).bind fun x => .ret x.1).tryCatch _).eval s = _
    rw [Program.eval_tryCatch, Program.eval_bind_ok htick, hdispatch]
  · rintro id (rfl | ⟨j, hj, rfl⟩)
    · exact ⟨0, Nat.zero_le _, rfl⟩
    · exact ⟨j + 1, hj, rfl⟩
  · exact hanswered _ (mem_named_of_mem hr hid)

/-- The ids of several turns are new, and no two turns draw the same. -/
structure Scheduler.DrawsThrough (c : Scheduler) (n turns : ℕ) (s : Store × Signals) : Prop where
  draws : ∀ m, n ≤ m → m < n + turns → c.Draws m s
  apart : ∀ m m' k k', n ≤ m → m < m' → m' < n + turns → k ≤ s.2.committed.length →
    k' ≤ s.2.committed.length → c.newId m' k' ≠ c.newId m k

/-- **Turns answer every page on their way.** -/
theorem eval_run {n turns : ℕ} (cursor : ℕ) (hname : c.workstream ≠ "")
    (hdraws : c.DrawsThrough n turns s) :
    ∃ s', (c.run n turns cursor).eval s = (.ok (cursorAt s cursor turns), s') ∧
      (∀ id, s.1.HasReplan id → s'.1.HasReplan id) ∧
      ∀ i < turns, ∀ r ∈ pageAt s (cursorAt s cursor i), ∀ id, r.2.taskId = some id →
        s'.1.HasReplan id := by
  induction turns generalizing n cursor s with
  | zero => exact ⟨s, rfl, fun _ h => h, fun i hi => absurd hi (Nat.not_lt_zero i)⟩
  | succ turns ih =>
      obtain ⟨s₁, hturn, hquiet, hanswered⟩ := eval_turn cursor hname
        (hdraws.draws n (le_refl n) (by omega))
      have hdraws₁ : c.DrawsThrough (n + 1) turns s₁ := by
        refine ⟨fun m hm hlt => ⟨?_, fun k hk => ?_⟩, fun m m' k k' hm hlt hlt' hk hk' => ?_⟩
        · rw [hquiet.signals]
          exact (hdraws.draws m (by omega) (by omega)).distinct
        · rw [hquiet.signals] at hk
          rw [hquiet.others _ ?_]
          · exact (hdraws.draws m (by omega) (by omega)).fresh k hk
          · rintro ⟨k', hk', heq⟩
            exact hdraws.apart n m k' k (le_refl n) (by omega) (by omega) hk' hk heq
        · rw [hquiet.signals] at hk hk'
          exact hdraws.apart m m' k k' (by omega) hlt (by omega) hk hk'
      obtain ⟨s', hrun, hreplans, hpages⟩ :=
        ih (n := n + 1) (Cursor.reached cursor (pageAt s cursor)) hdraws₁
      have hcursor : ∀ i, cursorAt s₁ (Cursor.reached cursor (pageAt s cursor)) i =
          cursorAt s cursor (i + 1) := by
        intro i
        rw [cursorAt, cursorAt, Cursor.passes_succ, hquiet.signals]
        rfl
      rw [hcursor] at hrun
      refine ⟨s', (Program.eval_bind_ok hturn).trans hrun,
        fun id hid => hreplans id (hquiet.replans id hid), fun i hi r hr id hid => ?_⟩
      cases i with
      | zero => exact hreplans id (hanswered r hr id hid)
      | succ i =>
          refine hpages i (by omega) r ?_ id hid
          rw [hcursor, pageAt, hquiet.signals]
          exact hr

end Alone

section Answered

variable {P : Type} [DecidableEq P] {c : Scheduler} {p₀ : P} {c₀ c' : Config scheduling P ℕ}
  {τ : List (Step scheduling P ℕ)}

/-- **Every signal is answered.** In a run of one scheduler beside any other processes in which each
signal commits in time, let a turn begin and the others rest. When no lookback of numbers holds as
many signals as a pass reads, more turns than there are signals give every one of them a replan. -/
theorem answered_of_reach {n turns n' turns' cursor : ℕ} {kills : List ℕ} (hrun : Reach c₀ τ c')
    (htimely : ∀ st ∈ τ, Timely st) (hstart : c₀.pool p₀ = c.lives n kills turns)
    (hturn : c'.pool p₀ = c.run n' turns' cursor) (hname : c.workstream ≠ "")
    (hdraws : c.DrawsThrough n' turns' c'.state)
    (hsparse : Cursor.Sparse c'.state.2.committed defaultLookback replanDispatchLimit)
    (hturns : c'.state.2.committed.length < turns') :
    ∀ r ∈ c'.state.2.committed, ∀ id, r.2.taskId = some id →
      ((c'.pool p₀).eval c'.state).2.1.HasReplan id := by
  intro r hr id hid
  obtain ⟨s', heval, hreplans, hpages⟩ := eval_run cursor hname hdraws
  rw [hturn, heval]
  rcases covered_of_reach hrun htimely hstart hturn r hr id hid with hreplan | hahead
  · exact hreplans id hreplan
  · have hnodup : (c'.state.2.committed.map Prod.fst).Nodup := by
      have hnumbered := c'.state.2.numbered
      rw [List.map_append] at hnumbered
      exact hnumbered.of_append_right
    obtain ⟨i, hi, hread⟩ := Cursor.read_of_sparse hsparse hnodup (by decide)
      (fun x hx => (c'.state.2.within x (List.mem_append_right _ hx)).1) hr hahead
    have hle : (Cursor.past c'.state.2.committed cursor).length ≤ c'.state.2.committed.length :=
      List.length_filter_le _ _
    exact hpages i (by omega) r hread id hid

end Answered

/-! ## A full window -/

section Stalled

variable {c : Scheduler} {s s' s'' : Store × Signals} {newId : ℕ → Uuid} {named? named?' : Uuid → Prop}

/-- What becomes of the replans of the tasks that are not named. -/
structure Spares (named? : Uuid → Prop) (s s' : Store × Signals) : Prop where
  signals : s'.2 = s.2
  replans : ∀ id, ¬ named? id → s'.1.HasReplan id → s.1.HasReplan id

theorem Spares.refl : Spares named? s s := ⟨rfl, fun _ _ h => h⟩

theorem Spares.trans (h : Spares named? s s') (h' : Spares named? s' s'') : Spares named? s s'' :=
  ⟨h'.signals.trans h.signals, fun id hid hreplan => h.replans id hid (h'.replans id hid hreplan)⟩

theorem Spares.mono (h : Spares named? s s') (himp : ∀ id, named? id → named?' id) :
    Spares named?' s s' :=
  ⟨h.signals, fun id hid => h.replans id fun hnamed => hid (himp id hnamed)⟩

/-- An enqueue makes a replan of no task but its own. -/
theorem spares_enqueue {id : Uuid} {a : EnqueueArgs}
    (hrow : ∀ ws now stuck, (a.row ws now).isReplanOf stuck = true → named? stuck) :
    Spares named? s ((Scheduler.enqueue id a).eval s).2 := by
  cases henqueue : enqueueTask id a s.1 with
  | error e =>
      have hexec : scheduling.exec (.inl (.enqueueTask id a)) s = .error e := by
        show (Except.map _ (enqueueTask id a s.1)) = _
        rw [henqueue]
        rfl
      have heval : (Scheduler.enqueue id a).eval s = (.error e, s) := Program.eval_op_error hexec
      rw [heval]
      exact .refl
  | ok x =>
      obtain ⟨row, store⟩ := x
      have hexec : scheduling.exec (.inl (.enqueueTask id a)) s = .ok (row, (store, s.2)) := by
        show (Except.map _ (enqueueTask id a s.1)) = _
        rw [henqueue]
        rfl
      have heval : (Scheduler.enqueue id a).eval s = (.ok row, (store, s.2)) :=
        Program.eval_op_ok hexec
      rw [heval]
      refine ⟨rfl, ?_⟩
      rintro stuck hnot ⟨t, row', hrow', his⟩
      obtain ⟨ws, tasks, rfl, -, hinsert, rfl⟩ := enqueueTask_cases henqueue
      have hfind := Table.find?_insert hinsert t
      have hrow'' : tasks.find? t = some row' := hrow'
      by_cases hid : t = id
      · rw [if_pos hid, hrow''] at hfind
        obtain rfl := Option.some.inj hfind
        exact absurd (hrow ws s.1.now stuck his) hnot
      · rw [if_neg hid, hrow''] at hfind
        exact ⟨t, row', hfind.symm, his⟩

/-- The tasks of the signals. -/
def Names (events : List (ℕ × StuckSignal)) (id : Uuid) : Prop :=
  ∃ r ∈ events, r.2.taskId = some id

theorem eq_of_isReplanOf_row {stuck stuck' : Uuid} {ws ws' : Workstream} {now : Time}
    (h : ((c.replan stuck ws).row ws' now).isReplanOf stuck' = true) : stuck' = stuck := by
  have hlookup : (tagPayload c.traffic [("stuck_task_id", .str stuck.text)]).lookup "stuck_task_id" =
      some (.str stuck.text) := by
    rw [tagPayload, lookup_setKey (by decide)]
    rfl
  have hpayload : ((c.replan stuck ws).row ws' now).payload =
      tagPayload c.traffic [("stuck_task_id", .str stuck.text)] := rfl
  rw [Task.isReplanOf, Doc.getStr?, hpayload, hlookup, Bool.and_eq_true] at h
  exact Uuid.eq_of_text (Option.some.inj (of_decide_eq_true h.2)).symm

theorem spares_dispatchEvents (events : List (ℕ × StuckSignal)) (k cursor : ℕ) :
    Spares (Names events) s ((c.dispatchEvents newId k cursor events).eval s).2 ∧
      ∀ x, ((c.dispatchEvents newId k cursor events).eval s).1 = .ok x →
        x.1 = Cursor.reached cursor events := by
  induction events generalizing k cursor s with
  | nil => exact ⟨.refl, fun x hx => by rw [← Except.ok.inj hx]; rfl⟩
  | cons r events ih =>
      obtain ⟨seq, taskId, workstream⟩ := r
      have hmore : ∀ id, Names events id → Names ((seq, ⟨taskId, workstream⟩) :: events) id :=
        fun id ⟨r, hr, hid⟩ => ⟨r, List.mem_cons_of_mem _ hr, hid⟩
      cases taskId with
      | none => exact ⟨(ih k (max cursor seq)).1.mono hmore, (ih k (max cursor seq)).2⟩
      | some id =>
          rw [Scheduler.dispatchEvents]
          show Spares _ s (((Scheduler.hasReplanTask id).bind _).eval s).2 ∧
            ∀ x, (((Scheduler.hasReplanTask id).bind _).eval s).1 = _ → _
          rw [Program.eval_bind_ok (eval_hasReplanTask id)]
          cases !(s.1.tasks.select fun _ row => row.isReplanOf id).isEmpty with
          | true =>
              exact ⟨(ih k (max cursor seq)).1.mono hmore, (ih k (max cursor seq)).2⟩
          | false =>
              have hfirst : Spares (Names ((seq, ⟨some id, workstream⟩) :: events)) s
                  ((Scheduler.enqueue (newId k) (c.replan id workstream)).eval s).2 := by
                refine spares_enqueue fun ws now stuck his => ⟨_, List.mem_cons_self, ?_⟩
                rw [eq_of_isReplanOf_row his]
              rw [if_neg Bool.false_ne_true]
              show Spares _ s (((Scheduler.enqueue _ _).bind _).eval s).2 ∧
                ∀ x, (((Scheduler.enqueue _ _).bind _).eval s).1 = _ → _
              rw [Program.eval_bind]
              generalize (Scheduler.enqueue (newId k) (c.replan id workstream)).eval s = y at hfirst ⊢
              obtain ⟨out, s₁⟩ := y
              cases out with
              | error e => exact ⟨hfirst, fun x hx => by cases hx⟩
              | ok row =>
                  have hrest := ih (k + 1) (max cursor seq) (s := s₁)
                  show Spares _ s (((c.dispatchEvents newId (k + 1) (max cursor seq) events).bind
                      fun x => .ret (x.1, newId k :: x.2)).eval s₁).2 ∧
                    ∀ x, (((c.dispatchEvents newId (k + 1) (max cursor seq) events).bind
                      fun x => .ret (x.1, newId k :: x.2)).eval s₁).1 = _ → _
                  rw [Program.eval_bind_ret]
                  refine ⟨hfirst.trans (hrest.1.mono hmore), fun x hx => ?_⟩
                  cases hloop : ((c.dispatchEvents newId (k + 1) (max cursor seq) events).eval s₁).1 with
                  | error e =>
                      rw [hloop] at hx
                      cases hx
                  | ok y =>
                      rw [hloop] at hx
                      rw [← Except.ok.inj hx]
                      exact hrest.2 y hloop

theorem spares_tickOnce {id : Uuid} : Spares named? s ((c.tickOnce id).eval s).2 := by
  rw [Scheduler.tickOnce]
  show Spares _ s (((Scheduler.pmTickPending c.workstream).bind _).eval s).2
  rw [Program.eval_bind_ok (eval_pmTickPending c.workstream)]
  cases !(s.1.tasks.select fun _ row => row.isPulse c.workstream).isEmpty with
  | true => exact .refl
  | false =>
      rw [if_neg Bool.false_ne_true]
      show Spares _ s (((Scheduler.enqueue id c.pulse).bind fun task => .ret (some task)).eval s).2
      rw [Program.eval_bind_ret]
      refine spares_enqueue fun ws now stuck his => ?_
      rw [Task.isReplanOf, Bool.and_eq_true] at his
      have htype : pmTickType = replanTaskType := of_decide_eq_true his.1
      exact absurd htype (by decide)

/-- A turn over a full window comes back to its cursor, and answers no task but those of the
window. -/
theorem stalled_turn {n cursor : ℕ}
    (hfull : replanDispatchLimit ≤ (Cursor.behind s.2.committed defaultLookback cursor).length) :
    ((c.turn n cursor).eval s).1 = .ok cursor ∧
      Spares (Names (pageAt s cursor)) s ((c.turn n cursor).eval s).2 := by
  have hstays : Cursor.reached cursor (pageAt s cursor) = cursor := Cursor.reached_of_full hfull
  -- the dispatch, once the pulse is seen to
  have hdispatch : ∀ s₁ : Store × Signals, s₁.2 = s.2 →
      Spares (Names (pageAt s cursor)) s₁ ((c.dispatchReplans (fun k => c.newId n (k + 1)) cursor
        defaultLookback replanDispatchLimit).eval s₁).2 ∧
      ∀ x, ((c.dispatchReplans (fun k => c.newId n (k + 1)) cursor defaultLookback
        replanDispatchLimit).eval s₁).1 = .ok x → x.1 = cursor := by
    intro s₁ hsignals
    have hread : (Scheduler.readStuck cursor defaultLookback replanDispatchLimit).eval s₁ =
        (Except.ok (pageAt s cursor), s₁) := by
      rw [pageAt, ← hsignals]
      rfl
    have heval : (c.dispatchReplans (fun k => c.newId n (k + 1)) cursor defaultLookback
        replanDispatchLimit).eval s₁ =
          (c.dispatchEvents (fun k => c.newId n (k + 1)) 0 cursor (pageAt s cursor)).eval s₁ :=
      Program.eval_bind_ok hread
    rw [heval]
    exact ⟨(spares_dispatchEvents _ _ _).1,
      fun x hx => ((spares_dispatchEvents _ _ _).2 x hx).trans hstays⟩
  have htick : Spares (Names (pageAt s cursor)) s ((c.tickOnce (c.newId n 0)).eval s).2 :=
    spares_tickOnce
  have hturn : (c.turn n cursor).eval s = (((c.tickOnce (c.newId n 0)).bind fun _ =>
      (c.dispatchReplans (fun k => c.newId n (k + 1)) cursor defaultLookback
        replanDispatchLimit).bind fun x => .ret x.1).tryCatch fun _ => .ret cursor).eval s := rfl
  rw [hturn, Program.eval_tryCatch, Program.eval_bind]
  generalize (c.tickOnce (c.newId n 0)).eval s = y at htick ⊢
  obtain ⟨out, s₁⟩ := y
  cases out with
  | error e => exact ⟨rfl, htick⟩
  | ok task =>
      have hrest := hdispatch s₁ htick.signals
      simp only [Program.eval_bind]
      generalize (c.dispatchReplans (fun k => c.newId n (k + 1)) cursor defaultLookback
        replanDispatchLimit).eval s₁ = z at hrest ⊢
      obtain ⟨out, s₂⟩ := z
      cases out with
      | error e => exact ⟨rfl, htick.trans hrest.1⟩
      | ok x =>
          refine ⟨?_, htick.trans hrest.1⟩
          rw [← hrest.2 x rfl]
          rfl

/-- **A full window stops the dispatch.** Where as many signals lie in the window behind the cursor
as a turn reads, no number of turns moves the cursor, and a task all of whose signals are past it
gets no replan. -/
theorem stalled_of_full {n turns cursor : ℕ}
    (hfull : replanDispatchLimit ≤ (Cursor.behind s.2.committed defaultLookback cursor).length) :
    ((c.run n turns cursor).eval s).1 = .ok cursor ∧
      ∀ id, (∀ r ∈ s.2.committed, r.2.taskId = some id → cursor < r.1) →
        ((c.run n turns cursor).eval s).2.1.HasReplan id → s.1.HasReplan id := by
  have hspares : ((c.run n turns cursor).eval s).1 = .ok cursor ∧
      Spares (Names (pageAt s cursor)) s ((c.run n turns cursor).eval s).2 := by
    induction turns generalizing n s with
    | zero => exact ⟨rfl, .refl⟩
    | succ turns ih =>
        obtain ⟨hcursor, hturn⟩ := stalled_turn (c := c) (n := n) hfull
        have hrun : (c.run n (turns + 1) cursor).eval s =
            (c.run (n + 1) turns cursor).eval ((c.turn n cursor).eval s).2 :=
          Program.eval_bind_ok (Prod.ext hcursor rfl)
        have hpage : pageAt ((c.turn n cursor).eval s).2 cursor = pageAt s cursor := by
          rw [pageAt, hturn.signals]
          rfl
        obtain ⟨hcursor', hrest⟩ := ih (n := n + 1) (s := ((c.turn n cursor).eval s).2)
          (by rw [hturn.signals]; exact hfull)
        rw [hpage] at hrest
        rw [hrun]
        exact ⟨hcursor', hturn.trans hrest⟩
  refine ⟨hspares.1, fun id hpast hreplan => hspares.2.replans id ?_ hreplan⟩
  rintro ⟨r, hr, hid⟩
  have hlt := hpast r (Cursor.mem_of_mem_page hr).1 hid
  exact absurd (Cursor.page_of_full hfull hr) (Nat.not_le.2 hlt)

end Stalled

/-! ## A killed scheduler, and a crowded log -/

section Sample

/-- The step is no late commit. -/
def isTimely (st : Step scheduling Bool ℕ) : Bool :=
  match st.op with
  | .inr (.commit seq) => st.before.state.2.drawn < seq + defaultLookback
  | _ => true

theorem timely_of_isTimely {st : Step scheduling Bool ℕ} (h : isTimely st = true) : Timely st := by
  intro seq hop
  rw [isTimely, hop] at h
  exact of_decide_eq_true h

/-- The ids of the second life are new. -/
theorem drawsThrough_killed : pulser.DrawsThrough 3 2 (signalledOnce.run untilKilled).state := by
  have hlength : (signalledOnce.run untilKilled).state.2.committed.length = 1 := by decide
  have hdistinct : ∀ m < 5, 3 ≤ m → ∀ k ≤ 1, ∀ k' ≤ 1,
      pulser.newId m k = pulser.newId m k' → k = k' := by decide
  have hfresh : ∀ m < 5, 3 ≤ m → ∀ k ≤ 1,
      (signalledOnce.run untilKilled).state.1.tasks.find? (pulser.newId m k) = none := by decide
  have hapart : ∀ m' < 5, ∀ m < m', 3 ≤ m → ∀ k ≤ 1, ∀ k' ≤ 1,
      pulser.newId m' k' ≠ pulser.newId m k := by decide
  refine ⟨fun m hlow hhigh => ⟨?_, ?_⟩, fun m m' k k' hlow hlt hhigh hk hk' => ?_⟩
  · rw [hlength]
    exact fun k hk k' hk' heq => hdistinct m hhigh hlow k hk k' hk' heq
  · rw [hlength]
    exact hfresh m hhigh hlow
  · rw [hlength] at hk hk'
    exact hapart m' hhigh m hlt hlow k hk k' hk'

/-- The scheduler dies over a signal it has read and not answered, and answers it in its next
life. -/
theorem answered_of_reach_killed :
    (signalledOnce.run untilKilled).state.1.tasks.rows.map (·.2.type) = ["pm.tick"] ∧
      (((signalledOnce.run untilKilled).pool true).eval
        (signalledOnce.run untilKilled).state).2.1.HasReplan taskT := by
  have htimely : ∀ st ∈ signalledOnce.trace untilKilled, isTimely st = true := by decide
  have hturn : (signalledOnce.run untilKilled).pool true = pulser.run 3 2 0 := rfl
  refine ⟨by decide, answered_of_reach (Reach.of_run signalledOnce untilKilled)
    (fun st hst => timely_of_isTimely (htimely st hst)) signalledOnce_scheduler hturn (by decide)
    drawsThrough_killed ?_
    (by decide) (1, stuckSignal) (List.mem_singleton_self _) taskT rfl⟩
  exact fun cursor => (List.length_filter_le _ _).trans_lt (by decide)

/-- Two hundred signals of one task, and then one of another. -/
def crowd (i : ℕ) : ℕ × StuckSignal :=
  (i + 1, if i < 200 then ⟨some (drawnId 0 0), ⟨"productivity", productivity_nonempty⟩⟩ else stuckSignal)

/-- The log with these signals. -/
def crowded : Signals where
  drawn := 201
  pending := []
  committed := (List.range 201).map crowd
  numbered := by
    rw [List.nil_append, List.map_map]
    refine List.nodup_range.map fun i j h => ?_
    exact Nat.succ.inj h
  within := by
    intro r hr
    obtain ⟨i, hi, rfl⟩ := List.mem_map.1 hr
    have hlt := List.mem_range.1 hi
    exact ⟨Nat.succ_pos i, hlt⟩

theorem stalled_of_full_crowded :
    ((pulser.run 0 7 200).eval (Store.initial 0, crowded)).1 = .ok 200 ∧
      ¬ ((pulser.run 0 7 200).eval (Store.initial 0, crowded)).2.1.HasReplan taskT := by
  have hfull : replanDispatchLimit ≤ (Cursor.behind crowded.committed defaultLookback 200).length := by
    have hbehind : ((List.range 200).map crowd).Sublist
        (Cursor.behind crowded.committed defaultLookback 200) := by
      have hall : ((List.range 200).map crowd).filter (fun r => 200 - defaultLookback < r.1 ∧
          r.1 ≤ 200) = (List.range 200).map crowd := by
        refine List.filter_eq_self.2 fun r hr => decide_eq_true ?_
        obtain ⟨i, hi, rfl⟩ := List.mem_map.1 hr
        exact ⟨Nat.succ_pos i, List.mem_range.1 hi⟩
      rw [← hall]
      refine List.Sublist.filter _ (List.Sublist.map crowd ?_)
      exact List.range_sublist.2 (Nat.le_succ 200)
    have hlength := hbehind.length_le
    rwa [List.length_map, List.length_range] at hlength
  obtain ⟨hcursor, hreplans⟩ :
      ((pulser.run 0 7 200).eval (Store.initial 0, crowded)).1 = .ok 200 ∧ _ := stalled_of_full hfull
  refine ⟨hcursor, fun hreplan => ?_⟩
  have hpast : ∀ r ∈ crowded.committed, r.2.taskId = some taskT → 200 < r.1 := by
    intro r hr hid
    obtain ⟨i, -, rfl⟩ := List.mem_map.1 hr
    by_cases hlt : i < 200
    · rw [crowd, if_pos hlt] at hid
      have hsame : some (drawnId 0 0) = some taskT := hid
      exact absurd hsame (by decide)
    · exact Nat.lt_succ_of_le (Nat.not_lt.1 hlt)
  obtain ⟨t, row, hrow, -⟩ := hreplans taskT hpast hreplan
  cases hrow

end Sample

end AiStudio.Runtime
