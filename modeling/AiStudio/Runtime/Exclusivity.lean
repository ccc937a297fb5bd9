import AiStudio.Runtime.Ownership

/-!
# Exclusivity of `claim_task`

`claim_task` grabs and starts in two transactions, and the start tests only that the
task is `claimed`. As long as no re-kick of a task takes effect while a claim is
between the two, every task handed out is `in_progress` and claimed by its worker,
and a task is handed out at most once between two re-kicks (`exclusive_of_reach`).
With such a re-kick one task is handed to two workers (`exclusive_fails`).
-/

set_option autoImplicit false

namespace AiStudio.Runtime

open AiStudio.Data AiStudio.Concurrency

/-- A call of `claim_task`, or of `rekick_task`. -/
inductive ClaimCall where
  | claim (a : GrabArgs) (locked : List Uuid)
  | rekick (id : Uuid) (madeProgress : Option Bool)

/-- The program of a call; a re-kick hands nothing out. -/
def ClaimCall.program : ClaimCall → Process (Option (Uuid × Task))
  | .claim a locked => claimTask a locked
  | .rekick id made => (call (.rekickTask id made)).bind fun _ => .ret none

/-- The calls `calls`, about to run on the database `s`. -/
def claimPool {P : Type} (s : Store) (calls : P → ClaimCall) :
    Config database P (Option (Uuid × Task)) :=
  ⟨s, fun p => (calls p).program⟩

section Steps

variable {P : Type}

/-- The step is the `start_task` after which `claim_task` hands the task to the worker. -/
structure HandsOut (st : Step database P (Option (Uuid × Task))) (worker : String) (id : Uuid) :
    Prop where
  start : ∃ agentType, st.op = .transition id .inProgress (startArgs worker agentType)
  committed : ∃ v, st.out = .ok v
  returned : ∃ row, st.after.pool st.pid = .ret (some (id, row))

/-- Along the steps `τ` a task is handed to the worker that holds it, and at most once
between two re-kicks. -/
structure Exclusive (τ : List (Step database P (Option (Uuid × Task)))) : Prop where
  owned : ∀ st ∈ τ, ∀ worker id, HandsOut st worker id →
    st.after.state.status? id = some .inProgress ∧ st.after.state.claimant? id = some worker
  once : ∀ τ₁ st τ₂ st' τ₃ worker worker' id, τ = τ₁ ++ st :: (τ₂ ++ st' :: τ₃) →
    HandsOut st worker id → HandsOut st' worker' id → τ₂.any (rekicks · id) = true

/-- A claim of the task has been grabbed and not yet started. -/
def Pending (c : Config database P (Option (Uuid × Task))) (id : Uuid) : Prop :=
  ∃ p worker agentType,
    (c.pool p).head? = some (.transition id .inProgress (startArgs worker agentType))

/-- The step does not re-kick a task while a claim of it is pending. -/
def SparesPending (st : Step database P (Option (Uuid × Task))) : Prop :=
  ∀ id, rekicks st id = true → ¬ Pending st.before id

end Steps

/-! ## The outline of a claim -/

/-- Where a call stands. -/
inductive ClaimPhase where
  | fresh (a : GrabArgs) (locked : List Uuid)
  | holding (worker : String) (agentType : Option String) (id : Uuid)
  | rekicking (id : Uuid) (madeProgress : Option Bool)
  | finished

/-- What a call does next. -/
def claimOutline : Outline database ClaimPhase (Option (Uuid × Task)) where
  allows
    | .fresh a locked, o => o = .grabTask a locked
    | .holding worker agentType id, o =>
        o = .transition id .inProgress (startArgs worker agentType)
    | .rekicking id made, o => o = .rekickTask id made
    | .finished, _ => False
  next
    | .fresh a _, .grabTask _ _, .ok (some (id, _)) => .holding a.workerId a.agentType id
    | _, _, _ => .finished
  ends
    | .finished, _ => True
    | _, _ => False

/-- Where a call starts. -/
def ClaimCall.phase : ClaimCall → ClaimPhase
  | .claim a locked => .fresh a locked
  | .rekick id made => .rekicking id made

/-- Every call follows the outline. -/
theorem ClaimCall.holds (call : ClaimCall) : claimOutline.Holds call.phase call.program := by
  cases call with
  | rekick id made =>
      refine ⟨rfl, fun r => ?_⟩
      cases r with
      | ok v => trivial
      | error e => trivial
  | claim a locked =>
      refine ⟨rfl, fun r => ?_⟩
      cases r with
      | error e => trivial
      | ok grabbed =>
          cases grabbed with
          | none => trivial
          | some t =>
              refine ⟨rfl, fun r => ?_⟩
              cases r with
              | ok v => trivial
              | error e => trivial

variable {P : Type}

/-- A call that holds a task is about to start it. -/
theorem pending_of_holding {c : Config database P (Option (Uuid × Task))} {ls : P → ClaimPhase}
    (hh : ∀ p, claimOutline.Holds (ls p) (c.pool p)) {p : P} {worker : String}
    {agentType : Option String} {id : Uuid} (hp : ls p = .holding worker agentType id) :
    Pending c id := by
  have h := hh p
  rw [hp] at h
  cases hprog : c.pool p with
  | ret a => rw [hprog] at h; exact h.elim
  | throw e => rw [hprog] at h; exact h.elim
  | call o k =>
      rw [hprog] at h
      exact ⟨p, worker, agentType, by rw [hprog]; exact congrArg some h.1⟩

/-! ## The invariant -/

/-- A task that a claim holds is `claimed` by its worker, and no other claim holds it. -/
structure ClaimsHeld (s : Store) (ls : P → ClaimPhase) : Prop where
  claimed : ∀ p worker agentType id, ls p = .holding worker agentType id →
    s.status? id = some .claimed ∧ s.claimant? id = some worker
  unique : ∀ p q worker worker' agentType agentType' id,
    ls p = .holding worker agentType id → ls q = .holding worker' agentType' id → p = q

/-- The states a move of a call of the pool starts from. -/
theorem source_of_claimMove {ls : P → ClaimPhase} {st : Step database P (Option (Uuid × Task))}
    (hallow : claimOutline.allows (ls st.pid) st.op) {m : Move} {row : Task}
    (hmakes : st.op.Makes st.before.state m row) :
    (row.status = .upForGrabs ∧ ∃ a locked, ls st.pid = .fresh a locked) ∨
      (∃ worker agentType, ls st.pid = .holding worker agentType m.id) ∨
      (row.status.isHeld = true ∧ ∃ made, st.op = .rekickTask m.id made) := by
  cases hl : ls st.pid with
  | finished => rw [hl] at hallow; exact hallow.elim
  | fresh a locked =>
      rw [hl] at hallow
      have hop : st.op = .grabTask a locked := hallow
      rw [hop] at hmakes
      exact Or.inl ⟨GrabArgs.status_of_grabbable hmakes.2.2.2, a, locked, rfl⟩
  | holding worker agentType id =>
      rw [hl] at hallow
      have hop : st.op = .transition id .inProgress (startArgs worker agentType) := hallow
      rw [hop] at hmakes
      obtain rfl : m = ⟨id, .inProgress, startArgs worker agentType⟩ := hmakes
      exact Or.inr (Or.inl ⟨worker, agentType, rfl⟩)
  | rekicking id made =>
      rw [hl] at hallow
      have hop : st.op = .rekickTask id made := hallow
      rw [hop] at hmakes
      obtain ⟨rfl, hheld⟩ := hmakes
      exact Or.inr (Or.inr ⟨hheld, made, hop⟩)

/-- A re-kick that moves a task re-kicks it. -/
theorem rekicks_of_move {st : Step database P (Option (Uuid × Task))} {m : Move} {row : Task}
    {made : Option Bool} (hop : st.op = .rekickTask m.id made)
    (hmakes : st.op.Makes st.before.state m row) {status : TaskStatus}
    (hbefore : st.before.state.status? m.id = some status) (hheld : status.isHeld = true)
    (hafter : st.after.state.status? m.id = some m.target) : rekicks st m.id = true := by
  have htarget : m.target = .upForGrabs := by
    rw [hop] at hmakes
    exact congrArg Move.target hmakes.1
  have hne : status ≠ .upForGrabs := fun h => by
    rw [h] at hheld
    cases hheld
  simp [rekicks, hop, hafter, htarget, hbefore, hne]

variable [DecidableEq P]

/-- A step leaves the tasks that other claims hold alone. -/
theorem ClaimsHeld.core_eq {ls : P → ClaimPhase} {st : Step database P (Option (Uuid × Task))}
    (hf : Fires st) (hspare : SparesPending st)
    (hh : ∀ p, claimOutline.Holds (ls p) (st.before.pool p))
    (hallow : claimOutline.allows (ls st.pid) st.op) (hinv : ClaimsHeld st.before.state ls)
    {q : P} (hq : q ≠ st.pid) {worker : String} {agentType : Option String} {id : Uuid}
    (hhold : ls q = .holding worker agentType id) :
    st.after.state.core id = st.before.state.core id := by
  have hclaimed := (hinv.claimed q worker agentType id hhold).1
  cases step_taskEffect hf id with
  | same core history finished => exact core
  | created a op fresh core history finished =>
      rw [Store.status?, fresh] at hclaimed
      cases hclaimed
  | moved m row hid hmakes hadmits core history finished =>
      subst hid
      have hstatus : row.status = .claimed := by
        rw [Store.status?, Store.core_of_find? hadmits.found] at hclaimed
        exact Option.some.inj hclaimed
      rcases source_of_claimMove hallow hmakes with ⟨hup, -⟩ | ⟨w, ag, hpid⟩ | ⟨hheld, made, hop⟩
      · rw [hstatus] at hup
        cases hup
      · exact absurd (hinv.unique q st.pid worker w agentType ag m.id hhold hpid) hq
      · have hafter : st.after.state.status? m.id = some m.target := by
          rw [Store.status?, core]
          rfl
        exact absurd (pending_of_holding hh hhold)
          (hspare m.id (rekicks_of_move hop hmakes hclaimed rfl hafter))

/-- A call that comes to hold a task has just grabbed it. -/
theorem grabbed_of_holding {ls : P → ClaimPhase} {st : Step database P (Option (Uuid × Task))}
    (hf : Fires st) (hallow : claimOutline.allows (ls st.pid) st.op) {worker : String}
    {agentType : Option String} {id : Uuid}
    (hnext : claimOutline.next (ls st.pid) st.op st.out = .holding worker agentType id) :
    st.before.state.status? id = some .upForGrabs ∧
      st.after.state.status? id = some .claimed ∧ st.after.state.claimant? id = some worker := by
  cases hl : ls st.pid with
  | finished => rw [hl] at hallow; exact hallow.elim
  | holding w ag id' => rw [hl] at hnext; cases hnext
  | rekicking id' made => rw [hl] at hnext; cases hnext
  | fresh a locked =>
      rw [hl] at hallow hnext
      obtain ⟨pid, op, out, before, after⟩ := st
      obtain rfl : op = .grabTask a locked := hallow
      have hcommit := exec_or_abort hf
      dsimp only at hcommit
      rcases hcommit with ⟨v, rfl, hexec⟩ | ⟨e, rfl, -⟩
      · rcases grabTask_cases hexec with ⟨rfl, -⟩ | ⟨id', row, -, hpick, hm, rfl, hs⟩
        · cases hnext
        · obtain ⟨rfl, rfl, rfl⟩ := ClaimPhase.holding.inj hnext
          have hafter := before.state.find?_recordTransition_self id' row .claimed a.claim hm.found
          have hup := GrabArgs.status_of_grabbable (a.pick_eq_some hpick).2.1
          refine ⟨?_, ?_, ?_⟩
          · rw [Store.status?, Store.core_of_find? hm.found]
            exact congrArg some hup
          · rw [hs, Store.status?, Store.core_of_find? hafter]
            rfl
          · rw [hs, Store.claimant?, Store.core_of_find? hafter]
            rfl
      · cases hnext

/-- **One step keeps the claims held.** -/
theorem ClaimsHeld.step {ls : P → ClaimPhase} {st : Step database P (Option (Uuid × Task))}
    (hf : Fires st) (hspare : SparesPending st)
    (hh : ∀ p, claimOutline.Holds (ls p) (st.before.pool p))
    (hallow : claimOutline.allows (ls st.pid) st.op) (hinv : ClaimsHeld st.before.state ls) :
    ClaimsHeld st.after.state (claimOutline.advance ls st) := by
  -- a claim that only now holds a task, and one that held it before, hold different tasks
  have hapart : ∀ q worker worker' agentType agentType' id, q ≠ st.pid →
      claimOutline.next (ls st.pid) st.op st.out = .holding worker agentType id →
      ls q = .holding worker' agentType' id → False := by
    intro q worker worker' agentType agentType' id _ hnext hhold
    have hup := (grabbed_of_holding hf hallow hnext).1
    rw [(hinv.claimed q worker' agentType' id hhold).1] at hup
    cases hup
  refine ⟨fun p worker agentType id hp => ?_, fun p q w w' ag ag' id hp hq => ?_⟩
  · by_cases hpid : p = st.pid
    · subst hpid
      rw [Outline.advance_self] at hp
      exact (grabbed_of_holding hf hallow hp).2
    · rw [Outline.advance_ne _ _ _ hpid] at hp
      have hcore := hinv.core_eq hf hspare hh hallow hpid hp
      rw [Store.status?, Store.claimant?, hcore]
      exact hinv.claimed p worker agentType id hp
  · by_cases hpid : p = st.pid
    · by_cases hqid : q = st.pid
      · rw [hpid, hqid]
      · rw [hpid, Outline.advance_self] at hp
        rw [Outline.advance_ne _ _ _ hqid] at hq
        exact (hapart q w w' ag ag' id hqid hp hq).elim
    · rw [Outline.advance_ne _ _ _ hpid] at hp
      by_cases hqid : q = st.pid
      · rw [hqid, Outline.advance_self] at hq
        exact (hapart p w' w ag' ag id hpid hq hp).elim
      · rw [Outline.advance_ne _ _ _ hqid] at hq
        exact hinv.unique p q w w' ag ag' id hp hq

omit [DecidableEq P] in
/-- The calls of a pool, before any of them moved. -/
theorem holds_claimPool (s : Store) (calls : P → ClaimCall) :
    ∀ p, claimOutline.Holds ((calls p).phase) ((claimPool s calls).pool p) :=
  fun p => (calls p).holds

/-- **In every run that spares pending claims, the claims are held.** -/
theorem claimsHeld_reach {s : Store} {calls : P → ClaimCall}
    {c' : Config database P (Option (Uuid × Task))}
    {τ : List (Step database P (Option (Uuid × Task)))} (h : Reach (claimPool s calls) τ c')
    (hspare : ∀ st ∈ τ, SparesPending st) :
    ClaimsHeld c'.state (claimOutline.track (fun p => (calls p).phase) τ) := by
  refine Outline.invariant ClaimsHeld SparesPending h (holds_claimPool s calls) hspare ?_ ?_
  · have hno : ∀ p worker agentType id,
        (calls p).phase ≠ .holding worker agentType id := by
      intro p worker agentType id hp
      cases hc : calls p <;> rw [hc] at hp <;> cases hp
    exact ⟨fun p _ _ _ hp => absurd hp (hno p _ _ _), fun p _ _ _ _ _ _ hp _ =>
      absurd hp (hno p _ _ _)⟩
  · intro ls st hf hst hh hallow hinv
    exact hinv.step hf hst hh hallow

/-! ## Exclusivity -/

omit [DecidableEq P] in
/-- A task is handed out by the claim that holds it. -/
theorem HandsOut.holding {ls : P → ClaimPhase} {st : Step database P (Option (Uuid × Task))}
    {worker : String} {id : Uuid} (h : HandsOut st worker id)
    (hallow : claimOutline.allows (ls st.pid) st.op) :
    ∃ agentType, ls st.pid = .holding worker agentType id := by
  obtain ⟨agentType, hop⟩ := h.start
  rw [hop] at hallow
  cases hl : ls st.pid with
  | finished => rw [hl] at hallow; exact hallow.elim
  | fresh a locked => rw [hl] at hallow; cases hallow
  | rekicking id' made => rw [hl] at hallow; cases hallow
  | holding w ag id' =>
      rw [hl] at hallow
      obtain ⟨rfl, -, hargs⟩ := StoreOp.transition.inj hallow
      have hworker := congrArg TransitionArgs.agentId hargs
      obtain rfl : worker = w := Option.some.inj hworker
      exact ⟨ag, rfl⟩

/-- The start of a task that its worker still holds goes through. -/
theorem HandsOut.owned {ls : P → ClaimPhase} {st : Step database P (Option (Uuid × Task))}
    {worker : String} {id : Uuid} (h : HandsOut st worker id) (hf : Fires st)
    (hallow : claimOutline.allows (ls st.pid) st.op) (hinv : ClaimsHeld st.before.state ls) :
    st.after.state.status? id = some .inProgress ∧ st.after.state.claimant? id = some worker := by
  obtain ⟨ag, hl⟩ := h.holding hallow
  obtain ⟨hstatus, hclaimant⟩ := hinv.claimed _ _ _ _ hl
  obtain ⟨agentType, hop⟩ := h.start
  obtain ⟨r, hexec⟩ := exec_of_committed hf h.committed hop
  simp only [Store.status?, Option.map_eq_some_iff, Store.core_eq_some] at hstatus
  obtain ⟨_, ⟨row, hrow, rfl⟩, hclaimed⟩ := hstatus
  have hm : Moves st.before.state id .inProgress (startArgs worker agentType) row := by
    refine (moves_iff_accepts hexec hrow).2 ?_
    rw [show row.status = .claimed from hclaimed]
    rfl
  obtain ⟨-, hs⟩ := Prod.mk.inj (Except.ok.inj (hm.transition_eq.symm.trans hexec))
  have hafter := st.before.state.find?_recordTransition_self id row .inProgress
    (startArgs worker agentType) hrow
  rw [← hs, Store.status?, Store.claimant?, Store.core_of_find? hafter]
  refine ⟨rfl, ?_⟩
  rw [Store.claimant?, Store.core_of_find? hrow] at hclaimant
  exact hclaimant

/-- A task nobody may start: it is `in_progress` and no claim holds it. -/
structure Settled (id : Uuid) (s : Store) (ls : P → ClaimPhase) : Prop where
  inProgress : s.status? id = some .inProgress
  free : ∀ p worker agentType, ls p ≠ .holding worker agentType id

/-- **One step that does not re-kick a settled task leaves it settled.** -/
theorem Settled.step {id : Uuid} {ls : P → ClaimPhase}
    {st : Step database P (Option (Uuid × Task))} (hf : Fires st)
    (hrekick : rekicks st id = false) (hallow : claimOutline.allows (ls st.pid) st.op)
    (hinv : Settled id st.before.state ls) :
    Settled id st.after.state (claimOutline.advance ls st) := by
  refine ⟨?_, fun p worker agentType hp => ?_⟩
  · cases step_taskEffect hf id with
    | same core history finished =>
        rw [Store.status?, core]
        exact hinv.inProgress
    | created a op fresh core history finished =>
        have hstatus := hinv.inProgress
        rw [Store.status?, fresh] at hstatus
        cases hstatus
    | moved m row hid hmakes hadmits core history finished =>
        subst hid
        have hstatus : row.status = .inProgress := by
          have hstatus := hinv.inProgress
          rw [Store.status?, Store.core_of_find? hadmits.found] at hstatus
          exact Option.some.inj hstatus
        rcases source_of_claimMove hallow hmakes with ⟨hup, -⟩ | ⟨w, ag, hpid⟩ | ⟨-, made, hop⟩
        · rw [hstatus] at hup
          cases hup
        · exact absurd hpid (hinv.free st.pid w ag)
        · have hafter : st.after.state.status? m.id = some m.target := by
            rw [Store.status?, core]
            rfl
          rw [rekicks_of_move hop hmakes hinv.inProgress rfl hafter] at hrekick
          cases hrekick
  · by_cases hpid : p = st.pid
    · subst hpid
      rw [Outline.advance_self] at hp
      have hup := (grabbed_of_holding hf hallow hp).1
      rw [hinv.inProgress] at hup
      cases hup
    · rw [Outline.advance_ne _ _ _ hpid] at hp
      exact hinv.free p worker agentType hp

/-- **Claims are exclusive** in every interleaving of any number of `claim_task` and
`rekick_task` calls in which no re-kick of a held task happens while a claim of it is
pending. -/
theorem exclusive_of_reach {s : Store} {calls : P → ClaimCall}
    {c' : Config database P (Option (Uuid × Task))}
    {τ : List (Step database P (Option (Uuid × Task)))} (h : Reach (claimPool s calls) τ c')
    (hspare : ∀ st ∈ τ, SparesPending st) : Exclusive τ := by
  -- what is known at every step of the run
  have hat : ∀ τ₁ st τ₂, τ = τ₁ ++ st :: τ₂ →
      let ls := claimOutline.track (fun p => (calls p).phase) τ₁
      Fires st ∧ Reach st.after τ₂ c' ∧ claimOutline.allows (ls st.pid) st.op ∧
        ClaimsHeld st.before.state ls ∧
        ∀ p, claimOutline.Holds (claimOutline.advance ls st p) (st.after.pool p) := by
    rintro τ₁ st τ₂ rfl
    obtain ⟨hf, hbefore, hafter⟩ := Reach.split_at h
    have hh := Outline.holds_reach hbefore (holds_claimPool s calls)
    obtain ⟨hallow, hnext⟩ := Outline.holds_step hf hh
    exact ⟨hf, hafter, hallow,
      claimsHeld_reach hbefore fun st' hst' => hspare st' (by simp [hst']), hnext⟩
  refine ⟨fun st hst worker id hout => ?_, ?_⟩
  · obtain ⟨τ₁, τ₂, hτ⟩ := List.append_of_mem hst
    obtain ⟨hf, -, hallow, hinv, -⟩ := hat τ₁ st τ₂ hτ
    exact hout.owned hf hallow hinv
  · intro τ₁ st τ₂ st' τ₃ worker worker' id hτ hout hout'
    by_contra hnone
    obtain ⟨hf, hafter, hallow, hinv, hnext⟩ := hat τ₁ st _ hτ
    obtain ⟨ag, hl⟩ := hout.holding hallow
    let ls₁ := claimOutline.advance (claimOutline.track (fun p => (calls p).phase) τ₁) st
    have hsettled : Settled id st.after.state ls₁ := by
      refine ⟨(hout.owned hf hallow hinv).1, fun p w ag' hp => ?_⟩
      by_cases hpid : p = st.pid
      · subst hpid
        dsimp only [ls₁] at hp
        rw [Outline.advance_self, hl] at hp
        cases hp
      · dsimp only [ls₁] at hp
        rw [Outline.advance_ne _ _ _ hpid] at hp
        exact hpid (hinv.unique p st.pid w worker ag' ag id hp hl)
    obtain ⟨hf', hbefore, -⟩ := Reach.split_at hafter
    have hkept : ∀ st₂ ∈ τ₂, rekicks st₂ id = false := fun st₂ hst₂ =>
      Bool.eq_false_iff.mpr fun hk => hnone (List.any_eq_true.mpr ⟨st₂, hst₂, hk⟩)
    have hsettled' : Settled id st'.before.state (claimOutline.track ls₁ τ₂) :=
      Outline.invariant (Settled id) (fun st₂ => rekicks st₂ id = false) hbefore hnext hkept
        hsettled fun ls₂ st₂ hf₂ hk _ hallow₂ hinv₂ => hinv₂.step hf₂ hk hallow₂
    have hallow' := (Outline.holds_step hf' (Outline.holds_reach hbefore hnext)).1
    obtain ⟨ag', hl'⟩ := hout'.holding hallow'
    exact hsettled'.free _ _ _ hl'

/-! ## One task, two workers -/

/-- Two workers and the supervisor. -/
inductive Contender where
  | first
  | second
  | supervisor
  deriving DecidableEq

/-- Both workers claim a task, and the supervisor re-kicks it. -/
def Contender.call : Contender → ClaimCall
  | first => .claim { workerId := "worker-a" } []
  | second => .claim { workerId := "worker-b" } []
  | supervisor => .rekick taskT (some false)

/-- The calls of the contenders on a database with one task. -/
def contest : Config database Contender (Option (Uuid × Task)) :=
  claimPool oneTask Contender.call

/-- The first worker grabs the task, the supervisor re-kicks it, and the second worker
grabs it. -/
def regrabbed : List (Choice Contender Exn) :=
  [(.first, none), (.supervisor, none), (.second, none)]

/-- **The first worker starts the task the second one holds, and both are handed it.** -/
theorem exclusive_fails :
    ¬ Exclusive (contest.trace (regrabbed ++ [(.first, none), (.second, none)])) := by
  intro h
  have hrun : contest.trace (regrabbed ++ [(.first, none), (.second, none)]) =
      contest.trace regrabbed ++
        (contest.run regrabbed).trace [(.first, none), (.second, none)] :=
    Config.trace_append _ _ _
  exact absurd (h.once _ _ [] _ [] "worker-a" "worker-b" taskT hrun
    ⟨⟨_, rfl⟩, ⟨_, rfl⟩, _, rfl⟩ ⟨⟨_, rfl⟩, ⟨_, rfl⟩, _, rfl⟩) (by decide)

/-- A worker claims the task, the supervisor re-kicks it, and the other worker claims
it. -/
theorem exclusive_of_reach_contest :
    Exclusive (contest.trace [(.first, none), (.first, none), (.supervisor, none),
      (.second, none), (.second, none)]) := by
  refine exclusive_of_reach (Reach.of_run _ _) fun st hst id hk hpending => ?_
  obtain ⟨p, worker, agentType, hp⟩ := hpending
  rcases List.mem_cons.mp hst with rfl | hst
  · cases hk
  rcases List.mem_cons.mp hst with rfl | hst
  · cases hk
  rcases List.mem_cons.mp hst with rfl | hst
  · -- the first claim is over and the second has not begun
    cases p with
    | first => cases hp
    | second => cases hp
    | supervisor => cases hp
  rcases List.mem_cons.mp hst with rfl | hst
  · cases hk
  rcases List.mem_cons.mp hst with rfl | hst
  · cases hk
  · cases hst

end AiStudio.Runtime
