import AiStudio.Runtime.Supervisor

/-!
# The grace of a reconnect

Embeds `GraceTracker`, `supervised_sweep` and the loop of `run` of `runtime/supervisor.py`, as far
as they decide whether a pass sweeps. What happens to the connection in a pass is an argument: how
a connect ends, what the scan for stale tasks raises, what the handling of each stale task raises.
`sweep` handles every task under a `try`, so what is raised there never reaches the loop.

- `Window`: what the tracker keeps of the window of one reconnect.
- `records_split`: a run is cut where its records are.
-/

set_option autoImplicit false

namespace AiStudio.Runtime.Reconnect

open AiStudio.Runtime

/-! ## The tracker -/

/-- `GraceTracker`. -/
structure GraceTracker where
  graceS : Time
  dbDown : Bool := false
  graceUntil : Option Time := none

namespace GraceTracker

variable (tracker : GraceTracker) (now : Time)

/-- `note_failure`. -/
def noteFailure : GraceTracker := { tracker with dbDown := true }

/-- `note_connected`. -/
def noteConnected : GraceTracker :=
  { tracker with
    graceUntil :=
      if tracker.dbDown && decide (0 < tracker.graceS) then some (now + tracker.graceS)
      else tracker.graceUntil
    dbDown := false }

/-- `in_grace`; the window clears itself when it has elapsed. -/
def inGrace : Bool × GraceTracker :=
  match tracker.graceUntil with
  | none => (false, tracker)
  | some deadline =>
      if deadline ≤ now then (false, { tracker with graceUntil := none }) else (true, tracker)

end GraceTracker

/-! ## The loop -/

/-- What is raised. -/
inductive Failure where
  | dbUnavailable
  | operationalError
  | other
  deriving DecidableEq

/-- The database became unreachable. -/
def Failure.isOutage : Failure → Bool
  | .dbUnavailable => true
  | .operationalError => true
  | .other => false

/-- What happens in a pass: the time since the last one, whether the connection is found closed,
how long a connect takes and whether it succeeds, how long after it the window is polled, what the
scan raises, and what the handling of each stale task raises. -/
structure Pass where
  slept : Nat := 0
  closed : Bool := false
  connects : Bool := true
  connecting : Nat := 0
  polling : Nat := 0
  scan : Option Failure := none
  tasks : List (Option Failure) := []

/-- The state of the loop between two passes. -/
structure Loop where
  tracker : GraceTracker
  connected : Bool := false
  clock : Time := 0

/-- What a pass did: when it connected, when it began a sweep, whether it deferred one, and
whether it met an outage. -/
structure Record where
  connectedAt : Option Time := none
  sweptAt : Option Time := none
  deferred : Bool := false
  outage : Bool := false

/-- The handlers of the loop. -/
def Loop.handle (loop : Loop) : Option Failure → Loop
  | none => loop
  | some failure =>
      { loop with
        tracker := if failure.isOutage then loop.tracker.noteFailure else loop.tracker
        connected := false }

/-- `supervised_sweep`, with the handlers around it. Only what the scan raises leaves `sweep`. -/
def Loop.supervise (loop : Loop) (pass : Pass) (connectedAt : Option Time) : Loop × Record :=
  let now := loop.clock + pass.polling
  let (deferred, tracker) := loop.tracker.inGrace now
  let loop := { loop with tracker, clock := now }
  if deferred then (loop, { connectedAt, deferred := true })
  else
    (loop.handle pass.scan,
      { connectedAt
        sweptAt := some now
        outage := pass.scan.any Failure.isOutage ||
          pass.scan.isNone && pass.tasks.any fun raised => raised.any Failure.isOutage })

/-- One pass of the loop. -/
def Loop.step (loop : Loop) (pass : Pass) : Loop × Record :=
  let now := loop.clock + pass.slept
  if loop.connected && !pass.closed then { loop with clock := now }.supervise pass none
  else
    let now := now + pass.connecting
    let loop := { loop with clock := now }
    if pass.connects then
      { loop with tracker := loop.tracker.noteConnected now, connected := true }.supervise pass
        (some now)
    else (loop.handle (some .dbUnavailable), { outage := true })

/-- The state after the passes. -/
def Loop.after (loop : Loop) (passes : List Pass) : Loop :=
  passes.foldl (fun loop pass => (loop.step pass).1) loop

/-- What the passes did. -/
def Loop.records : Loop → List Pass → List Record
  | _, [] => []
  | loop, pass :: passes => (loop.step pass).2 :: (loop.step pass).1.records passes

/-- `run`, after its first passes. -/
def run (graceS : Time) (passes : List Pass) : List Record :=
  ({ tracker := { graceS } } : Loop).records passes

/-! ## The law -/

/-- After an outage, no sweep begins within the grace of the reconnect. -/
def GraceLaw (graceS : Time) (records : List Record) : Prop :=
  ∀ before lost between back rest at_, records = before ++ lost :: (between ++ back :: rest) →
    lost.outage = true → (∀ r ∈ between, r.connectedAt = none) → back.connectedAt = some at_ →
    ∀ r ∈ back :: rest, ∀ swept ∈ r.sweptAt, at_ + graceS ≤ swept

/-- Without an outage no sweep is deferred. -/
def PromptLaw (records : List Record) : Prop :=
  (∀ r ∈ records, r.outage = false) → ∀ r ∈ records, r.deferred = false

/-- No connection is lost while a stale task is handled; none is handled where the scan raises. -/
def Pass.lossSurfaces (pass : Pass) : Bool :=
  pass.scan.isSome || pass.tasks.all fun raised => !raised.any Failure.isOutage

/-! ## One pass -/

section Step

variable {loop : Loop} {pass : Pass}

@[simp] theorem handle_clock (raised : Option Failure) : (loop.handle raised).clock = loop.clock := by
  cases raised <;> rfl

@[simp] theorem handle_graceUntil (raised : Option Failure) :
    (loop.handle raised).tracker.graceUntil = loop.tracker.graceUntil := by
  cases raised with
  | none => rfl
  | some failure => cases failure <;> rfl

@[simp] theorem handle_graceS (raised : Option Failure) :
    (loop.handle raised).tracker.graceS = loop.tracker.graceS := by
  cases raised with
  | none => rfl
  | some failure => cases failure <;> rfl

theorem handle_dbDown (raised : Option Failure) :
    (loop.handle raised).tracker.dbDown = (loop.tracker.dbDown || raised.any Failure.isOutage) := by
  cases raised with
  | none => simp [Loop.handle]
  | some failure => cases failure <;> simp [Loop.handle, GraceTracker.noteFailure, Failure.isOutage]

theorem le_wait (now : Time) (wait : Nat) : now ≤ now + wait :=
  Int.le_add_of_nonneg_right (Int.natCast_nonneg wait)

/-- What polling the window does: it defers before the deadline, and clears it from then on. -/
theorem inGrace_cases (tracker : GraceTracker) (now : Time) :
    (∃ deadline, tracker.graceUntil = some deadline ∧ now < deadline ∧
      tracker.inGrace now = (true, tracker)) ∨
    ((∀ deadline, tracker.graceUntil = some deadline → deadline ≤ now) ∧
      tracker.inGrace now = (false, { tracker with graceUntil := none })) := by
  obtain ⟨graceS, dbDown, graceUntil⟩ := tracker
  cases graceUntil with
  | none => exact .inr ⟨fun _ h => absurd h (by simp), rfl⟩
  | some deadline =>
      by_cases h : deadline ≤ now
      · refine .inr ⟨fun d hd => ?_, if_pos h⟩
        obtain rfl := Option.some.inj hd
        exact h
      · exact .inl ⟨deadline, rfl, not_le.1 h, if_neg h⟩

/-- A pass that reaches `supervised_sweep` either defers inside the window, or finds it elapsed and
sweeps. -/
theorem supervise_cases (loop : Loop) (pass : Pass) (connectedAt : Option Time) :
    (∃ deadline, loop.tracker.graceUntil = some deadline ∧ loop.clock + pass.polling < deadline ∧
      loop.supervise pass connectedAt =
        ({ loop with clock := loop.clock + pass.polling }, { connectedAt, deferred := true })) ∨
    ((∀ deadline, loop.tracker.graceUntil = some deadline →
        deadline ≤ loop.clock + pass.polling) ∧
      ∃ outage, (pass.lossSurfaces = true → outage = pass.scan.any Failure.isOutage) ∧
        (outage = false → pass.scan.any Failure.isOutage = false) ∧
        loop.supervise pass connectedAt =
          ({ loop with
              tracker := { loop.tracker with graceUntil := none }
              clock := loop.clock + pass.polling }.handle pass.scan,
            { connectedAt, sweptAt := some (loop.clock + pass.polling), outage })) := by
  rcases inGrace_cases loop.tracker (loop.clock + pass.polling) with
    ⟨deadline, hd, hlt, heq⟩ | ⟨hle, heq⟩
  · left
    refine ⟨deadline, hd, hlt, ?_⟩
    simp only [Loop.supervise, heq, if_true]
  · right
    refine ⟨hle, pass.scan.any Failure.isOutage ||
      pass.scan.isNone && pass.tasks.any fun raised => raised.any Failure.isOutage, ?_, ?_, ?_⟩
    · intro hsurfaces
      have hnone : (pass.scan.isNone && pass.tasks.any fun raised =>
          raised.any Failure.isOutage) = false := by
        rcases Bool.or_eq_true_iff.1 hsurfaces with hraised | htasks
        · rw [Option.isNone_eq_false_iff.2 hraised, Bool.false_and]
        · rw [Bool.and_eq_false_iff]
          right
          rw [List.any_eq_false]
          intro raised hr
          have := List.all_eq_true.1 htasks raised hr
          simpa using this
      rw [hnone, Bool.or_false]
    · intro h
      exact (Bool.or_eq_false_iff.1 h).1
    · simp only [Loop.supervise, heq, Bool.false_eq_true, if_false]

/-- A pass keeps the connection, connects, or fails to. -/
theorem step_cases (loop : Loop) (pass : Pass) :
    (loop.step pass = { loop with clock := loop.clock + pass.slept }.supervise pass none) ∨
    (∃ now, loop.clock ≤ now ∧
      loop.step pass =
        { tracker := loop.tracker.noteConnected now, connected := true, clock := now : Loop
          }.supervise pass (some now)) ∨
    (∃ now, loop.clock ≤ now ∧
      loop.step pass =
        ({ loop with clock := now }.handle (some .dbUnavailable), { outage := true })) := by
  have hnow : loop.clock ≤ loop.clock + pass.slept + pass.connecting :=
    le_trans (le_wait _ _) (le_wait _ _)
  by_cases hkept : (loop.connected && !pass.closed) = true
  · left
    simp only [Loop.step, hkept, if_true]
  · right
    by_cases hconnects : pass.connects = true
    · left
      refine ⟨_, hnow, ?_⟩
      simp only [Loop.step, hkept, hconnects, if_true, if_false, Bool.false_eq_true]
    · right
      refine ⟨_, hnow, ?_⟩
      simp only [Loop.step, hkept, hconnects, if_false, Bool.false_eq_true]

end Step

/-! ## The window of a reconnect -/

/-- The window opened at a time has passed, or the deadline the tracker keeps is no earlier than
its end. -/
structure Window (opened : Time) (loop : Loop) : Prop where
  past : opened ≤ loop.clock
  kept : opened + loop.tracker.graceS ≤ loop.clock ∨
    ∃ deadline, loop.tracker.graceUntil = some deadline ∧ opened + loop.tracker.graceS ≤ deadline

section Window

variable {loop : Loop} {pass : Pass} {opened now : Time}

theorem Window.later (hw : Window opened loop) (hnow : loop.clock ≤ now) :
    Window opened { loop with clock := now } where
  past := le_trans hw.past hnow
  kept := hw.kept.imp_left fun h => le_trans h hnow

/-- A later connect moves the deadline later, if it moves it at all. -/
theorem Window.connect (hw : Window opened loop) (hnow : loop.clock ≤ now) :
    Window opened
      { tracker := loop.tracker.noteConnected now, connected := true, clock := now : Loop } where
  past := le_trans hw.past hnow
  kept := by
    have hopened : opened + loop.tracker.graceS ≤ now + loop.tracker.graceS :=
      Int.add_le_add_right (le_trans hw.past hnow) _
    by_cases harmed : (loop.tracker.dbDown && decide (0 < loop.tracker.graceS)) = true
    · right
      refine ⟨now + loop.tracker.graceS, ?_, hopened⟩
      simp only [GraceTracker.noteConnected, harmed, if_true]
    · rcases hw.kept with hpast | ⟨deadline, hd, hle⟩
      · exact .inl (le_trans hpast hnow)
      · right
        refine ⟨deadline, ?_, hle⟩
        simp only [GraceTracker.noteConnected, harmed, if_false, hd, Bool.false_eq_true]

/-- The connect that follows an outage opens its own window. -/
theorem window_of_dbDown (hdown : loop.tracker.dbDown = true) :
    Window now
      { tracker := loop.tracker.noteConnected now, connected := true, clock := now : Loop } where
  past := le_refl _
  kept := by
    by_cases hpos : 0 < loop.tracker.graceS
    · right
      refine ⟨now + loop.tracker.graceS, ?_, le_refl _⟩
      simp [GraceTracker.noteConnected, hdown, hpos]
    · left
      exact Int.add_le_of_le_sub_left ((sub_self now).symm ▸ not_lt.1 hpos)

theorem Window.handle (hw : Window opened loop) (raised : Option Failure) :
    Window opened (loop.handle raised) where
  past := by
    rw [handle_clock]
    exact hw.past
  kept := by
    rw [handle_clock, handle_graceS, handle_graceUntil]
    exact hw.kept

/-- `supervised_sweep` keeps the window and does not sweep inside it. -/
theorem Window.supervise (hw : Window opened loop) (connectedAt : Option Time) :
    Window opened (loop.supervise pass connectedAt).1 ∧
      ∀ swept ∈ (loop.supervise pass connectedAt).2.sweptAt,
        opened + loop.tracker.graceS ≤ swept := by
  have hnow : loop.clock ≤ loop.clock + pass.polling := le_wait _ _
  rcases supervise_cases loop pass connectedAt with ⟨deadline, -, -, heq⟩ | ⟨hle, outage, -, -, heq⟩
  · rw [heq]
    exact ⟨hw.later hnow, fun swept h => absurd h (by simp)⟩
  · have hend : opened + loop.tracker.graceS ≤ loop.clock + pass.polling := by
      rcases hw.kept with hpast | ⟨deadline, hd, hkept⟩
      · exact le_trans hpast hnow
      · exact le_trans hkept (hle deadline hd)
    have hcleared : Window opened
        { loop with
          tracker := { loop.tracker with graceUntil := none }
          clock := loop.clock + pass.polling } :=
      ⟨le_trans hw.past hnow, .inl hend⟩
    rw [heq]
    refine ⟨hcleared.handle pass.scan, fun swept h => ?_⟩
    obtain rfl := Option.some.inj h
    exact hend

/-- The grace is a constant of the run. -/
theorem step_graceS (loop : Loop) (pass : Pass) :
    (loop.step pass).1.tracker.graceS = loop.tracker.graceS := by
  have hsupervise : ∀ (at_ : Loop) (connectedAt : Option Time),
      (at_.supervise pass connectedAt).1.tracker.graceS = at_.tracker.graceS := by
    intro at_ connectedAt
    rcases supervise_cases at_ pass connectedAt with ⟨_, -, -, heq⟩ | ⟨-, _, -, -, heq⟩
    · rw [heq]
    · rw [heq, handle_graceS]
  rcases step_cases loop pass with heq | ⟨now, -, heq⟩ | ⟨now, -, heq⟩
  · rw [heq, hsupervise]
  · rw [heq, hsupervise]
    rfl
  · rw [heq, handle_graceS]

theorem Window.step (hw : Window opened loop) (pass : Pass) :
    Window opened (loop.step pass).1 ∧
      ∀ swept ∈ (loop.step pass).2.sweptAt, opened + loop.tracker.graceS ≤ swept := by
  rcases step_cases loop pass with heq | ⟨now, hnow, heq⟩ | ⟨now, hnow, heq⟩
  · rw [heq]
    exact (hw.later (le_wait _ _)).supervise none
  · rw [heq]
    exact (hw.connect hnow).supervise (some now)
  · rw [heq]
    exact ⟨(hw.later hnow).handle (some .dbUnavailable), fun swept h => absurd h (by simp)⟩

/-- No sweep of a run begins inside an open window. -/
theorem Window.records (hw : Window opened loop) (passes : List Pass) :
    ∀ r ∈ loop.records passes, ∀ swept ∈ r.sweptAt, opened + loop.tracker.graceS ≤ swept := by
  induction passes generalizing loop with
  | nil => exact fun r hr => absurd hr (by simp [Loop.records])
  | cons pass passes ih =>
      intro r hr
      rcases List.mem_cons.1 hr with rfl | hr
      · exact (hw.step pass).2
      · have := ih (hw.step pass).1 r hr
        rwa [step_graceS] at this

end Window

/-! ## Outages -/

section Outages

variable {loop : Loop} {pass : Pass}

/-- `supervised_sweep` never forgets an outage, and notes the one it met. -/
theorem supervise_dbDown {connectedAt : Option Time} (hsurfaces : pass.lossSurfaces = true)
    (h : loop.tracker.dbDown = true ∨ (loop.supervise pass connectedAt).2.outage = true) :
    (loop.supervise pass connectedAt).1.tracker.dbDown = true := by
  rcases supervise_cases loop pass connectedAt with ⟨_, -, -, heq⟩ | ⟨-, outage, hsurface, -, heq⟩
  · rw [heq] at h ⊢
    exact h.resolve_right Bool.false_ne_true
  · rw [heq] at h ⊢
    rw [handle_dbDown, Bool.or_eq_true]
    exact h.imp_right fun hmet => hsurface hsurfaces ▸ hmet

theorem supervise_connectedAt (loop : Loop) (pass : Pass) (connectedAt : Option Time) :
    (loop.supervise pass connectedAt).2.connectedAt = connectedAt := by
  rcases supervise_cases loop pass connectedAt with ⟨_, -, -, heq⟩ | ⟨-, _, -, -, heq⟩ <;> rw [heq]

/-- An outage met in a pass is known after it. -/
theorem dbDown_of_outage (hsurfaces : pass.lossSurfaces = true)
    (hlost : (loop.step pass).2.outage = true) : (loop.step pass).1.tracker.dbDown = true := by
  rcases step_cases loop pass with heq | ⟨now, -, heq⟩ | ⟨now, -, heq⟩
  · rw [heq] at hlost ⊢
    exact supervise_dbDown hsurfaces (.inr hlost)
  · rw [heq] at hlost ⊢
    exact supervise_dbDown hsurfaces (.inr hlost)
  · rw [heq]
    rfl

/-- A known outage stays known while no pass connects. -/
theorem dbDown_step (hsurfaces : pass.lossSurfaces = true) (hdown : loop.tracker.dbDown = true)
    (hnone : (loop.step pass).2.connectedAt = none) :
    (loop.step pass).1.tracker.dbDown = true := by
  rcases step_cases loop pass with heq | ⟨now, -, heq⟩ | ⟨now, -, heq⟩
  · rw [heq]
    exact supervise_dbDown hsurfaces (.inl hdown)
  · rw [heq, supervise_connectedAt] at hnone
    exact absurd hnone (Option.some_ne_none _)
  · rw [heq]
    rfl

theorem dbDown_after {passes : List Pass} (hsurfaces : ∀ pass ∈ passes, pass.lossSurfaces = true)
    (hdown : loop.tracker.dbDown = true)
    (hnone : ∀ r ∈ loop.records passes, r.connectedAt = none) :
    (loop.after passes).tracker.dbDown = true := by
  induction passes generalizing loop with
  | nil => exact hdown
  | cons pass passes ih =>
      have hhead : (loop.step pass).2.connectedAt = none := hnone _ List.mem_cons_self
      exact ih (fun p hp => hsurfaces p (List.mem_cons_of_mem _ hp))
        (dbDown_step (hsurfaces pass List.mem_cons_self) hdown hhead)
        fun r hr => hnone r (List.mem_cons_of_mem _ hr)

/-- The pass that connects after a known outage does not sweep within the grace, and leaves its
window open. -/
theorem window_of_connect {at_ : Time} (hdown : loop.tracker.dbDown = true)
    (hback : (loop.step pass).2.connectedAt = some at_) :
    Window at_ (loop.step pass).1 ∧
      ∀ swept ∈ (loop.step pass).2.sweptAt, at_ + loop.tracker.graceS ≤ swept := by
  rcases step_cases loop pass with heq | ⟨now, -, heq⟩ | ⟨now, -, heq⟩
  · rw [heq, supervise_connectedAt] at hback
    exact absurd hback.symm (Option.some_ne_none _)
  · rw [heq, supervise_connectedAt] at hback
    obtain rfl := Option.some.inj hback
    rw [heq]
    exact (window_of_dbDown hdown).supervise (some now)
  · rw [heq] at hback
    exact absurd hback.symm (Option.some_ne_none _)

end Outages

/-! ## Runs -/

section Runs

variable {loop : Loop} {passes : List Pass}

theorem after_graceS (loop : Loop) (passes : List Pass) :
    (loop.after passes).tracker.graceS = loop.tracker.graceS := by
  induction passes generalizing loop with
  | nil => rfl
  | cons pass passes ih => exact (ih _).trans (step_graceS loop pass)

/-- A run is cut where its records are. -/
theorem records_split {front back : List Record} (h : loop.records passes = front ++ back) :
    ∃ early late, passes = early ++ late ∧ loop.records early = front ∧
      (loop.after early).records late = back := by
  induction front generalizing loop passes with
  | nil => exact ⟨[], passes, rfl, rfl, h⟩
  | cons r front ih =>
      cases passes with
      | nil => exact absurd h (by simp [Loop.records])
      | cons pass passes =>
          obtain ⟨hr, hrest⟩ := List.cons.inj h
          obtain ⟨early, late, rfl, hearly, hlate⟩ := ih hrest
          exact ⟨pass :: early, late, rfl, List.cons_eq_cons.2 ⟨hr, hearly⟩, hlate⟩

/-- The records of a run that begins with a record come from a first pass. -/
theorem records_cons {r : Record} {rest : List Record} (h : loop.records passes = r :: rest) :
    ∃ pass late, passes = pass :: late ∧ (loop.step pass).2 = r ∧
      (loop.step pass).1.records late = rest := by
  cases passes with
  | nil => exact absurd h (by simp [Loop.records])
  | cons pass late =>
      obtain ⟨hr, hrest⟩ := List.cons.inj h
      exact ⟨pass, late, rfl, hr, hrest⟩

theorem graceLaw_records (loop : Loop) (hsurfaces : ∀ pass ∈ passes, pass.lossSurfaces = true) :
    GraceLaw loop.tracker.graceS (loop.records passes) := by
  intro before lost between back rest at_ hsplit houtage hbetween hback
  obtain ⟨early, _, rfl, -, htail⟩ := records_split hsplit
  obtain ⟨first, _, rfl, rfl, hafter⟩ := records_cons htail
  obtain ⟨waiting, _, rfl, rfl, hreturn⟩ := records_split hafter
  obtain ⟨second, late, rfl, rfl, rfl⟩ := records_cons hreturn
  have hdown := dbDown_after
    (fun pass hp => hsurfaces pass (by simp [hp]))
    (dbDown_of_outage (hsurfaces first (by simp)) houtage) hbetween
  have hgraceS : (((loop.after early).step first).1.after waiting).tracker.graceS
      = loop.tracker.graceS := by
    rw [after_graceS, step_graceS, after_graceS]
  obtain ⟨hopened, hquiet⟩ := window_of_connect hdown hback
  intro r hr
  rcases List.mem_cons.1 hr with rfl | hr
  · exact hgraceS ▸ hquiet
  · have := hopened.records late r hr
    rwa [step_graceS, hgraceS] at this

/-- No outage is known and no window is open. -/
structure Loop.Quiet (loop : Loop) : Prop where
  up : loop.tracker.dbDown = false
  closed : loop.tracker.graceUntil = none

theorem Loop.Quiet.supervise {pass : Pass} (hq : loop.Quiet) {connectedAt : Option Time}
    (hmet : (loop.supervise pass connectedAt).2.outage = false) :
    (loop.supervise pass connectedAt).1.Quiet ∧
      (loop.supervise pass connectedAt).2.deferred = false := by
  rcases supervise_cases loop pass connectedAt with ⟨_, hd, -, -⟩ | ⟨-, outage, -, hscan, heq⟩
  · exact absurd (hq.closed.symm.trans hd) (Option.some_ne_none _).symm
  · rw [heq] at hmet ⊢
    refine ⟨⟨?_, ?_⟩, rfl⟩
    · rw [handle_dbDown, Bool.or_eq_false_iff]
      exact ⟨hq.up, hscan hmet⟩
    · rw [handle_graceUntil]

theorem Loop.Quiet.step {pass : Pass} (hq : loop.Quiet)
    (hmet : (loop.step pass).2.outage = false) :
    (loop.step pass).1.Quiet ∧ (loop.step pass).2.deferred = false := by
  rcases step_cases loop pass with heq | ⟨now, -, heq⟩ | ⟨now, -, heq⟩
  · have hwaited : Loop.Quiet { loop with clock := loop.clock + pass.slept } := ⟨hq.up, hq.closed⟩
    rw [heq] at hmet ⊢
    exact hwaited.supervise hmet
  · have hconnected : Loop.Quiet
        { tracker := loop.tracker.noteConnected now, connected := true, clock := now } := by
      refine ⟨rfl, ?_⟩
      simp only [GraceTracker.noteConnected, hq.up, hq.closed, Bool.false_and, Bool.false_eq_true,
        if_false]
    rw [heq] at hmet ⊢
    exact hconnected.supervise hmet
  · rw [heq] at hmet
    exact absurd hmet.symm Bool.false_ne_true

theorem promptLaw_records (hq : loop.Quiet) (passes : List Pass) :
    PromptLaw (loop.records passes) := by
  intro hmet
  induction passes generalizing loop with
  | nil => exact fun r hr => absurd hr (by simp [Loop.records])
  | cons pass passes ih =>
      obtain ⟨hq', hprompt⟩ := hq.step (hmet _ List.mem_cons_self)
      intro r hr
      rcases List.mem_cons.1 hr with rfl | hr
      · exact hprompt
      · exact ih hq' (fun r hr => hmet r (List.mem_cons_of_mem _ hr)) r hr

end Runs

/-! ## The supervisor -/

/-- In a run whose losses all surface from the scan, no sweep begins within the grace of a reconnect
after an outage; and without an outage no sweep is deferred. -/
theorem run_grace (graceS : Time) (passes : List Pass)
    (hsurfaces : ∀ pass ∈ passes, pass.lossSurfaces = true) :
    GraceLaw graceS (run graceS passes) ∧ PromptLaw (run graceS passes) :=
  ⟨graceLaw_records { tracker := { graceS } } hsurfaces, promptLaw_records ⟨rfl, rfl⟩ passes⟩

/-- The scan loses the connection, and two connects fail or succeed in quick succession. -/
theorem run_grace_reconnects :
    GraceLaw 60 (run 60
        [{ scan := some .operationalError }, { slept := 5, connects := false },
          { slept := 5, tasks := [none] }, { slept := 60, tasks := [some .other] }]) ∧
      PromptLaw (run 60
        [{ scan := some .operationalError }, { slept := 5, connects := false },
          { slept := 5, tasks := [none] }, { slept := 60, tasks := [some .other] }]) :=
  run_grace 60 _ (by decide)

/-- The connection is lost while a stale task is handled; the reconnect sweeps at once. -/
theorem loss_swallowed_by_task :
    ¬(GraceLaw 60 (run 60
          [{ tasks := [some .operationalError] }, { slept := 60, closed := true }]) ∧
        PromptLaw (run 60
          [{ tasks := [some .operationalError] }, { slept := 60, closed := true }])) := by
  rintro ⟨hgrace, -⟩
  have := hgrace [] _ [] _ [] 60 rfl rfl (fun r hr => absurd hr (by simp)) rfl _
    List.mem_cons_self 60 rfl
  exact absurd this (by decide)

end AiStudio.Runtime.Reconnect
