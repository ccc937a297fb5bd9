import AiStudio.Runtime.Effects

/-!
# The supervisor

Embeds `sweep` and `run` of `runtime/supervisor.py`: one pass over the stale held tasks, each of
which climbs the cheapest rung of the recovery ladder that applies. A sweep takes the
clock it reads as a parameter; the clock of the database and of the supervisor are one.
-/

set_option autoImplicit false

namespace AiStudio.Runtime

open AiStudio.Data AiStudio.Concurrency

/-- The configuration of the sweeps. -/
structure SweepConfig where
  threshold : Time := 120000000
  maxRetries : Nat := 5
  nudgeGrace : Time := 45000000
  stuckThreshold : Nat := 2

/-- What a single sweep did. -/
structure SweepResult where
  scanned : Nat := 0
  nudged : List Uuid := []
  deferred : List Uuid := []
  rekicked : List Uuid := []
  stuck : List Uuid := []
  failed : List Uuid := []

/-- `_nudge_grace_elapsed`. -/
def nudgeGraceElapsed (row : Task) (now grace : Time) : Bool :=
  row.nudgedAt.all fun nudged => grace ≤ now - nudged

/-- `_default_rekick`: measure net progress, then re-kick. -/
def defaultRekick (id : Uuid) : Process (Option Task) := do
  let made ← call (.taskMadeProgress id)
  call (.rekickTask id (some made))

/-- `_default_escalate_stuck`. -/
def defaultEscalateStuck (id : Uuid) (row : Task) : Process (Option Task) :=
  let reason := row.stallReason.getD ""
  call (.escalateStuckTask id (if reason = "" then "no_progress" else reason)
    row.noProgressRekicks row.retries)

namespace SweepConfig

variable (cfg : SweepConfig)

/-- The cheapest rung of the ladder that applies to a stale task. -/
def climb (now : Time) (id : Uuid) (row : Task) (result : SweepResult) : Process SweepResult :=
  if 0 < cfg.nudgeGrace ∧ row.nudgedAt = none then do
    let nudged ← call (.nudgeTask id cfg.nudgeGrace)
    return if nudged.isSome then { result with nudged := result.nudged ++ [id] } else result
  else if 0 < cfg.nudgeGrace ∧ nudgeGraceElapsed row now cfg.nudgeGrace = false then
    .ret { result with deferred := result.deferred ++ [id] }
  else if cfg.stuckThreshold ≤ row.noProgressRekicks then do
    let stuck ← defaultEscalateStuck id row
    return if stuck.isSome then { result with stuck := result.stuck ++ [id] } else result
  else if cfg.maxRetries ≤ row.retries then do
    let failed ← call (.failExhausted id row cfg.maxRetries)
    return if failed.isSome then { result with failed := result.failed ++ [id] } else result
  else do
    let rekicked ← defaultRekick id
    return if rekicked.isSome then { result with rekicked := result.rekicked ++ [id] } else result

/-- One task of a sweep. An exception must not sink the whole sweep. -/
def handleStale (now : Time) (id : Uuid) (row : Task) (result : SweepResult) :
    Process SweepResult :=
  let result := { result with scanned := result.scanned + 1 }
  (cfg.climb now id row result).tryCatch fun _ => .ret result

/-- The loop of `sweep`. -/
def sweepEach (now : Time) (result : SweepResult) : List (Uuid × Task) → Process SweepResult
  | [] => .ret result
  | (id, row) :: rest =>
      (cfg.handleStale now id row result).bind fun result => sweepEach now result rest

/-- One pass over the graduated recovery ladder. -/
def sweep (now : Time) : Process SweepResult := do
  let stale ← call (.findStaleTasks cfg.threshold)
  cfg.sweepEach now {} stale

/-- The loop of `run`: one sweep for every reading of the clock. A bad sweep does not end
it. -/
def run : List Time → Process SweepResult
  | [] => .ret {}
  | now :: clocks => ((cfg.sweep now).tryCatch fun _ => .ret {}).bind fun _ => run clocks

/-- Time passes, then the supervisor sweeps. -/
def round (elapsed : Nat) (s : Store) : Store :=
  ((call (.tick elapsed)).bind fun _ => cfg.sweep (s.now + elapsed)).eval s |>.2

/-- The state after the first rounds. -/
def rounds (elapsed : Nat → Nat) (s : Store) : Nat → Store
  | 0 => s
  | n + 1 => cfg.round (elapsed n) (rounds elapsed s n)

end SweepConfig

end AiStudio.Runtime
