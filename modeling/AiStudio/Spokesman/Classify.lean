import AiStudio.Spokesman.Inbound

/-!
# The notifier

Embeds the `Notifier` of `spokesman/classify.py`: alarms interrupt, approvals and
information wait for the digest.
-/

set_option autoImplicit false

namespace AiStudio.Spokesman

open AiStudio.Data AiStudio.Runtime

/-- `NotifyKind`: the kinds of a notification. -/
inductive NotifyKind where
  | approve
  | inform
  | alarm
  deriving DecidableEq, Repr

/-- `_coerce_kind`. -/
def coerceKind (kind : String) : Option NotifyKind :=
  match lower (strip kind) with
  | "approve" => some .approve
  | "inform" => some .inform
  | "alarm" => some .alarm
  | _ => none

/-- What the notifier has pending for the digest, and what it has sent. -/
structure Outbox where
  pending : List (NotifyKind × String)
  sent : List String

/-- `Notifier.notify`: an alarm goes out, the rest waits for the digest. -/
def Outbox.notify (box : Outbox) (kind text : String) : Except Exn Outbox :=
  match coerceKind kind with
  | none => .error (.valueError "unknown notify kind")
  | some kind =>
      if strip text = "" then .error (.valueError "notification text must not be empty")
      else if kind = .alarm then .ok { box with sent := box.sent ++ ["🚨 " ++ strip text] }
      else .ok { box with pending := box.pending ++ [(kind, strip text)] }

/-- The wire string of a kind. -/
def NotifyKind.value : NotifyKind → String
  | approve => "approve"
  | inform => "inform"
  | alarm => "alarm"

theorem coerceKind_value (kind : NotifyKind) : coerceKind kind.value = some kind := by
  cases kind <;> decide

end AiStudio.Spokesman
