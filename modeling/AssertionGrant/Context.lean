import AssertionGrant.Failure
import AssertionGrant.Number.Shortest

/-!
The context of one request: whether it was cancelled, and until when it may run, as a reading of a
clock that only moves forward. A context that is done stays done.
-/

namespace AssertionGrant

structure Context where
  /-- The reading at which the request is done. -/
  deadline : Option Binary64
  cancelled : Bool
  deriving DecidableEq, Repr

namespace Context

/-- A context that starts now and may run for a positive count of seconds, or for ever. -/
def start (uptime : Binary64) : Option Number → Except Fault Context
  | none => .ok ⟨none, false⟩
  | some seconds =>
    if !seconds.notAtMostZero then
      .error ⟨.value, "timeout must be positive, got " ++ seconds.text⟩
    else if seconds.isTooLarge then
      .error ⟨.overflow, "int too large to convert to float"⟩
    else .ok ⟨some (uptime.add seconds.toBinary64), false⟩

def cancel (c : Context) : Context := { c with cancelled := true }

def isExpired (c : Context) (uptime : Binary64) : Bool :=
  match c.deadline with
  | some deadline => deadline.le uptime
  | none => false

def check (c : Context) (uptime : Binary64) : Except Refusal Unit :=
  if c.cancelled then .error (.hinted .serverError "The request was cancelled.")
  else if c.isExpired uptime then
    .error (.hinted .serverError "The request deadline was exceeded.")
  else .ok ()

end Context
end AssertionGrant
