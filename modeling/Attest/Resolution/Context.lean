import Attest.Resolution.Session

/-! Limits on the resolution of identifiers: a deadline, and a signal to give up. -/

namespace Attest

/-- The limits that resolvers have to keep. The deadline is null if there is none. -/
structure Context where
  deadline : Value
  cancelled : Bool

namespace Context

/-- A context with a deadline, given as such or as a time from now on. -/
def start (timeout deadline : Value) : Run Context :=
  -- A deadline that is given decides, and the time from now on is not looked at.
  if !deadline.isNull || timeout.isNull then pure ⟨deadline, false⟩
  else do
    let deadline ← Run.ofExcept ((timeout.addTo "+" (← Run.readClock)).mapError .ofFault)
    return ⟨.ofNumber deadline, false⟩

def cancel (c : Context) : Context := { c with cancelled := true }

def expired (c : Context) : Run Bool :=
  if c.deadline.isNull then pure false
  else do Run.ofExcept ((c.deadline.isAtMost (← Run.readClock)).mapError .ofFault)

/-- Fails if the context was cancelled or its deadline has been reached. -/
def check (c : Context) : Run Unit := do
  if c.cancelled then Run.fail (.resolution .cancelled)
  else if ← c.expired then Run.fail (.resolution .deadlineExceeded)
  else pure ()

def checkSome : Option Context → Run Unit
  | some c => c.check
  | none => pure ()

end Context

end Attest
