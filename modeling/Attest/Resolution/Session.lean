import Attest.Error
import Attest.Value.Arithmetic

/-! What surrounds the issue and the verification of tokens: a clock, the log, and the identifiers
that were resolved. -/

namespace Attest

/-- A clock: what it shows each time that it is read, and how often it was read. A clock that cannot
go on after a reading shows nothing. -/
structure Clock where
  reading : Nat → Except Value.Fault Number
  reads : Nat

namespace Clock

/-- The time after some readings of a clock that goes on by the same amount after each of them, and
stands still where it cannot. -/
def steadyTime (start tick : Number) : Nat → Number
  | 0 => start
  | n + 1 =>
    let time := steadyTime start tick n
    (time.add? tick).getD time

/-- What a clock shows that goes on by the same amount after each reading. -/
def steadyReading (start tick : Number) (n : Nat) : Except Value.Fault Number :=
  let time := steadyTime start tick n
  if (time.add? tick).isSome then .ok time else .error .tooLarge

/-- A clock that goes on by the same amount after each reading. -/
def steady (start tick : Number) : Clock := ⟨steadyReading start tick, 0⟩

/-- What a clock shows now, and the clock after that. -/
def read (c : Clock) : Except Value.Fault Number × Clock :=
  (c.reading c.reads, { c with reads := c.reads + 1 })

/-- A clock after some time has passed, which has to be a number that can be added to the time. -/
def advance (c : Clock) (amount : Value) : Except Value.Fault Clock := do
  -- An amount that does not fit the time is refused now, not at the next reading.
  let _ ← amount.addTo "+=" (← c.reading c.reads)
  return { c with reading := fun n => do amount.addTo "+=" (← c.reading n) }

end Clock

/-- Something that is written to the log. -/
inductive Event where
  | signingCredential (signer algorithm : Value)
  | signingPresentation (signer : Value) (credentials : Nat)
  | signatureVerified (verifier : Value)
  | audienceMatched (verifier : Value)
  | verifyingCredential (index : Nat)
  | resolved (did : String)

def Event.message : Event → String
  | signingCredential signer algorithm =>
    "signing credential as " ++ signer.plain ++ " (alg=" ++ algorithm.plain ++ ")"
  | signingPresentation signer credentials =>
    "signing presentation as " ++ signer.plain ++ s!" with {credentials} credential(s)"
  | signatureVerified verifier => "signature verified against " ++ verifier.plain
  | audienceMatched verifier => "audience matched for " ++ verifier.plain
  | verifyingCredential index => s!"verifying credential {index} of presentation"
  | resolved did => "resolved " ++ did

/-- The state of a session: the clock, the log, and the identifiers that resolvers were asked for. -/
structure Session where
  clock : Clock
  log : List Event
  asked : List Value

/-- Something that runs in a session and gives a result or an error; what it did to the session
stays done in both cases. -/
abbrev Run (α : Type) := ExceptT Error (StateM Session) α

namespace Run

def fail {α : Type} (e : Error) : Run α := ExceptT.mk fun s => (.error e, s)

/-- Gives a result that does not depend on the session. -/
def ofExcept {α : Type} (x : Except Error α) : Run α := ExceptT.mk fun s => (x, s)

def readClock : Run Number :=
  ExceptT.mk fun s =>
    let (now, clock) := s.clock.read
    (now.mapError .ofFault, { s with clock := clock })

def advance (amount : Value) : Run Unit :=
  ExceptT.mk fun s =>
    match s.clock.advance amount with
    | .ok clock => (.ok (), { s with clock := clock })
    | .error f => (.error (.ofFault f), s)

def log (e : Event) : Run Unit := ExceptT.mk fun s => (.ok (), { s with log := s.log ++ [e] })

/-- Notes that a resolver is asked for an identifier. -/
def noteAsked (did : Value) : Run Unit :=
  ExceptT.mk fun s => (.ok (), { s with asked := s.asked ++ [did] })

/-- Runs something that has no part in the note of the identifiers that resolvers are asked for. -/
def keepAsked {α : Type} (run : Run α) : Run α :=
  ExceptT.mk fun s =>
    let (result, t) := run s
    (result, { t with asked := s.asked })

def mapError {α : Type} (f : Error → Error) (run : Run α) : Run α :=
  ExceptT.mk fun s =>
    match run s with
    | (.ok a, s) => (.ok a, s)
    | (.error e, s) => (.error (f e), s)

end Run

end Attest
