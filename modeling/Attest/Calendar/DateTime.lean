import Attest.Calendar.Date

/-! Times of day to the microsecond, offsets from universal time, and points in time given by a day,
a time and perhaps an offset. -/

namespace Attest

def microsecondsPerSecond : Nat := 1000000

def microsecondsPerDay : Nat := 86400 * microsecondsPerSecond

/-- A time that a clock shows. -/
structure TimeOfDay where
  hour : Fin 24
  minute : Fin 60
  second : Fin 60
  microsecond : Fin 1000000
  deriving DecidableEq, Repr

namespace TimeOfDay

instance : Inhabited TimeOfDay := ⟨⟨0, 0, 0, 0⟩⟩

def of? (hour minute second microsecond : Nat) : Option TimeOfDay :=
  if h : hour < 24 ∧ minute < 60 ∧ second < 60 ∧ microsecond < 1000000 then
    some ⟨⟨hour, h.1⟩, ⟨minute, h.2.1⟩, ⟨second, h.2.2.1⟩, ⟨microsecond, h.2.2.2⟩⟩
  else none

/-- The number of microseconds since the day began. -/
def microseconds (t : TimeOfDay) : Nat :=
  ((t.hour.val * 60 + t.minute.val) * 60 + t.second.val) * microsecondsPerSecond +
    t.microsecond.val

/-- The time `n` microseconds after a day began; whole days do not count. -/
def ofMicroseconds (n : Nat) : TimeOfDay :=
  let seconds := n / microsecondsPerSecond
  ⟨Fin.ofNat 24 (seconds / 3600), Fin.ofNat 60 (seconds / 60), Fin.ofNat 60 seconds,
    Fin.ofNat 1000000 n⟩

end TimeOfDay

/-- How far a clock is ahead of universal time, in microseconds: less than a day. -/
structure Offset where
  microseconds : Int
  inRange : microseconds.natAbs < microsecondsPerDay
  deriving DecidableEq, Repr

namespace Offset

def zero : Offset := ⟨0, by decide⟩

instance : Inhabited Offset := ⟨zero⟩

def of? (microseconds : Int) : Option Offset :=
  if h : microseconds.natAbs < microsecondsPerDay then some ⟨microseconds, h⟩ else none

end Offset

/-- A day and a time, with the offset of the clock if that is known. -/
structure DateTime where
  date : Date
  time : TimeOfDay
  offset : Option Offset
  deriving DecidableEq, Repr, Inhabited

namespace DateTime

/-- The number of the day on which times since the epoch are counted from. -/
def epochDay : Nat := 719162

/-- Microseconds from the epoch to the reading of the clock, whatever its offset. -/
def localMicroseconds (t : DateTime) : Int :=
  ((t.date.number : Int) - epochDay) * microsecondsPerDay + t.time.microseconds

/-- Microseconds from the epoch to the point in time; a clock of unknown offset is taken to show
universal time. -/
def instant (t : DateTime) : Int :=
  t.localMicroseconds - (t.offset.map Offset.microseconds).getD 0

/-- The reading of a clock that shows universal time, if its year has four digits at most. -/
def ofInstant? (instant : Int) : Option DateTime := do
  let date ← Date.ofNumber? (instant / microsecondsPerDay + epochDay)
  return ⟨date, TimeOfDay.ofMicroseconds (instant % microsecondsPerDay).toNat, some .zero⟩

end DateTime

end Attest
