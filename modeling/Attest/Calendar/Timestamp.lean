import Attest.Calendar.Iso8601
import Attest.Number.Binary64
import Attest.Text.Hex

/-! Points in time as seconds since the epoch, in both directions, and as texts: in universal time to
the second, and with everything that is known about the clock. -/

namespace Attest.DateTime

/-- Why seconds since the epoch are no point in time. -/
inductive RangeError where
  | beyondClock
  | beyondYears
  | year (year : Int)
  | notNumber
  deriving DecidableEq, Repr

def RangeError.message : RangeError → String
  | beyondClock => "timestamp out of range for platform time_t"
  | beyondYears => "[Errno 75] Value too large for defined data type"
  | year y => s!"year {y} is out of range"
  | notNumber => Binary64.NoInteger.nan.message

/-- The point in time after whole seconds since the epoch and some microseconds. -/
def ofSeconds (seconds : Int) (microseconds : Nat) : Except RangeError DateTime :=
  let year := (Date.yearOfNumber (seconds / 86400 + epochDay)).1
  -- A clock counts seconds in 64 bits, and years since 1900 in 32 bits.
  if seconds < -2 ^ 63 || 2 ^ 63 ≤ seconds then .error .beyondClock
  else if year - 1900 < -2 ^ 31 || 2 ^ 31 ≤ year - 1900 then .error .beyondYears
  else
    match ofInstant? (seconds * microsecondsPerSecond + microseconds) with
    | some t => .ok t
    -- A year beyond 32 bits is reported wrapped.
    | none => .error (.year (Int.bmod year (2 ^ 32)))

/-- The point in time of a floating point number of seconds since the epoch, to the nearest
microsecond, a tie going to the even one. -/
def ofBinary64 (x : Binary64) : Except RangeError DateTime :=
  match x.truncate with
  | .error .nan => .error .notNumber
  | .error .infinity => .error .beyondClock
  | .ok whole =>
    let fraction := x.units % Binary64.unitsPerOne
    -- The product is a floating point number, so the fraction is rounded twice.
    let scaled := Binary64.round false (fraction * microsecondsPerSecond) Binary64.unitsPerOne
    let rounded := roundHalfEven scaled.units Binary64.unitsPerOne
    let microseconds : Int := if x.isNegative then -(rounded : Int) else rounded
    ofSeconds (whole + microseconds / microsecondsPerSecond)
      (microseconds % microsecondsPerSecond).toNat

def ofNumber : Number → Except RangeError DateTime
  | .int i => ofSeconds i 0
  | .float x => ofBinary64 x

def toBinary64 (t : DateTime) : Binary64 :=
  Binary64.round (decide (t.instant < 0)) t.instant.natAbs microsecondsPerSecond

/-- The whole part of the floating point number of seconds since the epoch. -/
def toSeconds (t : DateTime) : Int :=
  match t.toBinary64.truncate with
  | .ok seconds => seconds
  | .error _ => 0

/-- The numeral of `n`, filled with zeros on the left up to `width` digits. -/
def padded (width n : Nat) : List Char :=
  let digits := Nat.toDigits 10 n
  List.replicate (width - digits.length) '0' ++ digits

/-- Why a point in time has no text in universal time. -/
inductive FormatError where
  | yearZero
  | beyondYears
  deriving DecidableEq, Repr

def FormatError.message : FormatError → String
  | yearZero => (RangeError.year 0).message
  | beyondYears => "date value out of range"

/-- The reading of a clock that shows universal time at the same point in time. -/
def toUniversal (t : DateTime) : Except FormatError DateTime :=
  match t.offset with
  -- Such a clock is compared with itself a day before, which the first day does not have.
  | none => if t.date.number = 0 then .error .yearZero else .ok { t with offset := some .zero }
  | some _ =>
    match ofInstant? t.instant with
    | some u => .ok u
    | none => .error .beyondYears

/-- The reading of a clock to the second, as year, month and day, `T`, and hour, minute and second. -/
def secondText (t : DateTime) : List Char :=
  -- Unlike the other numbers, the year is not filled with zeros.
  Nat.toDigits 10 t.date.year ++ '-' :: padded 2 t.date.month ++ '-' :: padded 2 t.date.day ++
    'T' :: padded 2 t.time.hour ++ ':' :: padded 2 t.time.minute ++ ':' :: padded 2 t.time.second

/-- The reading to the second of a clock that shows universal time, with `Z` at the end. -/
def universalText (t : DateTime) : String := String.ofList (t.secondText ++ ['Z'])

def format (t : DateTime) : Except FormatError String := t.toUniversal.map universalText

/-- The microseconds as six decimal places, unless there are none. -/
def placesText (microseconds : Nat) : List Char :=
  if microseconds = 0 then [] else '.' :: padded 6 microseconds

/-- An offset as a sign, hours and minutes, with seconds and microseconds if there are any. -/
def offsetText (o : Offset) : List Char :=
  let magnitude := o.microseconds.natAbs
  let seconds := magnitude / microsecondsPerSecond
  let microseconds := magnitude % microsecondsPerSecond
  let small := if seconds % 60 = 0 && microseconds = 0 then []
    else ':' :: padded 2 (seconds % 60) ++ placesText microseconds
  (if o.microseconds < 0 then '-' else '+') :: padded 2 (seconds / 3600) ++
    ':' :: padded 2 (seconds / 60 % 60) ++ small

/-- Everything that is known about a point in time: year, month, day, `T`, the time of day, and the
offset. -/
def text (t : DateTime) : String :=
  String.ofList <|
    padded 4 t.date.year ++ '-' :: padded 2 t.date.month ++ '-' :: padded 2 t.date.day ++
      'T' :: padded 2 t.time.hour ++ ':' :: padded 2 t.time.minute ++
      ':' :: padded 2 t.time.second ++ placesText t.time.microsecond ++
      (t.offset.map offsetText).getD []

end Attest.DateTime
