import Attest.Json.Error
import Attest.Number.Text
import Attest.Text.Utf16
import Attest.Value.Object

/-! The reader of JSON text. Beyond the standard it takes the names of numbers that are not finite.
Of the members of an object with one name the last value is kept, at the place of the first. -/

namespace Attest.Json

/-- A fault, with what is left of the text at the place where it lies. -/
inductive Fault where
  | problem (p : Problem) (rest : List Char)
  | tooManyDigits (digits : Nat)
  deriving DecidableEq, Repr

/-- What a reader gives: something read and what is left of the text. -/
abbrev Reading (α : Type) := Except Fault (α × List Char)

def isBlank (c : Char) : Bool := c == ' ' || c == '\n' || c == '\t' || c == '\r'

def skipBlanks (cs : List Char) : List Char := cs.dropWhile isBlank

/-- The character that a letter after a backslash stands for. -/
def unescape? : Char → Option Char
  | '"' => some '"'
  | '\\' => some '\\'
  | '/' => some '/'
  | 'b' => some '\x08'
  | 'f' => some '\x0c'
  | 'n' => some '\n'
  | 'r' => some '\r'
  | 't' => some '\t'
  | _ => none

/-- The number that four hexadecimal digits stand for. -/
def unit? (a b c d : Char) : Option Nat := do
  return ((16 * (← Text.hexValue? a) + (← Text.hexValue? b)) * 16 + (← Text.hexValue? c)) * 16 +
    (← Text.hexValue? d)

/-- Reads on in a string that began at `start`, after the UTF-16 units and characters `read` (last
first). -/
def units (start : List Char) (read : List Nat) : List Char → Reading (List Nat)
  | [] => .error (.problem .unterminatedString start)
  | '"' :: rest => .ok (read.reverse, rest)
  | ['\\'] => .error (.problem .unterminatedString start)
  -- The escape of a unit must have something after it.
  | '\\' :: 'u' :: a :: b :: c :: d :: e :: rest =>
    match unit? a b c d with
    | some n => units start (n :: read) (e :: rest)
    | none => .error (.problem .unicodeEscape ('u' :: a :: b :: c :: d :: e :: rest))
  | '\\' :: c :: rest =>
    if c = 'u' then .error (.problem .unicodeEscape (c :: rest))
    else
      match unescape? c with
      | some d => units start (d.toNat :: read) rest
      | none => .error (.problem .escape ('\\' :: c :: rest))
  | c :: rest =>
    if c.toNat < 0x20 then .error (.problem .controlCharacter (c :: rest))
    else units start (c.toNat :: read) rest

/-- The string whose opening quote has been read and stands at the start of `start`. -/
def string (start cs : List Char) : Reading String :=
  match units start [] cs with
  | .ok (read, rest) => .ok (String.ofList (Text.Utf16.decodeUnits [] none read), rest)
  | .error f => .error f

def number (limit : Nat) (cs : List Char) : Reading Value :=
  match Numeral.take cs with
  | none => .error (.problem .value cs)
  | some (n, rest) =>
    if n.isFloat then .ok (.float n.toBinary64, rest)
    else if limit < n.whole.length then .error (.tooManyDigits n.whole.length)
    else .ok (.int n.toInt, rest)

/-- The value at the start of a text that is neither a string, a list nor an object. -/
def scalar (limit : Nat) : List Char → Reading Value
  | 'n' :: 'u' :: 'l' :: 'l' :: rest => .ok (.null, rest)
  | 't' :: 'r' :: 'u' :: 'e' :: rest => .ok (.bool true, rest)
  | 'f' :: 'a' :: 'l' :: 's' :: 'e' :: rest => .ok (.bool false, rest)
  | 'N' :: 'a' :: 'N' :: rest => .ok (.float .nan, rest)
  | 'I' :: 'n' :: 'f' :: 'i' :: 'n' :: 'i' :: 't' :: 'y' :: rest =>
    .ok (.float (.infinity false), rest)
  | '-' :: 'I' :: 'n' :: 'f' :: 'i' :: 'n' :: 'i' :: 't' :: 'y' :: rest =>
    .ok (.float (.infinity true), rest)
  | cs => number limit cs

mutual

/-- The value at the start of a text. The fuel bounds the number of values, which is at most that of
characters. -/
def value (limit fuel : Nat) (cs : List Char) : Reading Value :=
  match fuel with
  | 0 => .error (.problem .value cs)
  | fuel + 1 =>
    match cs with
    | '"' :: rest =>
      match string cs rest with
      | .ok (s, rest) => .ok (.text s, rest)
      | .error f => .error f
    | '[' :: rest =>
      match skipBlanks rest with
      | ']' :: rest => .ok (.list [], rest)
      | rest => items limit fuel [] rest
    | '{' :: rest =>
      match skipBlanks rest with
      | '}' :: rest => .ok (.object [], rest)
      | rest => members limit fuel [] rest
    | cs => scalar limit cs

/-- The rest of a list from one of its items on, after the items `read` (last first). -/
def items (limit fuel : Nat) (read : List Value) (cs : List Char) : Reading Value :=
  match fuel with
  | 0 => .error (.problem .value cs)
  | fuel + 1 =>
    match value limit fuel cs with
    | .error f => .error f
    | .ok (v, rest) =>
      match skipBlanks rest with
      | ']' :: rest => .ok (.list (v :: read).reverse, rest)
      | ',' :: rest => items limit fuel (v :: read) (skipBlanks rest)
      | rest => .error (.problem .comma rest)

/-- The rest of an object from one of its names on, after the members `read` (last first). -/
def members (limit fuel : Nat) (read : List (String × Value)) (cs : List Char) : Reading Value :=
  match fuel with
  | 0 => .error (.problem .value cs)
  | fuel + 1 =>
    match cs with
    | '"' :: rest =>
      match string cs rest with
      | .error f => .error f
      | .ok (name, rest) =>
        match skipBlanks rest with
        | ':' :: rest =>
          match value limit fuel (skipBlanks rest) with
          | .error f => .error f
          | .ok (v, rest) =>
            match skipBlanks rest with
            -- A name that occurs again keeps its place and gets the new value.
            | '}' :: rest => .ok (.object (Object.ofMembers ((name, v) :: read).reverse), rest)
            | ',' :: rest => members limit fuel ((name, v) :: read) (skipBlanks rest)
            | rest => .error (.problem .comma rest)
        | rest => .error (.problem .colon rest)
    | cs => .error (.problem .name cs)

end

/-- The value that a text stands for, with blanks around it. -/
def document (limit : Nat) (cs : List Char) : Except Fault Value :=
  match value limit (2 * cs.length + 1) (skipBlanks cs) with
  | .error f => .error f
  | .ok (v, rest) =>
    match skipBlanks rest with
    | [] => .ok v
    | rest => .error (.problem .extraData rest)

def Fault.toReadError (cs : List Char) : Fault → ReadError
  | tooManyDigits digits => .tooManyDigits digits
  | problem p rest =>
    let position := cs.length - rest.length
    let before := cs.take position
    .syntaxError p (before.count '\n' + 1)
      ((before.reverse.takeWhile (· != '\n')).length + 1) position

/-- The value that a text stands for, whole numbers having at most `limit` digits. -/
def readText (limit : Nat) (cs : List Char) : Except ReadError Value :=
  (document limit cs).mapError (Fault.toReadError cs)

end Attest.Json
