import Attest.Text.Encoding

/-! UTF-8: characters as one to four bytes. The reader keeps the bytes of the character that it is
in, so an error names exactly the bytes that cannot be continued. -/

namespace Attest.Text.Utf8

def encode (cs : List Char) : List UInt8 := cs.flatMap String.utf8EncodeChar

/-- A character that has begun: its bytes from last to first, the bits read so far, how many bytes
are still missing and the bounds of the next one. -/
structure Pending where
  seen : List UInt8
  bits : Nat
  missing : Nat
  low : Nat
  high : Nat

/-- What the first byte of a character beyond ASCII announces. -/
def Pending.ofLead? (b : UInt8) : Option Pending :=
  let n := b.toNat
  if n < 0xc2 then none
  else if n < 0xe0 then some ⟨[b], n % 0x20, 1, 0x80, 0xbf⟩
  else if n = 0xe0 then some ⟨[b], 0, 2, 0xa0, 0xbf⟩
  else if n < 0xf0 then some ⟨[b], n % 0x10, 2, 0x80, 0xbf⟩
  else if n = 0xf0 then some ⟨[b], 0, 3, 0x90, 0xbf⟩
  else if n < 0xf4 then some ⟨[b], n % 8, 3, 0x80, 0xbf⟩
  else if n = 0xf4 then some ⟨[b], 4, 3, 0x80, 0x8f⟩
  else none

/-- The bytes so far may begin a character, and not only a surrogate. -/
def Pending.startsCharacter (p : Pending) : Bool :=
  !(p.missing = 1 && 0xd800 / 64 ≤ p.bits && p.bits ≤ 0xdfff / 64 && p.seen.length = 2)

/-- The error at a byte that does not continue the character, `position` being where it began. -/
def Pending.interrupted (p : Pending) (position : Nat) : DecodeError :=
  ⟨"utf-8", if p.startsCharacter then p.seen.reverse else p.seen.reverse.take 1, position,
    .invalidContinuation⟩

/-- The error at the end of the bytes inside a character. -/
def Pending.cutOff (p : Pending) (position : Nat) : DecodeError :=
  if p.startsCharacter then ⟨"utf-8", p.seen.reverse, position, .unexpectedEnd⟩
  else p.interrupted position

/-- Reads on at `position`, after the characters `read` (last first) and inside the character
`pending`, if one has begun. -/
def decodeFrom (position : Nat) (read : List Char) (pending : Option Pending) :
    List UInt8 → Except DecodeError (List Char)
  | [] =>
    match pending with
    | none => .ok read.reverse
    | some p => .error (p.cutOff (position - p.seen.length))
  | b :: rest =>
    match pending with
    | none =>
      if b.toNat < 0x80 then decodeFrom (position + 1) (characterAt b.toNat :: read) none rest
      else
        match Pending.ofLead? b with
        | some p => decodeFrom (position + 1) read (some p) rest
        | none => .error ⟨"utf-8", [b], position, .invalidStart⟩
    | some p =>
      if p.low ≤ b.toNat && b.toNat ≤ p.high then
        let bits := p.bits * 64 + b.toNat % 64
        if p.missing = 1 then decodeFrom (position + 1) (characterAt bits :: read) none rest
        else
          decodeFrom (position + 1) read (some ⟨b :: p.seen, bits, p.missing - 1, 0x80, 0xbf⟩) rest
      else .error (p.interrupted (position - p.seen.length))

/-- The characters of bytes; positions in errors count from the first byte. -/
def decode (bytes : List UInt8) : Except DecodeError (List Char) := decodeFrom 0 [] none bytes

end Attest.Text.Utf8
