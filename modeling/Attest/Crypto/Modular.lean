/-! Arithmetic modulo a number, and the multiples of an element of a group by repeated doubling. -/

namespace Attest.Crypto

/-- The binary digits of a number before the digits `after`, the least significant one last; the fuel
bounds their number. -/
def bitsBefore (after : List Bool) : (fuel n : Nat) → List Bool
  | 0, _ => after
  | fuel + 1, n => if n = 0 then after else bitsBefore ((n % 2 == 1) :: after) fuel (n / 2)

/-- The binary digits of a number, the most significant one first. -/
def bits (n : Nat) : List Bool := bitsBefore [] (n.log2 + 1) n

/-- What `n` copies of `x` combine to. -/
def repeated {α : Type} (combine : α → α → α) (neutral x : α) (n : Nat) : α :=
  (bits n).foldl (fun acc bit =>
    let doubled := combine acc acc
    if bit then combine doubled x else doubled) neutral

namespace Modular

/-- The difference of two numbers below the modulus `m`. -/
def sub (m a b : Nat) : Nat := (a + (m - b)) % m

def pow (m a n : Nat) : Nat := repeated (fun x y => x * y % m) (1 % m) (a % m) n

/-- The inverse modulo a prime. -/
def inverse (prime a : Nat) : Nat := pow prime a (prime - 2)

end Modular

end Attest.Crypto
