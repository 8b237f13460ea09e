/-
Numbers of a configuration, compared by value.

A configuration distinguishes whole numbers from real ones in the way it writes them, but compares
them by value.  A real number is stored in binary with 53 significant digits, so what a decimal
numeral stands for is the nearest such number, a tie going to the even neighbour; `1e+23` is
therefore *not* the whole number with twenty-three zeros.

Main definitions:

* `Edl.Config.Number` — an exact dyadic value, an infinity, or no number at all;
* `Edl.Config.nearest` — the stored value nearest to a decimal one;
* `Edl.Config.Number.ofNumeral` — the number that a numeral stands for;
* `Edl.Config.Number.same` — equality of numbers, under which the undefined one equals nothing.
-/

set_option relaxedAutoImplicit false
set_option autoImplicit false

namespace Edl.Config

/-- The value of a number in a configuration. -/
inductive Number where
  | exact (value : Dyadic)
  | infinite (negative : Bool)
  | undefined

/-- Equality by value; the undefined number differs from every number, itself included. -/
def Number.same : Number → Number → Bool
  | .exact a, .exact b => a == b
  | .infinite a, .infinite b => a == b
  | _, _ => false

/-- The value of a run of decimal digits. -/
def decimal (digits : List Char) : Nat :=
  digits.foldl (fun n c => 10 * n + (c.toNat - 48)) 0

/-- The quotient rounded to the nearest whole number, a tie going to the even neighbour. -/
def roundDiv (n d : Nat) : Nat :=
  let q := n / d
  let r := n % d
  if d < 2 * r || (2 * r == d && q % 2 == 1) then q + 1 else q

/-- The number of the form `n * 2 ^ q`, with `n` of 53 binary digits and `q` at least `-1074`, that
is nearest to `digits * 10 ^ exponent`. -/
def nearest (digits : Nat) (exponent : Int) : Dyadic :=
  if digits = 0 then 0
  else
    let n := digits * Nat.pow 10 exponent.toNat
    let d := Nat.pow 10 (-exponent).toNat
    -- The quotient lies strictly between `2 ^ (k - 1)` and `2 ^ (k + 1)`.
    let k : Int := (Nat.log2 n : Int) - Nat.log2 d
    let scaled (q : Int) : Nat × Nat := (n * Nat.pow 2 (-q).toNat, d * Nat.pow 2 q.toNat)
    let low := scaled (k - 53)
    let q := max (if low.1 / low.2 < Nat.pow 2 53 then k - 53 else k - 52) (-1074)
    Dyadic.ofIntWithPrec (roundDiv (scaled q).1 (scaled q).2 : Nat) (-q)

/-- A number written with an optional fraction and an optional exponent, without its sign. -/
def unsigned (numeral : List Char) : Dyadic :=
  let whole := numeral.takeWhile Char.isDigit
  let rest := numeral.dropWhile Char.isDigit
  let fraction := match rest with
    | '.' :: tail => tail.takeWhile Char.isDigit
    | _ => []
  let power : Int := match rest.dropWhile (· != 'e') with
    | 'e' :: '-' :: tail => -(decimal tail : Int)
    | 'e' :: '+' :: tail => decimal tail
    | 'e' :: tail => decimal tail
    | _ => 0
  nearest (decimal (whole ++ fraction)) (power - fraction.length)

/-- The number that a numeral stands for. -/
def Number.ofNumeral (numeral : String) : Number :=
  match numeral.toList with
  | ['n', 'a', 'n'] => .undefined
  | ['i', 'n', 'f'] => .infinite false
  | ['-', 'i', 'n', 'f'] => .infinite true
  | '-' :: digits => .exact (-unsigned digits)
  | digits => .exact (unsigned digits)

/-- A whole number is its own value. -/
def Number.ofInt (n : Int) : Number :=
  .exact (Dyadic.ofIntWithPrec n 0)

example : (Number.ofNumeral "1e+16").same (.ofInt 10000000000000000) = true := by decide +kernel
example : (Number.ofNumeral "1e+23").same (.ofInt (10 ^ 23)) = false := by decide +kernel
example : (Number.ofNumeral "-0.0").same (.ofInt 0) = true := by decide +kernel
example : (Number.ofNumeral "2.5").same (.ofNumeral "25e-1") = true := by decide +kernel

end Edl.Config
