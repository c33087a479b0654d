import Polyglot.Toml.Text
import Polyglot.Toml.Value

/-!
# TOML numbers

Whole numbers fit in 64 bits with sign. A decimal that is too large for a double is refused unless
it is negative. A single underscore may stand between two digits.
-/

set_option autoImplicit false

namespace Polyglot.Toml

/-- Digits with single underscores between them, after at least one digit. -/
def moreDigits (isDigit : Char → Bool) : List Char → List Char × List Char
  | '_' :: c :: rest =>
    if isDigit c then consRead c (moreDigits isDigit rest) else ([], '_' :: c :: rest)
  | c :: rest => if isDigit c then consRead c (moreDigits isDigit rest) else ([], c :: rest)
  | [] => ([], [])

/-- One or more digits. -/
def digits (isDigit : Char → Bool) : Reader (List Char)
  | c :: rest => if isDigit c then some (consRead c (moreDigits isDigit rest)) else none
  | [] => none

/-- Digits of a whole number: a zero in front stands alone. -/
def wholeDigits : Reader (List Char)
  | '0' :: rest => some (['0'], rest)
  | cs => digits Char.isDigit cs

/-- A sign, and whether it is a minus. -/
def sign : List Char → Bool × List Char
  | '-' :: rest => (true, rest)
  | '+' :: rest => (false, rest)
  | cs => (false, cs)

/-- The number that decimal digits spell. -/
def decimalValue (cs : List Char) : Nat := (numeral? 10 cs).getD 0

/-- A number with a sign. -/
def signed (negative : Bool) (n : Nat) : Int := if negative then -n else n

/-- A whole number, if it fits. -/
def inRange? (n : Int) : Option Value :=
  if -9223372036854775808 ≤ n ∧ n ≤ 9223372036854775807 then some (.integer n) else none

/-- A whole number in another base, behind the letter of the base. -/
def basedInteger (base : Nat) : Reader Value := fun cs => do
  let (ds, rest) ← digits (fun c => (digitIn? base c).isSome) cs
  let n ← numeral? base ds
  let v ← inRange? n
  return (v, rest)

/-- The digits of a fraction, behind the point. -/
def fraction : Reader (List Char) := digits Char.isDigit

/-- An exponent, behind its letter. -/
def exponent : Reader Int := fun cs => do
  let (negative, cs) := sign cs
  let (ds, rest) ← digits Char.isDigit cs
  return (signed negative (decimalValue ds), rest)

/-- From here on a decimal rounds to infinity: half a unit above the largest double. -/
def doubleLimit : Nat := Nat.pow 2 1024 - Nat.pow 2 970

/-- Whether `digits · 10 ^ exponent` is too large for a double; `length` is the number of digits.
Powers of ten are computed only where the order of magnitude does not decide. -/
def overflows (digits length : Nat) (exponent : Int) : Bool :=
  let magnitude := length + exponent
  if digits = 0 || magnitude < 309 then false
  else if 309 < magnitude then true
  else doubleLimit * Nat.pow 10 (-exponent).toNat ≤ digits * Nat.pow 10 exponent.toNat

/-- A decimal, if it is not too large. -/
def decimal? (negative : Bool) (ds : List Char) (exponent : Int) : Option Value :=
  let significant := ds.dropWhile (· = '0')
  let n := decimalValue significant
  if !negative && overflows n significant.length exponent then none
  else some (.decimal (.finite negative n exponent))

/-- What follows the whole part of a number: a fraction, an exponent, both, or nothing. -/
def afterWhole (negative : Bool) (whole : List Char) : Reader Value
  | '.' :: cs => do
    let (frac, rest) ← fraction cs
    let shift : Int := -(frac.length : Int)
    match rest with
    | 'e' :: rest | 'E' :: rest => do
      let (e, rest) ← exponent rest
      let v ← decimal? negative (whole ++ frac) (e + shift)
      return (v, rest)
    | _ => do
      let v ← decimal? negative (whole ++ frac) shift
      return (v, rest)
  | 'e' :: cs | 'E' :: cs => do
    let (e, rest) ← exponent cs
    let v ← decimal? negative whole e
    return (v, rest)
  | cs => do
    let v ← inRange? (signed negative (decimalValue whole))
    return (v, cs)

/-- A decimal without a finite value, behind its sign. -/
def special (negative : Bool) : Reader Value
  | 'i' :: 'n' :: 'f' :: rest => some (.decimal (.infinite negative), rest)
  | 'n' :: 'a' :: 'n' :: rest => some (.decimal .nan, rest)
  | _ => none

/-- A number in any notation. -/
def number : Reader Value
  | '0' :: 'x' :: rest => basedInteger 16 rest
  | '0' :: 'o' :: rest => basedInteger 8 rest
  | '0' :: 'b' :: rest => basedInteger 2 rest
  | cs =>
    let (negative, cs) := sign cs
    (special negative cs).or do
      let (whole, rest) ← wholeDigits cs
      afterWhole negative whole rest

end Polyglot.Toml
