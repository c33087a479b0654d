import Polyglot.Toml.Text
import Polyglot.Toml.Value

/-!
# TOML dates and times

A date, a time of day, or a date with a time and perhaps an offset. Days exist in their month.
-/

set_option autoImplicit false

namespace Polyglot.Toml

/-- A number of exactly as many digits as asked for. -/
def fixedDigits (count : Nat) : Reader Nat := fun cs => do
  let ds := cs.take count
  let n ← numeral? 10 ds
  if ds.length = count then some (n, cs.drop count) else none

/-- A number of two digits within bounds. -/
def twoDigits (low high : Nat) : Reader Nat := fun cs => do
  let (n, rest) ← fixedDigits 2 cs
  if low ≤ n ∧ n ≤ high then some (n, rest) else none

/-- The characters behind an expected one. -/
def expect (c : Char) : List Char → Option (List Char)
  | d :: rest => if d = c then some rest else none
  | [] => none

/-- The number of days in a month of a year. -/
def daysIn (year month : Nat) : Nat :=
  if month = 2 then
    if year % 4 = 0 ∧ (year % 100 ≠ 0 ∨ year % 400 = 0) then 29 else 28
  else if month = 4 ∨ month = 6 ∨ month = 9 ∨ month = 11 then 30
  else 31

/-- The characters behind a date. -/
def date? (cs : List Char) : Option (List Char) := do
  let (year, cs) ← fixedDigits 4 cs
  let cs ← expect '-' cs
  let (month, cs) ← twoDigits 1 12 cs
  let cs ← expect '-' cs
  let (_, cs) ← twoDigits 1 (daysIn year month) cs
  return cs

/-- The characters behind the fraction of a second, or all of them if there is none. -/
def skipFraction : List Char → List Char
  | '.' :: c :: rest => if c.isDigit then rest.dropWhile Char.isDigit else '.' :: c :: rest
  | cs => cs

/-- The characters behind a time of day; a minute may have a leap second. -/
def time? (cs : List Char) : Option (List Char) := do
  let (_, cs) ← twoDigits 0 23 cs
  let cs ← expect ':' cs
  let (_, cs) ← twoDigits 0 59 cs
  let cs ← expect ':' cs
  let (_, cs) ← twoDigits 0 60 cs
  return skipFraction cs

/-- The characters behind an offset, or all of them if there is none. An offset that is started has
to be finished. -/
def offset? : List Char → Option (List Char)
  | 'Z' :: rest | 'z' :: rest => some rest
  | '+' :: cs | '-' :: cs => do
    let (_, cs) ← twoDigits 0 23 cs
    let cs ← expect ':' cs
    let (_, cs) ← twoDigits 0 59 cs
    return cs
  | cs => some cs

/-- The characters behind a time and an offset that follow a date, or all of them if none do. -/
def timeAfterDate? (cs : List Char) : Option (List Char) :=
  let time := match cs with
    | 'T' :: rest | 't' :: rest | ' ' :: rest => time? rest
    | _ => none
  match time with
  | some rest => offset? rest
  | none => some cs

/-- A date, a time of day, or both. -/
def moment : Reader Value := fun cs => do
  let rest ← match date? cs with
    | some rest => timeAfterDate? rest
    | none => time? cs
  return (.moment (String.ofList (cs.take (cs.length - rest.length))), rest)

end Polyglot.Toml
