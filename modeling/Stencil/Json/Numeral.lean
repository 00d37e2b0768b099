/-
# `Json.Numeral` — numbers as they are written

A numeral is a number as it stands in a JSON text: digits, a fraction and an exponent.  The number it
denotes is found in two steps.

* The digits are gathered into a coefficient of at most 64 bits (`absorb`).  Digits of the whole part
  that do not fit are dropped and counted in the exponent instead; digits of the fraction that do not
  fit are dropped.
* A numeral without fraction and exponent whose digits all fit is an integer, if a word of 64 bits,
  with a sign when the numeral has one, can hold it.  Any other is a float: the coefficient is scaled
  by its power of ten in floating-point steps (`scaled`), and the sign is put on last.
-/
import Stencil.Json.Fault
import Stencil.Json.Value

namespace Stencil.Json

/-- A number as it is written. -/
structure Numeral where
  negative : Bool
  whole : List Char
  fraction : Option (List Char)
  exponent : Option (Bool × List Char)
  deriving DecidableEq, Repr

def digitValue (c : Char) : Nat :=
  c.toNat - '0'.toNat

/-- Adds digits to a coefficient as long as it stays below `2^64`; the digits left over come along. -/
def absorb (coefficient : Nat) : List Char → Nat × List Char
  | [] => (coefficient, [])
  | d :: ds =>
    let next := coefficient * 10 + digitValue d
    if next < 0x10000000000000000 then absorb next ds else (coefficient, d :: ds)

/-- The digits after the one at which an exponent reaches `2^31`, if it does. -/
def beyondExponent (exponent : Nat) : List Char → Option (List Char)
  | [] => none
  | d :: ds =>
    let next := exponent * 10 + digitValue d
    if next < 0x80000000 then beyondExponent next ds else some ds

/-- A power of ten as the float nearest to it. -/
def powerOfTen (k : Nat) : Float :=
  Float.ofScientific 1 false k

/-- A float times a power of ten, unless that is too large.  An exponent beyond the table of powers
is brought into it in steps of 308. -/
def scaled (x : Float) (exponent : Int) : Option Float :=
  if exponent.natAbs ≤ 308 then
    if 0 ≤ exponent then
      let y := x * powerOfTen exponent.natAbs
      if y.isInf then none else some y
    else some (x / powerOfTen exponent.natAbs)
  else if x == 0 then some x
  else if 0 < exponent then none
  else scaled (x / powerOfTen 308) (exponent + 308)
termination_by exponent.natAbs

namespace Numeral

/-- The coefficient and the power of ten it counts, the written exponent left aside. -/
def gathered (n : Numeral) : Nat × Int :=
  let (whole, dropped) := absorb 0 n.whole
  let fraction := n.fraction.getD []
  let (coefficient, unused) := absorb whole fraction
  (coefficient, dropped.length - (fraction.length - unused.length : Nat))

def integer? (n : Numeral) : Option Int :=
  match n.fraction, n.exponent, absorb 0 n.whole with
  | none, none, (coefficient, []) =>
    if !n.negative then some coefficient
    else if 0 < coefficient ∧ coefficient ≤ 0x8000000000000000 then some (-coefficient)
    else none
  | _, _, _ => none

def signed (n : Numeral) (x : Float) : Number :=
  .real (if n.negative then -x else x)

/-- The float that a numeral denotes; `rest` is what follows the numeral.  An exponent of `2^31` or
more is too large, but of a zero or downwards it gives zero. -/
def real (n : Numeral) (rest : List Char) : Except Fault Number :=
  let (coefficient, power) := n.gathered
  let (down, exponent) := n.exponent.getD (false, [])
  match beyondExponent 0 exponent with
  | some unread =>
    if coefficient ≠ 0 ∧ !down then .error (.last .numberOutOfRange (unread ++ rest))
    else .ok (n.signed 0)
  | none =>
    let written : Int := exponent.foldl (fun e d => e * 10 + digitValue d) 0
    match scaled coefficient.toUInt64.toFloat (if down then power - written else power + written) with
    | some x => .ok (n.signed x)
    | none => .error (.last .numberOutOfRange rest)

/-- The number that a numeral denotes; `rest` is what follows the numeral. -/
def number (n : Numeral) (rest : List Char) : Except Fault Number :=
  match n.integer? with
  | some i => .ok (.int i)
  | none => n.real rest

end Numeral

end Stencil.Json
