/-
# `Decimal.Layout` — how a decimal is written

A decimal can be written in positions, `1500.0` or `0.0015`, or with an exponent, `1.5e+300`.  A
layout says which of the two is used, by the exponent the first digit has; the rest is common to all
of them:

* in positions there is always a fraction, so a whole number ends in `.0`;
* with an exponent there is one digit before the point and no fraction unless there are more digits,
  and the sign of the exponent is always written.
-/
import Stencil.Decimal.Shortest

namespace Stencil

namespace Decimal

/-- The digits of a decimal, the first one first. -/
def digitText (d : Decimal) : List Char :=
  Nat.toDigits 10 d.digits

/-- The power of ten that the first digit counts. -/
def leading (d : Decimal) : Int :=
  d.exponent + d.digitText.length - 1

def positional (d : Decimal) : List Char :=
  let digits := d.digitText
  let zeros (n : Int) : List Char := List.replicate n.toNat '0'
  if 0 ≤ d.exponent then digits ++ zeros d.exponent ++ ['.', '0']
  else if 0 ≤ d.leading then
    let whole := (d.leading + 1).toNat
    digits.take whole ++ ['.'] ++ digits.drop whole
  else ['0', '.'] ++ zeros (-d.leading - 1) ++ digits

def scientific (d : Decimal) : List Char :=
  let digits := d.digitText
  let fraction := if digits.length ≤ 1 then [] else '.' :: digits.drop 1
  let sign := if d.leading < 0 then '-' else '+'
  digits.take 1 ++ fraction ++ ['e', sign] ++ Nat.toDigits 10 d.leading.natAbs

/-- Which decimals are written in positions: those whose first digit counts a power of ten from
`10^lowest` to `10^highest`. -/
structure Layout where
  lowest : Int
  highest : Int
  deriving DecidableEq, Repr

/-- A decimal as a layout wants it. -/
def Layout.write (layout : Layout) (d : Decimal) : String :=
  String.ofList
    (if layout.lowest ≤ d.leading ∧ d.leading ≤ layout.highest then d.positional
      else d.scientific)

end Decimal

end Stencil
