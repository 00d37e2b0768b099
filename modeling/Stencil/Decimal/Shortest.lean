/-
# `Decimal.shortest?` — the shortest decimal of a float

A double-precision number stands for every real number that rounds to it.  Its shortest decimal is
the one with the fewest digits among the decimals it stands for, and of those the nearest to it.

* `Dyadic64` — a number `significand · 2^exponent` with its sign, as the bits of a `Float` give it;
* `Neighbourhood` — the interval of the reals that round to a positive number;
* `Neighbourhood.onGrid?` — the nearest multiple of a power of ten inside the interval;
* `Decimal.shortest?` — the first hit, from the coarsest power of ten to the finest.

The multiples of a larger power of ten are among those of a smaller one, so the first hit has the
fewest digits.  All comparisons are made between natural numbers, so nothing is rounded.
-/
namespace Stencil

/-! ## Numbers in binary -/

/-- The number `significand · 2^exponent`, negated if `negative`.  `narrow` tells that the next
smaller number is only half as far away as the next larger one. -/
structure Dyadic64 where
  negative : Bool
  significand : Nat
  exponent : Int
  narrow : Bool
  deriving DecidableEq, Repr

/-- The number of a finite float.  The first bit is the sign, the next eleven are the exponent, and
the other 52 the fraction, before which a one is understood unless the exponent bits are zero. -/
def Dyadic64.ofFloat (x : Float) : Dyadic64 :=
  let bits := x.toBits.toNat
  let one := 0x10000000000000
  let fraction := bits % one
  let exponent := bits / one % 0x800
  { negative := 0x8000000000000000 ≤ bits
    significand := if exponent = 0 then fraction else one + fraction
    exponent := (max exponent 1 : Nat) - 1075
    narrow := fraction = 0 && 1 < exponent }

/-! ## What rounds to a number -/

/-- A positive number and the ends of an interval around it, as multiples of `2^exponent`; `closed`
tells whether the ends belong to it. -/
structure Neighbourhood where
  low : Nat
  value : Nat
  high : Nat
  exponent : Int
  closed : Bool
  deriving DecidableEq, Repr

/-- The interval that rounds to a number: it ends halfway to the neighbours, and what is halfway
rounds to the even one of the two significands. -/
def Dyadic64.neighbourhood (x : Dyadic64) : Neighbourhood :=
  { low := 4 * x.significand - if x.narrow then 1 else 2
    value := 4 * x.significand
    high := 4 * x.significand + 2
    exponent := x.exponent - 2
    closed := x.significand % 2 = 0 }

/-! ## Grids of decimals -/

/-- The decimal `digits · 10^exponent`. -/
structure Decimal where
  digits : Nat
  exponent : Int
  deriving DecidableEq, Repr

namespace Neighbourhood

/-- The factor that `2^exponent` has in the common unit of an interval and a grid. -/
def scale (n : Neighbourhood) (power : Int) : Nat :=
  Nat.pow 2 n.exponent.toNat * Nat.pow 10 (-power).toNat

/-- The factor that `10^power` has in the common unit of an interval and a grid. -/
def spacing (n : Neighbourhood) (power : Int) : Nat :=
  Nat.pow 2 (-n.exponent).toNat * Nat.pow 10 power.toNat

/-- Whether `digits · 10^power` is inside the interval. -/
def holds (n : Neighbourhood) (power : Int) (digits : Nat) : Bool :=
  let low := n.low * n.scale power
  let point := digits * n.spacing power
  let high := n.high * n.scale power
  if n.closed then low ≤ point && point ≤ high else low < point && point < high

/-- The multiple of `10^power` inside the interval that is nearest to the number; of two equally
near the even one. -/
def onGrid? (n : Neighbourhood) (power : Int) : Option Nat :=
  let value := n.value * n.scale power
  let below := value / n.spacing power
  let above := below + 1
  match n.holds power below, n.holds power above with
  | false, false => none
  | true, false => some below
  | false, true => some above
  | true, true =>
    let down := value - below * n.spacing power
    let up := above * n.spacing power - value
    if down < up ∨ (down = up ∧ below % 2 = 0) then some below else some above

/-- The first hit among the multiples of `10^power` and of the `finer` next smaller powers. -/
def search (n : Neighbourhood) (power : Int) : (finer : Nat) → Option Decimal
  | 0 => (n.onGrid? power).map (⟨·, power⟩)
  | finer + 1 =>
    match n.onGrid? power with
    | some digits => some ⟨digits, power⟩
    | none => n.search (power - 1) finer

end Neighbourhood

/-- The shortest decimal of a positive number.  No finite number reaches `10^309`, and the multiples
of `10^(-324)` are closer together than any two numbers, so no other power has to be tried. -/
def Decimal.shortest? (x : Dyadic64) : Option Decimal :=
  x.neighbourhood.search 309 633

end Stencil
