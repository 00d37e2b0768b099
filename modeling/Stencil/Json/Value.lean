/-
# `Json.Value` — JSON values as trees

A number is an integer or a float, whichever it was written as or built from; an
object keeps every member it was given, in order and with repetitions, so what a repeated name means
is for the reader of the tree to say.

* `Number.text` — a number as JSON text: an integer in decimal, a float by its shortest decimal;
* `Value.text?` — the text of a value that is not made of values;
* `Value.shape`, `Value.sketch` — what a value is called in a message, by kind or with its content.
-/
import Stencil.Decimal.Layout
import Stencil.Text.Quoted

namespace Stencil.Json

inductive Number where
  | int (n : Int)
  | real (x : Float)

inductive Value where
  | null
  | bool (b : Bool)
  | num (n : Number)
  | str (s : String)
  | arr (items : List Value)
  | obj (members : List (String × Value))

/-! ## Numbers as text -/

/-- Floats are written in positions from `10^(-5)` to `10^15`. -/
def layout : Decimal.Layout :=
  ⟨-5, 15⟩

/-- A finite float as JSON text; a zero keeps its sign. -/
def realText (x : Float) : String :=
  let number := Dyadic64.ofFloat x
  let sign := if number.negative then "-" else ""
  if number.significand = 0 then sign ++ "0.0"
  else sign ++ ((Decimal.shortest? number).map layout.write).getD ""

def Number.text : Number → String
  | int n => toString n
  | real x => realText x

namespace Value

/-- The value of a float: JSON has no text for what is not finite, so that becomes null. -/
def ofFloat (x : Float) : Value :=
  if x.isFinite then num (.real x) else null

def shape : Value → String
  | null => "null"
  | bool _ => "a boolean"
  | num _ => "a number"
  | str _ => "a string"
  | arr _ => "an array"
  | obj _ => "an object"

/-- The kind of a value, and its content if that is not made of values. -/
def sketch : Value → String
  | null => "null"
  | bool b => "boolean `" ++ toString b ++ "`"
  | num (.int n) => "integer `" ++ toString n ++ "`"
  | num (.real x) => "floating point `" ++ realText x ++ "`"
  | str s => "string " ++ Text.quote s
  | arr _ => "sequence"
  | obj _ => "map"

/-- The text of a value that is not made of values; that of null is empty. -/
def text? : Value → Option String
  | null => some ""
  | bool b => some (toString b)
  | num n => some n.text
  | str s => some s
  | arr _ => none
  | obj _ => none

end Value

end Stencil.Json
