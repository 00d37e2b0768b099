/-
# `Expr` — the pieces of a compiled template

A template is compiled into a list of expressions.  An expression is a text that stands for itself,
a variable whose key is looked up when the template is evaluated, or a comment, which evaluates to
nothing.

* `Expr` — the three kinds;
* `Expr.value` — the text an expression carries, whatever its kind;
* `Expr.display` — the form in which expressions are listed, one to a line.
-/
import Stencil.Text.Quoted

namespace Stencil

/-- One piece of a compiled template. -/
inductive Expr where
  | literal (text : String)
  | var (key : String)
  | comment (note : String)
  deriving DecidableEq, Repr, Inhabited

namespace Expr

def value : Expr → String
  | literal text => text
  | var key => key
  | comment note => note

def label : Expr → String
  | literal _ => "Literal"
  | var _ => "Variable"
  | comment _ => "Comment"

/-- The listed form: the name of the kind, then the carried text in quotes and parentheses, with
`hidden` telling which characters of it are written by number. -/
def displayWith (hidden : Char → Bool) (e : Expr) : String :=
  e.label ++ "(" ++ Text.quoteWith hidden e.value ++ ")"

/-- The listed form, hidden characters written by number. -/
def display (e : Expr) : String :=
  e.displayWith Text.isHidden

/-- The listing of several expressions, each closed by a line feed. -/
def listing (exprs : List Expr) : String :=
  String.join (exprs.map fun e => e.display ++ "\n")

end Expr

end Stencil
