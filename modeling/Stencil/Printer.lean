/-
# `print` — lists of expressions as templates

The lists of expressions that come from templates, and a template for each of them.

* `WellShaped` — the lists that are compiled from some source: literals with a variable or a comment
  between any two of them, and after the last one possibly another that markup without a closing
  brace has left.  A key holds no closing brace, and a comment holds nothing;
* `print` — a template for such a list.
-/
import Stencil.Expr

namespace Stencil

/-- The lists of expressions that a source can be compiled to. -/
inductive WellShaped : List Expr → Prop
  | last (text : String) : WellShaped [.literal text]
  | unclosed (text rest : String) : '}' ∉ rest.toList → WellShaped [.literal text, .literal rest]
  | var (text key : String) (rest : List Expr) : '}' ∉ key.toList → WellShaped rest →
      WellShaped (.literal text :: .var key :: rest)
  | comment (text : String) (rest : List Expr) : WellShaped rest →
      WellShaped (.literal text :: .comment "" :: rest)

/-- What one character of a literal is printed as: the characters that can begin markup or an escape
are escaped. -/
def printChar (c : Char) : List Char :=
  if c = '\\' ∨ c = '$' ∨ c = '#' then ['\\', c] else [c]

def Expr.print : Expr → List Char
  | literal text => text.toList.flatMap printChar
  | var key => '$' :: '{' :: (key.toList ++ ['}'])
  | comment _ => ['#', '{', '}']

/-- A list of expressions as a template.  Of two literals at the end, the second is printed as a
variable that is not closed. -/
def print : List Expr → List Char
  | [] => []
  | [.literal text, .literal rest] => (Expr.literal text).print ++ '$' :: '{' :: rest.toList
  | e :: rest => e.print ++ print rest

end Stencil
