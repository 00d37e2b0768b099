/-
# `Expr.normalize` — what of a list of expressions can be seen

Comments and empty literals evaluate to nothing, and two literals in a row evaluate to what one
literal with both texts does.  The normal form of a list of expressions is what is left of it when
comments and empty literals are dropped and adjacent literals are joined.
-/
import Stencil.Expr

namespace Stencil.Expr

/-- Puts a text before a list, as part of its first literal if it begins with one. -/
def joinLiteral (text : String) : List Expr → List Expr
  | literal next :: rest => literal (text ++ next) :: rest
  | rest => literal text :: rest

def normalize : List Expr → List Expr
  | [] => []
  | literal text :: rest => if text = "" then normalize rest else joinLiteral text (normalize rest)
  | var key :: rest => var key :: normalize rest
  | comment _ :: rest => normalize rest

end Stencil.Expr
