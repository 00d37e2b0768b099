/-
# `evaluate` — the text of a list of expressions

Evaluating a list of expressions in an environment joins what each of them stands for: a literal
its text, a variable what its key is bound to, or nothing when it is not bound, a comment nothing.
Values are taken as they are: nothing in them is read as markup.
-/
import Stencil.Environment.Basic
import Stencil.Scanner

namespace Stencil

/-- What one expression stands for. -/
def Expr.eval (env : Environment) : Expr → String
  | literal text => text
  | var key => (env.get? key).getD ""
  | comment _ => ""

def evaluate (exprs : List Expr) (env : Environment) : String :=
  String.join (exprs.map (·.eval env))

@[simp] theorem evaluate_nil (env : Environment) : evaluate [] env = "" := rfl

@[simp] theorem evaluate_cons (e : Expr) (exprs : List Expr) (env : Environment) :
    evaluate (e :: exprs) env = e.eval env ++ evaluate exprs env := by
  simp [evaluate]

theorem evaluate_append (xs ys : List Expr) (env : Environment) :
    evaluate (xs ++ ys) env = evaluate xs env ++ evaluate ys env := by
  simp [evaluate]

end Stencil
