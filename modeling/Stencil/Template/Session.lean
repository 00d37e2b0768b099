/-
# `Template.Session` — working with several templates

A session is a shelf of templates.  Each operation works on the template under one name and answers
something about it; copying takes the template under another name with all it holds, the compiled
list included.  A name not used yet holds the template of the empty source, not compiled.
-/
import Stencil.Shelf
import Stencil.Template

namespace Stencil.Template

inductive Op where
  | create (source : String)
  | reset
  | copy (name : String)
  | compile
  | expressions
  | listing
  | evaluate (env : Environment)
  | evaluateEmpty
  | look
  deriving DecidableEq

inductive Answer where
  | nothing
  | exprs (exprs : List Expr)
  | lines (lines : List String)
  | text (text : String)
  deriving DecidableEq, Repr

/-- The outcome of an operation: its answer, the template afterwards, and what the log is told. -/
structure Outcome where
  answer : Answer
  template : Template
  events : List Log.Event

/-- An outcome that puts the compiled list to some use. -/
def use (t : Template) (answer : List Expr → Answer) : Outcome :=
  ⟨answer t.force.exprs, t.force.template, t.force.events⟩

/-- One operation on a template; `shelf` is where a copy is taken from. -/
def apply (shelf : Shelf Template) (t : Template) : Op → Outcome
  | .create source => ⟨.nothing, .ofString source, []⟩
  | .reset => ⟨.nothing, default, []⟩
  | .copy name => ⟨.nothing, shelf.get name, []⟩
  | .compile => t.use fun _ => .nothing
  | .expressions => t.use .exprs
  | .listing => t.use fun exprs => .lines (exprs.map (·.display))
  | .evaluate env => t.use fun exprs => .text (Stencil.evaluate exprs env)
  | .evaluateEmpty => t.use fun exprs => .text (Stencil.evaluate exprs .empty)
  | .look => ⟨.nothing, t, []⟩

/-- A shelf of templates, and what the log was told so far. -/
structure Session where
  shelf : Shelf Template
  events : List Log.Event

namespace Session

/-- A session in which nothing was done yet. -/
def start : Session :=
  ⟨.empty, []⟩

/-- One operation on the template under a name: its answer, and the session after it. -/
def apply (s : Session) (name : String) (op : Op) : Answer × Session :=
  let outcome := Template.apply s.shelf (s.shelf.get name) op
  (outcome.answer, ⟨s.shelf.put name outcome.template, s.events ++ outcome.events⟩)

def run (s : Session) (ops : List (String × Op)) : Session :=
  ops.foldl (fun s (name, op) => (s.apply name op).2) s

end Session

end Stencil.Template
