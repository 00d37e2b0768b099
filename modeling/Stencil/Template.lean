/-
# `Template` — a source that is compiled when it is first needed

A template holds its source and, once it was needed, the list of expressions compiled from it, so
that a template is compiled at most once however often it is evaluated.

* `Template.force` — the compiled list, the template that remembers it, and what the log is told;
* `Template.expressions`, `Template.compile`, `Template.evaluate` — its parts, for a reader who needs
  only one of them;
* `render` — a source with values bound to their positions.
-/
import Stencil.Evaluation
import Stencil.Log

namespace Stencil

/-- A source, and the list compiled from it if that was done. -/
structure Template where
  source : String
  cache : Option (List Expr)
  deriving DecidableEq, Repr

namespace Template

def ofString (source : String) : Template :=
  ⟨source, none⟩

/-- The template of the empty source. -/
instance : Inhabited Template :=
  ⟨ofString ""⟩

/-- Whether the template was compiled: it holds a list, and a compiled list is never empty. -/
def isCompiled (t : Template) : Bool :=
  t.cache.any (!·.isEmpty)

/-- A use of the compiled list. -/
structure Forced where
  exprs : List Expr
  template : Template
  events : List Log.Event

/-- Gives the compiled list: the one held, or else a new one, which the template then holds. -/
def force (t : Template) : Forced :=
  match t.cache with
  | some exprs => ⟨exprs, t, []⟩
  | none =>
    let found := scan t.source
    ⟨found.exprs, { t with cache := some found.exprs }, Log.compiling t.source found⟩

def expressions (t : Template) : List Expr :=
  t.force.exprs

def compile (t : Template) : Template :=
  t.force.template

def evaluate (t : Template) (env : Environment) : String :=
  Stencil.evaluate t.expressions env

end Template

/-- The text of a source with values bound to their positions. -/
def render (source : String) (values : List String) : String :=
  (Template.ofString source).evaluate (.ofValues values)

end Stencil
