/-
# `Environment.Session` — working with several environments

A session is a shelf of environments.  Each operation works on the environment under one name and
answers something about it; those that need a second environment name it and find it as it was before
the operation.  A name not used yet holds the environment that binds nothing.
-/
import Stencil.Environment.Json
import Stencil.Evaluation
import Stencil.Shelf

namespace Stencil.Environment

inductive Op where
  | clear
  | values (values : List String)
  | pairs (pairs : List (String × String))
  | json (text : String)
  | value (value : Json.Value)
  | insert (key text : String)
  | extend (pairs : List (String × String))
  | merge (name : String)
  | copy (name : String)
  | get (key : String)
  | contains (key : String)
  | equals (name : String)
  | toJson
  | evaluate (source : String)

inductive Answer where
  | nothing
  | bound (text : Option String)
  | truth (b : Bool)
  | text (text : String)
  | error (e : Error)
  deriving DecidableEq, Repr

/-- An environment that was read takes the place of the one before, which stays if there was an
error. -/
def replaceBy (env : Environment) : Except Error Environment → Answer × Environment
  | .ok read => (.nothing, read)
  | .error e => (.error e, env)

/-- One operation on an environment: its answer, and the environment afterwards; `shelf` is where
another environment is found. -/
def apply (shelf : Shelf Environment) (env : Environment) : Op → Answer × Environment
  | .clear => (.nothing, empty)
  | .values values => (.nothing, ofValues values)
  | .pairs pairs => (.nothing, ofList pairs)
  | .json text => env.replaceBy (ofJson text)
  | .value value => env.replaceBy (ofValue value)
  | .insert key text => (.nothing, env.insert key text)
  | .extend pairs => (.nothing, env.extend pairs)
  | .merge name => (.nothing, env.merge (shelf.get name))
  | .copy name => (.nothing, shelf.get name)
  | .get key => (.bound (env.get? key), env)
  | .contains key => (.truth (env.contains key), env)
  | .equals name => (.truth (env = shelf.get name), env)
  | .toJson => (.text env.toJson, env)
  | .evaluate source => (.text (Stencil.evaluate (compile source) env), env)

/-- One operation on the environment under a name: its answer, and the shelf after it. -/
def Session.apply (shelf : Shelf Environment) (name : String) (op : Op) :
    Answer × Shelf Environment :=
  let (answer, env) := Environment.apply shelf (shelf.get name) op
  (answer, shelf.put name env)

def Session.run (shelf : Shelf Environment) (ops : List (String × Op)) : Shelf Environment :=
  ops.foldl (fun shelf (name, op) => (Session.apply shelf name op).2) shelf

end Stencil.Environment
