/-
# Environments as JSON

An environment is read from a JSON object and written as one.

* `Environment.ofValue`, `Environment.ofJson` — from a value and from a text.  A string is bound as
  it is, a number and a truth value by their text, null as the empty text; of several members of one
  name the last one holds.  Lists and objects cannot be bound: of the names that hold one, the least
  is reported;
* `Environment.ofStringsJson` — from a text whose members are all strings; nothing is converted, and
  the first offence of the text is reported;
* `Environment.toJson` — the text of an environment, which both ways of reading take back.
-/
import Stencil.Environment.Basic
import Stencil.Json.Reader
import Stencil.Json.Writer

namespace Stencil.Environment

/-- Why something is no environment. -/
inductive Error where
  | notAnObject (found : String)
  | notAText (key : String)
  | malformed (report : Json.Report)
  deriving DecidableEq, Repr

def Error.message : Error → String
  | notAnObject found => "Environment must be a JSON object, found " ++ found
  | notAText key => "Value for '" ++ key ++ "' must be a string, number, boolean or null"
  | malformed report => "Invalid JSON: " ++ report.message

/-! ## From values -/

/-- What each name of an object holds: the last value it was given. -/
def lastValues (members : List (String × Json.Value)) : Std.ExtTreeMap String Json.Value :=
  members.foldl (fun held (name, value) => held.insert name value) ∅

/-- The texts of several members, or an error for the first of them that has none. -/
def texts : List (String × Json.Value) → Except Error (List (String × String))
  | [] => .ok []
  | (name, value) :: members =>
    match value.text? with
    | none => .error (.notAText name)
    | some text => (texts members).map ((name, text) :: ·)

def ofValue : Json.Value → Except Error Environment
  | .obj members => (texts (lastValues members).toList).map ofList
  | value => .error (.notAnObject value.shape)

def ofJson (text : String) : Except Error Environment :=
  match Json.parse text with
  | .error report => .error (.malformed report)
  | .ok value => ofValue value

/-! ## From strings only -/

/-- The fault of finding something that was not expected; no blank stands before it.  A value that is
not made of values is read first, so that what is wrong with its own text comes before its being
there. -/
def unexpected (expected : String) (s : List Char) : Json.Fault :=
  match s with
  | '[' :: _ => .last (.wrongType (Json.Value.arr []).sketch expected) s
  | '{' :: _ => .last (.wrongType (Json.Value.obj []).sketch expected) s
  | s =>
    match Json.scalar s with
    | .error fault => fault
    | .ok found => .last (.wrongType found.value.sketch expected) found.rest

/-- A string, or the fault of there being something else. -/
def stringItem : Json.Reader String := fun s =>
  match eq : Json.skipBlanks s with
  | '"' :: r =>
    (Json.string r).map (·.widen (by
      have := Json.skipBlanks_le s
      simp only [eq, List.length_cons] at this
      omega))
  | rest => .error (unexpected "a string" rest)

/-- The members of an object of strings, or the fault of there being something else. -/
def stringMembers : Json.Reader (List (String × String)) := fun s =>
  match eq : Json.skipBlanks s with
  | '{' :: r =>
    (Json.items Json.objectBrackets (Json.member stringItem) r).map (·.widen (by
      have := Json.skipBlanks_le s
      simp only [eq, List.length_cons] at this
      omega))
  | rest => .error (unexpected "a map" rest)

/-- The environment of a JSON text whose members are all strings. -/
def ofStringsJson (text : String) : Except Json.Report Environment :=
  (Json.document stringMembers text).map ofList

/-! ## To text -/

/-- The JSON text of an environment, its keys in increasing order. -/
def toJson (env : Environment) : String :=
  Json.writeObject env.toList

end Stencil.Environment
