/-
# `Log` — what the program tells about its own work

Beside its output, the program tells what it does to whoever cares.

* `Log.Event` — the events there are, each with a level, a target that names the part of the program
  it comes from, a message and named fields;
* `Log.Event.line` — an event as a line of text;
* `Log.Filter` — which events are wanted: those of targets that begin in a certain way, up to a
  certain level.
-/
import Stencil.Scanner

namespace Stencil.Log

/-- How much a reader has to care, from most to least. -/
inductive Level where
  | error
  | warn
  | info
  | debug
  | trace
  deriving DecidableEq, Repr

namespace Level

def rank : Level → Nat
  | error => 1
  | warn => 2
  | info => 3
  | debug => 4
  | trace => 5

def label : Level → String
  | error => "ERROR"
  | warn => "WARN"
  | info => "INFO"
  | debug => "DEBUG"
  | trace => "TRACE"

/-- The level of a name in small letters. -/
def ofName? : String → Option Level
  | "error" => some error
  | "warn" => some warn
  | "info" => some info
  | "debug" => some debug
  | "trace" => some trace
  | _ => none

end Level

inductive Event where
  | transition (change : Transition)
  | compiled (sourceBytes expressions : Nat)
  | evaluating (bindings : Nat)
  | wrote (path : String) (bytes : Nat)
  deriving DecidableEq, Repr

namespace Event

def level : Event → Level
  | transition _ => .trace
  | compiled _ _ => .debug
  | evaluating _ => .debug
  | wrote _ _ => .info

/-- The part of the program an event comes from. -/
def target : Event → String
  | transition _ => "texttemplate::compiler"
  | compiled _ _ => "texttemplate::compiler"
  | evaluating _ => "texttemplate"
  | wrote _ _ => "texttemplate"

/-- What an event says, its fields apart. -/
def message : Event → String
  | transition _ => "Compiler state transition"
  | compiled _ _ => "Compiled template"
  | evaluating _ => "Evaluating template"
  | wrote _ _ => "Wrote output"

/-- The named fields of an event, in the order in which they are told. -/
def fields : Event → List (String × String)
  | transition change =>
    [("from", change.source.label), ("to", change.target.label),
      ("offset", toString change.offset)]
  | compiled sourceBytes expressions =>
    [("source_len", toString sourceBytes), ("expressions", toString expressions)]
  | evaluating bindings => [("bindings", toString bindings)]
  | wrote path bytes => [("path", path), ("bytes", toString bytes)]

/-- An event as a line of text, closed by a line feed. -/
def line (e : Event) : String :=
  e.level.label ++ " " ++ e.target ++ ": " ++ e.message ++
    String.join (e.fields.map fun (name, text) => " " ++ name ++ "=" ++ text) ++ "\n"

end Event

/-- The events of compiling a source, in order. -/
def compiling (source : String) (found : Compiled) : List Event :=
  found.transitions.map .transition ++ [.compiled source.utf8ByteSize found.exprs.length]

/-- Which events are wanted: those whose target begins with `target`, down to the level `limit`. -/
structure Filter where
  target : String
  limit : Option Level
  deriving DecidableEq, Repr

namespace Filter

/-- Warnings and errors of this program: none of its events is one, so nothing is told. -/
def usual : Filter :=
  ⟨"texttemplate", some .warn⟩

def admits (filter : Filter) (e : Event) : Bool :=
  e.target.startsWith filter.target && filter.limit.any (e.level.rank ≤ ·.rank)

/-- The limit of a name: a level, or `off`, which lets nothing through. -/
def limit? (name : String) : Option (Option Level) :=
  if name = "off" then some none else (Level.ofName? name).map some

/-- Reads a filter: `LEVEL` for every target, or `TARGET=LEVEL`, the level in small letters.  The
language of filters has more than that: a target alone, capital letters and numbers for levels,
lists with commas, and spans with fields in brackets.  All of this is left out, and gives the usual
filter. -/
def ofString (text : String) : Filter :=
  match limit? text with
  | some limit => ⟨"", limit⟩
  | none =>
    match text.splitOn "=" with
    | [target, name] => ((limit? name).map (⟨target, ·⟩)).getD usual
    | _ => usual

def lines (filter : Filter) (events : List Event) : String :=
  String.join ((events.filter filter.admits).map (·.line))

end Filter

end Stencil.Log
