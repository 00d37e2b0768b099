/-
# `Stream` — reading a template as it arrives

A stream reads the source of a template one character at a time, and never looks at a character
before it arrives.  Where a character can only be understood with the next one, the stream remembers
that it has seen it: a backslash, or a `$` or `#` that a brace may follow.

* `Stream.step` — takes one character;
* `Stream.feed` — takes a text;
* `Stream.finish` — the expressions when nothing more arrives; those emitted before are among them.

`Stencil.Scanner` finds the same expressions by looking ahead.
-/
import Stencil.Scanner

namespace Stencil

namespace Stream

/-- What a stream is reading, and what it has to remember of the last character. -/
inductive State where
  | text
  | escape
  | held (kind : Markup)
  | markup (kind : Markup)
  deriving DecidableEq, Repr

end Stream

/-- A template as far as it has arrived. -/
structure Stream where
  state : Stream.State
  pending : String
  emitted : Array Expr
  deriving DecidableEq, Repr

namespace Stream

def start : Stream :=
  ⟨.text, "", #[]⟩

/-- Emits what is pending as an expression and goes on in another state. -/
def emit (s : Stream) (make : String → Expr) (state : State) : Stream :=
  ⟨state, "", s.emitted.push (make s.pending)⟩

def stepText (s : Stream) (c : Char) : Stream :=
  if c = '\\' then { s with state := .escape }
  else
    match Markup.opened? c with
    | some kind => { s with state := .held kind }
    | none => { s with state := .text, pending := s.pending.push c }

def step (s : Stream) (c : Char) : Stream :=
  match s.state with
  | .text => s.stepText c
  | .escape => { s with state := .text, pending := s.pending.push (unescape c) }
  | .held kind =>
    if c = '{' then s.emit .literal (.markup kind)
    else { s with pending := s.pending.push kind.sigil }.stepText c
  | .markup kind =>
    if c = '}' then s.emit kind.expr .text
    else if kind.gathers then { s with pending := s.pending.push c }
    else s

def feed (s : Stream) (text : String) : Stream :=
  text.toList.foldl step s

/-- What is pending when nothing more arrives: a remembered character stands for itself, and a
remembered backslash takes the sentinel. -/
def remainder (s : Stream) : String :=
  match s.state with
  | .escape => s.pending.push sentinel
  | .held kind => s.pending.push kind.sigil
  | _ => s.pending

/-- The expressions when nothing more arrives. -/
def finish (s : Stream) : List Expr :=
  (s.emitted.push (.literal s.remainder)).toList

end Stream

end Stencil
