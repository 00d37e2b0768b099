/-
# `Scanner` — reading a template in one walk

The scanner walks over the source of a template once, in one of three modes.

* In text, characters are gathered for a literal.  A backslash takes the next character with it:
  `n`, `r` and `t` give a line feed, a carriage return and a tab, any other character gives itself,
  and at the very end of the source there is only the sentinel to give.  A `$` right before a `{`
  opens a variable, a `#` right before a `{` opens a comment; alone they are ordinary characters.
* In a variable, characters are gathered for the key until a `}` closes it.
* In a comment, characters are dropped until a `}` closes it.

What is gathered when the source ends becomes a last literal, whatever the mode, so every source
can be read and the list of expressions is never empty.

* `Scanner.step` — one step: a character, or the two of an opener or an escape;
* `scan` — the whole walk: the expressions, and the changes of mode in order;
* `compile` — the expressions alone.
-/
import Stencil.Cursor
import Stencil.Expr

namespace Stencil

inductive Markup where
  | var
  | comment
  deriving DecidableEq, Repr

namespace Markup

/-- The character that opens a kind of markup when a brace follows it. -/
def sigil : Markup → Char
  | var => '$'
  | comment => '#'

/-- The kind of markup that a character opens when a brace follows it. -/
def opened? : Char → Option Markup
  | '$' => some var
  | '#' => some comment
  | _ => none

/-- The expression of closed markup, of what was gathered in it. -/
def expr : Markup → String → Expr
  | var => .var
  | comment => .comment

/-- Whether the characters of markup are gathered; those of a comment are dropped. -/
def gathers : Markup → Bool
  | var => true
  | comment => false

end Markup

/-- What the scanner is reading. -/
inductive Mode where
  | text
  | markup (kind : Markup)
  deriving DecidableEq, Repr

def Mode.label : Mode → String
  | text => "Text"
  | markup .var => "Variable"
  | markup .comment => "Comment"

/-- The character that a backslash makes of the one after it. -/
def unescape : Char → Char
  | 'n' => '\n'
  | 'r' => '\r'
  | 't' => '\t'
  | c => c

/-- A change of mode; `offset` counts the characters read up to it, its delimiter included. -/
structure Transition where
  source : Mode
  target : Mode
  offset : Nat
  deriving DecidableEq, Repr

/-- A walk over a source: where it is, what it is reading, and what it has found so far. -/
structure Scanner where
  cursor : Cursor
  mode : Mode
  exprs : Array Expr
  transitions : Array Transition

namespace Scanner

def ofString (source : String) : Scanner :=
  ⟨.ofString source, .text, #[], #[]⟩

def keep (s : Scanner) (c : Char) : Scanner :=
  { s with cursor := s.cursor.push c }

/-- Makes an expression of what has been gathered and goes on in another mode. -/
def switch (s : Scanner) (make : String → Expr) (target : Mode) : Scanner :=
  { cursor := s.cursor.flush.2
    mode := target
    exprs := s.exprs.push (make s.cursor.flush.1)
    transitions := s.transitions.push ⟨s.mode, target, s.cursor.offset⟩ }

/-- A step in text, the character `c` just read. -/
def stepText (s : Scanner) (c : Char) : Scanner :=
  if c = '\\' then
    { s with cursor := s.cursor.advance }.keep (unescape s.cursor.peek)
  else
    match Markup.opened? c with
    | some kind =>
      if s.cursor.peek = '{' then
        { s with cursor := s.cursor.advance }.switch .literal (.markup kind)
      else s.keep c
    | none => s.keep c

/-- A step in markup, the character `c` just read. -/
def stepMarkup (s : Scanner) (kind : Markup) (c : Char) : Scanner :=
  if c = '}' then s.switch kind.expr .text
  else if kind.gathers then s.keep c
  else s

/-- One step: a character is read and dealt with as the mode says. -/
def step (s : Scanner) : Scanner :=
  let (c, cursor) := s.cursor.next
  let s := { s with cursor }
  match s.mode with
  | .text => s.stepText c
  | .markup kind => s.stepMarkup kind c

/-- A step leaves what was left to read without its first character, or its first two. -/
theorem remaining_step (s : Scanner) :
    s.step.cursor.remaining = s.cursor.remaining.tail ∨
      s.step.cursor.remaining = s.cursor.remaining.tail.tail := by
  simp only [step, Cursor.next]
  split
  · unfold stepText keep switch
    repeat' split
    all_goals simp
  · unfold stepMarkup keep switch
    repeat' split
    all_goals simp

/-- Steps until the source is used up. -/
def run (s : Scanner) : Scanner :=
  if s.cursor.atEnd then s else run s.step
termination_by s.cursor.remaining.length
decreasing_by
  next h =>
    have left := List.length_pos_iff.mpr (Cursor.remaining_ne_nil h)
    rcases remaining_step s with eq | eq <;> rw [eq] <;> simp only [List.length_tail] <;> omega

end Scanner

/-- What the walk over a whole source has found. -/
structure Compiled where
  exprs : List Expr
  transitions : List Transition
  deriving DecidableEq, Repr

/-- Ends a walk: what is still gathered is the last literal. -/
def Scanner.finish (s : Scanner) : Compiled :=
  ⟨(s.exprs.push (.literal s.cursor.flush.1)).toList, s.transitions.toList⟩

def scan (source : String) : Compiled :=
  (Scanner.ofString source).run.finish

/-- The expressions of a template. -/
def compile (source : String) : List Expr :=
  (scan source).exprs

end Stencil
