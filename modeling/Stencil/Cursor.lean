/-
# `Cursor` — a position in a text, and a buffer

A cursor reads a text one character at a time and gathers characters in a buffer on the side.  It
knows nothing of what the text means.

* `Cursor.peek`, `Cursor.advance`, `Cursor.next` — reading.  The offset never passes the end: there
  every further read gives the sentinel U+0000 and moves nothing, so whether the text is used up is
  told by the offset (`Cursor.atEnd`) and never by the character read;
* `Cursor.push`, `Cursor.flush` — the buffer, which reading leaves alone;
* `Cursor.remaining` — the characters not read yet.
-/
namespace Stencil

/-- The character given by every read outside the text. -/
def sentinel : Char := '\x00'

/-- A position in a text, with a buffer of gathered characters. -/
structure Cursor where
  text : Array Char
  offset : Nat
  buffer : String
  offset_le : offset ≤ text.size

namespace Cursor

/-- A cursor at the start of a text, with nothing gathered. -/
def ofString (s : String) : Cursor :=
  ⟨s.toList.toArray, 0, "", Nat.zero_le _⟩

def atEnd (c : Cursor) : Bool :=
  c.text.size ≤ c.offset

/-- The character at an index of the text, or the sentinel outside it. -/
def charAt (c : Cursor) (index : Nat) : Char :=
  c.text[index]?.getD sentinel

def peek (c : Cursor) : Char :=
  c.charAt c.offset

/-- Passes over one character; at the end there is none to pass over. -/
def advance (c : Cursor) : Cursor :=
  if h : c.offset < c.text.size then { c with offset := c.offset + 1, offset_le := h } else c

def next (c : Cursor) : Char × Cursor :=
  (c.peek, c.advance)

/-- Gathers one character. -/
def push (c : Cursor) (char : Char) : Cursor :=
  { c with buffer := c.buffer.push char }

/-- Takes what has been gathered and leaves the buffer empty. -/
def flush (c : Cursor) : String × Cursor :=
  (c.buffer, { c with buffer := "" })

def remaining (c : Cursor) : List Char :=
  c.text.toList.drop c.offset

/-! ## How much is left to read -/

@[simp] theorem remaining_push (c : Cursor) (char : Char) :
    (c.push char).remaining = c.remaining := rfl

@[simp] theorem remaining_flush (c : Cursor) : c.flush.2.remaining = c.remaining := rfl

@[simp] theorem remaining_advance (c : Cursor) : c.advance.remaining = c.remaining.tail := by
  unfold advance remaining
  split
  · simp
  · next h => simp [List.drop_eq_nil_of_le (show c.text.toList.length ≤ c.offset by simpa using h)]

theorem remaining_ne_nil {c : Cursor} (h : ¬ c.atEnd) : c.remaining ≠ [] := by
  simpa [remaining, atEnd] using h

end Cursor

end Stencil
