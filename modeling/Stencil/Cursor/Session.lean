/-
# `Cursor.Session` — working with a cursor and a copy of it

A session is a cursor together with a copy of it put aside earlier.  The operations are those of a
cursor, and two more: `save` puts a copy of the cursor aside, `restore` goes back to a copy of the
one put aside.  Until something is saved, the copy put aside is the cursor at the start of its text.
-/
import Stencil.Cursor

namespace Stencil.Cursor

inductive Op where
  | next
  | peek
  | advance
  | charAt (index : Nat)
  | push (char : Char)
  | flush
  | save
  | restore
  deriving DecidableEq, Repr

inductive Answer where
  | nothing
  | char (c : Char)
  | text (s : String)
  deriving DecidableEq, Repr

/-- A cursor and the copy put aside. -/
structure Session where
  current : Cursor
  saved : Cursor

namespace Session

def ofString (s : String) : Session :=
  ⟨.ofString s, .ofString s⟩

/-- One operation: its answer, and the session after it. -/
def apply (s : Session) : Op → Answer × Session
  | .next => (.char s.current.next.1, { s with current := s.current.next.2 })
  | .peek => (.char s.current.peek, s)
  | .advance => (.nothing, { s with current := s.current.advance })
  | .charAt index => (.char (s.current.charAt index), s)
  | .push char => (.nothing, { s with current := s.current.push char })
  | .flush => (.text s.current.flush.1, { s with current := s.current.flush.2 })
  | .save => (.nothing, { s with saved := s.current })
  | .restore => (.nothing, { s with current := s.saved })

def run (s : Session) (ops : List Op) : Session :=
  ops.foldl (fun s op => (s.apply op).2) s

end Session

end Stencil.Cursor
