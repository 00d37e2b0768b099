/-
# `Cursor.History` — a cursor is where its history leads it

A cursor is moved, read, filled and emptied in any order; a copy of it may be put aside at any moment
and gone back to at any later one.  What the cursor is then is told here from the operations alone.
Its history holds the operations it has been through, the latest first, and of a history two things
count:

    the offset     how many of its operations move the cursor, as far as the text goes
    the buffer     the characters pushed in it since the buffer was last emptied

Going back to a copy is going back to the history that the copy had, so nothing that was done since
counts any more.  The characters of the text play no part in where the cursor is: a U+0000 of the
text is read like any other character, and only the offset tells it from the sentinel at the end.

* `Stands.advance`, `Stands.push`, … — what one operation does to a cursor with a history;
* `run_follows` — the cursor of a session and the copy put aside, each with its history;
* `run_observed` — hence everything that can be observed of a session.
-/
import Mathlib.Data.List.Induction
import Stencil.Cursor.Session
import Stencil.Proofs.Scanner.Walk

namespace Stencil.Cursor

/-! ## Operations by what they touch -/

def Op.moves : Op → Bool
  | next | advance => true
  | peek | charAt _ | push _ | flush | save | restore => false

def Op.readsText : Op → Bool
  | next | peek | advance | charAt _ => true
  | push _ | flush | save | restore => false

def Op.usesBuffer : Op → Bool
  | push _ | flush => true
  | next | peek | advance | charAt _ | save | restore => false

def Op.pushed? : Op → Option Char
  | push char => some char
  | next | peek | advance | charAt _ | flush | save | restore => none

/-! ## Histories -/

/-- The characters pushed in a history since the buffer was last emptied, in the order of pushing. -/
def gathered (past : List Op) : String :=
  String.ofList ((past.takeWhile (· ≠ .flush)).filterMap Op.pushed?).reverse

/-- What the cursor of a session and the copy put aside have been through, the latest first. -/
structure Histories where
  current : List Op
  saved : List Op

def Histories.after (h : Histories) : Op → Histories
  | .save => { h with saved := h.current }
  | .restore => { h with current := h.saved }
  | op => { h with current := op :: h.current }

/-- The histories in a session; `past` are the operations so far, the latest first. -/
def histories : List Op → Histories
  | [] => ⟨[], []⟩
  | op :: past => (histories past).after op

theorem gathered_push (char : Char) (past : List Op) :
    gathered (.push char :: past) = (gathered past).push char := by
  have added : (Op.push char).pushed? = some char := rfl
  rw [gathered, List.takeWhile_cons_of_pos rfl, List.filterMap_cons_some added, List.reverse_cons,
    ← String.toList_inj, String.toList_ofList, String.toList_push, gathered, String.toList_ofList]

theorem gathered_flush (past : List Op) : gathered (.flush :: past) = "" := by
  rw [gathered, List.takeWhile_cons_of_neg Bool.false_ne_true]
  rfl

theorem gathered_of_readsText {op : Op} (reads : op.readsText) (past : List Op) :
    gathered (op :: past) = gathered past := by
  cases op with
  | next | peek | advance | charAt => rfl
  | push | flush | save | restore => exact absurd reads Bool.false_ne_true

/-! ## One cursor -/

theorem offset_advance (c : Cursor) : c.advance.offset = min c.text.size (c.offset + 1) := by
  have le := c.offset_le
  unfold advance
  split
  · next inside => exact (Nat.min_eq_right inside).symm
  · next outside => omega

/-- A cursor on a text is where a history leads it, and holds what was gathered in it. -/
structure Stands (text : String) (past : List Op) (c : Cursor) : Prop where
  onText : c.text = text.toList.toArray
  offset : c.offset = min text.length (past.countP Op.moves)
  buffer : c.buffer = gathered past

namespace Stands

variable {text : String} {past : List Op} {c : Cursor}

theorem start (text : String) : Stands text [] (.ofString text) where
  onText := rfl
  offset := (Nat.min_zero _).symm
  buffer := rfl

theorem size_text (h : Stands text past c) : c.text.size = text.length := by
  rw [h.onText, List.size_toArray, String.length_toList]

theorem advance (h : Stands text past c) {op : Op} (moves : op.moves) (reads : op.readsText) :
    Stands text (op :: past) c.advance where
  onText := by rw [text_advance, h.onText]
  offset := by
    rw [offset_advance, h.size_text, h.offset, List.countP_cons_of_pos moves]
    omega
  buffer := by rw [buffer_advance, h.buffer, gathered_of_readsText reads]

theorem look (h : Stands text past c) {op : Op} (stays : ¬ op.moves) (reads : op.readsText) :
    Stands text (op :: past) c where
  onText := h.onText
  offset := by rw [h.offset, List.countP_cons_of_neg stays]
  buffer := by rw [h.buffer, gathered_of_readsText reads]

theorem push (h : Stands text past c) (char : Char) :
    Stands text (.push char :: past) (c.push char) where
  onText := h.onText
  offset := by rw [List.countP_cons_of_neg Bool.false_ne_true]; exact h.offset
  buffer := by rw [buffer_push, h.buffer, gathered_push]

theorem flush (h : Stands text past c) : Stands text (.flush :: past) c.flush.2 where
  onText := h.onText
  offset := by rw [List.countP_cons_of_neg Bool.false_ne_true]; exact h.offset
  buffer := (gathered_flush past).symm

theorem charAt_eq (h : Stands text past c) (index : Nat) :
    c.charAt index = text.toList[index]?.getD sentinel := by
  rw [charAt, h.onText, List.getElem?_toArray]

end Stands

/-! ## Sessions -/

namespace Session

theorem run_concat (s : Session) (ops : List Op) (op : Op) :
    s.run (ops ++ [op]) = ((s.run ops).apply op).2 := by
  simp [run]

/-- The cursor of a session and the copy put aside are where their histories lead them. -/
structure Follows (text : String) (h : Histories) (s : Session) : Prop where
  current : Stands text h.current s.current
  saved : Stands text h.saved s.saved

variable {text : String} {h : Histories} {s : Session}

theorem Follows.step (follows : Follows text h s) (op : Op) :
    Follows text (h.after op) (s.apply op).2 := by
  obtain ⟨current, saved⟩ := follows
  cases op with
  | next => exact ⟨current.advance rfl rfl, saved⟩
  | peek => exact ⟨current.look Bool.false_ne_true rfl, saved⟩
  | advance => exact ⟨current.advance rfl rfl, saved⟩
  | charAt index => exact ⟨current.look Bool.false_ne_true rfl, saved⟩
  | push char => exact ⟨current.push char, saved⟩
  | flush => exact ⟨current.flush, saved⟩
  | save => exact ⟨current, current⟩
  | restore => exact ⟨saved, saved⟩

/-- **A session follows its histories**, whatever the operations. -/
theorem run_follows (text : String) (ops : List Op) :
    Follows text (histories ops.reverse) ((ofString text).run ops) := by
  induction ops using List.reverseRecOn with
  | nil => exact ⟨.start text, .start text⟩
  | append_singleton ops op ih =>
      rw [run_concat, List.reverse_concat]
      exact ih.step op

/-- Until something else is put aside, the copy stays as it was. -/
theorem saved_run (s : Session) {ops : List Op} (unsaved : .save ∉ ops) :
    (s.run ops).saved = s.saved := by
  induction ops generalizing s with
  | nil => rfl
  | cons op ops ih =>
      rw [List.mem_cons, not_or] at unsaved
      have kept : (s.apply op).2.saved = s.saved := by
        cases op with
        | save => exact absurd rfl unsaved.1
        | next | peek | advance | charAt | push | flush | restore => rfl
      exact (ih (s.apply op).2 unsaved.2).trans kept

theorem reading_of_usesBuffer (s : Session) {op : Op} (uses : op.usesBuffer) :
    (s.apply op).2.current.offset = s.current.offset ∧
      ∀ reading, reading.readsText → ((s.apply op).2.apply reading).1 = (s.apply reading).1 := by
  cases op with
  | push | flush =>
      refine ⟨rfl, fun reading reads => ?_⟩
      cases reading with
      | next | peek | advance | charAt => rfl
      | push | flush | save | restore => exact absurd reads Bool.false_ne_true
  | next | peek | advance | charAt | save | restore => exact absurd uses Bool.false_ne_true

theorem buffer_of_readsText (s : Session) {op : Op} (reads : op.readsText) :
    (s.apply op).2.current.buffer = s.current.buffer := by
  cases op with
  | next | advance => exact buffer_advance s.current
  | peek | charAt => rfl
  | push | flush | save | restore => exact absurd reads Bool.false_ne_true

/-! ## What can be observed -/

/-- What can be observed of a session on a text is told by the text and the histories. -/
structure Observed (text : String) (h : Histories) (s : Session) : Prop where
  offset : s.current.offset = min text.length (h.current.countP Op.moves)
  atEnd : s.current.atEnd ↔ s.current.offset = text.length
  read : ∀ char, text.toList[s.current.offset]? = some char →
    (s.apply .next).1 = .char char ∧ (s.apply .peek).1 = .char char
  readAtEnd : s.current.offset = text.length →
    (s.apply .next).1 = .char sentinel ∧ (s.apply .peek).1 = .char sentinel
  charAt : ∀ index, (s.apply (.charAt index)).1 = .char (text.toList[index]?.getD sentinel)
  flush : (s.apply .flush).1 = .text (gathered h.current)
  /-- The buffer can be used without moving the cursor or changing what is read. -/
  moved : ∀ op, op.usesBuffer → (s.apply op).2.current.offset = s.current.offset ∧
    ∀ reading, reading.readsText → ((s.apply op).2.apply reading).1 = (s.apply reading).1
  /-- The text can be read without changing the buffer. -/
  filled : ∀ op, op.readsText → (s.apply op).2.current.buffer = s.current.buffer ∧
    ((s.apply op).2.apply .flush).1 = (s.apply .flush).1
  /-- Whatever is done once a copy was put aside, the copy is what is gone back to. -/
  saved : ∀ later, .save ∉ later →
    ((s.apply .save).2.run later).saved = s.current ∧
      (((s.apply .save).2.run later).apply .restore).2.current = s.current

/-- **In a session the cursor is where its history leads it**, and so is the copy put aside, whatever
the text and the operations. -/
theorem run_observed (text : String) (ops : List Op) :
    Observed text (histories ops.reverse) ((ofString text).run ops) := by
  have follows := run_follows text ops
  generalize (ofString text).run ops = s at follows ⊢
  obtain ⟨stands, -⟩ := follows
  have peek_eq : s.current.peek = text.toList[s.current.offset]?.getD sentinel :=
    stands.charAt_eq s.current.offset
  constructor
  case offset => exact stands.offset
  case atEnd =>
    have le := s.current.offset_le
    rw [Cursor.atEnd, decide_eq_true_eq, ← stands.size_text]
    omega
  case read =>
    intro char inside
    rw [inside, Option.getD_some] at peek_eq
    exact ⟨congrArg Answer.char peek_eq, congrArg Answer.char peek_eq⟩
  case readAtEnd =>
    intro last
    have outside : text.toList[s.current.offset]? = none := by
      rw [List.getElem?_eq_none_iff, String.length_toList]
      exact Nat.le_of_eq last.symm
    rw [outside, Option.getD_none] at peek_eq
    exact ⟨congrArg Answer.char peek_eq, congrArg Answer.char peek_eq⟩
  case charAt => exact fun index => congrArg Answer.char (stands.charAt_eq index)
  case flush => exact congrArg Answer.text stands.buffer
  case moved => exact fun op uses => reading_of_usesBuffer s uses
  case filled =>
    intro op reads
    have same := buffer_of_readsText s reads
    exact ⟨same, congrArg Answer.text same⟩
  case saved =>
    intro later unsaved
    have kept := saved_run (s.apply .save).2 unsaved
    exact ⟨kept, kept⟩

end Session

end Stencil.Cursor
