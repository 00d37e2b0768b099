/-
# `Grammar.Segments` — the walk finds what the grammar says

The grammar splits a source without a position or a mode; the scanner walks over it with both, and
with a buffer.  `Segments` is what they share: a source is a text part, then perhaps markup with or
without a closing brace, then perhaps a source again, and each of these brings its expressions and
the changes of mode around it.

* `Segments.exprs_eq` — the expressions are the `parts` of the grammar, so `Segments` only adds to
  it where the openers and the closing braces stand;
* `Ahead` — the same from the middle of a segment, with something gathered already.  It is what is
  carried along the walk: `Finds.of_move` has a case for each move;
* `scan_segments` — the walk over a whole source finds its segments.
-/
import Stencil.Grammar
import Stencil.Proofs.Scanner.Walk
import Stencil.Proofs.Text.Delimiter

namespace Stencil

namespace Grammar

/-! ## Text parts -/

@[simp] theorem textPart_nil : textPart [] = ([], none) := by
  rw [textPart]

@[simp] theorem textPart_backslash : textPart ['\\'] = (['\x00'], none) := by
  rw [textPart]

@[simp] theorem textPart_escape (c : Char) (rest : List Char) :
    textPart ('\\' :: c :: rest) = (resolve c :: (textPart rest).1, (textPart rest).2) := by
  rw [textPart]

@[simp] theorem textPart_opener (kind : Markup) (body : List Char) :
    textPart (kind.sigil :: '{' :: body) = ([], some (kind, body)) := by
  cases kind with
  | var => rw [Markup.sigil, textPart]
  | comment => rw [Markup.sigil, textPart]

theorem textPart_plain {c : Char} {rest : List Char} (slash : c ≠ '\\')
    (opens : ¬ Opens (c :: rest)) :
    textPart (c :: rest) = (c :: (textPart rest).1, (textPart rest).2) := by
  rw [textPart]
  · exact fun eq _ => slash eq
  · exact fun _ _ eq _ => slash eq
  · exact fun body eq₁ eq₂ => opens ⟨.var, body, by rw [eq₁, eq₂, Markup.sigil]⟩
  · exact fun body eq₁ eq₂ => opens ⟨.comment, body, by rw [eq₁, eq₂, Markup.sigil]⟩

/-! ## The tables of the scanner

The grammar writes out what escapes, markup and the end of the source stand for; the scanner has
tables of its own for that, and these agree. -/

theorem unescape_eq_resolve (c : Char) : unescape c = resolve c := by
  unfold unescape
  split
  · rw [resolve]
  · rw [resolve]
  · rw [resolve]
  · rw [resolve] <;> assumption

theorem unclosed_eq (kind : Markup) (body : List Char) :
    unclosed kind body = .literal (kind.kept body) := by
  cases kind <;> rfl

theorem closed_eq (kind : Markup) (body : List Char) :
    closed kind body = kind.expr (kind.kept body) := by
  cases kind <;> rfl

/-! ## Bodies

Up to here the body of markup was found with `takeWhile`; from here on it is known by what it is, a
text without a closing brace. -/

theorem parts_text {s text : List Char} (split : textPart s = (text, none)) :
    parts s = [.literal (String.ofList text)] := by
  rw [parts]
  split <;> simp_all

theorem parts_unclosed {s text body : List Char} {kind : Markup}
    (split : textPart s = (text, some (kind, body))) (h : '}' ∉ body) :
    parts s = [.literal (String.ofList text), .literal (kind.kept body)] := by
  rw [parts]
  split
  · simp_all
  · next eq =>
      obtain ⟨rfl, rfl, rfl⟩ : _ ∧ _ ∧ _ := by simpa [eq] using split
      simp only [takeWhile_all h]
      split
      · rw [unclosed_eq]
      · next eq => simp [dropWhile_all h] at eq

theorem parts_closed {s text body after : List Char} {kind : Markup}
    (split : textPart s = (text, some (kind, body ++ '}' :: after))) (h : '}' ∉ body) :
    parts s = .literal (String.ofList text) :: kind.expr (kind.kept body) :: parts after := by
  rw [parts]
  split
  · simp_all
  · next eq =>
      obtain ⟨rfl, rfl, rfl⟩ : _ ∧ _ ∧ _ := by simpa [eq] using split
      simp only [takeWhile_front h]
      split
      · next eq => simp [dropWhile_front h] at eq
      · next eq =>
          obtain ⟨-, rfl⟩ := List.cons.inj ((dropWhile_front h).symm.trans eq)
          rw [closed_eq]

/-! ## Segments -/

/-- `Segments total s events exprs`: `s` is what is left of a source of `total` characters, at the
beginning of a text part; `exprs` are its expressions and `events` the changes of mode in it. -/
inductive Segments (total : Nat) : List Char → List Transition → List Expr → Prop
  | text {s text : List Char} : textPart s = (text, none) →
      Segments total s [] [.literal (String.ofList text)]
  | unclosed {s text body : List Char} {kind : Markup} :
      textPart s = (text, some (kind, body)) → '}' ∉ body →
      Segments total s [⟨.text, .markup kind, total - body.length⟩]
        [.literal (String.ofList text), .literal (kind.kept body)]
  | closed {s text body after : List Char} {kind : Markup} {events : List Transition}
      {exprs : List Expr} : textPart s = (text, some (kind, body ++ '}' :: after)) → '}' ∉ body →
      Segments total after events exprs →
      Segments total s
        (⟨.text, .markup kind, total - (body ++ '}' :: after).length⟩ ::
          ⟨.markup kind, .text, total - after.length⟩ :: events)
        (.literal (String.ofList text) :: kind.expr (kind.kept body) :: exprs)

variable {total : Nat} {s : List Char} {events : List Transition} {exprs : List Expr}

theorem Segments.exprs_eq (h : Segments total s events exprs) : exprs = parts s := by
  induction h with
  | text split => rw [parts_text split]
  | unclosed split noBrace => rw [parts_unclosed split noBrace]
  | closed split noBrace _ ih => rw [parts_closed split noBrace, ih]

/-- A character in front of a text part is in front of its literal. -/
theorem Segments.cons_text {c : Char} {text : String} {r : List Char}
    (split : textPart s = (c :: (textPart r).1, (textPart r).2))
    (h : Segments total r events (.literal text :: exprs)) :
    Segments total s events (.literal (String.singleton c ++ text) :: exprs) := by
  cases h with
  | text eq =>
      rw [eq] at split
      simpa [String.ofList_cons] using Segments.text split
  | unclosed eq noBrace =>
      rw [eq] at split
      simpa [String.ofList_cons] using Segments.unclosed split noBrace
  | closed eq noBrace rest =>
      rw [eq] at split
      simpa [String.ofList_cons] using Segments.closed split noBrace rest

/-! ## From the middle of a segment -/

/-- `Ahead total mode gathered left events exprs`: with `gathered` in the buffer and `left` to read,
the walk still has `exprs` and `events` ahead of it. -/
inductive Ahead (total : Nat) : Mode → String → List Char → List Transition → List Expr → Prop
  | text (gathered : String) {text : String} {left : List Char} {events : List Transition}
      {exprs : List Expr} : Segments total left events (.literal text :: exprs) →
      Ahead total .text gathered left events (.literal (gathered ++ text) :: exprs)
  | unclosed (kind : Markup) (gathered : String) {body : List Char} : '}' ∉ body →
      Ahead total (.markup kind) gathered body [] [.literal (gathered ++ kind.kept body)]
  | closed (kind : Markup) (gathered : String) {body after : List Char}
      {events : List Transition} {exprs : List Expr} : '}' ∉ body →
      Segments total after events exprs →
      Ahead total (.markup kind) gathered (body ++ '}' :: after)
        (⟨.markup kind, .text, total - after.length⟩ :: events)
        (kind.expr (gathered ++ kind.kept body) :: exprs)

namespace Ahead

variable {gathered : String} {kind : Markup}

theorem of_nil (mode : Mode) : Ahead total mode gathered [] [] [.literal gathered] := by
  cases mode with
  | text => simpa using Ahead.text gathered (Segments.text textPart_nil)
  | markup kind =>
      simpa using Ahead.unclosed kind gathered List.not_mem_nil

theorem cons_text {c : Char} {r : List Char}
    (split : textPart s = (c :: (textPart r).1, (textPart r).2))
    (h : Ahead total .text (gathered.push c) r events exprs) :
    Ahead total .text gathered s events exprs := by
  cases h with
  | text _ h =>
      have grown := Ahead.text gathered (h.cons_text split)
      rwa [← String.append_assoc, String.append_singleton] at grown

theorem opener {rest : List Char} (h : Ahead total (.markup kind) "" rest events exprs) :
    Ahead total .text gathered (kind.sigil :: '{' :: rest)
      (⟨.text, .markup kind, total - rest.length⟩ :: events) (.literal gathered :: exprs) := by
  have split := textPart_opener kind rest
  cases h with
  | unclosed _ _ noBrace =>
      simpa using Ahead.text gathered (Segments.unclosed split noBrace)
  | closed _ _ noBrace h =>
      simpa using Ahead.text gathered (Segments.closed split noBrace h)

theorem closer {rest : List Char} (h : Ahead total .text "" rest events exprs) :
    Ahead total (.markup kind) gathered ('}' :: rest)
      (⟨.markup kind, .text, total - rest.length⟩ :: events) (kind.expr gathered :: exprs) := by
  cases h with
  | text _ h =>
      rw [String.empty_append]
      simpa using Ahead.closed kind gathered List.not_mem_nil h

theorem cons_body {c : Char} {rest : List Char} (brace : c ≠ '}')
    (h : Ahead total (.markup kind) (if kind.gathers then gathered.push c else gathered) rest
      events exprs) : Ahead total (.markup kind) gathered (c :: rest) events exprs := by
  cases h with
  | unclosed _ _ noBrace =>
      rw [← Markup.append_kept_cons]
      exact .unclosed kind gathered (by simp [brace.symm, noBrace])
  | closed _ _ noBrace h =>
      rw [← Markup.append_kept_cons, ← List.cons_append]
      exact .closed kind gathered (by simp [brace.symm, noBrace]) h

end Ahead

end Grammar

/-! ## The walk -/

namespace Scanner

open Grammar

/-- The walk from `s` on finds what it has found already, and then what is ahead of it. -/
def Finds (s : Scanner) (found : Compiled) : Prop :=
  ∃ events exprs, found = ⟨s.exprs.toList ++ exprs, s.transitions.toList ++ events⟩ ∧
    Ahead s.cursor.text.size s.mode s.cursor.buffer s.cursor.remaining events exprs

theorem finds_finish {s : Scanner} (stop : s.cursor.atEnd) : s.Finds s.finish := by
  refine ⟨[], [.literal s.cursor.buffer], ?_, ?_⟩
  · simp [finish]
  · rw [(Cursor.atEnd_iff s.cursor).mp stop]
    exact .of_nil s.mode

/-- **No move changes what the walk finds.** -/
theorem Finds.of_move {s t : Scanner} {found : Compiled} (move : Move s t) (h : t.Finds found) :
    s.Finds found := by
  obtain ⟨events, exprs, rfl, ahead⟩ := h
  cases move with
  | @plain c rest mode left slash opens =>
      have next : Ahead s.cursor.text.size .text (s.cursor.buffer.push c) rest events exprs := by
        simpa [mode, left] using ahead
      refine ⟨events, exprs, rfl, ?_⟩
      rw [mode, left]
      exact next.cons_text (textPart_plain slash opens)
  | @escape c rest mode left =>
      have next : Ahead s.cursor.text.size .text (s.cursor.buffer.push (unescape c)) rest events
          exprs := by
        simpa [mode, left] using ahead
      refine ⟨events, exprs, rfl, ?_⟩
      rw [mode, left]
      exact next.cons_text (by rw [unescape_eq_resolve, textPart_escape])
  | overrun mode left =>
      have next : Ahead s.cursor.text.size .text (s.cursor.buffer.push sentinel) [] events
          exprs := by
        simpa [mode, left] using ahead
      refine ⟨events, exprs, rfl, ?_⟩
      rw [mode, left]
      exact next.cons_text (by rw [textPart_backslash, textPart_nil, sentinel])
  | @opener kind rest mode left =>
      have next : Ahead s.cursor.text.size (.markup kind) "" rest events exprs := by
        simpa [left] using ahead
      refine ⟨_, _, ?_, by rw [mode, left]; exact next.opener⟩
      simp [Cursor.offset_eq, left, mode]
  | @closer kind rest mode left =>
      have next : Ahead s.cursor.text.size .text "" rest events exprs := by
        simpa [left] using ahead
      refine ⟨_, _, ?_, by rw [mode, left]; exact next.closer⟩
      simp [Cursor.offset_eq, left, mode]
  | @body kind c rest mode left brace =>
      have next : Ahead s.cursor.text.size (.markup kind)
          (if kind.gathers then s.cursor.buffer.push c else s.cursor.buffer) rest events
          exprs := by
        split <;> simpa [mode, left, *] using ahead
      refine ⟨events, exprs, rfl, ?_⟩
      rw [mode, left]
      exact next.cons_body brace

theorem finds_run (s : Scanner) : s.Finds s.run.finish := by
  induction s using run.induct with
  | case1 s stop =>
      rw [run_of_atEnd stop]
      exact finds_finish stop
  | case2 s more ih =>
      rw [← run_step more]
      exact ih.of_move (move_step more)

end Scanner

/-- **The walk over a source finds its segments.** -/
theorem scan_segments (source : String) :
    Grammar.Segments source.toList.length source.toList (scan source).transitions
      (scan source).exprs := by
  obtain ⟨events, exprs, found, ahead⟩ := (Scanner.ofString source).finds_run
  have start : Grammar.Ahead source.toList.length .text "" source.toList events exprs := by
    simpa [Scanner.ofString] using ahead
  rw [scan, found]
  cases start with
  | text _ segments => simpa [Scanner.ofString] using segments

/-- **The walk over a source finds the parts of the grammar.** -/
theorem compile_eq_parts (source : String) : compile source = Grammar.parts source.toList :=
  (scan_segments source).exprs_eq

end Stencil
