/-
# `Scanner.Conservation` — characters without a meaning are taken as they are

Eight characters mean something in a template: the backslash, the two that begin openers, the
braces, and the letters that a backslash changes.  Every other character is taken for itself
wherever it stands, U+0000 too, although the scanner is given that for every read past the end.

* `Move.takes`, `Move.takes_escaped` — what one move does with such a character;
* `traced_of_move` — no move changes which of them a scanner holds and has before it, comments left
  out. At the end it has nothing before it, so the values hold them all;
* `plain_compile` — hence none is lost, none is made, and they keep their order.  One U+0000 more
  than the source has is there for a backslash at its very end, and for nothing else.

A backslash makes line feeds, carriage returns and tabs of letters, so more of these three may come
out than went in.  They are not `Plain`.
-/
import Stencil.Proofs.Scanner.Accounting

namespace Stencil

/-- The characters that mean something in a template. -/
def meaningful : List Char :=
  ['\\', '$', '#', '{', '}', 'n', 'r', 't']

theorem Markup.sigil_mem_meaningful (kind : Markup) : kind.sigil ∈ meaningful := by
  cases kind <;> decide

theorem unescape_of_not_mem {c : Char} (plain : c ∉ meaningful) : unescape c = c := by
  unfold unescape
  split
  case h_4 => rfl
  all_goals exact absurd plain (by decide)

/-- A character that means nothing and that a backslash makes of no other. -/
def Plain (c : Char) : Prop :=
  c ∉ meaningful ++ ['\n', '\r', '\t']

instance : DecidablePred Plain := fun _ => inferInstanceAs (Decidable (¬ _))

theorem not_plain {c : Char} (mem : c ∈ meaningful) : ¬ Plain c :=
  fun plain => plain (List.mem_append_left _ mem)

/-- A backslash makes a plain character of itself alone. -/
theorem filter_unescape (c : Char) (l : List Char) :
    (unescape c :: l).filter Plain = (c :: l).filter Plain := by
  by_cases mem : c ∈ meaningful
  · have stands : ¬ Plain (unescape c) := by
      unfold unescape
      split
      case h_4 => exact not_plain mem
      all_goals decide
    simp [stands, not_plain mem]
  · rw [unescape_of_not_mem mem]

def Expr.chars (exprs : List Expr) : List Char :=
  exprs.flatMap (·.value.toList)

/-- What is left to read in a mode, without the bodies of comments. -/
def Mode.uncommented : Mode → List Char → List Char
  | _, [] => []
  | text, '\\' :: c :: rest => '\\' :: c :: uncommented text rest
  | text, '$' :: '{' :: rest => '$' :: '{' :: uncommented (markup .var) rest
  | text, '#' :: '{' :: rest => '#' :: '{' :: uncommented (markup .comment) rest
  | text, c :: rest => c :: uncommented text rest
  | markup _, '}' :: rest => '}' :: uncommented text rest
  | markup .var, c :: rest => c :: uncommented (markup .var) rest
  | markup .comment, _ :: rest => uncommented (markup .comment) rest

theorem Mode.uncommented_plain {c : Char} {rest : List Char} (slash : c ≠ '\\')
    (opens : ¬ Opens (c :: rest)) :
    uncommented .text (c :: rest) = c :: uncommented .text rest := by
  rw [uncommented]
  · exact fun _ _ eq _ => slash eq
  · exact fun body eq₁ eq₂ => opens ⟨.var, body, by rw [eq₁, eq₂, Markup.sigil]⟩
  · exact fun body eq₁ eq₂ => opens ⟨.comment, body, by rw [eq₁, eq₂, Markup.sigil]⟩

theorem Mode.uncommented_opener (kind : Markup) (rest : List Char) :
    uncommented .text (kind.sigil :: '{' :: rest) =
      kind.sigil :: '{' :: (markup kind).uncommented rest := by
  cases kind <;> rfl

namespace Scanner

variable {s t : Scanner} {c : Char} {rest : List Char} {source : String}

/-! ## One move -/

/-- `Takes s t c rest`: from `s` to `t` the scanner takes `c` for itself, with `rest` left to read.
It gathers the character, unless it is in a comment, and nothing else comes of it. -/
structure Takes (s t : Scanner) (c : Char) (rest : List Char) : Prop where
  left : t.cursor.remaining = rest
  mode : t.mode = s.mode
  exprs : t.exprs = s.exprs
  transitions : t.transitions = s.transitions
  buffer : t.cursor.buffer =
    if s.mode = .markup .comment then s.cursor.buffer else s.cursor.buffer.push c

/-- A character without a meaning is taken for itself, whatever the scanner is reading. -/
theorem Move.takes (move : Move s t) (plain : c ∉ meaningful)
    (left : s.cursor.remaining = c :: rest) : Takes s t c rest := by
  have ne {m : Char} (mem : m ∈ meaningful) : c ≠ m := fun eq => plain (eq ▸ mem)
  cases move with
  | plain mode here =>
      obtain ⟨rfl, rfl⟩ := List.cons.inj (left.symm.trans here)
      exact ⟨by simp [left], rfl, rfl, rfl, by simp [mode]⟩
  | escape _ here =>
      obtain ⟨slash, -⟩ := List.cons.inj (left.symm.trans here)
      exact absurd slash (ne (by decide))
  | overrun _ here =>
      obtain ⟨slash, -⟩ := List.cons.inj (left.symm.trans here)
      exact absurd slash (ne (by decide))
  | @opener kind _ _ here =>
      obtain ⟨sigil, -⟩ := List.cons.inj (left.symm.trans here)
      exact absurd sigil (ne kind.sigil_mem_meaningful)
  | closer _ here =>
      obtain ⟨brace, -⟩ := List.cons.inj (left.symm.trans here)
      exact absurd brace (ne (by decide))
  | @body kind _ _ mode here =>
      obtain ⟨rfl, rfl⟩ := List.cons.inj (left.symm.trans here)
      cases kind with
      | var => exact ⟨by simp [left, Markup.gathers], rfl, rfl, rfl, by simp [mode, Markup.gathers]⟩
      | comment =>
          exact ⟨by simp [left, Markup.gathers], rfl, rfl, rfl, by simp [mode, Markup.gathers]⟩

theorem Move.takes_escaped (move : Move s t) (plain : c ∉ meaningful) (mode : s.mode = .text)
    (left : s.cursor.remaining = '\\' :: c :: rest) : Takes s t c rest := by
  cases move with
  | plain _ here slash =>
      obtain ⟨eq, -⟩ := List.cons.inj (left.symm.trans here)
      exact absurd eq.symm slash
  | escape _ here =>
      obtain ⟨rfl, rfl⟩ := List.cons.inj (List.cons.inj (left.symm.trans here)).2
      exact ⟨by simp [left], rfl, rfl, rfl, by simp [mode, unescape_of_not_mem plain]⟩
  | overrun _ here => simp [left] at here
  | @opener kind _ _ here =>
      obtain ⟨sigil, -⟩ := List.cons.inj (left.symm.trans here)
      exact absurd sigil.symm (kind.sigil_ne (by decide))
  | closer markup => exact nomatch mode.symm.trans markup
  | body markup => exact nomatch mode.symm.trans markup

/-! ## The whole walk -/

/-- The plain characters that a scanner holds and has before it, those in comments left out. -/
def traced (s : Scanner) : List Char :=
  (Expr.chars s.exprs.toList ++ s.cursor.buffer.toList ++
    s.mode.uncommented s.cursor.remaining).filter Plain

/-- **No move changes what is traced**, but for the one that has nothing to take after a backslash. -/
theorem traced_of_move (move : Move s t)
    (complete : ¬ (s.mode = .text ∧ s.cursor.remaining = ['\\'])) : t.traced = s.traced := by
  have dropped {m : Char} (mem : m ∈ meaningful) (l : List Char) :
      (m :: l).filter Plain = l.filter Plain :=
    List.filter_cons_of_neg (by simpa using not_plain mem)
  cases move with
  | @plain c rest mode left slash opens =>
      simp only [traced, mode, left, Mode.uncommented_plain slash opens]
      simp [left]
  | @escape c rest mode left =>
      have slash := dropped (m := '\\') (by decide)
      simp only [traced, mode, left, Mode.uncommented]
      simp [left, slash, filter_unescape]
  | overrun mode left => exact absurd ⟨mode, left⟩ complete
  | @opener kind rest mode left =>
      have sigil := dropped kind.sigil_mem_meaningful
      have brace := dropped (m := '{') (by decide)
      simp only [traced, mode, left, Mode.uncommented_opener]
      simp [left, sigil, brace, Expr.chars, Expr.value]
  | @closer kind rest mode left =>
      have brace := dropped (m := '}') (by decide)
      simp only [traced, mode, left, Mode.uncommented]
      simp [left, brace, Expr.chars]
  | @body kind c rest mode left brace =>
      cases kind with
      | var => simp [traced, mode, left, Markup.gathers, Mode.uncommented]
      | comment => simp [traced, mode, left, Markup.gathers, Mode.uncommented]

/-- A backslash at the very end brings in one U+0000, and ends the walk. -/
theorem traced_of_overrun (move : Move s t) (mode : s.mode = .text)
    (left : s.cursor.remaining = ['\\']) :
    t.cursor.atEnd ∧ t.traced = s.traced ++ [sentinel] := by
  cases move with
  | plain _ here slash =>
      obtain ⟨eq, -⟩ := List.cons.inj (left.symm.trans here)
      exact absurd eq.symm slash
  | overrun =>
      have slash : ¬ Plain '\\' := by decide
      have zero : Plain sentinel := by decide
      refine ⟨(Cursor.atEnd_iff _).mpr (by simp [left]), ?_⟩
      simp [traced, mode, left, Mode.uncommented, slash, zero]
  | escape _ here => simp [left] at here
  | opener _ here => simp [left] at here
  | closer markup => exact nomatch mode.symm.trans markup
  | body markup => exact nomatch mode.symm.trans markup

theorem Reached.traced_eq (h : Reached source s) :
    s.cursor.atEnd ∧ Overruns source ∨
      s.traced = (Mode.uncommented .text source.toList).filter Plain := by
  induction h with
  | start => exact .inr (by simp [traced, ofString, Expr.chars])
  | @step s reached more ih =>
      have traced := ih.resolve_left fun stop => more stop.1
      -- the one move that changes what is traced ends the walk, so no other follows it
      by_cases overrun : s.mode = .text ∧ s.cursor.remaining = ['\\']
      · exact .inl ⟨(traced_of_overrun (move_step more) overrun.1 overrun.2).1, s, reached, overrun⟩
      · exact .inr ((traced_of_move (move_step more) overrun).trans traced)

theorem chars_finish (stop : s.cursor.atEnd) :
    (Expr.chars s.finish.exprs).filter Plain = s.traced := by
  have none := (Cursor.atEnd_iff s.cursor).mp stop
  simp [finish, traced, none, Mode.uncommented, Expr.chars, Expr.value]

end Scanner

open Scanner

/-- **No plain character is lost.**  The plain characters of a source, without those in comments,
are those of the values, in the same order; only for a backslash at the very end there is one U+0000
more. -/
theorem plain_compile (source : String) :
    (¬ Overruns source → (Expr.chars (compile source)).filter Plain =
      (Mode.uncommented .text source.toList).filter Plain) ∧
    (Overruns source → (Expr.chars (compile source)).filter Plain =
      (Mode.uncommented .text source.toList).filter Plain ++ [sentinel]) := by
  have held : (Expr.chars (compile source)).filter Plain = (ofString source).run.traced :=
    chars_finish (atEnd_run _)
  rw [held]
  constructor
  · intro complete
    exact (reached_end source).traced_eq.resolve_left fun overruns => complete overruns.2
  · rintro ⟨s, reached, mode, left⟩
    have more : ¬ s.cursor.atEnd := by
      rw [Cursor.atEnd_iff, left]
      exact List.cons_ne_nil _ _
    obtain ⟨stop, last⟩ := traced_of_overrun (move_step more) mode left
    rw [← reached.run_eq, ← run_step more, run_of_atEnd stop, last,
      reached.traced_eq.resolve_left fun stop => more stop.1]

end Stencil
