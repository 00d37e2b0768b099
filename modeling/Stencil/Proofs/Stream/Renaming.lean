/-
# `Stream.Renaming` — characters without a meaning are all alike

A character that means nothing in a template is taken as it is, and none of these characters is told
from another.  So a renaming of characters that leaves the meaningful ones alone, and makes none of
another, can be applied to a source or to what the source is compiled to:

    source    ──── compile ────▸   exprs
      │ f                            │ f
    renamed   ──── compile ────▸   renamed

U+0000 is one of the characters without a meaning, although the scanner is given it for every read
past the end.  The stream makes plain that this confuses nothing: it never reads past the end, and
takes a character only when that has arrived (`step_map`).  The one U+0000 which is not of the source
is the one that stands for a backslash at the very end, and there a renaming has to leave it alone.

* `Renames` — the renamings;
* `compile_map` — the square above, and what the scanner does with a character without a meaning.
-/
import Stencil.Proofs.Scanner.Conservation
import Stencil.Proofs.Stream.Agreement

namespace Stencil

/-- `Renames f`: a function on characters leaves alone those that mean something and those that a
backslash makes of them, and makes a meaningful character of no other. -/
structure Renames (f : Char → Char) : Prop where
  fixes : ∀ c ∈ meaningful ++ ['\n', '\r', '\t'], f c = c
  avoids : ∀ c, c ∉ meaningful ++ ['\n', '\r', '\t'] → f c ∉ meaningful

/-- An expression with its characters renamed; its kind stays. -/
def Expr.map (f : Char → Char) : Expr → Expr
  | literal text => literal (text.map f)
  | var key => var (key.map f)
  | comment note => comment (note.map f)

theorem map_push (f : Char → Char) (text : String) (c : Char) :
    (text.push c).map f = (text.map f).push (f c) := by
  rw [← String.toList_inj]
  simp

/-! ## Single characters -/

namespace Renames

variable {f : Char → Char} (h : Renames f)
include h

theorem fixes_meaningful {m : Char} (mem : m ∈ meaningful) : f m = m :=
  h.fixes m (List.mem_append_left _ mem)

theorem eq_iff {m : Char} (mem : m ∈ meaningful) (c : Char) : f c = m ↔ c = m := by
  constructor
  · intro eq
    by_cases fixed : c ∈ meaningful ++ ['\n', '\r', '\t']
    · rw [← h.fixes c fixed, eq]
    · exact absurd (eq ▸ mem) (h.avoids c fixed)
  · rintro rfl
    exact h.fixes_meaningful mem

theorem opened? (c : Char) : Markup.opened? (f c) = Markup.opened? c := by
  ext kind
  have same := h.eq_iff kind.sigil_mem_meaningful c
  rw [Markup.opened?_eq_some, Markup.opened?_eq_some, same]

theorem unescape (c : Char) : unescape (f c) = f (unescape c) := by
  by_cases mem : c ∈ meaningful
  · rw [h.fixes_meaningful mem]
    have stands : Stencil.unescape c ∈ meaningful ++ ['\n', '\r', '\t'] := by
      unfold Stencil.unescape
      split
      case h_4 => exact List.mem_append_left _ mem
      all_goals decide
    exact (h.fixes _ stands).symm
  · have renamed : f c ∉ meaningful := fun mem' => mem ((h.eq_iff mem' c).mp rfl ▸ mem')
    rw [unescape_of_not_mem mem, unescape_of_not_mem renamed]

end Renames

/-! ## Streams -/

namespace Stream

/-- A stream that has been given other characters. -/
def map (f : Char → Char) (s : Stream) : Stream :=
  ⟨s.state, s.pending.map f, s.emitted.map (·.map f)⟩

theorem map_start (f : Char → Char) : start.map f = start := by
  simp [map, start, ← String.toList_inj]

theorem emit_map (f : Char → Char) (s : Stream) {make : String → Expr}
    (alike : ∀ text, make (text.map f) = (make text).map f) (state : State) :
    (s.map f).emit make state = (s.emit make state).map f := by
  simp [map, emit, alike]

variable {f : Char → Char} (h : Renames f)
include h

theorem stepText_map (s : Stream) (c : Char) : (s.map f).stepText (f c) = (s.stepText c).map f := by
  have slash := h.eq_iff (m := '\\') (by decide) c
  unfold stepText
  rw [h.opened? c]
  simp only [slash]
  split
  · rfl
  · split
    · rfl
    · simp [map, map_push]

/-- **A step takes a renamed character as it takes the character.** -/
theorem step_map (s : Stream) (c : Char) : (s.map f).step (f c) = (s.step c).map f := by
  obtain ⟨state, pending, emitted⟩ := s
  cases state with
  | text => exact stepText_map h _ c
  | escape => simp [map, step, h.unescape, map_push]
  | held kind =>
      have brace := h.eq_iff (m := '{') (by decide) c
      have sigil := h.fixes_meaningful kind.sigil_mem_meaningful
      simp only [step, map, brace]
      split
      · exact emit_map f ⟨.held kind, pending, emitted⟩ (fun _ => rfl) (.markup kind)
      · have took := stepText_map h ⟨.held kind, pending.push kind.sigil, emitted⟩ c
        rwa [map, map_push, sigil] at took
  | markup kind =>
      have brace := h.eq_iff (m := '}') (by decide) c
      simp only [step, map, brace]
      split
      · refine emit_map f ⟨.markup kind, pending, emitted⟩ (fun _ => ?_) .text
        cases kind <;> rfl
      · split
        · rw [map_push]
        · rfl

theorem feed_map (s : Stream) (text : String) : (s.map f).feed (text.map f) = (s.feed text).map f := by
  unfold feed
  rw [String.toList_map]
  induction text.toList generalizing s with
  | nil => rfl
  | cons c rest ih => rw [List.map_cons, List.foldl_cons, List.foldl_cons, step_map h, ih]

/-- At the end only a remembered backslash brings in a character that has not arrived. -/
theorem remainder_map (s : Stream) (complete : s.state = .escape → f sentinel = sentinel) :
    (s.map f).remainder = s.remainder.map f := by
  obtain ⟨state, pending, emitted⟩ := s
  cases state with
  | text | markup => rfl
  | escape => rw [remainder, map, remainder, map_push, complete rfl]
  | held kind =>
      rw [remainder, map, remainder, map_push, h.fixes_meaningful kind.sigil_mem_meaningful]

theorem finish_map (s : Stream) (complete : s.state = .escape → f sentinel = sentinel) :
    (s.map f).finish = s.finish.map (·.map f) := by
  have last := remainder_map h s complete
  simp only [finish, Array.toList_push, List.map_append, last]
  simp [map, Expr.map]

end Stream

/-- **A renaming of the characters without a meaning goes through compiling**, the kinds of the
expressions staying as they are.  Where a backslash at the very end has nothing to take, the renaming
has to leave U+0000 alone, which is what stands for it.  In a source U+0000 is one of the characters
without a meaning.  The walk does not end at any of them, and takes each for itself; and in the end
those of the source that are not in comments are those of the values, none lost and none made. -/
theorem compile_map {f : Char → Char} (renames : Renames f) (source : String)
    (complete : Scanner.Overruns source → f sentinel = sentinel) :
    compile (source.map f) = (compile source).map (·.map f) ∧
      (sentinel ∉ meaningful ∧ Plain sentinel) ∧
      (∀ (s : Scanner) (c : Char) (rest : List Char), c ∉ meaningful →
        s.cursor.remaining = c :: rest ∨
          s.mode = .text ∧ s.cursor.remaining = '\\' :: c :: rest →
        ¬ s.cursor.atEnd ∧ s.Takes s.step c rest) ∧
      (¬ Scanner.Overruns source → (Expr.chars (compile source)).filter Plain =
        (Mode.uncommented .text source.toList).filter Plain) ∧
      (Scanner.Overruns source → (Expr.chars (compile source)).filter Plain =
        (Mode.uncommented .text source.toList).filter Plain ++ [sentinel]) := by
  refine ⟨?_, by decide, ?_, plain_compile source⟩
  · have fed := Stream.feed_map renames .start source
    rw [Stream.map_start] at fed
    rw [compile_eq_finish, compile_eq_finish, fed]
    exact Stream.finish_map renames _ fun escape => complete (Scanner.overruns_iff.mpr escape)
  · intro s c rest plain next
    have more : ¬ s.cursor.atEnd := by
      rw [Cursor.atEnd_iff]
      rcases next with left | ⟨-, left⟩ <;> simp [left]
    have move := Scanner.move_step more
    rcases next with left | ⟨mode, left⟩
    · exact ⟨more, move.takes plain left⟩
    · exact ⟨more, move.takes_escaped plain mode left⟩

/-- U+0000 and an ordinary letter can be exchanged in a text, behind a backslash and in a key. -/
theorem compile_map_exchange :
    let exchange := fun c : Char => if c = 'x' then sentinel else if c = sentinel then 'x' else c
    Renames exchange ∧ ¬ Scanner.Overruns "x\x00\\\x00$\x7bx\x00\x7d" ∧
      compile ("x\x00\\\x00$\x7bx\x00\x7d".map exchange) =
        (compile "x\x00\\\x00$\x7bx\x00\x7d").map (·.map exchange) := by
  intro exchange
  have same {c : Char} (letter : c ≠ 'x') (zero : c ≠ sentinel) : exchange c = c := by
    simp [exchange, letter, zero]
  have renames : Renames exchange := by
    constructor
    case fixes =>
      intro c mem
      refine same ?_ ?_ <;> rintro rfl <;> exact absurd mem (by decide)
    case avoids =>
      intro c plain
      by_cases letter : c = 'x'
      · rw [letter]
        decide
      · by_cases zero : c = sentinel
        · rw [zero]
          decide
        · rw [same letter zero]
          exact fun mem => plain (List.mem_append_left _ mem)
  have complete : ¬ Scanner.Overruns "x\x00\\\x00$\x7bx\x00\x7d" := by
    rw [Scanner.overruns_iff]
    decide
  exact ⟨renames, complete, (compile_map renames _ fun escape => absurd escape complete).1⟩

end Stencil
