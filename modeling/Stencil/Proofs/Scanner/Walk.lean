/-
# `Scanner.Walk` — what one step of the scanner does, and what a whole walk keeps

A step of the scanner reads through the cursor: it takes the next character, sometimes looks at the
one after it, and at the end of the source both are the sentinel.  Everything said about walks later
is said about what is *left to read* instead, and for that one list of six cases is enough:

    text      `c …`         `c` is gathered
    text      `\ c …`       what the escape stands for is gathered
    text      `\`           at the very end: the sentinel is gathered
    text      `${…` `#{…`   what was gathered is a literal, markup begins
    markup    `} …`         what was gathered is the markup's expression, text begins
    markup    `c …`         `c` is gathered, or dropped in a comment

`Move` is that list, `move_step` says that every step of a walk is on it, and no later proof unfolds
a step.  A walk is then treated by induction on `Scanner.run`: `run_eq_of_move` carries over what no
move changes, and `Reached` are the states in which the walk over one source ever is.  `EndsClean`
says of a source that its walk ends as it began, in text, with no escape cut off by the end.
-/
import Stencil.Scanner

namespace Stencil

/-! ## The cursor, seen through what is left to read -/

namespace Cursor

@[simp] theorem remaining_ofString (s : String) : (ofString s).remaining = s.toList := by
  simp [ofString, remaining]

@[simp] theorem text_ofString (s : String) : (ofString s).text = s.toList.toArray := rfl

@[simp] theorem buffer_ofString (s : String) : (ofString s).buffer = "" := rfl

@[simp] theorem text_advance (c : Cursor) : c.advance.text = c.text := by
  unfold advance
  split <;> rfl

@[simp] theorem buffer_advance (c : Cursor) : c.advance.buffer = c.buffer := by
  unfold advance
  split <;> rfl

@[simp] theorem text_push (c : Cursor) (char : Char) : (c.push char).text = c.text := rfl

@[simp] theorem buffer_push (c : Cursor) (char : Char) :
    (c.push char).buffer = c.buffer.push char := rfl

@[simp] theorem text_flush (c : Cursor) : c.flush.2.text = c.text := rfl

@[simp] theorem buffer_flush (c : Cursor) : c.flush.2.buffer = "" := rfl

@[simp] theorem flush_fst (c : Cursor) : c.flush.1 = c.buffer := rfl

theorem length_remaining (c : Cursor) : c.remaining.length = c.text.size - c.offset := by
  simp [remaining]

theorem offset_eq (c : Cursor) : c.offset = c.text.size - c.remaining.length := by
  have le := c.offset_le
  rw [length_remaining]
  omega

theorem atEnd_iff (c : Cursor) : c.atEnd ↔ c.remaining = [] := by
  simp [atEnd, remaining]

theorem peek_eq_headD (c : Cursor) : c.peek = c.remaining.headD sentinel := by
  simp [peek, charAt, remaining, List.headD_eq_head?_getD]

theorem advance_of_remaining_eq_nil {c : Cursor} (h : c.remaining = []) : c.advance = c := by
  unfold advance
  rw [dif_neg]
  have stop := (atEnd_iff c).mpr h
  simpa [atEnd] using stop

end Cursor

/-! ## Openers -/

namespace Markup

theorem opened?_eq_some {c : Char} {kind : Markup} : opened? c = some kind ↔ c = kind.sigil := by
  cases kind <;> (unfold opened? sigil; split <;> simp_all)

theorem opened?_sigil (kind : Markup) : opened? kind.sigil = some kind :=
  opened?_eq_some.mpr rfl

theorem sigil_ne (kind : Markup) {c : Char} (other : c ∈ ['\\', '{', '}']) : kind.sigil ≠ c := by
  rintro rfl
  cases kind <;> exact absurd other (by decide)

/-- What markup keeps of its body. -/
def kept (kind : Markup) (body : List Char) : String :=
  if kind.gathers then String.ofList body else ""

@[simp] theorem kept_nil (kind : Markup) : kind.kept [] = "" := by
  simp [kept]

theorem kept_var (body : String) : var.kept body.toList = body :=
  String.ofList_toList

theorem append_kept_cons (kind : Markup) (gathered : String) (c : Char) (body : List Char) :
    gathered ++ kind.kept (c :: body) =
      (if kind.gathers then gathered.push c else gathered) ++ kind.kept body := by
  unfold kept
  split
  · rw [String.push_eq_append, String.append_assoc, String.ofList_cons]
  · rfl

end Markup

/-- An opener stands at the front of a text. -/
def Opens (s : List Char) : Prop :=
  ∃ (kind : Markup) (rest : List Char), s = kind.sigil :: '{' :: rest

namespace Scanner

/-! ## The moves -/

section Switch

variable (s : Scanner) (make : String → Expr) (target : Mode)

@[simp] theorem cursor_switch : (s.switch make target).cursor = s.cursor.flush.2 := rfl

@[simp] theorem mode_switch : (s.switch make target).mode = target := rfl

@[simp] theorem exprs_switch :
    (s.switch make target).exprs = s.exprs.push (make s.cursor.buffer) := rfl

@[simp] theorem transitions_switch : (s.switch make target).transitions =
    s.transitions.push ⟨s.mode, target, s.cursor.offset⟩ := rfl

end Switch

/-- `Move s t`: with something left to read, the scanner goes from `s` to `t` in one step. -/
inductive Move (s : Scanner) : Scanner → Prop
  | plain {c : Char} {rest : List Char} : s.mode = .text → s.cursor.remaining = c :: rest →
      c ≠ '\\' → ¬ Opens (c :: rest) → Move s { s with cursor := s.cursor.advance.push c }
  | escape {c : Char} {rest : List Char} : s.mode = .text →
      s.cursor.remaining = '\\' :: c :: rest →
      Move s { s with cursor := s.cursor.advance.advance.push (unescape c) }
  | overrun : s.mode = .text → s.cursor.remaining = ['\\'] →
      Move s { s with cursor := s.cursor.advance.push sentinel }
  | opener {kind : Markup} {rest : List Char} : s.mode = .text →
      s.cursor.remaining = kind.sigil :: '{' :: rest →
      Move s ({ s with cursor := s.cursor.advance.advance }.switch .literal (.markup kind))
  | closer {kind : Markup} {rest : List Char} : s.mode = .markup kind →
      s.cursor.remaining = '}' :: rest →
      Move s ({ s with cursor := s.cursor.advance }.switch kind.expr .text)
  | body {kind : Markup} {c : Char} {rest : List Char} : s.mode = .markup kind →
      s.cursor.remaining = c :: rest → c ≠ '}' →
      Move s { s with
        cursor := if kind.gathers then s.cursor.advance.push c else s.cursor.advance }

theorem move_stepText {s : Scanner} {c : Char} {rest : List Char} (mode : s.mode = .text)
    (left : s.cursor.remaining = c :: rest) :
    Move s ({ s with cursor := s.cursor.advance }.stepText c) := by
  have ahead : s.cursor.advance.remaining = rest := by simp [left]
  have next : s.cursor.advance.peek = rest.headD sentinel := by
    rw [Cursor.peek_eq_headD, ahead]
  simp only [stepText, next]
  by_cases slash : c = '\\'
  · subst slash
    rw [if_pos rfl]
    cases rest with
    | nil =>
        rw [Cursor.advance_of_remaining_eq_nil ahead]
        exact .overrun mode left
    | cons d rest => exact .escape mode left
  · rw [if_neg slash]
    cases opens : Markup.opened? c with
    | none =>
        refine .plain mode left slash ?_
        rintro ⟨kind, _, eq⟩
        obtain ⟨rfl, -⟩ := List.cons.inj eq
        simp [Markup.opened?_sigil] at opens
    | some kind =>
        obtain rfl := Markup.opened?_eq_some.mp opens
        by_cases brace : rest.headD sentinel = '{'
        · obtain ⟨rest, rfl⟩ : ∃ rest', rest = '{' :: rest' := by
            cases rest with
            | nil => exact absurd brace (by decide)
            | cons d rest => exact ⟨rest, by simpa using brace⟩
          exact .opener mode left
        · simp only [if_neg brace]
          refine .plain mode left slash ?_
          rintro ⟨_, _, eq⟩
          obtain ⟨-, rfl⟩ := List.cons.inj eq
          exact brace rfl

theorem move_stepMarkup {s : Scanner} {kind : Markup} {c : Char} {rest : List Char}
    (mode : s.mode = .markup kind) (left : s.cursor.remaining = c :: rest) :
    Move s ({ s with cursor := s.cursor.advance }.stepMarkup kind c) := by
  unfold stepMarkup
  by_cases close : c = '}'
  · subst close
    rw [if_pos rfl]
    exact .closer mode left
  · rw [if_neg close]
    have moved := Move.body mode left close
    split
    · next gathers => rwa [if_pos gathers] at moved
    · next drops => rwa [if_neg drops] at moved

/-- **Every step of a walk is a move.** -/
theorem move_step {s : Scanner} (h : ¬ s.cursor.atEnd) : Move s s.step := by
  obtain ⟨c, rest, left⟩ := List.exists_cons_of_ne_nil (Cursor.remaining_ne_nil h)
  have first : s.cursor.peek = c := by simp [Cursor.peek_eq_headD, left]
  simp only [step, Cursor.next, first]
  cases mode : s.mode with
  | text => simpa [mode] using move_stepText mode left
  | markup kind => simpa [mode] using move_stepMarkup mode left

/-! ## The whole walk -/

theorem run_of_atEnd {s : Scanner} (h : s.cursor.atEnd) : s.run = s := by
  rw [run, if_pos h]

theorem run_step {s : Scanner} (h : ¬ s.cursor.atEnd) : s.step.run = s.run := by
  rw [run.eq_def s, if_neg h]

theorem atEnd_run (s : Scanner) : s.run.cursor.atEnd := by
  induction s using run.induct with
  | case1 s stop => rwa [run_of_atEnd stop]
  | case2 s more ih => rwa [← run_step more]

/-- What no move changes, a whole walk does not change. -/
theorem run_eq_of_move {α : Type} {f : Scanner → α} (keeps : ∀ {s t}, Move s t → f t = f s)
    (s : Scanner) : f s.run = f s := by
  induction s using run.induct with
  | case1 s stop => rw [run_of_atEnd stop]
  | case2 s more ih =>
      rw [← run_step more, ih]
      exact keeps (move_step more)

/-- The states in which the walk over a source is at one time or another. -/
inductive Reached (source : String) : Scanner → Prop
  | start : Reached source (ofString source)
  | step {s : Scanner} : Reached source s → ¬ s.cursor.atEnd → Reached source s.step

/-- Somewhere in the walk over a source a backslash in text has nothing after it to take. -/
def Overruns (source : String) : Prop :=
  ∃ s, Reached source s ∧ s.mode = .text ∧ s.cursor.remaining = ['\\']

/-- The walk over a source ends in text, and every escape in it is complete. -/
def EndsClean (source : String) : Prop :=
  (ofString source).run.mode = .text ∧ ¬ Overruns source

end Scanner

end Stencil
