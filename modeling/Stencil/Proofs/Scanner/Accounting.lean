/-
# `Scanner.Accounting` — where the characters of a source go

Every character that a walk reads goes one of three ways: it is held by the value of an expression or
by the buffer, as it is or as what an escape makes of it; it belongs to a delimiter, an opener of two
characters or a closing brace; or it is lost.  What is lost is the backslash of an escape and what
stands in a comment.

    source      a b   \ n   ${   k e y   }   #{   n o t e   }
    held        a b     ⏎        k e y
    delimiters              2            1    2             1
    lost              1                            4

A backslash at the very end of the source is not lost, for the sentinel is gathered in its place.

`accounted_of_move` says this of one move, and everything else follows from it: along a walk, what is
held and the delimiters never exceed what has been read (`Reached.accounts`), and at the end they are
the whole source exactly when nothing was lost on the way (`accounted_run_iff`).
-/
import Mathlib.Logic.Function.Iterate
import Stencil.Evaluation
import Stencil.Proofs.Scanner.Walk

namespace Stencil

/-! ## What is counted -/

/-- The number of characters that the values of some expressions hold. -/
def Expr.held : List Expr → Nat
  | [] => 0
  | e :: exprs => e.value.length + held exprs

/-- The number of openers among some changes of mode. -/
def Transition.openers (events : List Transition) : Nat :=
  events.countP (·.target != .text)

def Transition.closers (events : List Transition) : Nat :=
  events.countP (·.target == .text)

open Transition (openers closers)

theorem held_concat (exprs : List Expr) (e : Expr) :
    Expr.held (exprs ++ [e]) = Expr.held exprs + e.value.length := by
  induction exprs with
  | nil => simp [Expr.held]
  | cons x exprs ih => rw [List.cons_append, Expr.held, ih, Expr.held, Nat.add_assoc]

theorem openers_concat (events : List Transition) (e : Transition) :
    openers (events ++ [e]) = openers events + if e.target = .text then 0 else 1 := by
  simp [openers, List.countP_append, List.countP_singleton]

theorem closers_concat (events : List Transition) (e : Transition) :
    closers (events ++ [e]) = closers events + if e.target = .text then 1 else 0 := by
  simp [closers, List.countP_append, List.countP_singleton]

@[simp] theorem Markup.value_expr (kind : Markup) (text : String) :
    (kind.expr text).value = text := by
  cases kind <;> rfl

theorem length_eval_empty_le (e : Expr) : (e.eval .empty).length ≤ e.value.length := by
  cases e with
  | literal text => exact Nat.le_refl _
  | var key => simp [Expr.eval]
  | comment note => simp [Expr.eval]

theorem length_evaluate_empty_le (exprs : List Expr) :
    (evaluate exprs .empty).length ≤ Expr.held exprs := by
  induction exprs with
  | nil => exact Nat.le_refl _
  | cons e exprs ih =>
      have first := length_eval_empty_le e
      rw [evaluate_cons, String.length_append, Expr.held]
      omega

namespace Cursor

@[simp] theorem offset_push (c : Cursor) (char : Char) : (c.push char).offset = c.offset := rfl

@[simp] theorem offset_flush (c : Cursor) : c.flush.2.offset = c.offset := rfl

theorem offset_advance_cons {c : Cursor} {char : Char} {rest : List Char}
    (left : c.remaining = char :: rest) : c.advance.offset = c.offset + 1 := by
  have more : ¬ c.atEnd := by
    rw [atEnd_iff, left]
    exact List.cons_ne_nil char rest
  unfold advance
  rw [dif_pos]
  simpa [atEnd] using more

theorem offset_advance_cons_cons {c : Cursor} {char next : Char} {rest : List Char}
    (left : c.remaining = char :: next :: rest) : c.advance.advance.offset = c.offset + 2 := by
  have after : c.advance.remaining = next :: rest := by simp [left]
  rw [offset_advance_cons after, offset_advance_cons left]

end Cursor

namespace Scanner

/-- What a scanner can account for of the characters it has read. -/
def accounted (s : Scanner) : Nat :=
  Expr.held s.exprs.toList + s.cursor.buffer.length + 2 * openers s.transitions.toList +
    closers s.transitions.toList

/-- The next step takes the character after a backslash. -/
def AtEscape (s : Scanner) : Prop :=
  s.mode = .text ∧ ∃ c rest, s.cursor.remaining = '\\' :: c :: rest

/-- The next step drops a character of a comment. -/
def AtNote (s : Scanner) : Prop :=
  s.mode = .markup .comment ∧ ∃ c rest, s.cursor.remaining = c :: rest ∧ c ≠ '}'

def Loses (s : Scanner) : Prop :=
  s.AtEscape ∨ s.AtNote

variable {s t : Scanner} {source : String}

theorem not_loses_of_text (mode : s.mode = .text)
    (complete : ∀ c rest, s.cursor.remaining ≠ '\\' :: c :: rest) : ¬ s.Loses := by
  rintro (⟨-, c, rest, left⟩ | ⟨inComment, -⟩)
  · exact complete c rest left
  · exact nomatch mode.symm.trans inComment

theorem not_loses_of_brace {kind : Markup} {rest : List Char} (mode : s.mode = .markup kind)
    (left : s.cursor.remaining = '}' :: rest) : ¬ s.Loses := by
  rintro (⟨inText, -⟩ | ⟨-, c, _, eq, brace⟩)
  · exact nomatch mode.symm.trans inText
  · exact brace (List.cons.inj (left.symm.trans eq)).1.symm

theorem not_loses_of_var (mode : s.mode = .markup .var) : ¬ s.Loses := by
  rintro (⟨inText, -⟩ | ⟨inComment, -⟩)
  · exact nomatch mode.symm.trans inText
  · exact nomatch mode.symm.trans inComment

theorem Loses.not_atEnd (h : s.Loses) : ¬ s.cursor.atEnd := by
  rw [Cursor.atEnd_iff]
  rcases h with ⟨-, c, rest, left⟩ | ⟨-, c, rest, left, -⟩
  · exact left ▸ List.cons_ne_nil _ _
  · exact left ▸ List.cons_ne_nil _ _

/-! ## One move -/

/-- Reading and gathering change what is accounted for by what they change in the buffer. -/
theorem accounted_cursor (s : Scanner) (cursor : Cursor) :
    accounted { s with cursor } + s.cursor.buffer.length =
      s.accounted + cursor.buffer.length := by
  simp only [accounted]
  omega

theorem accounted_read (s : Scanner) {cursor : Cursor} (same : cursor.buffer = s.cursor.buffer) :
    accounted { s with cursor } = s.accounted := by
  have kept := accounted_cursor s cursor
  rw [same] at kept
  omega

theorem accounted_push (s : Scanner) {cursor : Cursor} (same : cursor.buffer = s.cursor.buffer)
    (c : Char) : accounted { s with cursor := cursor.push c } = s.accounted + 1 := by
  have kept := accounted_cursor s (cursor.push c)
  rw [Cursor.buffer_push, same, String.length_push] at kept
  omega

/-- A change of mode accounts for its delimiter; what was in the buffer is in an expression. -/
theorem accounted_switch (s : Scanner) {make : String → Expr}
    (keeps : ∀ text, (make text).value = text) (target : Mode) :
    (s.switch make target).accounted = s.accounted + if target = .text then 1 else 2 := by
  simp only [accounted, exprs_switch, transitions_switch, cursor_switch, Cursor.buffer_flush,
    Array.toList_push, held_concat, openers_concat, closers_concat, keeps, String.length_empty]
  split <;> omega

/-- **A move accounts for all that it reads, or for all but the one character that it loses.** -/
theorem accounted_of_move (move : Move s t) :
    (¬ s.Loses ∧ t.accounted + s.cursor.offset = s.accounted + t.cursor.offset) ∨
      (s.Loses ∧ t.accounted + s.cursor.offset + 1 = s.accounted + t.cursor.offset) := by
  have once := Cursor.buffer_advance s.cursor
  have twice := (Cursor.buffer_advance s.cursor.advance).trans once
  cases move with
  | @plain c rest mode left slash opens =>
      refine .inl ⟨not_loses_of_text mode fun d more eq => ?_, ?_⟩
      · exact slash (List.cons.inj (left.symm.trans eq)).1
      · rw [accounted_push s once, Cursor.offset_push, Cursor.offset_advance_cons left]
        omega
  | @escape c rest mode left =>
      refine .inr ⟨.inl ⟨mode, c, rest, left⟩, ?_⟩
      rw [accounted_push s twice, Cursor.offset_push, Cursor.offset_advance_cons_cons left]
      omega
  | overrun mode left =>
      refine .inl ⟨not_loses_of_text mode fun d more eq => ?_, ?_⟩
      · exact nomatch (List.cons.inj (left.symm.trans eq)).2
      · rw [accounted_push s once, Cursor.offset_push, Cursor.offset_advance_cons left]
        omega
  | @opener kind rest mode left =>
      refine .inl ⟨not_loses_of_text mode fun d more eq => ?_, ?_⟩
      · exact kind.sigil_ne (by decide) (List.cons.inj (left.symm.trans eq)).1
      · rw [accounted_switch _ (fun _ => rfl), if_neg (by simp), accounted_read s twice,
          cursor_switch, Cursor.offset_flush, Cursor.offset_advance_cons_cons left]
        omega
  | @closer kind rest mode left =>
      refine .inl ⟨not_loses_of_brace mode left, ?_⟩
      rw [accounted_switch _ kind.value_expr, if_pos rfl, accounted_read s once,
        cursor_switch, Cursor.offset_flush, Cursor.offset_advance_cons left]
      omega
  | @body kind c rest mode left brace =>
      cases kind with
      | var =>
          refine .inl ⟨not_loses_of_var mode, ?_⟩
          show accounted { s with cursor := s.cursor.advance.push c } + _ =
            _ + (s.cursor.advance.push c).offset
          rw [accounted_push s once, Cursor.offset_push, Cursor.offset_advance_cons left]
          omega
      | comment =>
          refine .inr ⟨.inr ⟨mode, c, rest, left, brace⟩, ?_⟩
          show accounted { s with cursor := s.cursor.advance } + _ + 1 =
            _ + s.cursor.advance.offset
          rw [accounted_read s once, Cursor.offset_advance_cons left]
          omega

theorem offset_of_move (move : Move s t) :
    t.cursor.offset = s.cursor.offset + 1 ∨ t.cursor.offset = s.cursor.offset + 2 := by
  cases move with
  | plain _ left _ _ => exact .inl (Cursor.offset_advance_cons left)
  | escape _ left => exact .inr (Cursor.offset_advance_cons_cons left)
  | overrun _ left => exact .inl (Cursor.offset_advance_cons left)
  | opener _ left => exact .inr (Cursor.offset_advance_cons_cons left)
  | closer _ left => exact .inl (Cursor.offset_advance_cons left)
  | body _ left _ =>
      left
      split
      · exact Cursor.offset_advance_cons left
      · exact Cursor.offset_advance_cons left

theorem text_of_move (move : Move s t) : t.cursor.text = s.cursor.text := by
  cases move with
  | body _ _ _ => split <;> simp
  | _ => simp

/-! ## The invariant of a walk -/

/-- What holds of a scanner at any time in a walk. -/
structure Accounts (s : Scanner) : Prop where
  accounted_le : s.accounted ≤ s.cursor.offset
  comment_buffer : s.mode = .markup .comment → s.cursor.buffer = ""
  size_exprs : s.exprs.size =
    openers s.transitions.toList + closers s.transitions.toList
  openers_eq : openers s.transitions.toList =
    closers s.transitions.toList + if s.mode = .text then 0 else 1

theorem Accounts.ofString (source : String) : (ofString source).Accounts where
  accounted_le := Nat.le_refl _
  comment_buffer := fun _ => rfl
  size_exprs := rfl
  openers_eq := rfl

theorem Accounts.of_move (move : Move s t) (h : s.Accounts) : t.Accounts := by
  have le : t.accounted ≤ t.cursor.offset := by
    have before := h.accounted_le
    rcases accounted_of_move move with ⟨-, eq⟩ | ⟨-, eq⟩ <;> omega
  have alternate := h.openers_eq
  cases move with
  | plain mode | escape mode | overrun mode =>
      exact { h with accounted_le := le, comment_buffer := fun eq => nomatch mode.symm.trans eq }
  | @opener kind _ mode _ =>
      refine ⟨le, fun _ => rfl, ?_, ?_⟩
      · simp [openers_concat, closers_concat, h.size_exprs]
        omega
      · simp [openers_concat, closers_concat, alternate, mode]
  | @closer kind _ mode _ =>
      refine ⟨le, fun _ => rfl, ?_, ?_⟩
      · simp [openers_concat, closers_concat, h.size_exprs]
        omega
      · simp [openers_concat, closers_concat, alternate, mode]
  | @body kind _ _ mode _ _ =>
      refine { h with accounted_le := le, comment_buffer := ?_ }
      intro eq
      obtain rfl : kind = .comment := by simpa using mode.symm.trans eq
      have empty := h.comment_buffer mode
      simpa [Markup.gathers] using empty

/-! ## The whole walk -/

theorem Reached.accounts (h : Reached source s) : s.Accounts := by
  induction h with
  | start => exact .ofString source
  | step _ more ih => exact ih.of_move (move_step more)

theorem Reached.size_text (h : Reached source s) : s.cursor.text.size = source.length := by
  induction h with
  | start =>
      rw [ofString, Cursor.text_ofString, List.size_toArray]
      exact String.length_toList
  | step _ more ih => rw [text_of_move (move_step more), ih]

theorem Reached.offset_le (h : Reached source s) : s.cursor.offset ≤ source.length := by
  have inside := s.cursor.offset_le
  rwa [h.size_text] at inside

theorem Reached.run (h : Reached source s) : Reached source s.run := by
  induction s using run.induct with
  | case1 s stop => rwa [run_of_atEnd stop]
  | case2 s more ih =>
      rw [← run_step more]
      exact ih (h.step more)

theorem reached_end (source : String) : Reached source (ofString source).run :=
  Reached.start.run

/-- From wherever it is looked at, the walk goes on to its one end. -/
theorem Reached.run_eq (h : Reached source s) : s.run = (ofString source).run := by
  induction h with
  | start => rfl
  | step _ more ih => rw [run_step more, ih]

theorem offset_run (source : String) : (ofString source).run.cursor.offset = source.length := by
  have reached := reached_end source
  have stop : (ofString source).run.cursor.text.size ≤ (ofString source).run.cursor.offset := by
    simpa [Cursor.atEnd] using atEnd_run (ofString source)
  rw [reached.size_text] at stop
  exact Nat.le_antisymm reached.offset_le stop

theorem length_remaining_step (more : ¬ s.cursor.atEnd) :
    s.step.cursor.remaining.length < s.cursor.remaining.length := by
  have left := List.length_pos_iff.mpr (Cursor.remaining_ne_nil more)
  rcases remaining_step s with eq | eq
  · rw [eq, List.length_tail]
    omega
  · rw [eq, List.length_tail, List.length_tail]
    omega

theorem exists_run_eq_iterate (s : Scanner) : ∃ k ≤ s.cursor.remaining.length,
    s.run = step^[k] s ∧ ∀ j < k, ¬ (step^[j] s).cursor.atEnd := by
  induction s using run.induct with
  | case1 s stop =>
      exact ⟨0, Nat.zero_le _, run_of_atEnd stop, fun j lt => absurd lt (Nat.not_lt_zero j)⟩
  | case2 s more ih =>
      obtain ⟨k, le, eq, before⟩ := ih
      refine ⟨k + 1, Nat.lt_of_le_of_lt le (length_remaining_step more), ?_, ?_⟩
      · rw [← run_step more, eq, Function.iterate_succ_apply]
      · intro j lt
        cases j with
        | zero => exact more
        | succ j =>
            rw [Function.iterate_succ_apply]
            exact before j (Nat.lt_of_succ_lt_succ lt)

/-! ## What is lost -/

/-- What a walk has lost at one time it never makes good. -/
theorem accounted_run_lt (h : s.accounted < s.cursor.offset) :
    s.run.accounted < s.run.cursor.offset := by
  induction s using run.induct with
  | case1 s stop => rwa [run_of_atEnd stop]
  | case2 s more ih =>
      rw [← run_step more]
      apply ih
      rcases accounted_of_move (move_step more) with ⟨-, eq⟩ | ⟨-, eq⟩ <;> omega

theorem Reached.accounted_eq (none : ∀ t, Reached source t → ¬ t.Loses) (h : Reached source s) :
    s.accounted = s.cursor.offset := by
  induction h with
  | start => rfl
  | @step s reached more ih =>
      rcases accounted_of_move (move_step more) with ⟨-, eq⟩ | ⟨loses, -⟩
      · omega
      · exact absurd loses (none s reached)

/-- **A walk accounts for the whole source exactly when it loses nothing on its way.** -/
theorem accounted_run_iff (source : String) :
    (ofString source).run.accounted = source.length ↔ ∀ s, Reached source s → ¬ s.Loses := by
  constructor
  · intro whole s reached loses
    have le := reached.accounts.accounted_le
    have lost : s.step.accounted < s.step.cursor.offset := by
      rcases accounted_of_move (move_step loses.not_atEnd) with ⟨safe, -⟩ | ⟨-, eq⟩
      · exact absurd loses safe
      · omega
    have short := accounted_run_lt lost
    rw [(reached.step loses.not_atEnd).run_eq, offset_run] at short
    omega
  · intro none
    rw [(reached_end source).accounted_eq none, offset_run]

end Scanner

/-! ## What is compiled -/

open Scanner

theorem held_compile (source : String) :
    Expr.held (compile source) + 2 * openers (scan source).transitions +
      closers (scan source).transitions = (ofString source).run.accounted := by
  rw [compile, scan, finish, Array.toList_push, held_concat]
  rfl

theorem length_compile (source : String) : (compile source).length =
    openers (scan source).transitions + closers (scan source).transitions + 1 := by
  have size := (reached_end source).accounts.size_exprs
  rw [compile, scan, finish, Array.toList_push, List.length_append, Array.length_toList, size]
  rfl

theorem held_compile_le (source : String) :
    Expr.held (compile source) + 2 * openers (scan source).transitions +
      closers (scan source).transitions ≤ source.length := by
  rw [held_compile, ← offset_run source]
  exact (reached_end source).accounts.accounted_le

theorem closers_le_openers (source : String) :
    closers (scan source).transitions ≤ openers (scan source).transitions := by
  rw [scan, finish, (reached_end source).accounts.openers_eq]
  exact Nat.le_add_right _ _

/-- **The accounts of a walk.**  At any time the offset is inside the source, a comment has gathered
nothing, what is held and the delimiters do not exceed what has been read, and a step reads one
character or two and none outside the source.  So the walk ends after at most as many steps as the
source has characters, with all of them read.  Hence a source gives at most two expressions for three
of its characters, beside the last; these hold no more characters than it has, and where nothing is
bound they evaluate to no more.  What is held and the delimiters are the whole source exactly when
the walk meets neither a backslash in text with a character after it nor a character in a comment. -/
theorem compile_accounts (source : String) :
    (∀ s, Reached source s →
      s.cursor.offset ≤ source.length ∧
        (s.mode = .markup .comment → s.cursor.buffer = "") ∧
        Expr.held s.exprs.toList + s.cursor.buffer.length + 2 * openers s.transitions.toList +
          closers s.transitions.toList ≤ s.cursor.offset ∧
        (¬ s.cursor.atEnd → s.step.cursor.offset ≤ source.length ∧
          (s.step.cursor.offset = s.cursor.offset + 1 ∨
            s.step.cursor.offset = s.cursor.offset + 2))) ∧
      (∃ k ≤ source.length, (ofString source).run = step^[k] (ofString source) ∧
        ∀ j < k, ¬ (step^[j] (ofString source)).cursor.atEnd) ∧
      (ofString source).run.cursor.offset = source.length ∧
      3 * ((compile source).length - 1) ≤ 2 * source.length ∧
      Expr.held (compile source) ≤ source.length ∧
      (evaluate (compile source) .empty).length ≤ source.length ∧
      (Expr.held (compile source) + 2 * openers (scan source).transitions +
          closers (scan source).transitions = source.length ↔
        (¬ ∃ s, Reached source s ∧ s.AtEscape) ∧ ¬ ∃ s, Reached source s ∧ s.AtNote) := by
  have account := held_compile_le source
  have alternate := closers_le_openers source
  have shown := length_evaluate_empty_le (compile source)
  refine ⟨?_, ?_, offset_run source, ?_, by omega, by omega, ?_⟩
  · intro s reached
    have accounts := reached.accounts
    refine ⟨reached.offset_le, accounts.comment_buffer, accounts.accounted_le, ?_⟩
    intro more
    exact ⟨(reached.step more).offset_le, offset_of_move (move_step more)⟩
  · have count := exists_run_eq_iterate (ofString source)
    rwa [ofString, Cursor.remaining_ofString, String.length_toList] at count
  · rw [length_compile]
    omega
  · rw [held_compile, accounted_run_iff]
    constructor
    · intro none
      exact ⟨fun ⟨s, reached, escape⟩ => none s reached (.inl escape),
        fun ⟨s, reached, note⟩ => none s reached (.inr note)⟩
    · rintro ⟨noEscape, noNote⟩ s reached (escape | note)
      · exact noEscape ⟨s, reached, escape⟩
      · exact noNote ⟨s, reached, note⟩

end Stencil
