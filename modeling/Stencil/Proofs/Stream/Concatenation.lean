/-
# `Stream.Concatenation` — where a template can be cut

A template can be cut in two anywhere in its text: what the two parts are compiled to, with the
literal that ends the first and the literal that begins the second as one (`Expr.join`), is what the
whole is compiled to.  The first part has to end in text, and not with a backslash that would take a
character of the second.  Then one place remains at which the cut is seen, between the two characters
of an opener:

    first part    second part   together
    `a$`          `{k}`         an opener, in neither part
    `a\$`         `{k}`         text, as in the parts: the backslash has taken the `$`
    `a$`          `x`           text, as in the parts

Whether a `$` at the end is taken by a backslash depends on everything before it.  A stream has no
need to go back: it *holds* the `$`, or does not (`held_iff`).
-/
import Mathlib.Data.List.Basic
import Stencil.Expr.Normal
import Stencil.Proofs.Grammar.Segments
import Stencil.Proofs.Stream.Emission

namespace Stencil

/-! ## Lists of expressions joined -/

namespace Expr

/-- Two lists of expressions as one, a literal that ends the first being joined to the second. -/
def join : List Expr → List Expr → List Expr
  | [], ys => ys
  | [literal text], ys => joinLiteral text ys
  | x :: xs, ys => x :: join xs ys

theorem join_concat_literal (xs : List Expr) (text : String) (ys : List Expr) :
    join (xs ++ [literal text]) ys = xs ++ joinLiteral text ys := by
  induction xs with
  | nil => rfl
  | cons x xs ih =>
      rw [List.cons_append, join, ih, List.cons_append]
      intro _ _ none
      exact List.append_ne_nil_of_right_ne_nil xs (List.cons_ne_nil _ []) none

theorem exists_joinLiteral (text : String) (ys : List Expr) :
    ∃ more rest, joinLiteral text ys = literal (text ++ more) :: rest := by
  unfold joinLiteral
  split
  · next more rest => exact ⟨more, rest, rfl⟩
  · exact ⟨"", ys, by rw [String.append_empty]⟩

end Expr

theorem evaluate_joinLiteral (text : String) (ys : List Expr) (env : Environment) :
    evaluate (Expr.joinLiteral text ys) env = text ++ evaluate ys env := by
  unfold Expr.joinLiteral
  split
  · rw [evaluate_cons, evaluate_cons, ← String.append_assoc]
    rfl
  · rw [evaluate_cons]
    rfl

theorem evaluate_join (xs ys : List Expr) (env : Environment) :
    evaluate (Expr.join xs ys) env = evaluate xs env ++ evaluate ys env := by
  fun_induction Expr.join xs ys with
  | case1 ys => rw [evaluate_nil, String.empty_append]
  | case2 ys text =>
      rw [evaluate_joinLiteral, evaluate_cons, evaluate_nil, String.append_empty]
      rfl
  | case3 ys x xs _ ih => rw [evaluate_cons, evaluate_cons, ih, String.append_assoc]

/-! ## From the middle of a text -/

theorem exists_compile_eq_cons (source : String) :
    ∃ text rest, compile source = .literal text :: rest := by
  cases found : scan source with
  | mk exprs transitions =>
      have segments := scan_segments source
      rw [found] at segments
      rw [compile, found]
      cases segments with
      | text => exact ⟨_, _, rfl⟩
      | unclosed => exact ⟨_, _, rfl⟩
      | closed => exact ⟨_, _, rfl⟩

namespace Scanner

/-- A walk that is in text finds what is left to read, behind what it has gathered. -/
theorem exprs_run_text {s : Scanner} (mode : s.mode = .text) :
    s.run.finish.exprs =
      s.exprs.toList ++ Expr.joinLiteral s.cursor.buffer (Grammar.parts s.cursor.remaining) := by
  obtain ⟨events, exprs, found, ahead⟩ := s.finds_run
  rw [mode] at ahead
  cases ahead with
  | text gathered segments => rw [found, ← segments.exprs_eq, Expr.joinLiteral]

end Scanner

namespace Stream

/-- A stream in text emits what arrives as if nothing had been pending, and what was pending in
front of its first literal. -/
theorem finish_feed_text (pending : String) (emitted : Array Expr) (text : String) :
    ((⟨.text, pending, emitted⟩ : Stream).feed text).finish =
      emitted.toList ++ Expr.joinLiteral pending (compile text) := by
  let s : Scanner := ⟨⟨text.toList.toArray, 0, pending, Nat.zero_le _⟩, .text, emitted, #[]⟩
  have left : s.cursor.remaining = text.toList := by simp [s, Cursor.remaining]
  have same : s.forecast = (⟨.text, pending, emitted⟩ : Stream).feed text := by
    rw [Scanner.forecast, left]
    rfl
  have found := Scanner.exprs_run_text (s := s) rfl
  rw [Scanner.finish_exprs, Scanner.toStream_run, finish_settle, same, left] at found
  rw [found, compile, (scan_segments text).exprs_eq]

variable {s : Stream} {text : String}

/-- A held `$` or `#` becomes text unless a brace follows. -/
theorem finish_feed_settle (inText : s.InText)
    (apart : ¬ ((∃ kind, s.state = .held kind) ∧ text.toList.head? = some '{')) :
    (s.feed text).finish = ((⟨.text, s.remainder, s.emitted⟩ : Stream).feed text).finish := by
  obtain ⟨state, pending, emitted⟩ := s
  rcases inText with eq | ⟨kind, eq⟩
  · obtain rfl : state = .text := eq
    rfl
  · obtain rfl : state = .held kind := eq
    unfold feed
    cases more : text.toList with
    | nil => rfl
    | cons c rest =>
        have brace : c ≠ '{' := by
          rintro rfl
          exact apart ⟨⟨kind, rfl⟩, by rw [more]; rfl⟩
        rw [List.foldl_cons, List.foldl_cons, step_held _ _ kind brace]
        rfl

/-- A held `$` or `#` and a brace emit what was pending before them. -/
theorem prefix_finish_feed_brace {kind : Markup} (held : s.state = .held kind)
    (brace : text.toList.head? = some '{') :
    s.emitted.toList ++ [.literal s.pending] <+: (s.feed text).finish := by
  obtain ⟨rest, eq⟩ : ∃ rest, text.toList = '{' :: rest := List.head?_eq_some_iff.mp brace
  have opened : s.feed text = (s.step '{').feed (String.ofList rest) := by
    rw [feed, feed, eq, List.foldl_cons, String.toList_ofList]
  have emits : (s.step '{').emitted.toList = s.emitted.toList ++ [.literal s.pending] := by
    simp [step, held, emit]
  rw [opened, ← emits]
  have arriving := emitted_feed (s.step '{') (String.ofList rest)
  exact arriving.trans (emitted_prefix_finish _)

end Stream

/-! ## A `$` or `#` at the end -/

theorem Markup.exists_eq_sigil_iff {c? : Option Char} :
    (∃ kind : Markup, c? = some kind.sigil) ↔ c? = some '$' ∨ c? = some '#' := by
  constructor
  · rintro ⟨kind, eq⟩
    cases kind with
    | var => exact .inl eq
    | comment => exact .inr eq
  · rintro (dollar | hash)
    · exact ⟨.var, dollar⟩
    · exact ⟨.comment, hash⟩

namespace Scanner

/-- The last character of a source is taken by a backslash. -/
def EscapesLast (source : String) : Prop :=
  ∃ s c, Reached source s ∧ s.mode = .text ∧ s.cursor.remaining = ['\\', c]

/-- A source ends with a `$` or a `#` that no backslash takes. -/
def EndsInSigil (source : String) : Prop :=
  (source.toList.getLast? = some '$' ∨ source.toList.getLast? = some '#') ∧ ¬ EscapesLast source

variable {source : String} {s t : Scanner} {kind : Markup}

/-- If the last move reads a `$` or `#` and the stream does not hold it, a backslash has taken it. -/
theorem escape_of_last_move (move : Move s t) (done : t.cursor.remaining = [])
    (last : s.cursor.remaining.getLast? = some kind.sigil) (text : s.forecast.state = .text) :
    s.mode = .text ∧ ∃ c, s.cursor.remaining = ['\\', c] := by
  cases move with
  | @plain c rest mode left _ _ =>
      obtain rfl : rest = [] := by simpa [left] using done
      obtain rfl : c = kind.sigil := by simpa [left] using last
      simp [forecast, toStream, mode, left, Stream.step_sigil] at text
  | @escape c rest mode left =>
      obtain rfl : rest = [] := by simpa [left] using done
      exact ⟨mode, c, left⟩
  | overrun _ left =>
      have slash : '\\' = kind.sigil := by simpa [left] using last
      exact absurd slash.symm (kind.sigil_ne (by decide))
  | @opener _ rest _ left =>
      obtain rfl : rest = [] := by simpa [left] using done
      have brace : '{' = kind.sigil := by simpa [left] using last
      exact absurd brace.symm (kind.sigil_ne (by decide))
  | @closer _ rest _ left =>
      obtain rfl : rest = [] := by simpa [left] using done
      have brace : '}' = kind.sigil := by simpa [left] using last
      exact absurd brace.symm (kind.sigil_ne (by decide))
  | @body other c rest mode left brace =>
      obtain rfl : rest = [] := by
        split at done <;> simpa [left] using done
      simp [forecast, toStream, mode, left, Stream.step_body _ _ other brace] at text

theorem getLast?_remaining_step (s : Scanner) (more : s.step.cursor.remaining ≠ []) :
    s.step.cursor.remaining.getLast? = s.cursor.remaining.getLast? := by
  have suffix : s.step.cursor.remaining <:+ s.cursor.remaining := by
    rcases remaining_step s with eq | eq
    · exact eq ▸ List.tail_suffix _
    · exact eq ▸ (List.tail_suffix _).trans (List.tail_suffix _)
  obtain ⟨read, eq⟩ := suffix
  rw [← eq, List.getLast?_append_of_ne_nil read more]

theorem Reached.escapesLast (h : Reached source s)
    (last : s.cursor.remaining.getLast? = some kind.sigil) (text : s.forecast.state = .text) :
    EscapesLast source := by
  induction s using run.induct with
  | case1 s stop =>
      rw [(Cursor.atEnd_iff _).mp stop, List.getLast?_nil] at last
      exact absurd last.symm (Option.some_ne_none _)
  | case2 s more ih =>
      have move := move_step more
      by_cases done : s.step.cursor.remaining = []
      · obtain ⟨mode, c, left⟩ := escape_of_last_move move done last text
        exact ⟨s, c, h, mode, left⟩
      · refine ih (h.step more) ?_ ?_
        · rw [getLast?_remaining_step s done, last]
        · rcases forecast_of_move move with eq | ⟨stop, -⟩
          · rw [eq, text]
          · exact absurd stop done

/-- An escape that takes the last character leaves the stream in text, with nothing held. -/
theorem EscapesLast.state_eq (h : EscapesLast source) : (Stream.start.feed source).state = .text := by
  obtain ⟨s, c, reached, mode, left⟩ := h
  have more : s.cursor.remaining ≠ [] := by simp [left]
  rw [← reached.forecast_eq.resolve_right more]
  simp [forecast, toStream, mode, left, Stream.step, Stream.stepText]

end Scanner

namespace Stream

theorem eq_sigil_of_stepText {s : Stream} {c : Char} {kind : Markup}
    (held : (s.stepText c).state = .held kind) : c = kind.sigil := by
  unfold stepText at held
  split at held
  · exact nomatch held
  · split at held
    · next opens =>
        obtain rfl := State.held.inj held
        exact Markup.opened?_eq_some.mp opens
    · exact nomatch held

theorem eq_sigil_of_step {s : Stream} {c : Char} {kind : Markup}
    (held : (s.step c).state = .held kind) : c = kind.sigil := by
  unfold step at held
  split at held
  case h_1 => exact eq_sigil_of_stepText held
  case h_2 => exact nomatch held
  case h_3 =>
      split at held
      · exact nomatch held
      · exact eq_sigil_of_stepText held
  case h_4 eq =>
      split at held
      · exact nomatch held
      · split at held <;> exact nomatch eq.symm.trans held

theorem getLast?_of_held {text : String} {kind : Markup}
    (held : (start.feed text).state = .held kind) : text.toList.getLast? = some kind.sigil := by
  unfold feed at held
  rcases List.eq_nil_or_concat text.toList with eq | ⟨front, c, eq⟩
  · rw [eq] at held
    exact nomatch held
  · rw [eq, List.concat_eq_append, List.foldl_append, List.foldl_cons, List.foldl_nil] at held
    rw [eq, List.concat_eq_append, List.getLast?_concat, eq_sigil_of_step held]

end Stream

/-- **A source ends with a `$` or `#` that no backslash takes exactly when a stream holds it.** -/
theorem held_iff {source : String} (inText : (Stream.start.feed source).InText) :
    (∃ kind, (Stream.start.feed source).state = .held kind) ↔ Scanner.EndsInSigil source := by
  rw [Scanner.EndsInSigil, ← Markup.exists_eq_sigil_iff]
  constructor
  · rintro ⟨kind, held⟩
    refine ⟨⟨kind, Stream.getLast?_of_held held⟩, fun escaped => ?_⟩
    exact nomatch escaped.state_eq.symm.trans held
  · rintro ⟨⟨kind, last⟩, free⟩
    refine inText.resolve_left fun text => free ?_
    rw [← Scanner.forecast_ofString] at text
    rw [← Cursor.remaining_ofString] at last
    exact Scanner.Reached.start.escapesLast last text

/-! ## Templates cut in two -/

section Join

variable {source more : String}

theorem join_compile_eq (source more : String) :
    Expr.join (compile source) (compile more) =
      (Stream.start.feed source).emitted.toList ++
        Expr.joinLiteral (Stream.start.feed source).remainder (compile more) := by
  rw [compile_eq_finish source, Stream.finish_eq, Expr.join_concat_literal]

theorem compile_append_of_apart (inText : (Stream.start.feed source).InText)
    (apart : ¬ (Scanner.EndsInSigil source ∧ more.toList.head? = some '{')) :
    compile (source ++ more) = Expr.join (compile source) (compile more) := by
  rw [← held_iff inText] at apart
  rw [compile_append_eq_finish, Stream.finish_feed_settle inText apart, Stream.finish_feed_text,
    join_compile_eq]

/-- An opener across the cut emits a literal without the `$` or `#`, which the first part has. -/
theorem compile_append_ne_of_opener (inText : (Stream.start.feed source).InText)
    (sigil : Scanner.EndsInSigil source) (brace : more.toList.head? = some '{') :
    compile (source ++ more) ≠ Expr.join (compile source) (compile more) := by
  obtain ⟨kind, held⟩ := (held_iff inText).mpr sigil
  have opened := Stream.prefix_finish_feed_brace held brace
  obtain ⟨next, rest, eq⟩ :=
    Expr.exists_joinLiteral (Stream.start.feed source).remainder (compile more)
  intro joined
  rw [← compile_append_eq_finish, joined, join_compile_eq, eq, List.prefix_append_right_inj,
    List.cons_prefix_cons] at opened
  have same := Expr.literal.inj opened.1
  have lengths := congrArg String.length same
  rw [Stream.remainder, held, String.length_append, String.length_push] at lengths
  omega

end Join

theorem exists_join_compile (source more : String) : ∃ xs a b ys,
    compile source = xs ++ [.literal a] ∧ compile more = .literal b :: ys ∧
      Expr.join (compile source) (compile more) = xs ++ .literal (a ++ b) :: ys := by
  obtain ⟨b, ys, eq⟩ := exists_compile_eq_cons more
  have parts := join_compile_eq source more
  rw [eq, Expr.joinLiteral] at parts
  refine ⟨_, _, b, ys, ?_, eq, eq ▸ parts⟩
  rw [compile_eq_finish, Stream.finish_eq]

/-- **A template can be cut in two in its text, but not inside an opener.**  What the parts are
compiled to, with a literal of each as one, is then what the whole is compiled to, and the texts of
the parts make up its text. -/
theorem compile_append {source : String} (clean : Scanner.EndsClean source) (more : String) :
    (∃ xs a b ys, compile source = xs ++ [.literal a] ∧ compile more = .literal b :: ys ∧
        Expr.join (compile source) (compile more) = xs ++ .literal (a ++ b) :: ys) ∧
      (compile (source ++ more) = Expr.join (compile source) (compile more) ↔
        ¬ (Scanner.EndsInSigil source ∧ more.toList.head? = some '{')) ∧
      (compile (source ++ more) = Expr.join (compile source) (compile more) →
        ∀ env, evaluate (compile (source ++ more)) env =
          evaluate (compile source) env ++ evaluate (compile more) env) := by
  have inText := Scanner.endsClean_iff.mp clean
  refine ⟨exists_join_compile source more, ⟨?_, compile_append_of_apart inText⟩, ?_⟩
  · rintro joined ⟨sigil, brace⟩
    exact compile_append_ne_of_opener inText sigil brace joined
  · intro joined env
    rw [joined, evaluate_join]

/-- A brace may follow a `$` that a backslash has taken. -/
theorem compile_append_escaped :
    Scanner.EndsClean "$\x7ba\\\x7d\\$" ∧
      compile ("$\x7ba\\\x7d\\$" ++ "\x7bb\x7d") =
        Expr.join (compile "$\x7ba\\\x7d\\$") (compile "\x7bb\x7d") := by
  have inText : (Stream.start.feed "$\x7ba\\\x7d\\$").state = .text := by rfl
  have clean : Scanner.EndsClean "$\x7ba\\\x7d\\$" := Scanner.endsClean_iff.mpr (.inl inText)
  refine ⟨clean, (compile_append clean "\x7bb\x7d").2.1.mpr ?_⟩
  rintro ⟨sigil, -⟩
  obtain ⟨kind, held⟩ := (held_iff (.inl inText)).mpr sigil
  exact nomatch inText.symm.trans held

end Stencil
