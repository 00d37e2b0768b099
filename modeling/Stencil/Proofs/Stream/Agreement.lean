/-
# `Stream.Agreement` — the scanner and the stream find the same

The scanner looks one character ahead; the stream remembers one character instead.  So they are out
of step wherever a `$`, a `#` or a backslash is read, and no relation between their states holds all
the time.  What does hold all the time is a relation to the *end*: `Scanner.forecast` is the stream
that has what the scanner has and is then fed what the scanner has left to read, and a move of the
scanner leaves it as it is.  The exception is a move that reads the last character, a `$`, a `#` or
a backslash: the scanner knows that nothing follows, the stream does not, and the move settles the
forecast.

* `toStream_run` — the scanner ends with the settled stream;
* `compile_eq_finish` — hence both have the same expressions;
* `endsClean_iff` — and whether a walk ends clean can be told from the stream.
-/
import Stencil.Proofs.Scanner.Walk
import Stencil.Stream

namespace Stencil

namespace Stream

/-! ## Settling -/

/-- What a stream is reading, whatever it remembers of the last character. -/
def State.mode : State → Mode
  | markup kind => .markup kind
  | _ => .text

/-- The state of a stream that has nothing to remember. -/
def State.ofMode : Mode → State
  | .text => text
  | .markup kind => markup kind

@[simp] theorem State.ofMode_text : ofMode .text = .text :=
  rfl

@[simp] theorem State.ofMode_markup (kind : Markup) : ofMode (.markup kind) = .markup kind :=
  rfl

theorem State.mode_ofMode (mode : Mode) : (ofMode mode).mode = mode := by
  cases mode <;> rfl

/-- A stream when nothing more arrives: what it remembers of the last character is pending. -/
def settle (s : Stream) : Stream :=
  ⟨.ofMode s.state.mode, s.remainder, s.emitted⟩

theorem finish_settle (s : Stream) : s.settle.finish = s.finish := by
  obtain ⟨state, pending, emitted⟩ := s
  cases state <;> rfl

theorem settle_settle (s : Stream) : s.settle.settle = s.settle := by
  obtain ⟨state, pending, emitted⟩ := s
  cases state <;> rfl

/-- A stream that is reading text, and has at most an opener's first character to remember. -/
def InText (s : Stream) : Prop :=
  s.state = .text ∨ ∃ kind, s.state = .held kind

/-! ## Single steps -/

section Step

variable (pending : String) (emitted : Array Expr)

theorem stepText_state (s : Stream) (state : State) (c : Char) :
    { s with state := state }.stepText c = s.stepText c := by
  unfold stepText
  split
  · rfl
  · split <;> rfl

theorem step_sigil (kind : Markup) :
    (⟨.text, pending, emitted⟩ : Stream).step kind.sigil = ⟨.held kind, pending, emitted⟩ := by
  cases kind <;> rfl

theorem step_held (kind : Markup) {c : Char} (h : c ≠ '{') :
    (⟨.held kind, pending, emitted⟩ : Stream).step c =
      (⟨.text, pending.push kind.sigil, emitted⟩ : Stream).step c := by
  simp only [step, if_neg h]
  exact stepText_state ⟨.text, pending.push kind.sigil, emitted⟩ (.held kind) c

theorem step_plain {c : Char} (slash : c ≠ '\\') (none : Markup.opened? c = none) :
    (⟨.text, pending, emitted⟩ : Stream).step c = ⟨.text, pending.push c, emitted⟩ := by
  simp only [step, stepText, if_neg slash, none]

theorem step_body (kind : Markup) {c : Char} (h : c ≠ '}') :
    (⟨.markup kind, pending, emitted⟩ : Stream).step c =
      ⟨.markup kind, if kind.gathers then pending.push c else pending, emitted⟩ := by
  simp only [step, if_neg h]
  split <;> rfl

end Step

end Stream

namespace Scanner

/-! ## The forecast -/

/-- A stream with what the scanner has. -/
def toStream (s : Scanner) : Stream :=
  ⟨.ofMode s.mode, s.cursor.buffer, s.exprs⟩

/-- A stream with what the scanner has, fed what the scanner has left to read. -/
def forecast (s : Scanner) : Stream :=
  s.cursor.remaining.foldl Stream.step s.toStream

theorem forecast_of_remaining_eq_nil {s : Scanner} (h : s.cursor.remaining = []) :
    s.forecast = s.toStream := by
  rw [forecast, h, List.foldl_nil]

theorem settle_toStream (s : Scanner) : s.toStream.settle = s.toStream := by
  unfold toStream
  cases s.mode <;> rfl

/-- **A move leaves the forecast as it is, or settles it at the end of the source.** -/
theorem forecast_of_move {s t : Scanner} (move : Move s t) :
    t.forecast = s.forecast ∨
      t.cursor.remaining = [] ∧ t.forecast = s.forecast.settle ∧
        (s.forecast.state = .escape → s.mode = .text ∧ s.cursor.remaining = ['\\']) := by
  cases move with
  | @plain c rest mode left slash opens =>
      have before : s.forecast = rest.foldl Stream.step
          ((⟨.text, s.cursor.buffer, s.exprs⟩ : Stream).step c) := by
        simp [forecast, toStream, mode, left]
      have after : Scanner.forecast { s with cursor := s.cursor.advance.push c } =
          rest.foldl Stream.step ⟨.text, s.cursor.buffer.push c, s.exprs⟩ := by
        simp [forecast, toStream, mode, left]
      rw [after, before]
      cases eq : Markup.opened? c with
      | none => exact .inl (by rw [Stream.step_plain _ _ slash eq])
      | some kind =>
          obtain rfl := Markup.opened?_eq_some.mp eq
          rw [Stream.step_sigil]
          -- the stream remembers the `$` or `#`; what follows decides, and it is no brace
          cases rest with
          | nil => exact .inr ⟨by simp [left], rfl, fun escape => nomatch escape⟩
          | cons d rest =>
              have brace : d ≠ '{' := by
                rintro rfl
                exact opens ⟨kind, rest, rfl⟩
              rw [List.foldl_cons, List.foldl_cons, Stream.step_held _ _ kind brace]
              exact .inl rfl
  | escape mode left =>
      exact .inl (by simp [forecast, toStream, mode, left, Stream.step, Stream.stepText])
  | overrun mode left =>
      have before : s.forecast = ⟨.escape, s.cursor.buffer, s.exprs⟩ := by
        simp [forecast, toStream, mode, left, Stream.step, Stream.stepText]
      rw [before]
      refine .inr ⟨by simp [left], ?_, fun _ => ⟨mode, left⟩⟩
      simp [forecast, toStream, mode, left, Stream.settle, Stream.remainder, Stream.State.mode]
  | opener mode left =>
      left
      simp only [forecast, toStream, mode, left, Stream.State.ofMode, List.foldl_cons,
        Stream.step_sigil]
      simp [left, Stream.step, Stream.emit]
  | closer mode left =>
      exact .inl (by simp [forecast, toStream, mode, left, Stream.step, Stream.emit])
  | @body kind c rest mode left brace =>
      left
      simp only [forecast, toStream, mode, left, Stream.State.ofMode, List.foldl_cons,
        Stream.step_body _ _ kind brace]
      split <;> simp [left]

/-! ## Where the walk ends -/

theorem settle_forecast_of_move {s t : Scanner} (move : Move s t) :
    t.forecast.settle = s.forecast.settle := by
  rcases forecast_of_move move with eq | ⟨-, eq, -⟩
  · rw [eq]
  · rw [eq, Stream.settle_settle]

/-- **The scanner ends with the settled stream.** -/
theorem toStream_run (s : Scanner) : s.run.toStream = s.forecast.settle := by
  have stop := (Cursor.atEnd_iff _).mp (atEnd_run s)
  calc s.run.toStream
      = s.run.toStream.settle := (settle_toStream s.run).symm
    _ = s.run.forecast.settle := by rw [forecast_of_remaining_eq_nil stop]
    _ = s.forecast.settle := run_eq_of_move (f := fun s => s.forecast.settle)
        settle_forecast_of_move s

theorem forecast_ofString (source : String) :
    (ofString source).forecast = Stream.start.feed source := by
  rw [forecast, ofString, Cursor.remaining_ofString]
  rfl

theorem finish_exprs (s : Scanner) : s.finish.exprs = s.toStream.finish := by
  unfold finish toStream
  cases s.mode <;> rfl

end Scanner

theorem compile_eq_finish (source : String) :
    compile source = (Stream.start.feed source).finish := by
  rw [compile, scan, Scanner.finish_exprs, Scanner.toStream_run, Stream.finish_settle,
    Scanner.forecast_ofString]

/-! ## Clean ends -/

namespace Scanner

variable {source : String} {s : Scanner}

/-- Until the end is reached, the forecast is the stream fed the whole source. -/
theorem Reached.forecast_eq (h : Reached source s) :
    s.forecast = Stream.start.feed source ∨ s.cursor.remaining = [] := by
  induction h with
  | start => exact .inl (forecast_ofString source)
  | @step s _ more ih =>
      have left := Cursor.remaining_ne_nil more
      rcases forecast_of_move (move_step more) with eq | ⟨stop, -⟩
      · rw [eq]
        exact ih.imp_right fun stop => absurd stop left
      · exact .inr stop

theorem Reached.overruns (h : Reached source s) (escape : s.forecast.state = .escape) :
    Overruns source := by
  induction s using run.induct with
  | case1 s stop =>
      rw [forecast_of_remaining_eq_nil ((Cursor.atEnd_iff _).mp stop)] at escape
      unfold toStream at escape
      cases mode : s.mode <;> simp [mode] at escape
  | case2 s more ih =>
      rcases forecast_of_move (move_step more) with eq | ⟨-, -, alone⟩
      · exact ih (h.step more) (eq ▸ escape)
      · exact ⟨s, h, alone escape⟩

theorem overruns_iff : Overruns source ↔ (Stream.start.feed source).state = .escape := by
  constructor
  · rintro ⟨s, reached, mode, left⟩
    have more : s.cursor.remaining ≠ [] := by simp [left]
    rw [← reached.forecast_eq.resolve_right more]
    simp [forecast, toStream, mode, left, Stream.step, Stream.stepText]
  · intro escape
    exact Reached.start.overruns (by rwa [forecast_ofString])

theorem mode_run : (ofString source).run.mode = (Stream.start.feed source).state.mode := by
  have ends := congrArg (·.state.mode) (toStream_run (ofString source))
  rw [forecast_ofString] at ends
  simpa [toStream, Stream.settle, Stream.State.mode_ofMode] using ends

/-- **Whether a walk ends clean can be told from the stream.** -/
theorem endsClean_iff : EndsClean source ↔ (Stream.start.feed source).InText := by
  rw [EndsClean, mode_run, overruns_iff, Stream.InText]
  cases (Stream.start.feed source).state <;> simp [Stream.State.mode]

end Scanner

end Stencil
