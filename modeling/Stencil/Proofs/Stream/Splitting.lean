/-
# `Stream.Splitting` — markup splits a template

A template with markup in it is what stands before the markup, the markup, and what stands after it;
each of the three can be compiled by itself.  The only thing asked is that what stands before ends
clean: not inside markup of its own, and not with a backslash that would take the opener.  It may
end with a `$` or a `#`, which is then followed by a `$` or a `#` and not by a brace.

The stream makes this plain.  In text, an opener emits what is pending (`step_opener`); up to the
closing brace nothing is emitted (`foldl_body`); and after it the stream is where it was when
nothing had arrived yet, apart from what it has emitted (`foldl_front`).
-/
import Stencil.Evaluation
import Stencil.Proofs.Stream.Agreement

namespace Stencil

namespace Stream

/-! ## Markup in a stream -/

theorem step_opener {s : Stream} (inText : s.InText) (kind : Markup) :
    (s.step kind.sigil).step '{' =
      ⟨.markup kind, "", s.emitted.push (.literal s.remainder)⟩ := by
  obtain ⟨state, pending, emitted⟩ := s
  rcases inText with eq | ⟨other, eq⟩
  · obtain rfl : state = .text := eq
    rw [step_sigil]
    rfl
  · obtain rfl : state = .held other := eq
    have brace : kind.sigil ≠ '{' := by cases kind <;> decide
    rw [step_held _ _ other brace, step_sigil]
    rfl

theorem foldl_body (kind : Markup) {body : List Char} (noBrace : '}' ∉ body) (pending : String)
    (emitted : Array Expr) : body.foldl step ⟨.markup kind, pending, emitted⟩ =
      ⟨.markup kind, pending ++ kind.kept body, emitted⟩ := by
  induction body generalizing pending with
  | nil => simp
  | cons c body ih =>
      rw [List.mem_cons, not_or] at noBrace
      rw [List.foldl_cons, step_body _ _ kind (Ne.symm noBrace.1), ih noBrace.2,
        Markup.append_kept_cons]

theorem step_closer (kind : Markup) (pending : String) (emitted : Array Expr) :
    (⟨.markup kind, pending, emitted⟩ : Stream).step '}' =
      ⟨.text, "", emitted.push (kind.expr pending)⟩ := rfl

/-! ## What was emitted before -/

/-- A stream that has emitted something else in front of what it has emitted. -/
def front (s : Stream) (exprs : Array Expr) : Stream :=
  { s with emitted := exprs ++ s.emitted }

theorem emit_front (s : Stream) (exprs : Array Expr) (make : String → Expr) (state : State) :
    (s.front exprs).emit make state = (s.emit make state).front exprs := by
  simp [emit, front]

theorem stepText_front (s : Stream) (exprs : Array Expr) (c : Char) :
    (s.front exprs).stepText c = (s.stepText c).front exprs := by
  unfold stepText
  split
  · rfl
  · split <;> rfl

theorem step_front (s : Stream) (exprs : Array Expr) (c : Char) :
    (s.front exprs).step c = (s.step c).front exprs := by
  have same : (s.front exprs).state = s.state := rfl
  unfold step
  rw [same]
  cases s.state with
  | text => exact stepText_front s exprs c
  | escape => rfl
  | held kind =>
      show (if c = '{' then _ else _) = front (if c = '{' then _ else _) exprs
      split
      · exact emit_front s exprs .literal (.markup kind)
      · exact stepText_front { s with pending := s.pending.push kind.sigil } exprs c
  | markup kind =>
      show (if c = '}' then _ else _) = front (if c = '}' then _ else _) exprs
      split
      · exact emit_front s exprs kind.expr .text
      · split <;> rfl

theorem foldl_front (s : Stream) (exprs : Array Expr) (text : List Char) :
    text.foldl step (s.front exprs) = (text.foldl step s).front exprs := by
  induction text generalizing s with
  | nil => rfl
  | cons c text ih => rw [List.foldl_cons, List.foldl_cons, step_front, ih]

/-- After the closing brace of markup a stream starts afresh. -/
theorem afresh (emitted : Array Expr) :
    (⟨.text, "", emitted⟩ : Stream) = start.front emitted := by
  simp [front, start]

theorem finish_front (s : Stream) (exprs : Array Expr) :
    (s.front exprs).finish = exprs.toList ++ s.finish := by
  simp [finish, front, remainder]

theorem finish_eq (s : Stream) : s.finish = s.emitted.toList ++ [.literal s.remainder] := by
  simp [finish]

/-! ## Markup after a stream -/

variable {s : Stream} {body : List Char}

theorem finish_unclosed (inText : s.InText) (kind : Markup) (noBrace : '}' ∉ body) :
    ((kind.sigil :: '{' :: body).foldl step s).finish =
      s.finish ++ [.literal (kind.kept body)] := by
  rw [List.foldl_cons, List.foldl_cons, step_opener inText, foldl_body kind noBrace, finish_eq,
    finish_eq]
  simp [remainder]

theorem finish_closed (inText : s.InText) (kind : Markup) (noBrace : '}' ∉ body)
    (rest : List Char) : ((kind.sigil :: '{' :: (body ++ '}' :: rest)).foldl step s).finish =
      s.finish ++ kind.expr (kind.kept body) :: (rest.foldl step start).finish := by
  rw [List.foldl_cons, List.foldl_cons, step_opener inText, List.foldl_append,
    foldl_body kind noBrace, List.foldl_cons, step_closer, afresh, foldl_front, finish_front,
    finish_eq s]
  simp

end Stream

/-! ## Markup after a source -/

variable {front body : String}

theorem compile_unclosed (clean : Scanner.EndsClean front) (kind : Markup)
    (noBrace : '}' ∉ body.toList) :
    compile (front ++ String.ofList [kind.sigil, '{'] ++ body) =
      compile front ++ [.literal (kind.kept body.toList)] := by
  have inText := Scanner.endsClean_iff.mp clean
  simp only [compile_eq_finish, Stream.feed, String.toList_append, String.toList_ofList,
    List.append_assoc, List.foldl_append]
  exact Stream.finish_unclosed inText kind noBrace

theorem compile_closed (clean : Scanner.EndsClean front) (kind : Markup)
    (noBrace : '}' ∉ body.toList) (rest : String) :
    compile (front ++ String.ofList [kind.sigil, '{'] ++ body ++ "\x7d" ++ rest) =
      compile front ++ kind.expr (kind.kept body.toList) :: compile rest := by
  have inText := Scanner.endsClean_iff.mp clean
  have brace : "\x7d".toList = ['}'] := rfl
  simp only [compile_eq_finish, Stream.feed, String.toList_append, String.toList_ofList, brace,
    List.append_assoc, List.foldl_append]
  have split := Stream.finish_closed inText kind noBrace rest.toList
  rw [List.foldl_cons, List.foldl_cons, List.foldl_append, List.foldl_cons] at split
  exact split

/-- **Markup splits a template**, and with it the text of the template in every environment. -/
theorem compile_split (clean : Scanner.EndsClean front) (noBrace : '}' ∉ body.toList)
    (rest : String) :
    compile (front ++ "$\x7b" ++ body ++ "\x7d" ++ rest) =
        compile front ++ [.var body] ++ compile rest ∧
      compile (front ++ "#\x7b" ++ body ++ "\x7d" ++ rest) =
        compile front ++ [.comment ""] ++ compile rest ∧
      compile (front ++ "$\x7b" ++ body) = compile front ++ [.literal body] ∧
      compile (front ++ "#\x7b" ++ body) = compile front ++ [.literal ""] ∧
      ∀ env,
        evaluate (compile (front ++ "$\x7b" ++ body ++ "\x7d" ++ rest)) env =
            evaluate (compile front) env ++ (env.get? body).getD "" ++
              evaluate (compile rest) env ∧
          evaluate (compile (front ++ "#\x7b" ++ body ++ "\x7d" ++ rest)) env =
            evaluate (compile front) env ++ evaluate (compile rest) env := by
  have var := compile_closed clean .var noBrace rest
  have comment := compile_closed clean .comment noBrace rest
  rw [Markup.kept_var] at var
  refine ⟨?_, ?_, ?_, ?_, fun env => ⟨?_, ?_⟩⟩
  · rw [List.append_assoc]
    exact var
  · rw [List.append_assoc]
    exact comment
  · have unclosed := compile_unclosed clean .var noBrace
    rwa [Markup.kept_var] at unclosed
  · exact compile_unclosed clean .comment noBrace
  · have text := congrArg (evaluate · env) var
    rw [evaluate_append, evaluate_cons, ← String.append_assoc] at text
    exact text
  · have text := congrArg (evaluate · env) comment
    rw [evaluate_append, evaluate_cons] at text
    exact text

/-- What stands before may have an escaped `$`, markup of its own and a `$` at its end, the body an
opener, and what stands after a backslash at its end. -/
theorem compile_split_dollar :
    Scanner.EndsClean "\\$$\x7bx\x7d#\x7by\x7d$" ∧ '}' ∉ "$\x7bk".toList ∧
      compile ("\\$$\x7bx\x7d#\x7by\x7d$" ++ "$\x7b" ++ "$\x7bk" ++ "\x7d" ++ "\\") =
        compile "\\$$\x7bx\x7d#\x7by\x7d$" ++ [.var "$\x7bk"] ++ compile "\\" := by
  have clean : Scanner.EndsClean "\\$$\x7bx\x7d#\x7by\x7d$" :=
    Scanner.endsClean_iff.mpr (.inr ⟨.var, by rfl⟩)
  have noBrace : '}' ∉ "$\x7bk".toList := by decide
  exact ⟨clean, noBrace, (compile_split clean noBrace "\\").1⟩

end Stencil
