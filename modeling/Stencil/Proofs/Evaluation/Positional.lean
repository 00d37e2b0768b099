/-
# `Evaluation.Positional` — values by position

A source can be evaluated with a list of values, each of them bound to its position.  `Shows` says
what an expression then stands for, without an environment: the key of a variable either is the
numeral of a position in the list, and then the variable stands for the value there, or it is not,
and then it stands for nothing.  So

    `0`    the first value             `01` `+1` ` 1` `١`     nothing
    `12`   the thirteenth value        and the empty key      nothing

* `shows_iff` — what an expression stands for is what it evaluates to;
* `render_iff` — the whole text; with it, that no value is lost, and that a template which consists
  of placeholders alone shows the values in the order of the placeholders.
-/
import Mathlib.Data.List.Forall2
import Stencil.Proofs.Environment.Positions
import Stencil.Proofs.Stream.Splitting
import Stencil.Template

namespace Stencil

/-- `Shows values e text`: with values given by position, an expression stands for a text. -/
inductive Shows (values : List String) : Expr → String → Prop
  | literal (text : String) : Shows values (.literal text) text
  | comment (note : String) : Shows values (.comment note) ""
  | value {i : Nat} {key text : String} : Numeral i key → values[i]? = some text →
      Shows values (.var key) text
  | nothing {key : String} : (∀ i < values.length, ¬ Numeral i key) → Shows values (.var key) ""

theorem shows_iff {values : List String} {e : Expr} {text : String} :
    Shows values e text ↔ e.eval (.ofValues values) = text := by
  constructor
  · intro shows
    cases shows with
    | literal | comment => rfl
    | value numeral at_i =>
        rw [Expr.eval, Environment.get?_ofValues.mpr ⟨_, numeral, at_i⟩]
        rfl
    | nothing free =>
        rw [Expr.eval, Environment.get?_ofValues_eq_none.mpr free]
        rfl
  · rintro rfl
    cases e with
    | literal text => exact .literal text
    | comment note => exact .comment note
    | var key =>
        rw [Expr.eval]
        cases bound : (Environment.ofValues values).get? key with
        | none => exact .nothing (Environment.get?_ofValues_eq_none.mp bound)
        | some text =>
            obtain ⟨i, numeral, at_i⟩ := Environment.get?_ofValues.mp bound
            exact .value numeral at_i

theorem forall₂_shows_iff {values : List String} {exprs : List Expr} {texts : List String} :
    List.Forall₂ (Shows values) exprs texts ↔ exprs.map (·.eval (.ofValues values)) = texts := by
  have same : Shows values = fun e text => e.eval (.ofValues values) = text := by
    ext e text
    exact shows_iff
  rw [same, ← List.forall₂_map_left_iff, List.forall₂_eq_eq_eq]

theorem render_eq (source : String) (values : List String) :
    render source values = evaluate (compile source) (.ofValues values) := rfl

/-! ## Templates of placeholders -/

/-- The template that consists of placeholders for some positions, in order. -/
def placeholders (positions : List Nat) : String :=
  String.join (positions.map fun i => "$\x7b" ++ toString i ++ "\x7d")

/-- No numeral holds a closing brace, so a placeholder ends where it should. -/
theorem brace_not_mem_toString (i : Nat) : '}' ∉ (toString i).toList := by
  intro mem
  have numeral : Numeral i (toString i) := numeral_iff.mpr rfl
  exact absurd (numeral.digits '}' mem) (by decide)

theorem compile_empty : compile "" = [.literal ""] := by
  rw [compile_eq_finish]
  rfl

theorem evaluate_placeholders (positions : List Nat) (env : Environment) :
    evaluate (compile (placeholders positions)) env =
      String.join (positions.map fun i => (env.get? (toString i)).getD "") := by
  induction positions with
  | nil =>
      rw [placeholders, List.map_nil, List.map_nil, String.join_nil, compile_empty]
      rfl
  | cons i positions ih =>
      have clean : Scanner.EndsClean "" := Scanner.endsClean_iff.mpr (.inl rfl)
      have split := compile_closed clean .var (brace_not_mem_toString i) (placeholders positions)
      have source : placeholders (i :: positions) =
          "" ++ String.ofList [Markup.var.sigil, '{'] ++ toString i ++ "\x7d" ++
            placeholders positions := by
        simp [placeholders, Markup.sigil, String.append_assoc]
      rw [source, split, Markup.kept_var, compile_empty]
      simp [ih, Expr.eval, Markup.expr]

/-- **The text of a source with values by position** is what its expressions stand for, one after the
other.  Every value is bound, to its own position; and a template of placeholders shows the values at
their positions, in their order, as often as they stand there. -/
theorem render_iff (values : List String) :
    (∀ source text, render source values = text ↔
        ∃ texts, List.Forall₂ (Shows values) (compile source) texts ∧ String.join texts = text) ∧
      (Environment.ofValues values).size = values.length ∧
      (∀ i : Nat, (Environment.ofValues values).get? (toString i) = values[i]?) ∧
      (∀ i j key, Numeral i key → Numeral j key → i = j) ∧
      ∀ positions, render (placeholders positions) values =
        String.join (positions.map fun i => values[i]?.getD "") := by
  refine ⟨fun source text => ?_, Environment.size_ofValues values,
    Environment.get?_ofValues_toString values, fun i j key => Numeral.unique, fun positions => ?_⟩
  · simp only [forall₂_shows_iff, exists_eq_left', render_eq]
    rfl
  · rw [render_eq, evaluate_placeholders]
    simp only [Environment.get?_ofValues_toString]

end Stencil
