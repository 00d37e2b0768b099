/-
# `Evaluation.Verbatim` — values are put in as they are

The text of a template in an environment is that of its expressions, one after the other.  A variable
contributes what its key is bound to, and nothing else depends on that.  So when the expressions are
cut at the variables of one key, what stands between the cuts stands for the same texts whatever the
key is bound to, and the whole is these texts with the value in between:

    exprs    a   `${k}`   b   `${x}`   c   `${k}`   d
    pieces   └a┘          └──── b x c ───┘          └d┘

A value may hold openers, closing braces and backslashes: it comes after the scanner.

* `evaluate_congr` — the text depends only on what the keys of the variables are bound to;
* `pieces` — the texts between the variables of a key, `evaluate_eq_intercalate` — the whole text;
* `evaluate_verbatim` — both, for a source.
-/
import Stencil.Evaluation

namespace Stencil

/-! ## Lists cut at an element -/

section SplitOn

variable {α : Type} [DecidableEq α] {a : α} {l part : List α}

theorem length_splitOn (a : α) (l : List α) : (l.splitOn a).length = l.count a + 1 := by
  induction l with
  | nil => rfl
  | cons x l ih =>
      rw [List.splitOn_cons_eq_if_modifyHead, List.count_cons]
      split
      · rw [List.length_cons, ih]
      · rw [List.length_modifyHead, ih, Nat.add_zero]

theorem not_mem_of_mem_splitOn (h : part ∈ l.splitOn a) : a ∉ part := by
  induction l generalizing part with
  | nil =>
      obtain rfl : part = [] := by simpa using h
      exact List.not_mem_nil
  | cons x l ih =>
      rw [List.splitOn_cons_eq_if_modifyHead] at h
      split at h
      · rcases List.mem_cons.mp h with rfl | h
        · exact List.not_mem_nil
        · exact ih h
      · next ne =>
          obtain ⟨first, parts, eq⟩ := List.exists_cons_of_ne_nil (List.splitOn_ne_nil a l)
          rw [eq, List.modifyHead_cons] at h
          rw [eq] at ih
          rcases List.mem_cons.mp h with rfl | h
          · rw [List.mem_cons, not_or]
            exact ⟨fun same => ne (by simp [same]), ih List.mem_cons_self⟩
          · exact ih (List.mem_cons_of_mem first h)

end SplitOn

/-! ## What a text depends on -/

theorem Expr.eval_congr {e : Expr} {env env' : Environment}
    (agree : ∀ key, e = .var key → env.get? key = env'.get? key) : e.eval env = e.eval env' := by
  cases e with
  | literal text => rfl
  | var key => rw [Expr.eval, Expr.eval, agree key rfl]
  | comment note => rfl

/-- **The text depends only on what the keys of the variables are bound to.** -/
theorem evaluate_congr {exprs : List Expr} {env env' : Environment}
    (agree : ∀ key, .var key ∈ exprs → env.get? key = env'.get? key) :
    evaluate exprs env = evaluate exprs env' := by
  induction exprs with
  | nil => rfl
  | cons e exprs ih =>
      have first : e.eval env = e.eval env' := by
        refine Expr.eval_congr fun key eq => agree key ?_
        rw [eq]
        exact List.mem_cons_self
      have rest := ih fun key mem => agree key (List.mem_cons_of_mem e mem)
      rw [evaluate_cons, evaluate_cons, first, rest]

/-! ## The texts between the variables of a key -/

/-- What the expressions between the variables of a key stand for. -/
def pieces (key : String) (exprs : List Expr) (env : Environment) : List String :=
  (exprs.splitOn (.var key)).map (evaluate · env)

theorem length_pieces (key : String) (exprs : List Expr) (env : Environment) :
    (pieces key exprs env).length = exprs.count (.var key) + 1 := by
  rw [pieces, List.length_map, length_splitOn]

theorem pieces_congr {key : String} {env env' : Environment}
    (agree : ∀ other, other ≠ key → env.get? other = env'.get? other) (exprs : List Expr) :
    pieces key exprs env = pieces key exprs env' := by
  refine List.map_congr_left fun part mem => evaluate_congr fun other var => agree other ?_
  rintro rfl
  exact not_mem_of_mem_splitOn mem var

theorem evaluate_intercalate (e : Expr) (parts : List (List Expr)) (env : Environment) :
    evaluate ([e].intercalate parts) env =
      (e.eval env).intercalate (parts.map (evaluate · env)) := by
  induction parts with
  | nil => simp
  | cons part parts ih =>
      cases parts with
      | nil => simp
      | cons next parts =>
          rw [List.intercalate_cons_cons, evaluate_append, evaluate_append, ih]
          simp

/-- **The text is what stands between the variables of a key, with the value of the key in
between.** -/
theorem evaluate_eq_intercalate (key : String) (exprs : List Expr) (env : Environment) :
    evaluate exprs env = ((env.get? key).getD "").intercalate (pieces key exprs env) := by
  have cut := evaluate_intercalate (.var key) (exprs.splitOn (.var key)) env
  rwa [List.intercalate_splitOn] at cut

theorem intercalate_empty (texts : List String) : "".intercalate texts = String.join texts := by
  induction texts with
  | nil => simp
  | cons text texts ih =>
      cases texts with
      | nil => simp
      | cons next texts =>
          rw [String.intercalate_cons_cons, ih]
          simp

/-- **A value is put in as it is.**  For a source, a key and the bindings of the other keys there
are texts, one more than the source has variables of the key, such that the source evaluates to
these texts with the value of the key in between, whatever the value, and to these texts alone where
the key is not bound.  What the source has no variable for does not matter at all. -/
theorem evaluate_verbatim (source : String) :
    (∀ (key : String) (env : Environment), ∃ texts : List String,
      texts.length = (compile source).count (.var key) + 1 ∧
        ∀ env' : Environment, (∀ other, other ≠ key → env'.get? other = env.get? other) →
          (∀ value, evaluate (compile source) (env'.insert key value) =
            value.intercalate texts) ∧
          (env'.get? key = none → evaluate (compile source) env' = String.join texts)) ∧
      ∀ env env' : Environment,
        (∀ key, .var key ∈ compile source → env.get? key = env'.get? key) →
          evaluate (compile source) env = evaluate (compile source) env' := by
  refine ⟨fun key env => ⟨pieces key (compile source) env, length_pieces key _ env, ?_⟩,
    fun env env' => evaluate_congr⟩
  intro env' agree
  constructor
  · intro value
    have others : pieces key (compile source) (env'.insert key value) =
        pieces key (compile source) env := by
      refine pieces_congr (fun other ne => ?_) _
      rw [Environment.get?_insert, if_neg (Ne.symm ne), agree other ne]
    rw [evaluate_eq_intercalate key, others, Environment.get?_insert, if_pos rfl, Option.getD_some]
  · intro unbound
    rw [evaluate_eq_intercalate key, pieces_congr agree, unbound, Option.getD_none,
      intercalate_empty]

end Stencil
