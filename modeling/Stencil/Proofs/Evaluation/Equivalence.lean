/-
# `Evaluation.Equivalence` — lists that evaluate alike have one normal form

What a list of expressions stands for in all environments is a list of *atoms*: the characters of its
literals, and the keys of its variables, in order.  Where one literal ends and the next begins cannot
be seen in it, nor can comments.

    exprs     `"ab"`  `#{note}`  `"c"`  `${k}`  `""`
    atoms      a b                c      k
    normal    `"abc"`                   `${k}`

Two things are said of atoms.  Lists of expressions that evaluate alike in every environment have the
same atoms (`eq_of_flatMap_eval`): at the first place where two lists of atoms differ, some
environment makes the texts differ in their first character there, however the values imitate the
text around them.  And the normal form of a list depends on its atoms alone: it is what `Atom.pack`
gathers from them (`normalize_eq_pack`), and it has these atoms again (`atoms_pack`).
-/
import Stencil.Evaluation
import Stencil.Expr.Normal

namespace Stencil

/-! ## Atoms -/

/-- The least that a list of expressions consists of: a character that stands for itself, or a key
that stands for what it is bound to. -/
inductive Atom where
  | char (c : Char)
  | key (name : String)
  deriving DecidableEq, Repr

namespace Atom

def eval (env : Environment) : Atom → List Char
  | char c => [c]
  | key name => ((env.get? name).getD "").toList

/-- Gathers atoms into expressions, characters in a row into one literal. -/
def pack : List Atom → List Expr
  | [] => []
  | char c :: rest => Expr.joinLiteral (String.singleton c) (pack rest)
  | key name :: rest => .var name :: pack rest

end Atom

def Expr.atoms : Expr → List Atom
  | literal text => text.toList.map .char
  | var name => [.key name]
  | comment _ => []

theorem toList_eval (env : Environment) (e : Expr) :
    (e.eval env).toList = e.atoms.flatMap (Atom.eval env) := by
  cases e with
  | literal text =>
      simp only [Expr.eval, Expr.atoms, List.flatMap_map, Atom.eval]
      exact (List.flatMap_singleton' text.toList).symm
  | var name => simp [Expr.eval, Expr.atoms, Atom.eval]
  | comment note => rfl

theorem toList_evaluate (env : Environment) (exprs : List Expr) :
    (evaluate exprs env).toList = (exprs.flatMap Expr.atoms).flatMap (Atom.eval env) := by
  induction exprs with
  | nil => rfl
  | cons e exprs ih =>
      rw [evaluate_cons, String.toList_append, List.flatMap_cons, List.flatMap_append,
        toList_eval, ih]

/-! ## Environments that tell atoms apart -/

namespace Atom

theorem eval_insert_self (env : Environment) (name text : String) :
    (key name).eval (env.insert name text) = text.toList := by
  rw [eval, Environment.get?_insert, if_pos rfl, Option.getD_some]

theorem exists_eval_ne_nil (x : Atom) : ∃ env, x.eval env ≠ [] := by
  cases x with
  | char c => exact ⟨.empty, List.cons_ne_nil c []⟩
  | key name =>
      refine ⟨Environment.empty.insert name "a", ?_⟩
      rw [eval_insert_self]
      decide

theorem eq_nil_of_flatMap_eval {xs : List Atom} (nothing : ∀ env, xs.flatMap (eval env) = []) :
    xs = [] := by
  cases xs with
  | nil => rfl
  | cons x xs =>
      obtain ⟨env, visible⟩ := exists_eval_ne_nil x
      exact absurd (List.flatMap_eq_nil_iff.mp (nothing env) x List.mem_cons_self) visible

theorem exists_ne_char (c : Char) : ∃ d : Char, d ≠ c := by
  by_cases h : c = 'a'
  · exact ⟨'b', by rw [h]; decide⟩
  · exact ⟨'a', Ne.symm h⟩

/-- **Different atoms begin differently in some environment.**  Their whole texts could differ and
still be made equal by what follows them; their first characters cannot. -/
theorem exists_heads_ne {x y : Atom} (differ : x ≠ y) :
    ∃ env c d front back, x.eval env = c :: front ∧ y.eval env = d :: back ∧ c ≠ d := by
  cases x with
  | char c =>
      cases y with
      | char d => exact ⟨.empty, c, d, [], [], rfl, rfl, fun same => differ (same ▸ rfl)⟩
      | key name =>
          obtain ⟨d, other⟩ := exists_ne_char c
          refine ⟨Environment.empty.insert name (String.singleton d), c, d, [], [], rfl, ?_,
            Ne.symm other⟩
          rw [eval_insert_self, String.toList_singleton]
  | key name =>
      cases y with
      | char d =>
          obtain ⟨c, other⟩ := exists_ne_char d
          refine ⟨Environment.empty.insert name (String.singleton c), c, d, [], [], ?_, rfl, other⟩
          rw [eval_insert_self, String.toList_singleton]
      | key name' =>
          have apart : name' ≠ name := fun same => differ (same ▸ rfl)
          refine ⟨(Environment.empty.insert name "a").insert name' "b", 'a', 'b', [], [], ?_, ?_,
            by decide⟩
          · rw [eval, Environment.get?_insert, if_neg apart, Environment.get?_insert, if_pos rfl]
            rfl
          · rw [eval_insert_self]
            rfl

/-- **Atoms that stand for the same text in every environment are the same.** -/
theorem eq_of_flatMap_eval : ∀ {xs ys : List Atom},
    (∀ env, xs.flatMap (eval env) = ys.flatMap (eval env)) → xs = ys := by
  intro xs
  induction xs with
  | nil =>
      intro ys alike
      exact (eq_nil_of_flatMap_eval fun env => (alike env).symm).symm
  | cons x xs ih =>
      intro ys alike
      cases ys with
      | nil => exact eq_nil_of_flatMap_eval alike
      | cons y ys =>
          have first : x = y := Decidable.byContradiction fun differ => by
            obtain ⟨env, c, d, front, back, hx, hy, apart⟩ := exists_heads_ne differ
            have text := alike env
            rw [List.flatMap_cons, List.flatMap_cons, hx, hy] at text
            exact apart (List.cons.inj text).1
          subst first
          have rest : xs = ys := by
            apply ih
            intro env
            have text := alike env
            rw [List.flatMap_cons, List.flatMap_cons] at text
            exact List.append_cancel_left text
          rw [rest]

end Atom

/-! ## Normal forms -/

namespace Expr

theorem joinLiteral_joinLiteral (text more : String) (exprs : List Expr) :
    joinLiteral text (joinLiteral more exprs) = joinLiteral (text ++ more) exprs := by
  cases exprs with
  | nil => rfl
  | cons e exprs =>
      cases e with
      | literal next => simp only [joinLiteral, String.append_assoc]
      | var name => rfl
      | comment note => rfl

theorem atoms_joinLiteral (text : String) (exprs : List Expr) :
    (joinLiteral text exprs).flatMap atoms = text.toList.map .char ++ exprs.flatMap atoms := by
  cases exprs with
  | nil => rfl
  | cons e exprs =>
      cases e with
      | literal next => simp [joinLiteral, atoms]
      | var name => rfl
      | comment note => rfl

end Expr

namespace Atom

/-- Characters that are gathered into one literal; none give no literal. -/
theorem pack_map_char (text : List Char) (rest : List Atom) :
    pack (text.map .char ++ rest) =
      if text = [] then pack rest else Expr.joinLiteral (String.ofList text) (pack rest) := by
  induction text with
  | nil => rfl
  | cons c text ih =>
      rw [List.map_cons, List.cons_append, pack, ih, if_neg (List.cons_ne_nil c text)]
      split
      · next none => rw [none]; rfl
      · rw [Expr.joinLiteral_joinLiteral, String.ofList_cons]

theorem atoms_pack (xs : List Atom) : (pack xs).flatMap Expr.atoms = xs := by
  induction xs with
  | nil => rfl
  | cons x xs ih =>
      cases x with
      | char c => rw [pack, Expr.atoms_joinLiteral, ih]; simp
      | key name => rw [pack, List.flatMap_cons, ih]; rfl

end Atom

namespace Expr

/-- **The normal form of a list is gathered from its atoms.** -/
theorem normalize_eq_pack (exprs : List Expr) :
    normalize exprs = Atom.pack (exprs.flatMap atoms) := by
  induction exprs with
  | nil => rfl
  | cons e exprs ih =>
      cases e with
      | literal text =>
          rw [normalize, List.flatMap_cons, atoms, Atom.pack_map_char, ih, String.ofList_toList]
          simp only [String.toList_eq_nil_iff]
      | var name => rw [normalize, ih]; rfl
      | comment note => rw [normalize, ih]; rfl

theorem normalize_eq_normalize_iff {xs ys : List Expr} :
    normalize xs = normalize ys ↔ xs.flatMap atoms = ys.flatMap atoms := by
  rw [normalize_eq_pack, normalize_eq_pack]
  constructor
  · intro packed
    rw [← Atom.atoms_pack (xs.flatMap atoms), packed, Atom.atoms_pack]
  · intro same
    rw [same]

end Expr

/-- **Two lists of expressions evaluate alike in every environment exactly when they have the same
normal form.** -/
theorem evaluate_eq_iff_normalize_eq (xs ys : List Expr) :
    (∀ env, evaluate xs env = evaluate ys env) ↔ Expr.normalize xs = Expr.normalize ys := by
  rw [Expr.normalize_eq_normalize_iff]
  constructor
  · intro alike
    refine Atom.eq_of_flatMap_eval fun env => ?_
    rw [← toList_evaluate, ← toList_evaluate, alike env]
  · intro same env
    refine String.toList_inj.mp ?_
    rw [toList_evaluate, toList_evaluate, same]

end Stencil
