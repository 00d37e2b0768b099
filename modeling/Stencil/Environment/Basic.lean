/-
# `Environment` — what keys are bound to

An environment binds keys to texts, each key at most once.  Binding a key again replaces what it
was bound to, so of several bindings of one key the last one holds.

* `Environment.insert`, `Environment.extend`, `Environment.merge` — one binding, several in order,
  and those of another environment;
* `Environment.get?`, `Environment.contains`, `Environment.size` — asking;
* `Environment.toList` — the bindings by increasing key, keys compared by code points;
* `Environment.ofList`, `Environment.ofValues` — from pairs, and from values that are bound to their
  positions `0`, `1`, … in decimal.

Two environments are equal exactly when they bind the same keys to the same texts.
-/
import Std.Data.ExtTreeMap

namespace Stencil

/-- Bindings of keys to texts. -/
structure Environment where
  bindings : Std.ExtTreeMap String String
  deriving DecidableEq

namespace Environment

def empty : Environment :=
  ⟨∅⟩

instance : Inhabited Environment :=
  ⟨empty⟩

/-- Binds a key, in place of what it was bound to. -/
def insert (env : Environment) (key text : String) : Environment :=
  ⟨env.bindings.insert key text⟩

def get? (env : Environment) (key : String) : Option String :=
  env.bindings[key]?

def contains (env : Environment) (key : String) : Bool :=
  env.bindings.contains key

def size (env : Environment) : Nat :=
  env.bindings.size

def isEmpty (env : Environment) : Bool :=
  env.bindings.isEmpty

/-- The bindings by increasing key. -/
def toList (env : Environment) : List (String × String) :=
  env.bindings.toList

/-- Binds the keys of several pairs, one pair after the other. -/
def extend (env : Environment) (pairs : List (String × String)) : Environment :=
  pairs.foldl (fun env (key, text) => env.insert key text) env

/-- Takes over every binding of another environment. -/
def merge (env other : Environment) : Environment :=
  env.extend other.toList

/-- The environment of several pairs, the last one of a key holding. -/
def ofList (pairs : List (String × String)) : Environment :=
  empty.extend pairs

/-- The environment that binds each value to its position, counted from 0. -/
def ofValues (values : List String) : Environment :=
  ofList (values.zipIdx.map fun (value, index) => (toString index, value))

/-! ## What each operation does to what a key is bound to -/

@[ext] theorem ext {a b : Environment} (h : ∀ key, a.get? key = b.get? key) : a = b := by
  cases a
  cases b
  exact congrArg mk (Std.ExtTreeMap.ext_getElem? fun _ => h _)

@[simp] theorem get?_empty (key : String) : empty.get? key = none := by
  simp [get?, empty]

theorem get?_insert (env : Environment) (key text other : String) :
    (env.insert key text).get? other = if key = other then some text else env.get? other := by
  simp only [get?, insert, Std.ExtTreeMap.getElem?_insert, Std.LawfulEqOrd.compare_eq_iff_eq]

theorem contains_eq_isSome (env : Environment) (key : String) :
    env.contains key = (env.get? key).isSome := by
  simp [contains, get?]

@[simp] theorem extend_nil (env : Environment) : env.extend [] = env := rfl

@[simp] theorem extend_cons (env : Environment) (key text : String)
    (pairs : List (String × String)) :
    env.extend ((key, text) :: pairs) = (env.insert key text).extend pairs := rfl

end Environment

end Stencil
