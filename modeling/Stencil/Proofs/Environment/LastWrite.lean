/-
# `Environment.LastWrite` — of several pairs of a key the last one holds

Environments and the objects they are read from are both built by going over pairs in order, each
pair replacing what was said of its key before.  What such a list of pairs comes to is told without
an order of going: `lastOf` asks the list from its end.

* `getElem?_lastValues`, `get?_extend`, `get?_ofList` — what is built from a list of pairs is what
  `lastOf` says;
* `size_eq_length_dedup` — and as many keys are bound as have a pair;
* `lastOf_eq_some_iff` — where every key has one pair only, the order of the pairs does not matter;
* `extend_of_perm`, `ofList_of_perm` — so the bindings of an environment can be taken over in any
  order, and give it back in any order.
-/
import Mathlib.Data.List.Dedup
import Mathlib.Data.List.Forall2
import Mathlib.Data.List.Induction
import Stencil.Environment.Json

namespace Stencil

/-- What the last pair of a key gives it, if there is one. -/
def lastOf {α : Type} (pairs : List (String × α)) (key : String) : Option α :=
  pairs.reverse.lookup key

section LastOf

variable {α β : Type} {pairs : List (String × α)} {key : String} {x : α}

@[simp] theorem lastOf_nil (key : String) : lastOf ([] : List (String × α)) key = none := rfl

theorem lastOf_append (front back : List (String × α)) (key : String) :
    lastOf (front ++ back) key = (lastOf back key).or (lastOf front key) := by
  rw [lastOf, List.reverse_append, List.lookup_append]
  rfl

theorem lastOf_singleton (name : String) (x : α) (key : String) :
    lastOf [(name, x)] key = if name = key then some x else none := by
  rw [lastOf, List.reverse_singleton, List.lookup_cons]
  by_cases h : name = key
  · rw [if_pos h, h, beq_self_eq_true]
  · rw [if_neg h, beq_false_of_ne (Ne.symm h)]
    rfl

/-- A pair in front counts for its key only if no later pair has that key. -/
theorem lastOf_cons (name : String) (x : α) (pairs : List (String × α)) (key : String) :
    lastOf ((name, x) :: pairs) key =
      (lastOf pairs key).or (if name = key then some x else none) := by
  rw [← List.singleton_append, lastOf_append, lastOf_singleton]

theorem lastOf_map (f : α → β) (pairs : List (String × α)) (key : String) :
    lastOf (pairs.map (Prod.map id f)) key = (lastOf pairs key).map f := by
  induction pairs with
  | nil => rfl
  | cons pair pairs ih =>
      obtain ⟨name, x⟩ := pair
      rw [List.map_cons, Prod.map_apply, id_eq, lastOf_cons, lastOf_cons, ih]
      cases lastOf pairs key with
      | some y => rfl
      | none => split <;> rfl

/-- A pair that comes to nothing does not count if it is not the last of its key. -/
theorem lastOf_filterMap {f : α → Option β}
    (last : ∀ key x, lastOf pairs key = some x → (f x).isSome) (key : String) :
    lastOf (pairs.filterMap fun pair => (f pair.2).map (pair.1, ·)) key =
      (lastOf pairs key).bind f := by
  induction pairs with
  | nil => rfl
  | cons pair pairs ih =>
      obtain ⟨name, x⟩ := pair
      have later (key : String) (z : α) (held : lastOf pairs key = some z) : (f z).isSome := by
        refine last key z ?_
        rw [lastOf_cons, held]
        rfl
      cases held : lastOf pairs key with
      | some z =>
          obtain ⟨w, eq⟩ := Option.isSome_iff_exists.mp (later key z held)
          have rest := ih later
          rw [held, Option.bind_some, eq] at rest
          rw [lastOf_cons, held, Option.some_or, Option.bind_some, eq, List.filterMap_cons]
          cases f x with
          | some y => rw [Option.map_some, lastOf_cons, rest, Option.some_or]
          | none => exact rest
      | none =>
          have rest := ih later
          rw [held, Option.bind_none] at rest
          rw [lastOf_cons, held, Option.none_or, List.filterMap_cons]
          by_cases own : name = key
          · -- this pair is the last of its key, so it comes to something
            obtain ⟨y, eq⟩ := Option.isSome_iff_exists.mp
              (last key x (by rw [lastOf_cons, held, if_pos own]; rfl))
            rw [if_pos own, Option.bind_some, eq, Option.map_some, lastOf_cons, rest, if_pos own]
            rfl
          · rw [if_neg own, Option.bind_none]
            cases f x with
            | some y => rw [Option.map_some, lastOf_cons, rest, if_neg own]; rfl
            | none => exact rest

/-- Pairs of one key whose contents are related. -/
def SameKey (R : α → β → Prop) (pair : String × α) (other : String × β) : Prop :=
  pair.1 = other.1 ∧ R pair.2 other.2

/-- Where the pairs of two lists are related one by one, so is what the lists say of a key. -/
theorem rel_lastOf {R : α → β → Prop} {others : List (String × β)}
    (all : List.Forall₂ (SameKey R) pairs others) (key : String) :
    Option.Rel R (lastOf pairs key) (lastOf others key) := by
  induction all with
  | nil => exact .none
  | @cons pair other pairs others related _ ih =>
      obtain ⟨name, x⟩ := pair
      obtain ⟨_, y⟩ := other
      obtain ⟨rfl, related⟩ := related
      rw [lastOf_cons, lastOf_cons]
      generalize lastOf pairs key = held at ih ⊢
      generalize lastOf others key = held' at ih ⊢
      cases ih with
      | some related => exact .some related
      | none =>
          split
          · exact .some related
          · exact .none

theorem mem_of_lastOf (h : lastOf pairs key = some x) : (key, x) ∈ pairs := by
  obtain ⟨front, back, eq, -⟩ := List.lookup_eq_some_iff.mp h
  have mem : (key, x) ∈ pairs.reverse := by simp [eq]
  exact List.mem_reverse.mp mem

theorem lastOf_isSome_iff : (lastOf pairs key).isSome ↔ key ∈ pairs.map Prod.fst := by
  rw [lastOf, List.lookup_isSome_iff, List.mem_map]
  constructor
  · rintro ⟨pair, mem, same⟩
    exact ⟨pair, List.mem_reverse.mp mem, (beq_iff_eq.mp same).symm⟩
  · rintro ⟨pair, mem, rfl⟩
    exact ⟨pair, List.mem_reverse.mpr mem, beq_self_eq_true _⟩

theorem lastOf_eq_some_iff_append :
    lastOf pairs key = some x ↔
      ∃ front back, pairs = front ++ (key, x) :: back ∧ ∀ later ∈ back, later.1 ≠ key := by
  rw [lastOf, List.lookup_eq_some_iff]
  constructor
  · rintro ⟨back, front, eq, none⟩
    refine ⟨front.reverse, back.reverse, ?_, ?_⟩
    · rw [← List.reverse_reverse pairs, eq]
      simp
    · intro later mem same
      simpa [same] using none later (List.mem_reverse.mp mem)
  · rintro ⟨front, back, rfl, none⟩
    refine ⟨back.reverse, front.reverse, by simp, ?_⟩
    intro later mem
    have differ := none later (List.mem_reverse.mp mem)
    simpa using Ne.symm differ

/-- Where every key has one pair only, that pair is the last one of its key. -/
theorem lastOf_eq_some_iff (distinct : pairs.Pairwise (fun a b => a.1 ≠ b.1)) :
    lastOf pairs key = some x ↔ (key, x) ∈ pairs := by
  refine ⟨mem_of_lastOf, fun mem => ?_⟩
  induction pairs with
  | nil => cases mem
  | cons pair pairs ih =>
      obtain ⟨name, y⟩ := pair
      obtain ⟨apart, distinct⟩ := List.pairwise_cons.mp distinct
      rw [lastOf_cons]
      rcases List.mem_cons.mp mem with eq | mem
      · obtain ⟨rfl, rfl⟩ := Prod.mk.inj eq
        -- no later pair has the key
        have none : lastOf pairs key = none := by
          cases later : lastOf pairs key with
          | none => rfl
          | some z => exact (apart (key, z) (mem_of_lastOf later) rfl).elim
        simp [none]
      · rw [ih distinct mem]
        rfl

end LastOf

namespace Environment

open Std

theorem distinct_toList {α : Type} (map : ExtTreeMap String α) :
    map.toList.Pairwise (fun a b => a.1 ≠ b.1) := by
  refine ExtTreeMap.distinct_keys_toList.imp ?_
  intro a b differ eq
  exact differ (LawfulEqOrd.compare_eq_iff_eq.mpr eq)

theorem lastOf_toList {α : Type} (map : ExtTreeMap String α) (key : String) :
    lastOf map.toList key = map[key]? := by
  ext x
  rw [lastOf_eq_some_iff (distinct_toList map), ExtTreeMap.mem_toList_iff_getElem?_eq_some]

/-! ## Objects -/

theorem lastValues_concat (members : List (String × Json.Value)) (name : String)
    (value : Json.Value) :
    lastValues (members ++ [(name, value)]) = (lastValues members).insert name value := by
  rw [lastValues, List.foldl_append]
  rfl

theorem getElem?_lastValues (members : List (String × Json.Value)) (key : String) :
    (lastValues members)[key]? = lastOf members key := by
  induction members using List.reverseRecOn with
  | nil => simp [lastValues]
  | append_singleton members member ih =>
      obtain ⟨name, value⟩ := member
      rw [lastValues_concat, lastOf_append, lastOf_singleton, ExtTreeMap.getElem?_insert, ih]
      simp only [LawfulEqOrd.compare_eq_iff_eq]
      split <;> rfl

theorem lastValues_congr {members others : List (String × Json.Value)}
    (same : ∀ key, lastOf members key = lastOf others key) :
    lastValues members = lastValues others := by
  refine ExtTreeMap.ext_getElem? fun key => ?_
  rw [getElem?_lastValues, getElem?_lastValues, same]

/-! ## Environments -/

theorem get?_extend (env : Environment) (pairs : List (String × String)) (key : String) :
    (env.extend pairs).get? key = (lastOf pairs key).or (env.get? key) := by
  induction pairs generalizing env with
  | nil => rfl
  | cons pair pairs ih =>
      obtain ⟨name, text⟩ := pair
      rw [extend_cons, ih, lastOf_cons, get?_insert, Option.or_assoc]
      split <;> rfl

@[simp] theorem get?_ofList (pairs : List (String × String)) (key : String) :
    (ofList pairs).get? key = lastOf pairs key := by
  rw [ofList, get?_extend, get?_empty, Option.or_none]

theorem get?_merge (env other : Environment) (key : String) :
    (env.merge other).get? key = (other.get? key).or (env.get? key) := by
  rw [merge, get?_extend, toList, lastOf_toList]
  rfl

/-- Where every key has one pair only, the pairs can be bound in any order. -/
theorem extend_of_perm (env : Environment) {pairs others : List (String × String)}
    (distinct : pairs.Pairwise (fun a b => a.1 ≠ b.1)) (order : others.Perm pairs) :
    env.extend others = env.extend pairs := by
  have distinct' : others.Pairwise (fun a b => a.1 ≠ b.1) := order.symm.pairwise distinct Ne.symm
  have same (key : String) : lastOf others key = lastOf pairs key := by
    ext text
    rw [lastOf_eq_some_iff distinct, lastOf_eq_some_iff distinct', order.mem_iff]
  ext key : 1
  rw [get?_extend, get?_extend, same]

theorem size_eq_length_dedup {env : Environment} {pairs : List (String × String)}
    (comes : ∀ key, env.get? key = lastOf pairs key) :
    env.size = (pairs.map Prod.fst).dedup.length := by
  have keys : env.bindings.keys.Perm (pairs.map Prod.fst).dedup := by
    rw [List.perm_ext_iff_of_nodup ExtTreeMap.nodup_keys (List.nodup_dedup _)]
    intro key
    rw [ExtTreeMap.mem_keys, List.mem_dedup, ← lastOf_isSome_iff, ← comes]
    exact ExtTreeMap.mem_iff_isSome_getElem?
  rw [size, ← ExtTreeMap.length_keys, keys.length_eq]

/-- The bindings of an environment, listed in any order, give it back. -/
theorem ofList_of_perm {env : Environment} {pairs : List (String × String)}
    (listing : pairs.Perm env.toList) : ofList pairs = env := by
  have distinct : pairs.Pairwise (fun a b => a.1 ≠ b.1) :=
    listing.symm.pairwise (distinct_toList env.bindings) Ne.symm
  ext key text
  rw [get?_ofList, lastOf_eq_some_iff distinct, listing.mem_iff]
  exact ExtTreeMap.mem_toList_iff_getElem?_eq_some

end Environment

end Stencil
