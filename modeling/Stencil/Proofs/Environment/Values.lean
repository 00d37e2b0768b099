/-
# `Environment.Values` — the environment of a value, told from the last values alone

A value is read as an environment by collecting what each name holds and then going over the names
in increasing order, up to the first that holds a list or an object.  `Reading` says what comes of it
without collecting and without an order of going:

    no object                        refused for its kind
    some name holds a nested value   refused for the least such name
    else                             every name is bound to the text of what it holds

where what a name holds is what the last member of that name gives it (`lastOf`).

* `reading_ofValue` — what is read of a value is a `Reading` of it;
* `Reading.unique` — there is no other;
* `ofValue_eq_iff` — both, and that members which a later one of their name replaces, and the order
  of the others, make no difference.
-/
import Mathlib.Data.String.Basic
import Mathlib.Order.Bounds.Basic
import Stencil.Proofs.Decimal.Numerals
import Stencil.Proofs.Environment.LastWrite

namespace Stencil

namespace Json.Value

/-! ## Values and their texts -/

inductive Nested : Value → Prop
  | arr (items : List Value) : Nested (.arr items)
  | obj (members : List (String × Value)) : Nested (.obj members)

/-- `Spells value text`: a value that is not made of values is bound as a text. -/
inductive Spells : Value → String → Prop
  | null : Spells .null ""
  | yes : Spells (.bool true) "true"
  | no : Spells (.bool false) "false"
  | int {i : Int} {text : String} : IntegerNumeral i text → Spells (.num (.int i)) text
  | real (x : Float) : Spells (.num (.real x)) (realText x)
  | str (s : String) : Spells (.str s) s

theorem nested_iff {value : Value} : value.Nested ↔ value.text? = none := by
  constructor
  · intro nested
    cases nested <;> rfl
  · intro none
    cases value with
    | arr items => exact .arr items
    | obj members => exact .obj members
    | null | bool | num | str => cases none

theorem spells_iff {value : Value} {text : String} :
    value.Spells text ↔ value.text? = some text := by
  constructor
  · intro spells
    cases spells with
    | int numeral => exact congrArg some (integerNumeral_iff.mp numeral).symm
    | null | yes | no | real | str => rfl
  · intro some
    cases value with
    | null => cases some; exact .null
    | bool b =>
        cases some
        cases b
        · exact .no
        · exact .yes
    | num n =>
        cases some
        cases n with
        | int i => exact .int (integerNumeral_iff.mpr rfl)
        | real x => exact .real x
    | str => cases some; exact .str _
    | arr | obj => cases some

theorem Spells.not_nested {value : Value} {text : String} (spells : value.Spells text) :
    ¬ value.Nested := by
  intro nested
  cases nested <;> cases spells

theorem Spells.unique {value : Value} {a b : String} (ha : value.Spells a)
    (hb : value.Spells b) : a = b :=
  Option.some.inj ((spells_iff.mp ha).symm.trans (spells_iff.mp hb))

end Json.Value

namespace Environment

open Std

open Json (Value)

variable {members : List (String × Value)} {key : String}

/-- The names of an object that hold a nested value. -/
def nestedNames (members : List (String × Value)) : Set String :=
  { name | ∃ value, lastOf members name = some value ∧ value.Nested }

/-- `Reading value result`: what comes of reading a value as an environment. -/
inductive Reading : Value → Except Error Environment → Prop
  | notAnObject {value : Value} : (∀ members, value ≠ .obj members) →
      Reading value (.error (.notAnObject value.shape))
  | notAText {members : List (String × Value)} {key : String} :
      IsLeast (nestedNames members) key → Reading (.obj members) (.error (.notAText key))
  | bound {members : List (String × Value)} {env : Environment} : nestedNames members = ∅ →
      (∀ key text, env.get? key = some text ↔
        ∃ value, lastOf members key = some value ∧ value.Spells text) →
      Reading (.obj members) (.ok env)

/-! ## Going over the names in order -/

theorem texts_cons_of_some {value : Value} {text : String} (h : value.text? = some text) :
    texts ((key, value) :: members) = (texts members).map ((key, text) :: ·) := by
  rw [texts, h]

theorem texts_cons_of_none {value : Value} (h : value.text? = none) :
    texts ((key, value) :: members) = .error (.notAText key) := by
  rw [texts, h]

/-- `Spelled members pairs`: member by member, the pairs are the names with what they are bound to. -/
inductive Spelled : List (String × Value) → List (String × String) → Prop
  | nil : Spelled [] []
  | cons (name : String) {value : Value} {text : String} {members : List (String × Value)}
      {pairs : List (String × String)} : value.Spells text → Spelled members pairs →
      Spelled ((name, value) :: members) ((name, text) :: pairs)

/-- Members that all have texts are bound to them; else the first that has none is reported. -/
theorem texts_cases (members : List (String × Value)) :
    (∃ pairs, texts members = .ok pairs ∧ Spelled members pairs) ∨
    ∃ front key value back, members = front ++ (key, value) :: back ∧ value.Nested ∧
      (∀ m ∈ front, ¬ m.2.Nested) ∧ texts members = .error (.notAText key) := by
  induction members with
  | nil => exact .inl ⟨[], rfl, .nil⟩
  | cons member members ih =>
      obtain ⟨name, value⟩ := member
      cases eq : value.text? with
      | none =>
          right
          refine ⟨[], name, value, members, rfl, Value.nested_iff.mpr eq, ?_,
            texts_cons_of_none eq⟩
          intro m mem
          cases mem
      | some text =>
          rcases ih with ⟨pairs, ok, spelled⟩ | ⟨front, key, nested, back, rfl, isNested, clean, bad⟩
          · left
            refine ⟨(name, text) :: pairs, ?_, .cons name (Value.spells_iff.mpr eq) spelled⟩
            rw [texts_cons_of_some eq, ok]
            rfl
          · right
            refine ⟨(name, value) :: front, key, nested, back, rfl, isNested, ?_, ?_⟩
            · intro m mem
              rcases List.mem_cons.mp mem with rfl | mem
              · simp [Value.nested_iff, eq]
              · exact clean m mem
            · rw [texts_cons_of_some eq, bad]
              rfl

theorem Spelled.rel_lastOf {pairs : List (String × String)} (spelled : Spelled members pairs)
    (key : String) : Option.Rel Value.Spells (lastOf members key) (lastOf pairs key) := by
  refine Stencil.rel_lastOf ?_ key
  induction spelled with
  | nil => exact .nil
  | cons name spells _ ih => exact .cons ⟨rfl, spells⟩ ih

/-! ## Reading -/

/-- An environment is read if it binds every name to the text of what the name holds. -/
theorem Reading.of_rel {env : Environment}
    (rel : ∀ key, Option.Rel Value.Spells (lastOf members key) (env.get? key)) :
    Reading (.obj members) (.ok env) := by
  refine .bound ?_ fun key text => ?_
  · refine Set.eq_empty_of_forall_notMem ?_
    rintro key ⟨value, last, nested⟩
    have bound := rel key
    rw [last] at bound
    generalize env.get? key = text at bound
    cases bound with
    | some spells => exact spells.not_nested nested
  · have bound := rel key
    generalize lastOf members key = value at bound ⊢
    generalize env.get? key = text' at bound ⊢
    cases bound with
    | none => simp
    | some spells =>
        constructor
        · rintro ⟨⟩
          exact ⟨_, rfl, spells⟩
        · rintro ⟨_, ⟨⟩, other⟩
          rw [spells.unique other]

theorem bound_of_spelled {pairs : List (String × String)}
    (spelled : Spelled (lastValues members).toList pairs) :
    Reading (.obj members) (.ok (ofList pairs)) := by
  refine .of_rel fun key => ?_
  rw [get?_ofList, ← getElem?_lastValues, ← lastOf_toList]
  exact spelled.rel_lastOf key

theorem notAText_of_first {front back : List (String × Value)} {value : Value}
    (split : (lastValues members).toList = front ++ (key, value) :: back) (nested : value.Nested)
    (clean : ∀ m ∈ front, ¬ m.2.Nested) : IsLeast (nestedNames members) key := by
  have holds {name : String} {value : Value} :
      lastOf members name = some value ↔ (name, value) ∈ (lastValues members).toList := by
    rw [ExtTreeMap.mem_toList_iff_getElem?_eq_some, getElem?_lastValues]
  constructor
  · exact ⟨value, holds.mpr (by simp [split]), nested⟩
  · rintro name ⟨other, last, nestedOther⟩
    have mem := holds.mp last
    have ordered := ExtTreeMap.ordered_keys_toList (t := lastValues members)
    rw [split] at mem ordered
    rcases List.mem_append.mp mem with mem | mem
    · exact absurd nestedOther (clean _ mem)
    · rcases List.mem_cons.mp mem with eq | mem
      · rw [(Prod.mk.inj eq).1]
      · -- the names after the first nested value are greater
        have greater := (List.pairwise_cons.mp (List.pairwise_append.mp ordered).2.1).1 _ mem
        exact (compare_lt_iff_lt.mp greater).le

/-- **What is read of a value is a reading of it.** -/
theorem reading_ofValue (value : Value) : Reading value (ofValue value) := by
  cases value with
  | obj members =>
      rw [ofValue]
      rcases texts_cases (lastValues members).toList with
        ⟨pairs, ok, spelled⟩ | ⟨front, key, value, back, split, nested, clean, bad⟩
      · rw [ok]
        exact bound_of_spelled spelled
      · rw [bad]
        exact .notAText (notAText_of_first split nested clean)
  | null | bool | num | str | arr =>
      refine .notAnObject ?_
      intro members eq
      cases eq

theorem Reading.unique {value : Value} {a b : Except Error Environment} (ha : Reading value a)
    (hb : Reading value b) : a = b := by
  cases ha with
  | notAnObject shape =>
      cases hb with
      | notAnObject => rfl
      | notAText | bound => exact absurd rfl (shape _)
  | notAText least =>
      cases hb with
      | notAnObject shape => exact absurd rfl (shape _)
      | notAText least' => rw [least.unique least']
      | bound none => exact absurd least.1 (none ▸ Set.notMem_empty _)
  | @bound members env none binds =>
      cases hb with
      | notAnObject shape => exact absurd rfl (shape _)
      | notAText least => exact absurd least.1 (none ▸ Set.notMem_empty _)
      | @bound _ env' _ binds' =>
          have same : env = env' := by
            ext key text
            rw [binds, binds']
          rw [same]

/-! ## The last values decide -/

theorem ofValue_congr {others : List (String × Value)}
    (same : ∀ key, lastOf members key = lastOf others key) :
    ofValue (.obj members) = ofValue (.obj others) := by
  rw [ofValue, ofValue, lastValues_congr same]

/-- **A value is read as its last values say**, however its members are ordered and whatever was
said of a name before. -/
theorem ofValue_eq_iff :
    (∀ value result, ofValue value = result ↔ Reading value result) ∧
      (∀ members others, (∀ key, lastOf members key = lastOf others key) →
        ofValue (.obj members) = ofValue (.obj others)) ∧
      ∀ front key shadowed middle value back,
        ofValue (.obj (front ++ (key, shadowed) :: middle ++ (key, value) :: back)) =
          ofValue (.obj (front ++ middle ++ (key, value) :: back)) := by
  refine ⟨fun value result => ⟨?_, ?_⟩, fun members others => ofValue_congr, ?_⟩
  · rintro rfl
    exact reading_ofValue value
  · intro reading
    exact (reading_ofValue value).unique reading
  · intro front key shadowed middle value back
    refine ofValue_congr fun name => ?_
    simp only [lastOf_append, lastOf_cons, List.append_assoc, List.cons_append]
    -- the shadowed member only counts for its own name, which the later one has already
    by_cases own : key = name
    · simp only [if_pos own, Option.or_assoc, Option.some_or]
    · simp only [if_neg own, Option.or_none, Option.or_assoc]

end Environment

end Stencil
