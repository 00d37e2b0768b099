/-
# `Command.Layers` — what the command binds a key to

The command builds an environment in three layers: what the environment file binds, then the values
bound to their positions, then the defines, one after the other.  Each layer replaces what those
before it say of its keys.  Here the result is told from its end, without any replacing:

    the last define of the key      else
    the value at the key, if the key is a numeral of a position      else
    what the file binds the key to

* `bindings_cases` — the defines are all bound, or the first that is malformed is reported;
* `layered_cases` — the environment of a configuration binds what the layers say.
-/
import Stencil.Command.Run
import Stencil.Proofs.Environment.Positions
import Stencil.Proofs.Text.Delimiter

namespace Stencil

namespace Command

/-! ## Defines -/

/-- `Defines define key text`: in front of the first equals sign of a define stands the key, which is
not empty, and after it the text. -/
structure Defines (define key text : String) : Prop where
  split : define = key ++ "=" ++ text
  first : '=' ∉ key.toList
  nonempty : key ≠ ""

/-- A define has no equals sign, or nothing in front of the first. -/
def Malformed (define : String) : Prop :=
  '=' ∉ define.toList ∨ define.toList.head? = some '='

instance : DecidablePred Malformed := fun _ => inferInstanceAs (Decidable (_ ∨ _))

theorem splitAtEquals_front {front back : List Char} (none : '=' ∉ front) :
    splitAtEquals (front ++ '=' :: back) = (front, some back) := by
  rw [splitAtEquals, takeWhile_front none, dropWhile_front none]
  rfl

theorem splitAtEquals_all {text : List Char} (none : '=' ∉ text) :
    splitAtEquals text = (text, .none) := by
  rw [splitAtEquals, takeWhile_all none, dropWhile_all none]
  rfl

section Define

variable {define key text : String}

theorem Defines.binding?_eq (h : Defines define key text) :
    binding? define = some (key, text) := by
  obtain ⟨rfl, first, nonempty⟩ := h
  have split : (key ++ "=" ++ text).toList = key.toList ++ '=' :: text.toList := by simp
  obtain ⟨c, rest, eq⟩ := List.exists_cons_of_ne_nil (mt String.toList_eq_nil_iff.mp nonempty)
  have back : String.ofList (c :: rest) = key := by rw [← eq, String.ofList_toList]
  rw [binding?, split, splitAtEquals_front first, eq]
  show some (String.ofList (c :: rest), String.ofList text.toList) = some (key, text)
  rw [back, String.ofList_toList]

theorem Malformed.binding?_eq (h : Malformed define) : binding? define = none := by
  rw [binding?]
  rcases h with none | head
  · rw [splitAtEquals_all none]
    cases define.toList <;> rfl
  · obtain ⟨rest, eq⟩ := List.head?_eq_some_iff.mp head
    rw [eq]
    rfl

theorem malformed_or_defines (define : String) :
    Malformed define ∨ ∃ key text, Defines define key text := by
  by_cases equals : '=' ∈ define.toList
  · obtain ⟨front, back, split, none⟩ := List.eq_append_cons_of_mem equals
    cases front with
    | nil => exact .inl (.inr (by rw [split]; rfl))
    | cons c front =>
        refine .inr ⟨String.ofList (c :: front), String.ofList back, ?_, ?_, ?_⟩
        · rw [← String.toList_inj, split]
          simp
        · rwa [String.toList_ofList]
        · simp
  · exact .inl (.inl equals)

theorem binding?_eq_some_iff : binding? define = some (key, text) ↔ Defines define key text := by
  refine ⟨fun bound => ?_, Defines.binding?_eq⟩
  rcases malformed_or_defines define with malformed | ⟨key', text', defines⟩
  · rw [malformed.binding?_eq] at bound
    exact nomatch bound
  · rw [defines.binding?_eq] at bound
    obtain ⟨rfl, rfl⟩ := Prod.mk.inj (Option.some.inj bound)
    exact defines

theorem Defines.not_malformed (h : Defines define key text) : ¬ Malformed define := by
  intro malformed
  rw [← binding?_eq_some_iff, malformed.binding?_eq] at h
  exact nomatch h

end Define

/-- All defines are bound, or the first that is malformed is reported. -/
theorem bindings_cases (defines : List String) :
    (defines.find? (Malformed ·) = none ∧
        ∃ pairs, bindings defines = .ok pairs ∧ defines.map binding? = pairs.map some) ∨
      ∃ define, defines.find? (Malformed ·) = some define ∧
        bindings defines = .error (.define define) := by
  induction defines with
  | nil => exact .inl ⟨rfl, [], rfl, rfl⟩
  | cons define defines ih =>
      rw [bindings]
      rcases malformed_or_defines define with malformed | ⟨key, text, bound⟩
      · refine .inr ⟨define, List.find?_cons_of_pos (decide_eq_true malformed), ?_⟩
        rw [malformed.binding?_eq]
      · rw [bound.binding?_eq, List.find?_cons_of_neg (by simpa using bound.not_malformed)]
        rcases ih with ⟨none, pairs, ok, eq⟩ | ⟨first, some, bad⟩
        · refine .inl ⟨none, (key, text) :: pairs, ?_, ?_⟩
          · rw [ok]
            rfl
          · rw [List.map_cons, List.map_cons, eq, bound.binding?_eq]
        · refine .inr ⟨first, some, ?_⟩
          rw [bad]
          rfl

/-- The last define of a key gives it a text. -/
def LastDefine (defines : List String) (key text : String) : Prop :=
  ∃ front define back, defines = front ++ define :: back ∧ Defines define key text ∧
    ∀ later ∈ back, ∀ other, ¬ Defines later key other

theorem lastOf_eq_some_iff_lastDefine {defines : List String} {pairs : List (String × String)}
    (bound : defines.map binding? = pairs.map some) {key text : String} :
    lastOf pairs key = some text ↔ LastDefine defines key text := by
  rw [lastOf_eq_some_iff_append]
  constructor
  · rintro ⟨front, back, rfl, none⟩
    rw [List.map_append, List.map_cons, List.map_eq_append_iff] at bound
    obtain ⟨before, rest, rfl, -, bound⟩ := bound
    obtain ⟨define, after, rfl, this, same⟩ := List.map_eq_cons_iff.mp bound
    refine ⟨before, define, after, rfl, binding?_eq_some_iff.mp this, ?_⟩
    intro later mem other defines
    have image : binding? later ∈ back.map some := same ▸ List.mem_map_of_mem mem
    rw [defines.binding?_eq] at image
    obtain ⟨pair, mem, eq⟩ := List.mem_map.mp image
    exact none pair mem (by rw [Option.some.inj eq])
  · rintro ⟨before, define, after, rfl, this, none⟩
    rw [List.map_append, List.map_cons, this.binding?_eq] at bound
    obtain ⟨front, rest, rfl, -, bound⟩ := List.map_eq_append_iff.mp bound.symm
    obtain ⟨pair, back, rfl, eq, same⟩ := List.map_eq_cons_iff.mp bound
    obtain rfl := Option.some.inj eq
    refine ⟨front, back, rfl, ?_⟩
    rintro ⟨name, other⟩ mem rfl
    have image : some (name, other) ∈ after.map binding? := same ▸ List.mem_map_of_mem mem
    obtain ⟨later, mem, eq⟩ := List.mem_map.mp image
    exact none later mem other (binding?_eq_some_iff.mp eq)

/-! ## The layers -/

/-- `Binds base config key text`: over the bindings of the environment file, a configuration binds a
key to a text. -/
inductive Binds (base : Environment) (config : Config) (key text : String) : Prop
  | define : LastDefine config.defines key text → Binds base config key text
  | position {i : Nat} : (∀ other, ¬ LastDefine config.defines key other) → Numeral i key →
      config.values[i]? = some text → Binds base config key text
  | file : (∀ other, ¬ LastDefine config.defines key other) →
      (∀ i < config.values.length, ¬ Numeral i key) → base.get? key = some text →
      Binds base config key text

theorem binds_iff {base env : Environment} {config : Config} {pairs : List (String × String)}
    (bound : config.defines.map binding? = pairs.map some)
    (built : (base.merge (.ofValues config.values)).extend pairs = env) {key text : String} :
    env.get? key = some text ↔ Binds base config key text := by
  have none_iff : lastOf pairs key = none ↔ ∀ other, ¬ LastDefine config.defines key other := by
    simp only [← lastOf_eq_some_iff_lastDefine bound, Option.eq_none_iff_forall_ne_some, ne_eq]
  rw [← built, Environment.get?_extend, Environment.get?_merge]
  constructor
  · intro held
    cases define : lastOf pairs key with
    | some other =>
        rw [define, Option.some_or, Option.some.injEq] at held
        exact .define ((lastOf_eq_some_iff_lastDefine bound).mp (held ▸ define))
    | none =>
        have free := none_iff.mp define
        rw [define, Option.none_or] at held
        cases value : (Environment.ofValues config.values).get? key with
        | some other =>
            rw [value, Option.some_or] at held
            obtain ⟨i, numeral, eq⟩ := Environment.get?_ofValues.mp (value.trans held)
            exact .position free numeral eq
        | none =>
            rw [value, Option.none_or] at held
            exact .file free (Environment.get?_ofValues_eq_none.mp value) held
  · intro binds
    cases binds with
    | define define =>
        rw [(lastOf_eq_some_iff_lastDefine bound).mpr define, Option.some_or]
    | position free numeral value =>
        rw [none_iff.mpr free, Environment.get?_ofValues.mpr ⟨_, numeral, value⟩]
        rfl
    | file free noNumeral held =>
        rw [none_iff.mpr free, Environment.get?_ofValues_eq_none.mpr noNumeral, held]
        rfl

/-- **The environment of a configuration** binds what the layers say, unless a define is malformed. -/
theorem layered_cases (base : Environment) (config : Config) :
    (config.defines.find? (Malformed ·) = none ∧ ∃ env, layered base config = .ok env ∧
        ∀ key text, env.get? key = some text ↔ Binds base config key text) ∨
      ∃ define, config.defines.find? (Malformed ·) = some define ∧
        layered base config = .error (.define define) := by
  rw [layered]
  rcases bindings_cases config.defines with ⟨none, pairs, ok, bound⟩ | ⟨define, some, bad⟩
  · refine .inl ⟨none, _, ?_, fun key text => binds_iff bound rfl⟩
    rw [ok]
    rfl
  · refine .inr ⟨define, some, ?_⟩
    rw [bad]
    rfl

end Command

end Stencil
