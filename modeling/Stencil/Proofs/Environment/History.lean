/-
# `Environment.History` — an environment is what was written last

Several environments are worked on in turn: they are made anew, read, copied, extended by pairs and
by each other.  Here it is said of each of them what it binds, from the operations alone.  `written`
is the record of what was written to an environment since it was built, behind what it was built
from:

    made anew                       the record is empty
    built from pairs or values      these pairs
    read                            the members that have a text, or no change if it cannot be read
    one key bound, or several       these pairs behind the record
    extended by another             the other's record behind this one's
    copied                          the other's record

and of a record the last pair of a key holds (`lastOf`).  Nothing else of the past matters, and not
the order in which an environment hands out its bindings either.

* `get?_apply` — one operation does to the environment what it does to the record;
* `run_follows` — the record of a whole session;
* `run_lastWritten` — hence everything that can be asked of an environment.
-/
import Mathlib.Data.List.Induction
import Stencil.Environment.Session
import Stencil.Proofs.Environment.Values

namespace Stencil.Environment

/-! ## Records -/

/-- The members of a value that have a text, with their texts. -/
def entries : Json.Value → List (String × String)
  | .obj members => members.filterMap fun member => (member.2.text?).map (member.1, ·)
  | _ => []

/-- The record of an environment in whose place another may have been read from a value. -/
def readOver (own : List (String × String)) (value : Json.Value) : List (String × String) :=
  match ofValue value with
  | .ok _ => entries value
  | .error _ => own

/-- The record of an environment after an operation; `others` are the records that a second
environment is found by. -/
def Op.record (others : String → List (String × String)) (own : List (String × String)) :
    Op → List (String × String)
  | .clear => []
  | .values texts => texts.zipIdx.map fun (text, index) => (toString index, text)
  | .pairs bound => bound
  | .json source =>
    match Json.parse source with
    | .ok read => readOver own read
    | .error _ => own
  | .value read => readOver own read
  | .insert key text => own ++ [(key, text)]
  | .extend bound => own ++ bound
  | .merge name => own ++ others name
  | .copy name => others name
  | .get _ | .contains _ | .equals _ | .toJson | .evaluate _ => own

/-- The records in a session, by name; `past` are the operations so far, the latest first. -/
def written : List (String × Op) → String → List (String × String)
  | [], _ => []
  | (name, op) :: past, other =>
    if name = other then op.record (written past) (written past name) else written past other

/-! ## One operation -/

theorem get?_of_ofValue {value : Json.Value} {env : Environment} (read : ofValue value = .ok env)
    (key : String) : env.get? key = lastOf (entries value) key := by
  have reading := reading_ofValue value
  rw [read] at reading
  cases reading with
  | @bound members _ none binds =>
      have last (key : String) (value : Json.Value) (held : lastOf members key = some value) :
          value.text?.isSome := by
        rw [Option.isSome_iff_ne_none]
        intro nested
        have mem : key ∈ nestedNames members := ⟨value, held, Json.Value.nested_iff.mpr nested⟩
        exact absurd mem (none ▸ Set.notMem_empty key)
      ext text
      rw [binds, entries, lastOf_filterMap last, Option.bind_eq_some_iff]
      simp only [Json.Value.spells_iff]

theorem get?_replaceBy {env : Environment} {own : List (String × String)}
    (held : ∀ key, env.get? key = lastOf own key) (value : Json.Value) (key : String) :
    (env.replaceBy (ofValue value)).2.get? key = lastOf (readOver own value) key := by
  rw [readOver]
  cases read : ofValue value with
  | ok other => exact get?_of_ofValue read key
  | error e => exact held key

/-- **One operation** does to an environment what it does to the record. -/
theorem get?_apply {shelf : Shelf Environment} {others : String → List (String × String)}
    (shelved : ∀ name key, (shelf.get name).get? key = lastOf (others name) key)
    {env : Environment} {own : List (String × String)}
    (held : ∀ key, env.get? key = lastOf own key) (op : Op) (key : String) :
    (apply shelf env op).2.get? key = lastOf (op.record others own) key := by
  cases op with
  | clear => exact get?_empty key
  | values values => exact get?_ofList _ key
  | pairs pairs => exact get?_ofList pairs key
  | json text =>
      rw [apply, Op.record, ofJson]
      cases Json.parse text with
      | ok value => exact get?_replaceBy held value key
      | error report => exact held key
  | value value => exact get?_replaceBy held value key
  | insert name text =>
      rw [apply, Op.record, lastOf_append, lastOf_singleton, get?_insert, held]
      split <;> rfl
  | extend pairs => rw [apply, Op.record, lastOf_append, get?_extend, held]
  | merge name => rw [apply, Op.record, lastOf_append, get?_merge, held, shelved]
  | copy name => exact shelved name key
  | get | contains | equals | toJson | evaluate => exact held key

namespace Session

/-! ## Sessions -/

theorem apply_eq (shelf : Shelf Environment) (name : String) (op : Op) :
    Session.apply shelf name op = ((Environment.apply shelf (shelf.get name) op).1,
      shelf.put name (Environment.apply shelf (shelf.get name) op).2) := rfl

theorem get_apply_of_ne (shelf : Shelf Environment) {name other : String} (op : Op)
    (ne : other ≠ name) : (Session.apply shelf name op).2.get other = shelf.get other := by
  rw [apply_eq, Shelf.get_put, if_neg (Ne.symm ne)]

theorem get_apply_self (shelf : Shelf Environment) (name : String) (op : Op) :
    (Session.apply shelf name op).2.get name =
      (Environment.apply shelf (shelf.get name) op).2 := by
  rw [apply_eq, Shelf.get_put, if_pos rfl]

theorem run_concat (shelf : Shelf Environment) (ops : List (String × Op)) (name : String)
    (op : Op) : run shelf (ops ++ [(name, op)]) = (Session.apply (run shelf ops) name op).2 := by
  simp [run]

/-- The environments of a session bind what the records say. -/
def Follows (shelf : Shelf Environment) (past : List (String × Op)) : Prop :=
  ∀ name key, (shelf.get name).get? key = lastOf (written past name) key

variable {shelf : Shelf Environment} {past : List (String × Op)}

theorem Follows.step (h : Follows shelf past) (name : String) (op : Op) :
    Follows (Session.apply shelf name op).2 ((name, op) :: past) := by
  intro other key
  rw [written]
  by_cases same : name = other
  · subst same
    rw [if_pos rfl, get_apply_self]
    exact get?_apply h (h name) op key
  · rw [if_neg same, get_apply_of_ne shelf op (Ne.symm same)]
    exact h other key

/-- **The environments of a session follow the records**, whatever the operations. -/
theorem run_follows (ops : List (String × Op)) : Follows (run .empty ops) ops.reverse := by
  induction ops using List.reverseRecOn with
  | nil =>
      intro name key
      rw [run, List.foldl_nil, Shelf.get_empty]
      exact get?_empty key
  | append_singleton ops step ih =>
      obtain ⟨name, op⟩ := step
      rw [run_concat, List.reverse_concat]
      exact ih.step name op

/-! ## What can be asked -/

/-- What can be asked of the environments of a session after some operations, the latest first, is
told by the records. -/
structure LastWritten (shelf : Shelf Environment) (past : List (String × Op)) : Prop where
  get? : ∀ name key, (shelf.get name).get? key = lastOf (written past name) key
  contains : ∀ name key,
    (shelf.get name).contains key ↔ ∃ text, (shelf.get name).get? key = some text
  size : ∀ name, (shelf.get name).size = ((written past name).map Prod.fst).dedup.length
  isEmpty : ∀ name, (shelf.get name).isEmpty ↔ (shelf.get name).size = 0
  equal : ∀ name other, shelf.get name = shelf.get other ↔
    ∀ key, (shelf.get name).get? key = (shelf.get other).get? key
  answers : ∀ name key other,
    (Session.apply shelf name (.get key)).1 = .bound ((shelf.get name).get? key) ∧
      (Session.apply shelf name (.contains key)).1 = .truth ((shelf.get name).get? key).isSome ∧
      (Session.apply shelf name (.equals other)).1 = .truth (shelf.get name = shelf.get other)
  merged : ∀ name other key, ((Session.apply shelf name (.merge other)).2.get name).get? key =
    ((shelf.get other).get? key).or ((shelf.get name).get? key)
  order : ∀ name other pairs, pairs.Perm (shelf.get other).toList →
    Session.apply shelf name (.extend pairs) = Session.apply shelf name (.merge other)
  mapped : ∀ name (pairs others : List (String × String)),
    pairs.Pairwise (fun a b => a.1 ≠ b.1) → others.Perm pairs →
      Session.apply shelf name (.pairs others) = Session.apply shelf name (.pairs pairs)
  others : ∀ name op other, other ≠ name →
    (Session.apply shelf name op).2.get other = shelf.get other

/-- **In a session every environment is what was written to it last**, since it was built. -/
theorem run_lastWritten (ops : List (String × Op)) : LastWritten (run .empty ops) ops.reverse := by
  have follows := run_follows ops
  generalize run .empty ops = shelf at follows ⊢
  constructor
  case get? => exact follows
  case contains =>
    intro name key
    rw [contains_eq_isSome, Option.isSome_iff_exists]
  case size => exact fun name => size_eq_length_dedup (follows name)
  case isEmpty =>
    intro name
    rw [Environment.isEmpty, Environment.size, Std.ExtTreeMap.isEmpty_eq_size_beq_zero,
      beq_iff_eq]
  case equal => exact fun name other => ⟨fun eq key => by rw [eq], Environment.ext⟩
  case answers =>
    intro name key other
    refine ⟨rfl, ?_, rfl⟩
    rw [← contains_eq_isSome]
    rfl
  case merged =>
    intro name other key
    rw [get_apply_self]
    exact get?_merge _ _ key
  case order =>
    intro name other pairs listing
    have taken := extend_of_perm (shelf.get name) (distinct_toList _) listing
    rw [apply_eq, apply_eq, Environment.apply, taken]
    rfl
  case mapped =>
    intro name pairs others distinct listing
    have built := extend_of_perm empty distinct listing
    rw [apply_eq, apply_eq, Environment.apply, Environment.apply, ofList, built]
    rfl
  case others => exact fun name op other => get_apply_of_ne shelf op

end Session

end Stencil.Environment
