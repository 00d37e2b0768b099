/-
# `Environment.Agreement` — the two ways of reading an environment from a text

An environment is read from a JSON text either by way of a value, whose members are converted, or
directly, where every member has to be a string.  The direct way goes over the same members with the
same loop and takes less as their contents: `stringItem` takes just those values that are strings
(`stringItem_embeds`), hence `stringMembers` just the objects of strings (`stringMembers_embeds`).

The two ways part on members that a later member of their name replaces.  Read by way of a value,
such a member does not matter, whatever it holds; read directly, it has to be a string like any
other.

* `ofValue_strings` — an object of strings, read as a value, binds them as they are;
* `ofStringsJson_eq_ok_iff` — the direct way succeeds exactly on objects of strings, and then both
  ways give the same environment.
-/
import Mathlib.Data.Set.List
import Stencil.Proofs.Environment.Values
import Stencil.Proofs.Json.Reads

namespace Stencil.Environment

open Json

/-! ## Strings and objects of strings -/

/-- Members whose contents are strings, as members of an object. -/
def asStrings (pairs : List (String × String)) : List (String × Value) :=
  pairs.map (Prod.map id Value.str)

theorem reads_stringItem_iff {s rest : List Char} {text : String} :
    Reads (stringItem s) text rest ↔
      ∃ r, skipBlanks s = '"' :: r ∧ Reads (string r) text rest := by
  unfold stringItem
  split
  · next r eq =>
      rw [reads_widen]
      simp [eq]
  · next quote =>
      refine iff_of_false not_reads_error ?_
      rintro ⟨r, eq, -⟩
      exact quote r eq

theorem reads_stringMembers_iff {s rest : List Char} {pairs : List (String × String)} :
    Reads (stringMembers s) pairs rest ↔
      ∃ r, skipBlanks s = '{' :: r ∧
        Reads (items objectBrackets (member stringItem) r) pairs rest := by
  unfold stringMembers
  split
  · next r eq =>
      rw [reads_widen]
      simp [eq]
  · next brace =>
      refine iff_of_false not_reads_error ?_
      rintro ⟨r, eq, -⟩
      exact brace r eq

theorem stringItem_embeds (inner : Option (Reader Value)) :
    Embeds stringItem (valueOver inner) .str := by
  intro s text rest
  rw [reads_stringItem_iff, reads_valueOver_iff]
  constructor
  · rintro ⟨r, eq, read⟩
    refine .plain ?_
    rw [eq]
    exact .str read
  · intro any
    cases any with
    | plain plain =>
        generalize skipBlanks s = front at plain ⊢
        cases plain with
        | str read => exact ⟨_, rfl, read⟩

theorem stringMembers_embeds (depth : Nat) :
    Embeds stringMembers (value (depth + 1)) (fun pairs => .obj (asStrings pairs)) := by
  intro s pairs rest
  have inside : Embeds stringItem (value depth) .str := by
    cases depth with
    | zero => exact stringItem_embeds none
    | succ depth => exact stringItem_embeds (some (value depth))
  have members : Embeds (items objectBrackets (member stringItem))
      (items objectBrackets (member (value depth))) asStrings := inside.member.items (by decide)
  rw [value, reads_stringMembers_iff, reads_valueOver_iff]
  constructor
  · rintro ⟨r, eq, read⟩
    exact .obj eq rfl ((members _ _ _).mp read)
  · intro any
    cases any with
    | obj eq inner read =>
        cases inner
        exact ⟨_, eq, (members _ _ _).mpr read⟩
    | plain plain =>
        generalize skipBlanks s = front at plain
        cases plain

/-! ## Both ways -/

theorem document_strings_iff {text : String} {pairs : List (String × String)} :
    document stringMembers text = .ok pairs ↔ parse text = .ok (.obj (asStrings pairs)) :=
  (stringMembers_embeds 126).document_iff

theorem ofValue_strings (pairs : List (String × String)) :
    ofValue (.obj (asStrings pairs)) = .ok (ofList pairs) := by
  refine (reading_ofValue _).unique (.of_rel fun key => ?_)
  rw [get?_ofList, asStrings, lastOf_map]
  cases lastOf pairs key with
  | none => exact .none
  | some text => exact .some (.str text)

/-- A text is read as an object, and every member of it is a string, also one that a later member of
its name replaces. -/
def OnlyStrings (text : String) : Prop :=
  ∃ members, parse text = .ok (.obj members) ∧ ∀ m ∈ members, ∃ s, m.2 = .str s

theorem onlyStrings_iff {text : String} :
    OnlyStrings text ↔ ∃ pairs, parse text = .ok (.obj (asStrings pairs)) := by
  constructor
  · rintro ⟨members, parsed, strings⟩
    have image : members ∈ Set.range (List.map (Prod.map id Value.str)) := by
      rw [Set.range_list_map]
      rintro ⟨name, _⟩ mem
      obtain ⟨s, rfl⟩ := strings _ mem
      exact ⟨(name, s), rfl⟩
    obtain ⟨pairs, rfl⟩ := image
    exact ⟨pairs, parsed⟩
  · rintro ⟨pairs, parsed⟩
    refine ⟨asStrings pairs, parsed, ?_⟩
    intro m mem
    obtain ⟨pair, -, rfl⟩ := List.mem_map.mp mem
    exact ⟨pair.2, rfl⟩

theorem ofStringsJson_eq_ok {text : String} {env : Environment} :
    ofStringsJson text = .ok env ↔
      ∃ pairs, parse text = .ok (.obj (asStrings pairs)) ∧ ofList pairs = env := by
  simp only [← document_strings_iff]
  unfold ofStringsJson
  cases document stringMembers text with
  | error report => simp [Except.map]
  | ok pairs => simp [Except.map]

theorem ofJson_of_parse {text : String} {value : Value} (parsed : parse text = .ok value) :
    ofJson text = ofValue value := by
  rw [ofJson, parsed]

/-- **The direct way succeeds exactly on objects of strings, and gives what the other way gives.** -/
theorem ofStringsJson_eq_ok_iff (text : String) :
    ((∃ env, ofStringsJson text = .ok env) ↔ OnlyStrings text) ∧
      ∀ env, ofStringsJson text = .ok env ↔ OnlyStrings text ∧ ofJson text = .ok env := by
  simp only [ofStringsJson_eq_ok, onlyStrings_iff]
  constructor
  · constructor
    · rintro ⟨_, pairs, parsed, -⟩
      exact ⟨pairs, parsed⟩
    · rintro ⟨pairs, parsed⟩
      exact ⟨_, pairs, parsed, rfl⟩
  · intro env
    constructor
    · rintro ⟨pairs, parsed, rfl⟩
      exact ⟨⟨pairs, parsed⟩, by rw [ofJson_of_parse parsed, ofValue_strings]⟩
    · rintro ⟨⟨pairs, parsed⟩, read⟩
      rw [ofJson_of_parse parsed, ofValue_strings] at read
      exact ⟨pairs, parsed, Except.ok.inj read⟩

end Stencil.Environment
