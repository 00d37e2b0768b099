/-
# `Json.Members` — the members of an object with the texts of their values

A value that was read no longer tells how it was written: `1e2` and `100.0` give one number.  What is
said of the text of a member therefore cannot be said of its value, and `ObjectText text members`
gives the members of an object with their values as they stand in the text.  These texts are taken by
the readers themselves: `spelling` reads what a reader reads and gives what it took off the text in
place of it, and the loop over the members is the one that reads objects.

* `reads_spelling_iff` — what `spelling` gives is the text between the blanks in front of a value and
  what is left behind it;
* `Parallel` — what one reader takes another one takes as well, and what both give is related.
  Members and items keep this, the items one by one;
* `exists_objectText_iff` — just the texts that are read as objects have members with texts;
* `ObjectText.exists_values` — and these are, member by member, the texts of the values read;
* `bracketed_iff`, `IntegerNumeral.eq_of_writtenAs` — the text of a value tells whether it is made of
  values, and the text of an integer is that of no other value;
* `nestedWithin_of_parse` — what is read is nested no deeper than the limit.
-/
import Stencil.Proofs.Environment.Values
import Stencil.Proofs.Json.Fronts
import Stencil.Proofs.Json.Integers

namespace Stencil

namespace Json

variable {α β : Type} {s rest : List Char} {depth : Nat} {v : Value} {written : String}

/-! ## Texts of values -/

/-- The text in front of an end of it. -/
def inFront (s rest : List Char) : String :=
  String.ofList (s.take (s.length - rest.length))

theorem inFront_append (front rest : List Char) :
    inFront (front ++ rest) rest = String.ofList front := by
  rw [inFront, List.length_append, Nat.add_sub_cancel, List.take_left' rfl]

/-- Reads what `reader` reads and gives its text, without the blanks in front of it. -/
def spelling (reader : Reader α) : Reader String := fun s =>
  (reader s).map fun p => p.map fun _ => inFront (skipBlanks s) p.rest

theorem reads_spelling_iff :
    Reads (spelling (value depth) s) written rest ↔
      ∃ v, Reads (value depth s) v rest ∧ skipBlanks s = written.toList ++ rest := by
  unfold spelling
  cases eq : value depth s with
  | error fault => simp [Except.map]
  | ok p =>
      obtain ⟨front, append⟩ := suffix_skipBlanks_of_value ⟨p, eq, rfl, rfl⟩
      rw [Except.map, reads_ok, ← append]
      show inFront (front ++ p.rest) p.rest = written ∧ p.rest = rest ↔ _
      rw [inFront_append]
      constructor
      · rintro ⟨rfl, rfl⟩
        exact ⟨p.value, reads_ok.mpr ⟨rfl, rfl⟩, by rw [String.toList_ofList]⟩
      · rintro ⟨v, read, same⟩
        obtain ⟨-, rfl⟩ := reads_ok.mp read
        rw [List.append_cancel_right same, String.ofList_toList]
        exact ⟨rfl, rfl⟩

/-- `WrittenAs depth v written`: the text is one that is read as `v`, without blanks around it. -/
def WrittenAs (depth : Nat) (v : Value) (written : String) : Prop :=
  ∃ s rest, Reads (value depth s) v rest ∧ skipBlanks s = written.toList ++ rest

/-! ## Readers side by side -/

/-- Where `reader` takes something, `other` takes something related to it and leaves the same. -/
def Parallel (reader : Reader α) (other : Reader β) (R : α → β → Prop) : Prop :=
  ∀ s x rest, Reads (reader s) x rest → ∃ y, Reads (other s) y rest ∧ R x y

namespace Parallel

variable {reader : Reader α} {other : Reader β} {R : α → β → Prop}

theorem member (parallel : Parallel reader other R) :
    Parallel (member reader) (member other) (SameKey R) := by
  intro s m rest read
  obtain ⟨r, mid, r', quote, name, colon, content⟩ := reads_member_iff.mp read
  obtain ⟨y, content', related⟩ := parallel _ _ _ content
  exact ⟨(m.1, y), reads_member_iff.mpr ⟨r, mid, r', quote, name, colon, content'⟩, rfl, related⟩

theorem listed (parallel : Parallel reader other R) {brackets : Brackets} {xs : List α}
    (listed : Listed brackets reader s xs rest) :
    ∃ ys, Listed brackets other s ys rest ∧ List.Forall₂ R xs ys := by
  induction listed with
  | last read close =>
      obtain ⟨y, read', related⟩ := parallel _ _ _ read
      exact ⟨[y], .last read' close, .cons related .nil⟩
  | more read comma next differs _ ih =>
      obtain ⟨y, read', related⟩ := parallel _ _ _ read
      obtain ⟨ys, listed', all⟩ := ih
      exact ⟨y :: ys, .more read' comma next differs listed', .cons related all⟩

theorem items (parallel : Parallel reader other R) {brackets : Brackets}
    (apart : brackets.close ≠ ',') :
    Parallel (items brackets reader) (items brackets other) (List.Forall₂ R) := by
  intro s xs rest read
  rcases (reads_items_iff apart).mp read with ⟨rfl, close⟩ | ⟨c, r, front, differs, listed⟩
  · exact ⟨[], (reads_items_iff apart).mpr (.inl ⟨rfl, close⟩), .nil⟩
  · obtain ⟨ys, listed', all⟩ := parallel.listed listed
    exact ⟨ys, (reads_items_iff apart).mpr (.inr ⟨c, r, front, differs, listed'⟩), all⟩

end Parallel

/-- Every value has a text. -/
theorem parallel_spelling (depth : Nat) :
    Parallel (value depth) (spelling (value depth)) (WrittenAs depth) := by
  intro s v rest read
  obtain ⟨front, append⟩ := suffix_skipBlanks_of_value read
  have text : skipBlanks s = (String.ofList front).toList ++ rest := by
    rw [String.toList_ofList, append]
  exact ⟨String.ofList front, reads_spelling_iff.mpr ⟨v, read, text⟩, s, rest, read, text⟩

/-- Every text is that of a value. -/
theorem spelling_parallel (depth : Nat) :
    Parallel (spelling (value depth)) (value depth) (fun written v => WrittenAs depth v written) := by
  intro s written rest read
  obtain ⟨v, read, text⟩ := reads_spelling_iff.mp read
  exact ⟨v, read, s, rest, read, text⟩

/-! ## Texts of objects -/

/-- How deep the brackets of values may be nested inside an object. -/
def innerDepth : Nat :=
  maxDepth - 1

/-- `ObjectText text members`: the text can be read as an object, with blanks around it or without.
Its members, in order and with repetitions, have these names, and their values these texts.

The readers refuse some texts that the grammar of JSON has: those in which brackets are nested more
than 127 deep, those with a number that is too large for a float, such as `1e999`, and those with an
escape for one half of a surrogate pair alone, such as `\ud800`.  These are the text of no object. -/
def ObjectText (text : String) (members : List (String × String)) : Prop :=
  ∃ r rest, skipBlanks text.toList = '{' :: r ∧
    Reads (items objectBrackets (member (spelling (value innerDepth))) r) members rest ∧
      skipBlanks rest = []

theorem objectBrackets_apart : objectBrackets.close ≠ ',' := by
  decide

theorem parse_eq_obj_iff {text : String} {values : List (String × Value)} :
    parse text = .ok (.obj values) ↔ ∃ r rest, skipBlanks text.toList = '{' :: r ∧
      Reads (items objectBrackets (member (value innerDepth)) r) values rest ∧
        skipBlanks rest = [] := by
  have whole : value maxDepth = valueOver (some (value innerDepth)) := rfl
  rw [parse, document_eq_ok_iff, whole]
  constructor
  · rintro ⟨rest, read, blank⟩
    generalize eq : skipBlanks text.toList = front
    cases anyValue_of_reads read with
    | obj brace inner read =>
        obtain rfl := Option.some.inj inner
        exact ⟨_, rest, eq.symm.trans brace, read, blank⟩
    | plain plain =>
        rw [eq] at plain
        cases plain
  · rintro ⟨r, rest, brace, read, blank⟩
    exact ⟨rest, (AnyValue.obj brace rfl read).reads, blank⟩

theorem ObjectText.exists_values {text : String} {members : List (String × String)}
    (object : ObjectText text members) :
    ∃ values, parse text = .ok (.obj values) ∧
      List.Forall₂ (SameKey fun written v => WrittenAs innerDepth v written) members values := by
  obtain ⟨r, rest, brace, read, blank⟩ := object
  obtain ⟨values, read', all⟩ :=
    (spelling_parallel innerDepth).member.items objectBrackets_apart _ _ _ read
  exact ⟨values, parse_eq_obj_iff.mpr ⟨r, rest, brace, read', blank⟩, all⟩

/-- **Just the texts that are read as objects have members with texts.** -/
theorem exists_objectText_iff {text : String} :
    (∃ members, ObjectText text members) ↔ ∃ values, parse text = .ok (.obj values) := by
  constructor
  · rintro ⟨members, object⟩
    obtain ⟨values, parsed, -⟩ := object.exists_values
    exact ⟨values, parsed⟩
  · rintro ⟨values, parsed⟩
    obtain ⟨r, rest, brace, read, blank⟩ := parse_eq_obj_iff.mp parsed
    obtain ⟨members, read', -⟩ :=
      (parallel_spelling innerDepth).member.items objectBrackets_apart _ _ _ read
    exact ⟨members, r, rest, brace, read', blank⟩

/-! ## What the text of a value tells -/

def Bracketed (written : String) : Prop :=
  written.toList.head? = some '[' ∨ written.toList.head? = some '{'

instance (written : String) : Decidable (Bracketed written) :=
  inferInstanceAs (Decidable (_ ∨ _))

/-- What was taken off a text begins as the text does, if anything was taken. -/
theorem head?_of_front {c : Char} {r front : List Char} (append : c :: r = front ++ rest)
    (shorter : rest.length ≤ r.length) : front.head? = some c := by
  cases front with
  | nil =>
      have length := congrArg List.length append
      rw [List.nil_append, List.length_cons] at length
      omega
  | cons d front => rw [List.head?_cons, (List.cons.inj append).1]

theorem PlainValue.not_bracketed (plain : PlainValue s v rest)
    (text : s = written.toList ++ rest) : ¬ Bracketed written := by
  have other (c : Char) (head : written.toList.head? = some c) : c ≠ '[' ∧ c ≠ '{' := by
    obtain ⟨r, eq⟩ := List.head?_eq_some_iff.mp head
    rw [eq, List.cons_append] at text
    exact (text ▸ plain).no_bracket
  rintro (list | object)
  · exact (other '[' list).1 rfl
  · exact (other '{' object).2 rfl

theorem PlainValue.not_nested (plain : PlainValue s v rest) : ¬ v.Nested := by
  intro nested
  cases nested <;> cases plain

theorem bracketed_iff (writtenAs : WrittenAs depth v written) : Bracketed written ↔ v.Nested := by
  obtain ⟨s, rest, read, text⟩ := writtenAs
  obtain ⟨inner, level⟩ := exists_value_eq depth
  rw [level] at read
  cases anyValue_of_reads read with
  | arr front _ inside =>
      have head := head?_of_front (front.symm.trans text) inside.rest_le
      exact iff_of_true (.inl head) (.arr _)
  | obj front _ inside =>
      have head := head?_of_front (front.symm.trans text) inside.rest_le
      exact iff_of_true (.inr head) (.obj _)
  | plain plain => exact iff_of_false (plain.not_bracketed text) plain.not_nested

/-! ## How deep values are nested -/

/-- `NestedWithin depth v`: the brackets of a value are nested at most `depth` deep. -/
inductive NestedWithin : Nat → Value → Prop
  | plain {depth : Nat} {v : Value} : ¬ v.Nested → NestedWithin depth v
  | arr {depth : Nat} {values : List Value} : (∀ v ∈ values, NestedWithin depth v) →
      NestedWithin (depth + 1) (.arr values)
  | obj {depth : Nat} {members : List (String × Value)} : (∀ m ∈ members, NestedWithin depth m.2) →
      NestedWithin (depth + 1) (.obj members)

theorem Listed.exists_reads {brackets : Brackets} {item : Reader α} {xs : List α} {x : α}
    (listed : Listed brackets item s xs rest) (mem : x ∈ xs) :
    ∃ s' rest', Reads (item s') x rest' := by
  induction listed with
  | last read _ =>
      obtain rfl := List.mem_singleton.mp mem
      exact ⟨_, _, read⟩
  | more read _ _ _ _ ih =>
      rcases List.mem_cons.mp mem with rfl | mem
      · exact ⟨_, _, read⟩
      · exact ih mem

theorem exists_reads_of_mem {brackets : Brackets} {item : Reader α} {xs : List α} {x : α}
    (apart : brackets.close ≠ ',') (read : Reads (items brackets item s) xs rest) (mem : x ∈ xs) :
    ∃ s' rest', Reads (item s') x rest' := by
  rcases (reads_items_iff apart).mp read with ⟨rfl, -⟩ | ⟨_, _, -, -, listed⟩
  · exact absurd mem List.not_mem_nil
  · exact listed.exists_reads mem

theorem nestedWithin_of_reads (read : Reads (value depth s) v rest) : NestedWithin depth v := by
  induction depth generalizing s v rest with
  | zero =>
      cases anyValue_of_reads read with
      | arr _ none _ | obj _ none _ => cases none
      | plain plain => exact .plain plain.not_nested
  | succ depth ih =>
      cases anyValue_of_reads read with
      | arr _ inner inside =>
          obtain rfl := Option.some.inj inner
          refine .arr fun v mem => ?_
          obtain ⟨_, _, read⟩ := exists_reads_of_mem (by decide) inside mem
          exact ih read
      | obj _ inner inside =>
          obtain rfl := Option.some.inj inner
          refine .obj fun m mem => ?_
          obtain ⟨_, _, read⟩ := exists_reads_of_mem objectBrackets_apart inside mem
          obtain ⟨_, _, _, -, -, -, read⟩ := reads_member_iff.mp read
          exact ih read
      | plain plain => exact .plain plain.not_nested

/-- **No text is read as a value that is nested deeper than the limit.** -/
theorem nestedWithin_of_parse {text : String} (parsed : parse text = .ok v) :
    NestedWithin maxDepth v := by
  obtain ⟨rest, read, -⟩ := document_eq_ok_iff.mp parsed
  exact nestedWithin_of_reads read

end Json

theorem IntegerNumeral.eq_of_writtenAs {i : Int} {text : String} {depth : Nat} {v : Json.Value}
    (numeral : IntegerNumeral i text) (fits : Json.FitsWord i)
    (writtenAs : Json.WrittenAs depth v text) : v = .num (.int i) := by
  obtain ⟨s, rest, read, front⟩ := writtenAs
  exact numeral.eq_of_reads fits read front

end Stencil
