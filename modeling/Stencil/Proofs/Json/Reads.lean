/-
# `Json.Reads` — what the readers of JSON take off a text

A reader that succeeds gives a value and what follows it, with a proof that the rest is not longer
than the text was.  That proof is what the loops of the readers need, and it is in the way when one
reader is compared with another; so everything here is said with

    Reads found x rest       `found` is a success: `x` was read, and `rest` follows it.

* `reads_member_iff`, `reads_items_iff`, `reads_numeral_iff`, `reads_scalar_iff`,
  `reads_valueOver_iff`, `document_eq_ok_iff` — what a member, the items between brackets, a numeral,
  a value and a whole text consist of, each said by what its parts read.  For the items that is the
  relation `Listed`, which is the loop without what it has gathered; for values `PlainValue` and
  `AnyValue`, with a rule for each way a value can begin;
* `Embeds` — one reader takes just those values of another that are images under a map.  Members and
  items keep this (`Embeds.member`, `Embeds.items`), so two readers of objects can be compared by
  what they read as contents.
-/
import Stencil.Json.Reader

namespace Stencil.Json

variable {α β : Type} {s t rest : List Char} {x : α}

/-! ## Success -/

/-- `x` was read, and `rest` follows it. -/
def Reads (found : Except Fault (Parsed α s)) (x : α) (rest : List Char) : Prop :=
  ∃ p, found = .ok p ∧ p.value = x ∧ p.rest = rest

@[simp] theorem reads_ok {p : Parsed α s} : Reads (.ok p) x rest ↔ p.value = x ∧ p.rest = rest := by
  constructor
  · rintro ⟨_, ⟨⟩, eqs⟩
    exact eqs
  · intro eqs
    exact ⟨p, rfl, eqs⟩

@[simp] theorem not_reads_error {fault : Fault} :
    ¬ Reads (.error fault : Except Fault (Parsed α s)) x rest := by
  rintro ⟨_, ⟨⟩, _⟩

section Found

variable {found : Except Fault (Parsed α s)}

theorem Reads.unique {y : α} {rest' : List Char} (read : Reads found x rest)
    (other : Reads found y rest') : x = y ∧ rest = rest' := by
  obtain ⟨p, ok, rfl, rfl⟩ := read
  obtain ⟨q, ok', rfl, rfl⟩ := other
  obtain rfl := Except.ok.inj (ok.symm.trans ok')
  exact ⟨rfl, rfl⟩

theorem Reads.rest_le (read : Reads found x rest) : rest.length ≤ s.length := by
  obtain ⟨p, -, -, rfl⟩ := read
  exact p.rest_le

@[simp] theorem reads_widen {h : s.length ≤ t.length} :
    Reads (found.map (·.widen h)) x rest ↔ Reads found x rest := by
  cases found with
  | error fault => simp [Except.map]
  | ok p =>
      rw [Except.map, reads_ok, reads_ok]
      rfl

theorem reads_map_widen {f : α → β} {y : β} {h : s.length ≤ t.length} :
    Reads (found.map fun p => (p.map f).widen h) y rest ↔ ∃ x, Reads found x rest ∧ f x = y := by
  cases found with
  | error fault => simp [Except.map]
  | ok p =>
      constructor
      · intro read
        obtain ⟨eq, left⟩ := reads_ok.mp read
        exact ⟨p.value, reads_ok.mpr ⟨rfl, left⟩, eq⟩
      · rintro ⟨x, read, rfl⟩
        obtain ⟨rfl, left⟩ := reads_ok.mp read
        exact reads_ok.mpr ⟨rfl, left⟩

theorem reads_map {f : α → β} {y : β} :
    Reads (found.map (·.map f)) y rest ↔ ∃ x, Reads found x rest ∧ f x = y :=
  reads_map_widen (h := Nat.le_refl s.length)

end Found

theorem reads_bind {u : List Char} {found : Except Fault (Parsed α s)}
    {next : Parsed α s → Except Fault (Parsed β u)} {y : β} :
    Reads (found >>= next) y rest ↔ ∃ p, found = .ok p ∧ Reads (next p) y rest := by
  cases found with
  | error fault =>
      refine iff_of_false not_reads_error ?_
      rintro ⟨_, ⟨⟩, _⟩
  | ok p =>
      constructor
      · intro read
        exact ⟨p, rfl, read⟩
      · rintro ⟨_, ⟨⟩, read⟩
        exact read

/-! ## Members -/

theorem reads_member_iff {content : Reader α} {m : String × α} :
    Reads (member content s) m rest ↔ ∃ r mid r', s = '"' :: r ∧ Reads (string r) m.1 mid ∧
      skipBlanks mid = ':' :: r' ∧ Reads (content r') m.2 rest := by
  unfold member
  split
  · next r =>
      rw [reads_bind]
      constructor
      · rintro ⟨name, ok, read⟩
        split at read
        · exact absurd read not_reads_error
        · next c r' eq =>
            split at read
            · next colon =>
                subst colon
                obtain ⟨p, ok', read⟩ := reads_bind.mp read
                obtain ⟨rfl, left⟩ := reads_ok.mp read
                exact ⟨r, name.rest, r', rfl, ⟨name, ok, rfl, rfl⟩, eq, ⟨p, ok', rfl, left⟩⟩
            · exact absurd read not_reads_error
      · rintro ⟨_, mid, r', ⟨⟩, ⟨name, ok, eqName, rfl⟩, eq, ⟨p, ok', eqContent, left⟩⟩
        refine ⟨name, ok, ?_⟩
        split
        · next none => simp [none] at eq
        · next c r'' colon =>
            obtain ⟨rfl, rfl⟩ := List.cons.inj (colon.symm.trans eq)
            rw [if_pos rfl, reads_bind]
            exact ⟨p, ok', reads_ok.mpr ⟨Prod.ext eqName eqContent, left⟩⟩
  · next quote =>
      refine iff_of_false not_reads_error ?_
      rintro ⟨r, _, _, rfl, _⟩
      exact quote r rfl

/-! ## Items -/

/-- `Listed brackets item s xs rest`: at the front of `s` stand the items `xs`, at least one, and the
closing bracket after them; commas part them, and none stands before the bracket. -/
inductive Listed (brackets : Brackets) (item : Reader α) :
    List Char → List α → List Char → Prop
  | last {s mid rest : List Char} {x : α} : Reads (item s) x mid →
      skipBlanks mid = brackets.close :: rest → Listed brackets item s [x] rest
  | more {s mid r r' rest : List Char} {c : Char} {x : α} {xs : List α} :
      Reads (item s) x mid → skipBlanks mid = ',' :: r → skipBlanks r = c :: r' →
      c ≠ brackets.close → Listed brackets item (c :: r') xs rest →
      Listed brackets item s (x :: xs) rest

section Items

variable {brackets : Brackets} {item : Reader α} {xs : List α}

/-- The loop over the items adds what is listed to what it has gathered. -/
theorem listed_of_itemsFrom {done : Array α} {h : s.length ≤ t.length} {ys : List α}
    (read : Reads (itemsFrom brackets item t done s h) ys rest) :
    ∃ xs, ys = done.toList ++ xs ∧ Listed brackets item s xs rest := by
  fun_induction itemsFrom brackets item t done s h with
  | case1 | case2 | case4 | case5 | case7 => exact absurd read not_reads_error
  | case3 done s h p ok r close shorter =>
      obtain ⟨rfl, rfl⟩ := reads_ok.mp read
      exact ⟨[p.value], by simp, .last ⟨p, ok, rfl, rfl⟩ close⟩
  | case6 done s h p ok r c r' next apart comma shorter _ ih =>
      obtain ⟨xs, rfl, listed⟩ := ih read
      refine ⟨p.value :: xs, by simp, ?_⟩
      rw [next] at listed
      exact .more ⟨p, ok, rfl, rfl⟩ comma next apart listed

section Step

variable {p : Parsed α s} (done : Array α) (h : s.length ≤ t.length) (ok : item s = .ok p)

include ok

theorem reads_itemsFrom_close (close : skipBlanks p.rest = brackets.close :: rest) :
    Reads (itemsFrom brackets item t done s h) (done.push p.value).toList rest := by
  rw [itemsFrom]
  split
  · next error => simp [error] at ok
  · next p' ok' =>
      obtain rfl : p' = p := by simpa [ok'] using ok
      split
      · next none => simp [none] at close
      · next c r eq =>
          obtain ⟨rfl, rfl⟩ := List.cons.inj (eq.symm.trans close)
          rw [if_pos rfl]
          exact reads_ok.mpr ⟨rfl, rfl⟩

theorem itemsFrom_comma {r r' : List Char} {c : Char} (apart : brackets.close ≠ ',')
    (comma : skipBlanks p.rest = ',' :: r) (next : skipBlanks r = c :: r')
    (differs : c ≠ brackets.close) (h' : (c :: r').length ≤ t.length) :
    itemsFrom brackets item t done s h =
      itemsFrom brackets item t (done.push p.value) (c :: r') h' := by
  rw [itemsFrom]
  split
  · next error => simp [error] at ok
  · next p' ok' =>
      obtain rfl : p' = p := by simpa [ok'] using ok
      split
      · next none => simp [none] at comma
      · next c' r'' eq =>
          obtain ⟨rfl, rfl⟩ := List.cons.inj (eq.symm.trans comma)
          rw [if_neg (Ne.symm apart), if_pos rfl]
          simp only [next, if_neg differs]

end Step

theorem Listed.reads_itemsFrom (listed : Listed brackets item s xs rest)
    (apart : brackets.close ≠ ',') (done : Array α) (h : s.length ≤ t.length) :
    Reads (itemsFrom brackets item t done s h) (done.toList ++ xs) rest := by
  -- one round of the loop for each rule, with anything gathered before it
  induction listed generalizing done with
  | @last s mid rest x read close =>
      obtain ⟨p, ok, rfl, rfl⟩ := read
      have stop := reads_itemsFrom_close done h ok close
      rwa [Array.toList_push] at stop
  | @more s mid r r' rest c x xs read comma next differs _ ih =>
      obtain ⟨p, ok, rfl, rfl⟩ := read
      have h' : (c :: r').length ≤ t.length := by
        have := p.rest_le
        have := skipBlanks_le p.rest
        have := skipBlanks_le r
        simp only [comma, next, List.length_cons] at *
        omega
      have goOn := ih (done.push p.value) h'
      rw [Array.toList_push, List.append_assoc, List.singleton_append] at goOn
      rwa [itemsFrom_comma done h ok apart comma next differs h']

/-- **Between brackets stands nothing, or what is listed.** -/
theorem reads_items_iff (apart : brackets.close ≠ ',') :
    Reads (items brackets item s) xs rest ↔
      xs = [] ∧ skipBlanks s = brackets.close :: rest ∨
        ∃ c r, skipBlanks s = c :: r ∧ c ≠ brackets.close ∧
          Listed brackets item (c :: r) xs rest := by
  unfold items
  split
  · next none => simp [none]
  · next c r eq =>
      split
      · next close =>
          subst close
          rw [reads_ok]
          constructor
          · rintro ⟨rfl, rfl⟩
            exact .inl ⟨rfl, eq⟩
          · rintro (⟨rfl, eqs⟩ | ⟨c, r', eqs, differs, _⟩)
            · exact ⟨rfl, (List.cons.inj (eq.symm.trans eqs)).2⟩
            · exact absurd (List.cons.inj (eq.symm.trans eqs)).1.symm differs
      · next differs =>
          constructor
          · intro read
            obtain ⟨xs, rfl, listed⟩ := listed_of_itemsFrom read
            rw [eq] at listed
            exact .inr ⟨c, r, eq, differs, by simpa using listed⟩
          · rintro (⟨-, eqs⟩ | ⟨c', r', eqs, -, listed⟩)
            · exact absurd (List.cons.inj (eq.symm.trans eqs)).1 differs
            · rw [← eqs] at listed
              simpa using listed.reads_itemsFrom apart #[] (skipBlanks_le s)

end Items

/-! ## Numbers -/

theorem reads_numeral_iff {negative : Bool} {n : Numeral} :
    Reads (numeral negative s) n rest ↔ ∃ whole mid fraction mid' exponent,
      Reads (wholePart s) whole mid ∧ Reads (fractionPart mid) fraction mid' ∧
        Reads (exponentPart mid') exponent rest ∧ n = ⟨negative, whole, fraction, exponent⟩ := by
  simp only [numeral, reads_bind]
  constructor
  · rintro ⟨whole, ok, fraction, ok', exponent, ok'', read⟩
    obtain ⟨rfl, rfl⟩ := reads_ok.mp read
    exact ⟨_, _, _, _, _, ⟨whole, ok, rfl, rfl⟩, ⟨fraction, ok', rfl, rfl⟩,
      ⟨exponent, ok'', rfl, rfl⟩, rfl⟩
  · rintro ⟨_, _, _, _, _, ⟨whole, ok, rfl, rfl⟩, ⟨fraction, ok', rfl, rfl⟩,
      ⟨exponent, ok'', rfl, rfl⟩, rfl⟩
    exact ⟨whole, ok, fraction, ok', exponent, ok'', reads_ok.mpr ⟨rfl, rfl⟩⟩

theorem reads_number_iff {negative : Bool} {number : Number} :
    Reads (Json.number negative s) number rest ↔
      ∃ n, Reads (numeral negative s) n rest ∧ n.number rest = .ok number := by
  rw [Json.number, reads_bind]
  constructor
  · rintro ⟨p, ok, read⟩
    cases eq : p.value.number p.rest with
    | error fault =>
        rw [eq] at read
        exact absurd read not_reads_error
    | ok found =>
        rw [eq] at read
        obtain ⟨rfl, rfl⟩ := reads_ok.mp read
        exact ⟨p.value, ⟨p, ok, rfl, rfl⟩, eq⟩
  · rintro ⟨_, ⟨p, ok, rfl, rfl⟩, eq⟩
    refine ⟨p, ok, ?_⟩
    rw [eq]
    exact reads_ok.mpr ⟨rfl, rfl⟩

/-! ## Values -/

/-- `PlainValue s v rest`: at the front of `s` stands the value `v`, which has no parts. -/
inductive PlainValue : List Char → Value → List Char → Prop
  | null {r rest : List Char} : Reads (word ['u', 'l', 'l'] r) () rest →
      PlainValue ('n' :: r) .null rest
  | yes {r rest : List Char} : Reads (word ['r', 'u', 'e'] r) () rest →
      PlainValue ('t' :: r) (.bool true) rest
  | no {r rest : List Char} : Reads (word ['a', 'l', 's', 'e'] r) () rest →
      PlainValue ('f' :: r) (.bool false) rest
  | str {r rest : List Char} {text : String} : Reads (string r) text rest →
      PlainValue ('"' :: r) (.str text) rest
  | negative {r rest : List Char} {n : Number} : Reads (number true r) n rest →
      PlainValue ('-' :: r) (.num n) rest
  | positive {c : Char} {r rest : List Char} {n : Number} : c.isDigit →
      Reads (number false (c :: r)) n rest → PlainValue (c :: r) (.num n) rest

theorem reads_scalar_iff {v : Value} : Reads (scalar s) v rest ↔ PlainValue s v rest := by
  constructor
  · intro read
    unfold scalar at read
    split at read
    · exact absurd read not_reads_error
    · next c r =>
        dsimp only at read
        split at read
        · next letter =>
            obtain ⟨_, inside, rfl⟩ := reads_map_widen.mp read
            exact letter ▸ .null inside
        split at read
        · next letter =>
            obtain ⟨_, inside, rfl⟩ := reads_map_widen.mp read
            exact letter ▸ .yes inside
        split at read
        · next letter =>
            obtain ⟨_, inside, rfl⟩ := reads_map_widen.mp read
            exact letter ▸ .no inside
        split at read
        · next quote =>
            obtain ⟨_, inside, rfl⟩ := reads_map_widen.mp read
            exact quote ▸ .str inside
        split at read
        · next minus =>
            obtain ⟨_, inside, rfl⟩ := reads_map_widen.mp read
            exact minus ▸ .negative inside
        split at read
        · next digit =>
            obtain ⟨_, inside, rfl⟩ := reads_map.mp read
            exact .positive digit inside
        exact absurd read not_reads_error
  · intro plain
    cases plain with
    | null read => exact reads_map_widen.mpr ⟨(), read, rfl⟩
    | yes read => exact reads_map_widen.mpr ⟨(), read, rfl⟩
    | no read => exact reads_map_widen.mpr ⟨(), read, rfl⟩
    | str read => exact reads_map_widen.mpr ⟨_, read, rfl⟩
    | negative read => exact reads_map_widen.mpr ⟨_, read, rfl⟩
    | @positive c r rest n digit read =>
        have other (letter : Char) (plain : letter.isDigit = false) : c ≠ letter := by
          rintro rfl
          simp [plain] at digit
        unfold scalar
        dsimp only
        rw [if_neg (other 'n' rfl), if_neg (other 't' rfl), if_neg (other 'f' rfl),
          if_neg (other '"' rfl), if_neg (other '-' rfl), if_pos digit, reads_map]
        exact ⟨n, read, rfl⟩

theorem PlainValue.no_bracket {c : Char} {v : Value} (plain : PlainValue (c :: s) v rest) :
    c ≠ '[' ∧ c ≠ '{' := by
  cases plain with
  | null | yes | no | str | negative => decide
  | positive digit =>
      constructor <;>
      · rintro rfl
        exact absurd digit (by decide)

/-- `AnyValue inner s v rest`: at the front of `s` stands the value `v`; what is in its brackets is
read by `inner`. -/
inductive AnyValue (inner : Option (Reader Value)) (s : List Char) : Value → List Char → Prop
  | arr {r rest : List Char} {reader : Reader Value} {items : List Value} :
      skipBlanks s = '[' :: r → inner = some reader →
      Reads (Json.items listBrackets reader r) items rest → AnyValue inner s (.arr items) rest
  | obj {r rest : List Char} {reader : Reader Value} {members : List (String × Value)} :
      skipBlanks s = '{' :: r → inner = some reader →
      Reads (Json.items objectBrackets (member reader) r) members rest →
      AnyValue inner s (.obj members) rest
  | plain {v : Value} {rest : List Char} : PlainValue (skipBlanks s) v rest →
      AnyValue inner s v rest

theorem anyValue_of_reads {inner : Option (Reader Value)} {v : Value}
    (read : Reads (valueOver inner s) v rest) : AnyValue inner s v rest := by
  unfold valueOver at read
  split at read
  · exact absurd read not_reads_error
  · next c r eq =>
      dsimp only at read
      split at read
      · next list =>
          subst list
          split at read
          · exact absurd read not_reads_error
          · obtain ⟨_, inside, rfl⟩ := reads_map_widen.mp read
            exact .arr eq rfl inside
      split at read
      · next object =>
          subst object
          split at read
          · exact absurd read not_reads_error
          · obtain ⟨_, inside, rfl⟩ := reads_map_widen.mp read
            exact .obj eq rfl inside
      rw [reads_widen, reads_scalar_iff, ← eq] at read
      exact .plain read

theorem AnyValue.reads {inner : Option (Reader Value)} {v : Value}
    (any : AnyValue inner s v rest) : Reads (valueOver inner s) v rest := by
  unfold valueOver
  split
  · next none =>
      cases any with
      | arr eq | obj eq => simp [none] at eq
      | plain plain =>
          rw [none] at plain
          cases plain
  · next c r eq =>
      dsimp only
      cases any with
      | arr eq' inner read =>
          obtain ⟨rfl, rfl⟩ := List.cons.inj (eq.symm.trans eq')
          subst inner
          rw [if_pos rfl]
          exact reads_map_widen.mpr ⟨_, read, rfl⟩
      | obj eq' inner read =>
          obtain ⟨rfl, rfl⟩ := List.cons.inj (eq.symm.trans eq')
          subst inner
          rw [if_neg (by decide), if_pos rfl]
          exact reads_map_widen.mpr ⟨_, read, rfl⟩
      | plain plain =>
          -- the value begins with its own character, so neither bracket was tried for it
          rw [eq] at plain
          rw [if_neg plain.no_bracket.1, if_neg plain.no_bracket.2, reads_widen]
          exact reads_scalar_iff.mpr plain

theorem reads_valueOver_iff {inner : Option (Reader Value)} {v : Value} :
    Reads (valueOver inner s) v rest ↔ AnyValue inner s v rest :=
  ⟨anyValue_of_reads, AnyValue.reads⟩

/-! ## Whole texts -/

theorem document_eq_ok_iff {reader : Reader α} {text : String} :
    document reader text = .ok x ↔
      ∃ rest, Reads (reader text.toList) x rest ∧ skipBlanks rest = [] := by
  unfold document
  cases eq : reader text.toList with
  | error fault =>
      constructor
      · rintro ⟨⟩
      · rintro ⟨_, read, -⟩
        exact absurd read not_reads_error
  | ok p =>
      simp only [reads_ok, bind, Except.bind]
      split
      · next none =>
          constructor
          · rintro ⟨⟩
            exact ⟨p.rest, ⟨rfl, rfl⟩, none⟩
          · rintro ⟨_, ⟨rfl, -⟩, -⟩
            rfl
      · next some =>
          constructor
          · rintro ⟨⟩
          · rintro ⟨_, ⟨-, rfl⟩, none⟩
            exact absurd none some

/-! ## Comparing readers -/

/-- `reader` takes those values of `wider` that are images under `f`, and leaves the same. -/
def Embeds (reader : Reader α) (wider : Reader β) (f : α → β) : Prop :=
  ∀ s x rest, Reads (reader s) x rest ↔ Reads (wider s) (f x) rest

namespace Embeds

variable {reader : Reader α} {wider : Reader β} {f : α → β}

theorem member (embeds : Embeds reader wider f) :
    Embeds (member reader) (member wider) (Prod.map id f) := by
  intro s m rest
  rw [reads_member_iff, reads_member_iff]
  simp only [Prod.map_fst, Prod.map_snd, id_eq, embeds _ _ _]

theorem listed_iff (embeds : Embeds reader wider f) {brackets : Brackets} {xs : List α} :
    Listed brackets reader s xs rest ↔ Listed brackets wider s (xs.map f) rest := by
  constructor
  · intro listed
    induction listed with
    | last read close => exact .last ((embeds _ _ _).mp read) close
    | more read comma next differs _ ih =>
        exact .more ((embeds _ _ _).mp read) comma next differs ih
  · intro listed
    -- the induction is on what `wider` lists; its first item is the image of the first of `xs`
    generalize eq : xs.map f = ys at listed
    induction listed generalizing xs with
    | last read close =>
        obtain ⟨x, rfl, rfl⟩ := List.map_eq_singleton_iff.mp eq
        exact .last ((embeds _ _ _).mpr read) close
    | more read comma next differs _ ih =>
        obtain ⟨x, xs, rfl, rfl, rfl⟩ := List.map_eq_cons_iff.mp eq
        exact .more ((embeds _ _ _).mpr read) comma next differs (ih rfl)

theorem items (embeds : Embeds reader wider f) {brackets : Brackets}
    (apart : brackets.close ≠ ',') :
    Embeds (items brackets reader) (items brackets wider) (List.map f) := by
  intro s xs rest
  rw [reads_items_iff apart, reads_items_iff apart, List.map_eq_nil_iff]
  simp only [embeds.listed_iff]

theorem document_iff (embeds : Embeds reader wider f) {text : String} :
    document reader text = .ok x ↔ document wider text = .ok (f x) := by
  simp only [document_eq_ok_iff, embeds _ _ _]

end Embeds

end Stencil.Json
