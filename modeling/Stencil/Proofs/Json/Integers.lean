/-
# `Json.Integers` — integers are read as they are written

Most numbers of a JSON text become floats, and a float is written in its own way.  The integers that
a word of 64 bits can hold, with a sign or without one, are kept as they are.  Two things could come
between the text of such an integer and the integer: that its digits do not fit the coefficient they
are gathered in, and that the number goes on after them, with a point or an exponent.

* `absorb_of_lt` — digits are gathered without loss as long as what they stand for fits;
* `IntegerNumeral.reads_value` — where a value may stand, the text of an integer is read as the
  integer, if what follows cannot belong to a number;
* `IntegerNumeral.eq_of_reads` — and if nothing but the text of an integer was taken for a value, the
  value is the integer.
-/
import Mathlib.Algebra.Group.Int.Defs
import Stencil.Proofs.Decimal.Numerals
import Stencil.Proofs.Json.Reads

namespace Stencil

namespace Json

/-- An integer that a word of 64 bits can hold, with a sign or without one. -/
def FitsWord (i : Int) : Prop :=
  -2 ^ 63 ≤ i ∧ i < 2 ^ 64

instance (i : Int) : Decidable (FitsWord i) :=
  inferInstanceAs (Decidable (_ ∧ _))

variable {s rest back mid : List Char}

/-! ## Digits -/

/-- Digits are gathered without loss as long as what they stand for fits. -/
theorem absorb_of_lt {ds : List Char} {c : Nat}
    (fits : Nat.ofDigitChars 10 ds c < 0x10000000000000000) :
    absorb c ds = (Nat.ofDigitChars 10 ds c, []) := by
  induction ds generalizing c with
  | nil => rfl
  | cons d ds ih =>
      have next : 10 * c + (d.toNat - '0'.toNat) = c * 10 + digitValue d := by
        rw [Nat.mul_comm]
        rfl
      rw [Nat.ofDigitChars_cons, next] at fits ⊢
      -- what was gathered is never more than what the digits stand for in the end
      have small : c * 10 + digitValue d < 0x10000000000000000 := by
        rw [Nat.ofDigitChars_eq_ofDigitChars_zero] at fits
        have positive : 0 < 10 ^ ds.length := Nat.pow_pos (by decide)
        have := Nat.le_mul_of_pos_left (c * 10 + digitValue d) positive
        omega
      rw [absorb]
      simp only [if_pos small]
      exact ih fits

theorem number_plain {n : Nat} {text : String} (digits : Stencil.Numeral n text)
    (fits : n < 0x10000000000000000) :
    (⟨false, text.toList, none, none⟩ : Numeral).number rest = .ok (.int n) := by
  have gathered := absorb_of_lt (digits.value.symm ▸ fits)
  rw [digits.value] at gathered
  rw [Numeral.number, Numeral.integer?, gathered]
  rfl

theorem number_minus {n : Nat} {text : String} (digits : Stencil.Numeral n text) (pos : 0 < n)
    (fits : n ≤ 0x8000000000000000) :
    (⟨true, text.toList, none, none⟩ : Numeral).number rest = .ok (.int (-n)) := by
  have small : n < 0x10000000000000000 := by omega
  have gathered := absorb_of_lt (digits.value.symm ▸ small)
  rw [digits.value] at gathered
  rw [Numeral.number, Numeral.integer?, gathered]
  simp [pos, fits]

/-! ## Parts of a numeral -/

/-- What follows a numeral cannot belong to it. -/
def Ends (rest : List Char) : Prop :=
  ∀ c ∈ rest.head?, ¬ c.isDigit ∧ c ≠ '.' ∧ c ≠ 'e' ∧ c ≠ 'E'

theorem ends_cons_iff {c : Char} :
    Ends (c :: rest) ↔ ¬ c.isDigit ∧ c ≠ '.' ∧ c ≠ 'e' ∧ c ≠ 'E' := by
  simp [Ends]

/-- `WholeDigits ds`: a zero alone, or digits that begin with none. -/
inductive WholeDigits : List Char → Prop
  | zero : WholeDigits ['0']
  | other {d : Char} {ds : List Char} : d ≠ '0' → (∀ c ∈ d :: ds, c.isDigit) → WholeDigits (d :: ds)

theorem WholeDigits.of_numeral {n : Nat} {text : String} (numeral : Stencil.Numeral n text) :
    WholeDigits text.toList := by
  obtain ⟨d, ds, eq⟩ := List.exists_cons_of_ne_nil (mt String.toList_eq_nil_iff.mp numeral.nonempty)
  by_cases zero : d = '0'
  · subst zero
    rw [numeral.front (by rw [eq]; rfl)]
    exact .zero
  · rw [eq]
    exact .other zero (eq ▸ numeral.digits)

theorem WholeDigits.exists_digit {ds : List Char} (whole : WholeDigits ds) :
    ∃ d l, ds = d :: l ∧ d.isDigit := by
  cases whole with
  | zero => exact ⟨'0', [], rfl, rfl⟩
  | other _ digits => exact ⟨_, _, rfl, digits _ List.mem_cons_self⟩

theorem wholePart_of_ne {d : Char} (other : d ≠ '0') (s : List Char) :
    wholePart (d :: s) = someDigits (d :: s) := by
  rw [wholePart]
  intro c r eq
  exact other (List.cons.inj eq).1

theorem reads_someDigits_iff {d : Char} {ds w : List Char} (digits : ∀ c ∈ d :: ds, c.isDigit) :
    Reads (someDigits (d :: ds ++ back)) w mid ↔
      d :: ds ++ back.takeWhile Char.isDigit = w ∧ back.dropWhile Char.isDigit = mid := by
  rw [List.cons_append, someDigits, if_pos (digits d List.mem_cons_self), Json.digits, reads_ok,
    ← List.cons_append]
  simp only [List.takeWhile_append_of_pos digits, List.dropWhile_append_of_pos digits]

section

variable {ds w : List Char}

theorem reads_wholePart (whole : WholeDigits ds) (stop : ∀ c ∈ back.head?, ¬ c.isDigit) :
    Reads (wholePart (ds ++ back)) ds back := by
  cases whole with
  | zero =>
      cases back with
      | nil => exact reads_ok.mpr ⟨rfl, rfl⟩
      | cons c r =>
          show Reads (if c.isDigit then _ else _) _ _
          rw [if_neg (stop c rfl)]
          exact reads_ok.mpr ⟨rfl, rfl⟩
  | @other d ds differs digits =>
      have none : back.takeWhile Char.isDigit = [] ∧ back.dropWhile Char.isDigit = back := by
        cases back with
        | nil => exact ⟨rfl, rfl⟩
        | cons c r =>
            exact ⟨List.takeWhile_cons_of_neg (stop c rfl), List.dropWhile_cons_of_neg (stop c rfl)⟩
      rw [List.cons_append, wholePart_of_ne differs, ← List.cons_append,
        reads_someDigits_iff digits, none.1, List.append_nil]
      exact ⟨rfl, none.2⟩

theorem length_lt_of_wholePart {c : Char} (whole : WholeDigits ds) (digit : c.isDigit)
    (read : Reads (wholePart (ds ++ c :: back)) w mid) : mid.length < (c :: back).length := by
  cases whole with
  | zero =>
      have refused : wholePart (['0'] ++ c :: back) = .error (.next .invalidNumber (c :: back)) :=
        if_pos digit
      rw [refused] at read
      exact absurd read not_reads_error
  | @other d ds differs digits =>
      rw [List.cons_append, wholePart_of_ne differs, ← List.cons_append,
        reads_someDigits_iff digits, List.dropWhile_cons_of_pos digit] at read
      rw [← read.2]
      exact Nat.lt_succ_of_le (List.dropWhile_sublist _).length_le

end

theorem reads_fractionPart (stop : back.head? ≠ some '.') :
    Reads (fractionPart back) none back := by
  unfold fractionPart
  split
  · exact absurd rfl stop
  · exact reads_ok.mpr ⟨rfl, rfl⟩

theorem length_lt_of_fractionPart {fraction : Option (List Char)}
    (read : Reads (fractionPart ('.' :: back)) fraction mid) :
    mid.length < ('.' :: back).length := by
  rw [fractionPart, reads_map_widen] at read
  obtain ⟨_, ⟨p, -, -, rfl⟩, -⟩ := read
  exact Nat.lt_succ_of_le p.rest_le

theorem reads_exponentPart (small : back.head? ≠ some 'e') (large : back.head? ≠ some 'E') :
    Reads (exponentPart back) none back := by
  unfold exponentPart
  split
  · exact absurd rfl small
  · exact absurd rfl large
  · exact reads_ok.mpr ⟨rfl, rfl⟩

theorem length_lt_of_exponentPart {c : Char} {exponent : Option (Bool × List Char)}
    (letter : c = 'e' ∨ c = 'E') (read : Reads (exponentPart (c :: back)) exponent mid) :
    mid.length < (c :: back).length := by
  rcases letter with rfl | rfl <;>
  · rw [exponentPart, reads_map_widen] at read
    obtain ⟨_, ⟨p, -, -, rfl⟩, -⟩ := read
    exact Nat.lt_succ_of_le p.rest_le

/-! ## Numerals of integers -/

section

variable {negative : Bool} {ds : List Char}

theorem reads_numeral (whole : WholeDigits ds) (ends : Ends rest) :
    Reads (numeral negative (ds ++ rest)) ⟨negative, ds, none, none⟩ rest := by
  have noPoint : rest.head? ≠ some '.' := fun head => (ends '.' head).2.1 rfl
  have noSmall : rest.head? ≠ some 'e' := fun head => (ends 'e' head).2.2.1 rfl
  have noLarge : rest.head? ≠ some 'E' := fun head => (ends 'E' head).2.2.2 rfl
  exact reads_numeral_iff.mpr ⟨ds, rest, none, rest, none,
    reads_wholePart whole fun c head => (ends c head).1, reads_fractionPart noPoint,
    reads_exponentPart noSmall noLarge, rfl⟩

theorem eq_of_reads_numeral {n : Numeral} (whole : WholeDigits ds)
    (read : Reads (numeral negative (ds ++ rest)) n rest) : n = ⟨negative, ds, none, none⟩ := by
  obtain ⟨w, mid, fraction, mid', exponent, readWhole, readFraction, readExponent, rfl⟩ :=
    reads_numeral_iff.mp read
  have le := readExponent.rest_le
  have le' := readFraction.rest_le
  have stop : ∀ c ∈ rest.head?, ¬ c.isDigit := by
    intro c head digit
    obtain ⟨b, rfl⟩ := List.head?_eq_some_iff.mp head
    have := length_lt_of_wholePart whole digit readWhole
    omega
  obtain ⟨rfl, rfl⟩ := readWhole.unique (reads_wholePart whole stop)
  have noPoint : mid.head? ≠ some '.' := by
    intro head
    obtain ⟨b, rfl⟩ := List.head?_eq_some_iff.mp head
    have := length_lt_of_fractionPart readFraction
    omega
  obtain ⟨rfl, rfl⟩ := readFraction.unique (reads_fractionPart noPoint)
  have noLetter (c : Char) (letter : c = 'e' ∨ c = 'E') : mid'.head? ≠ some c := by
    intro head
    obtain ⟨b, rfl⟩ := List.head?_eq_some_iff.mp head
    have := length_lt_of_exponentPart letter readExponent
    omega
  obtain ⟨rfl, -⟩ := readExponent.unique
    (reads_exponentPart (noLetter 'e' (.inl rfl)) (noLetter 'E' (.inr rfl)))
  rfl

end

/-! ## Values -/

/-- The sign of a numeral, as it stands in front of the digits. -/
def sign (negative : Bool) : List Char :=
  if negative then ['-'] else []

theorem plainValue_signed_iff {negative : Bool} {ds : List Char} {v : Value}
    (whole : WholeDigits ds) :
    PlainValue (sign negative ++ (ds ++ back)) v rest ↔
      ∃ n, v = .num n ∧ Reads (number negative (ds ++ back)) n rest := by
  obtain ⟨d, l, rfl, digit⟩ := whole.exists_digit
  cases negative with
  | true =>
      constructor
      · intro plain
        cases plain with
        | negative read => exact ⟨_, rfl, read⟩
        | positive minus => exact absurd minus (by decide)
      · rintro ⟨n, rfl, read⟩
        exact .negative read
  | false =>
      constructor
      · intro plain
        generalize eq : sign false ++ (d :: l ++ back) = front at plain
        have head : front = d :: (l ++ back) := eq.symm
        cases plain with
        | positive _ read =>
            rw [head] at read
            exact ⟨_, rfl, read⟩
        | null | yes | no | str | negative =>
            rw [← (List.cons.inj head).1] at digit
            exact absurd digit (by decide)
      · rintro ⟨n, rfl, read⟩
        exact .positive digit read

theorem reads_signed_iff {negative : Bool} {ds : List Char} {inner : Option (Reader Value)}
    {v : Value} (whole : WholeDigits ds) (front : skipBlanks s = sign negative ++ (ds ++ back)) :
    Reads (valueOver inner s) v rest ↔
      ∃ n, v = .num n ∧ Reads (number negative (ds ++ back)) n rest := by
  rw [reads_valueOver_iff, ← plainValue_signed_iff whole, ← front]
  constructor
  · intro any
    have head (c : Char) (r : List Char) (bracket : c.isDigit = false ∧ c ≠ '-') :
        skipBlanks s ≠ c :: r := by
      rw [front]
      obtain ⟨d, l, rfl, digit⟩ := whole.exists_digit
      cases negative with
      | true => exact fun eq => bracket.2 (List.cons.inj eq).1.symm
      | false =>
          intro eq
          rw [(List.cons.inj eq).1, bracket.1] at digit
          exact Bool.false_ne_true digit
    cases any with
    | arr eq => exact absurd eq (head '[' _ (by decide))
    | obj eq => exact absurd eq (head '{' _ (by decide))
    | plain plain => exact plain
  · exact .plain

theorem exists_value_eq (depth : Nat) : ∃ inner, value depth = valueOver inner := by
  cases depth with
  | zero => exact ⟨none, rfl⟩
  | succ depth => exact ⟨some (value depth), rfl⟩

end Json

namespace IntegerNumeral

open Json

variable {i : Int} {text : String} {depth : Nat} {s rest : List Char}

theorem exists_parts (numeral : IntegerNumeral i text) (fits : FitsWord i) :
    ∃ negative ds, text.toList = sign negative ++ ds ∧ WholeDigits ds ∧
      ∀ rest, (⟨negative, ds, none, none⟩ : Json.Numeral).number rest = .ok (.int i) := by
  obtain ⟨low, high⟩ := fits
  cases numeral with
  | @plain n text digits =>
      exact ⟨false, text.toList, rfl, .of_numeral digits, fun _ => number_plain digits (by omega)⟩
  | @minus n text pos digits =>
      have split : ("-" ++ text).toList = sign true ++ text.toList := by
        rw [String.toList_append]
        rfl
      exact ⟨true, text.toList, split, .of_numeral digits,
        fun _ => number_minus digits pos (by omega)⟩

/-- **The text of an integer is read as the integer** where a value may stand, if what follows cannot
belong to a number. -/
theorem reads_value (numeral : IntegerNumeral i text) (fits : FitsWord i)
    (front : skipBlanks s = text.toList ++ rest) (ends : Ends rest) :
    Reads (value depth s) (.num (.int i)) rest := by
  obtain ⟨inner, level⟩ := exists_value_eq depth
  obtain ⟨negative, ds, eq, whole, denotes⟩ := numeral.exists_parts fits
  rw [eq, List.append_assoc] at front
  rw [level, reads_signed_iff whole front]
  exact ⟨_, rfl, reads_number_iff.mpr ⟨_, reads_numeral whole ends, denotes rest⟩⟩

theorem eq_of_reads {v : Value} (numeral : IntegerNumeral i text) (fits : FitsWord i)
    (read : Reads (value depth s) v rest) (front : skipBlanks s = text.toList ++ rest) :
    v = .num (.int i) := by
  obtain ⟨inner, level⟩ := exists_value_eq depth
  obtain ⟨negative, ds, eq, whole, denotes⟩ := numeral.exists_parts fits
  rw [eq, List.append_assoc] at front
  rw [level] at read
  obtain ⟨number, rfl, taken⟩ := (reads_signed_iff whole front).mp read
  obtain ⟨found, taken, found_denotes⟩ := reads_number_iff.mp taken
  rw [eq_of_reads_numeral whole taken, denotes] at found_denotes
  rw [Except.ok.inj found_denotes]

end IntegerNumeral

end Stencil
