/-
# `Decimal.Numerals` — numbers in decimal

Which texts are numbers is told here without writing any number.  A text is a numeral if it consists
of decimal digits and has no zero in front of others, and what it stands for is read off its digits;
an integer has a minus in front of the numeral of its size if it is less than zero.

* `numeral_iff` — for every number there is one numeral, the one that is written for it;
* `integerNumeral_iff` — and for every integer one text.
-/
import Mathlib.Data.List.Induction

namespace Stencil

/-! ## Numbers -/

/-- `Numeral i text`: the text is the number `i` in decimal, in ASCII digits alone, without a zero in
front of other digits. -/
structure Numeral (i : Nat) (text : String) : Prop where
  nonempty : text ≠ ""
  digits : ∀ c ∈ text.toList, c.isDigit
  front : text.toList.head? = some '0' → text = "0"
  value : Nat.ofDigitChars 10 text.toList 0 = i

theorem exists_digitChar {c : Char} (digit : c.isDigit) : ∃ d < 10, c = d.digitChar := by
  rw [Char.isDigit_iff_toNat] at digit
  obtain ⟨low, high⟩ := digit
  have zero : '0'.toNat = 48 := rfl
  have nine : '9'.toNat = 57 := rfl
  have written : ∀ d < 10, d.digitChar.toNat = 48 + d := by decide
  refine ⟨c.toNat - 48, by omega, Char.toNat_inj.mp ?_⟩
  rw [written _ (by omega)]
  omega

/-- Digits that begin with no zero are those that are written for what they stand for. -/
theorem toDigits_ofDigitChars {l : List Char} (digits : ∀ c ∈ l, c.isDigit) (nonempty : l ≠ [])
    (front : l.head? ≠ some '0') :
    0 < Nat.ofDigitChars 10 l 0 ∧ Nat.toDigits 10 (Nat.ofDigitChars 10 l 0) = l := by
  induction l using List.reverseRecOn with
  | nil => exact absurd rfl nonempty
  | append_singleton l c ih =>
      obtain ⟨d, small, rfl⟩ := exists_digitChar (digits c (by simp))
      rw [Nat.ofDigitChars_append, Nat.ofDigitChars_cons_digitChar_of_lt_ten small,
        Nat.ofDigitChars_nil]
      cases l with
      | nil =>
          have pos : 0 < d := by
            rw [Nat.pos_iff_ne_zero]
            rintro rfl
            exact front rfl
          rw [Nat.ofDigitChars_nil, Nat.mul_zero, Nat.zero_add]
          exact ⟨pos, Nat.toDigits_of_lt_base small⟩
      | cons first l =>
          obtain ⟨pos, eq⟩ := ih (fun c mem => digits c (List.mem_append_left _ mem))
            (List.cons_ne_nil first l) front
          refine ⟨by omega, ?_⟩
          rw [← Nat.toDigits_append_toDigits (by decide) pos small, eq,
            Nat.toDigits_of_lt_base small]

theorem eq_zero_of_head?_toDigits {i : Nat} (h : (Nat.toDigits 10 i).head? = some '0') :
    i = 0 := by
  induction i using Nat.strongRecOn with
  | ind i ih =>
      by_cases small : i < 10
      · rw [Nat.toDigits_of_lt_base small] at h
        exact Nat.digitChar_eq_zero.mp (Option.some.inj h)
      · have ten : 10 ≤ i := Nat.le_of_not_lt small
        obtain ⟨c, l, eq⟩ := List.exists_cons_of_ne_nil (Nat.toDigits_ne_nil (n := i / 10) (b := 10))
        rw [Nat.toDigits_of_base_le (by decide) ten, eq, List.cons_append, List.head?_cons] at h
        have tenth := ih (i / 10) (by omega) (by rw [eq, List.head?_cons, h])
        omega

/-- **For every number there is one numeral**, the one that is written for it. -/
theorem numeral_iff {i : Nat} {text : String} : Numeral i text ↔ text = toString i := by
  rw [Nat.toString_eq_ofList_toDigits]
  constructor
  · rintro ⟨nonempty, digits, front, rfl⟩
    by_cases zero : text.toList.head? = some '0'
    · rw [front zero]
      rfl
    · have eq := (toDigits_ofDigitChars digits (by simpa using nonempty) zero).2
      rw [eq, String.ofList_toList]
  · rintro rfl
    refine ⟨?_, ?_, ?_, ?_⟩
    · simp [Nat.toDigits_ne_nil]
    · intro c mem
      rw [String.toList_ofList] at mem
      exact Nat.isDigit_of_mem_toDigits (by decide) (by decide) mem
    · intro zero
      rw [String.toList_ofList] at zero
      rw [eq_zero_of_head?_toDigits zero]
      rfl
    · rw [String.toList_ofList]
      exact Nat.ofDigitChars_ten_toDigits

theorem Numeral.unique {i j : Nat} {text : String} (hi : Numeral i text) (hj : Numeral j text) :
    i = j :=
  hi.value.symm.trans hj.value

/-! ## Integers -/

/-- `IntegerNumeral i text`: the text is the integer `i` in decimal, without a zero in front of other
digits, without a plus, and with a minus only if the integer is less than zero. -/
inductive IntegerNumeral : Int → String → Prop
  | plain {n : Nat} {text : String} : Numeral n text → IntegerNumeral n text
  | minus {n : Nat} {text : String} : 0 < n → Numeral n text → IntegerNumeral (-n) ("-" ++ text)

theorem integerNumeral_iff {i : Int} {text : String} :
    IntegerNumeral i text ↔ text = toString i := by
  constructor
  · intro numeral
    cases numeral with
    | plain digits => exact numeral_iff.mp digits
    | @minus n text pos digits =>
        obtain ⟨m, rfl⟩ := Nat.exists_eq_succ_of_ne_zero (Nat.ne_of_gt pos)
        rw [numeral_iff.mp digits]
        rfl
  · rintro rfl
    cases i with
    | ofNat n => exact .plain (numeral_iff.mpr rfl)
    | negSucc m => exact .minus (Nat.succ_pos m) (numeral_iff.mpr rfl)

instance (i : Int) (text : String) : Decidable (IntegerNumeral i text) :=
  decidable_of_iff _ integerNumeral_iff.symm

end Stencil
