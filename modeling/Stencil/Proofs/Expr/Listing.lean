/-
# `Expr.Listing` — a listing can be read in one way only

Expressions are listed one to a line, the text that an expression carries between double quotes.  The
text may be anything: a double quote and a parenthesis, a line feed, something that looks like an
escape or like the next line of the listing.  Still no two lists have the same listing, and it does
not matter for this which characters are hidden.

The reason is in the single characters.  What a character is written as can be told from what follows
it (`quoteChar_append_inj`), because the first characters say how far to read:

    `\u{`          up to the next `}`
    `\` another    these two
    another        this one

and a double quote, which begins none of them, ends the text.  No form has a line feed in it, so the
lines of a listing are the expressions.

* `quoted_append_inj` — a quoted text is told from what follows it;
* `displayWith_injective`, `splitOn_listingWith` — an expression from its line, the lines from a
  listing;
* `listing_injective` — and the expressions from a listing.
-/
import Stencil.Command.Run
import Stencil.Proofs.Text.Delimiter

namespace Stencil

namespace Text

/-! ## Hexadecimal digits -/

theorem digitChar_inj {m n : Nat} (hm : m < 16) (hn : n < 16) (h : m.digitChar = n.digitChar) :
    m = n := by
  have all : ∀ m < 16, ∀ n < 16, m.digitChar = n.digitChar → m = n := by decide
  exact all m hm n hn h

/-- A number of one digit is not written as one of several. -/
theorem toDigits_ne {m n : Nat} (hm : m < 16) (hn : 16 ≤ n) :
    Nat.toDigits 16 m ≠ Nat.toDigits 16 n := by
  intro h
  have lengths := congrArg List.length h
  have pos := Nat.length_toDigits_pos (b := 16) (n := n / 16)
  rw [Nat.toDigits_of_lt_base hm, Nat.toDigits_of_base_le (by decide) hn, List.length_append,
    List.length_singleton, List.length_singleton] at lengths
  omega

theorem toDigits_inj {m n : Nat} (h : Nat.toDigits 16 m = Nat.toDigits 16 n) : m = n := by
  induction m using Nat.strongRecOn generalizing n with
  | ind m ih =>
      rcases Nat.lt_or_ge m 16 with hm | hm <;> rcases Nat.lt_or_ge n 16 with hn | hn
      · rw [Nat.toDigits_of_lt_base hm, Nat.toDigits_of_lt_base hn] at h
        exact digitChar_inj hm hn (List.cons.inj h).1
      · exact absurd h (toDigits_ne hm hn)
      · exact absurd h.symm (toDigits_ne hn hm)
      · rw [Nat.toDigits_of_base_le (by decide) hm, Nat.toDigits_of_base_le (by decide) hn] at h
        obtain ⟨front, last⟩ := List.append_inj' h rfl
        have high := ih (m / 16) (by omega) front
        have low := digitChar_inj (Nat.mod_lt m (by decide)) (Nat.mod_lt n (by decide))
          (List.cons.inj last).1
        omega

theorem not_mem_toDigits {c : Char} (other : ∀ d < 16, d.digitChar ≠ c) (n : Nat) :
    c ∉ Nat.toDigits 16 n := by
  induction n using Nat.strongRecOn with
  | ind n ih =>
      by_cases small : n < 16
      · rw [Nat.toDigits_of_lt_base small, List.mem_singleton]
        exact (other n small).symm
      · rw [Nat.toDigits_of_base_le (by decide) (Nat.le_of_not_lt small), List.mem_append,
          List.mem_singleton]
        rintro (front | last)
        · exact ih (n / 16) (by omega) front
        · exact other (n % 16) (Nat.mod_lt n (by decide)) last.symm

/-! ## Single characters -/

/-- The character that a backslash and a letter stand for. -/
def shortEscape? : Char → Option Char
  | '0' => some '\x00'
  | 't' => some '\t'
  | 'r' => some '\r'
  | 'n' => some '\n'
  | '"' => some '"'
  | '\\' => some '\\'
  | _ => none

section Characters

variable {hidden : Char → Bool} {c d : Char} {r r' : List Char}

theorem quoteChar_cases (hidden : Char → Bool) (c : Char) :
    (∃ letter, shortEscape? letter = some c ∧ quoteChar hidden c = ['\\', letter]) ∨
      quoteChar hidden c = numericEscape c ∨
      (c ≠ '"' ∧ c ≠ '\\' ∧ c ≠ '\n' ∧ quoteChar hidden c = [c]) := by
  unfold quoteChar
  split
  case h_7 line quote slash =>
      right
      split
      · exact .inl rfl
      · exact .inr ⟨quote, slash, line, rfl⟩
  all_goals exact .inl ⟨_, rfl, rfl⟩

theorem numericEscape_append (c : Char) (r : List Char) :
    numericEscape c ++ r = '\\' :: 'u' :: '{' :: (Nat.toDigits 16 c.toNat ++ '}' :: r) := by
  simp [numericEscape]

theorem numericEscape_append_inj (h : numericEscape c ++ r = numericEscape d ++ r') :
    c = d ∧ r = r' := by
  have none (c : Char) : '}' ∉ Nat.toDigits 16 c.toNat := not_mem_toDigits (by decide) _
  rw [numericEscape_append, numericEscape_append] at h
  have tails := (List.cons.inj (List.cons.inj (List.cons.inj h).2).2).2
  have digits := congrArg (List.takeWhile (· != '}')) tails
  rw [takeWhile_front (none c), takeWhile_front (none d)] at digits
  rw [digits] at tails
  exact ⟨Char.toNat_inj.mp (toDigits_inj digits),
    (List.cons.inj (List.append_cancel_left tails)).2⟩

/-- **What a character is written as can be told from what follows it**, and tells the character. -/
theorem quoteChar_append_inj (h : quoteChar hidden c ++ r = quoteChar hidden d ++ r') :
    c = d ∧ r = r' := by
  rcases quoteChar_cases hidden c with ⟨letter, short, eq⟩ | eq | ⟨-, slash, -, eq⟩ <;>
    rcases quoteChar_cases hidden d with ⟨letter', short', eq'⟩ | eq' | ⟨-, slash', -, eq'⟩ <;>
    rw [eq, eq'] at h
  · obtain ⟨rfl, rfl⟩ := List.cons.inj (List.cons.inj h).2
    exact ⟨Option.some.inj (short.symm.trans short'), rfl⟩
  · -- the letter of an escape of two characters is no `u`
    rw [numericEscape_append] at h
    obtain ⟨rfl, -⟩ := List.cons.inj (List.cons.inj h).2
    exact nomatch short
  · obtain ⟨rfl, -⟩ := List.cons.inj h
    exact absurd rfl slash'
  · rw [numericEscape_append] at h
    obtain ⟨rfl, -⟩ := List.cons.inj (List.cons.inj h).2
    exact nomatch short'
  · exact numericEscape_append_inj h
  · rw [numericEscape_append] at h
    obtain ⟨rfl, -⟩ := List.cons.inj h
    exact absurd rfl slash'
  · obtain ⟨rfl, -⟩ := List.cons.inj h
    exact absurd rfl slash
  · rw [numericEscape_append] at h
    obtain ⟨rfl, -⟩ := List.cons.inj h
    exact absurd rfl slash
  · exact List.cons.inj h

theorem quoteChar_append_ne (hidden : Char → Bool) (c : Char) (r r' : List Char) :
    quoteChar hidden c ++ r ≠ '"' :: r' := by
  intro h
  rcases quoteChar_cases hidden c with ⟨letter, -, eq⟩ | eq | ⟨quote, -, -, eq⟩ <;> rw [eq] at h
  · exact absurd (List.cons.inj h).1 (by decide)
  · rw [numericEscape_append] at h
    exact absurd (List.cons.inj h).1 (by decide)
  · obtain ⟨rfl, -⟩ := List.cons.inj h
    exact quote rfl

theorem newline_not_mem_quoteChar (hidden : Char → Bool) (c : Char) :
    '\n' ∉ quoteChar hidden c := by
  rcases quoteChar_cases hidden c with ⟨letter, short, eq⟩ | eq | ⟨-, -, line, eq⟩ <;> rw [eq]
  · have letter_ne : '\n' ≠ letter := by
      rintro rfl
      exact nomatch short
    simp [letter_ne]
  · have digits : '\n' ∉ Nat.toDigits 16 c.toNat := not_mem_toDigits (by decide) _
    simp [numericEscape, digits]
  · rw [List.mem_singleton]
    exact line.symm

end Characters

/-! ## Texts -/

variable {hidden : Char → Bool}

/-- **A quoted text is told from what follows it**, and tells the text. -/
theorem quoted_append_inj {s t r r' : List Char} (h : s.flatMap (quoteChar hidden) ++ '"' :: r =
    t.flatMap (quoteChar hidden) ++ '"' :: r') : s = t ∧ r = r' := by
  induction s generalizing t with
  | nil =>
      cases t with
      | nil => exact ⟨rfl, (List.cons.inj h).2⟩
      | cons d t =>
          rw [List.flatMap_cons, List.append_assoc] at h
          exact absurd h.symm (quoteChar_append_ne hidden d _ _)
  | cons c s ih =>
      cases t with
      | nil =>
          rw [List.flatMap_cons, List.append_assoc] at h
          exact absurd h (quoteChar_append_ne hidden c _ _)
      | cons d t =>
          rw [List.flatMap_cons, List.flatMap_cons, List.append_assoc, List.append_assoc] at h
          obtain ⟨rfl, rest⟩ := quoteChar_append_inj h
          obtain ⟨rfl, rfl⟩ := ih rest
          exact ⟨rfl, rfl⟩

theorem quoteWith_injective (hidden : Char → Bool) : Function.Injective (quoteWith hidden) := by
  intro s t h
  rw [quoteWith, quoteWith, String.ofList_inj] at h
  exact String.toList_inj.mp (quoted_append_inj (List.cons.inj h).2).1

theorem newline_not_mem_quoteWith (hidden : Char → Bool) (s : String) :
    '\n' ∉ (quoteWith hidden s).toList := by
  simp [quoteWith, newline_not_mem_quoteChar]

end Text

namespace Expr

/-! ## Lines -/

section Display

variable (hidden : Char → Bool)

theorem toList_displayWith (e : Expr) : (e.displayWith hidden).toList =
    e.label.toList ++ '(' :: ((Text.quoteWith hidden e.value).toList ++ [')']) := by
  simp [displayWith]

theorem not_mem_label {c : Char}
    (other : ∀ label ∈ ["Literal", "Variable", "Comment"], c ∉ label.toList) (e : Expr) :
    c ∉ e.label.toList := by
  refine other e.label ?_
  cases e <;> simp [label]

theorem eq_of_label_of_value {e e' : Expr} (labels : e.label = e'.label)
    (values : e.value = e'.value) : e = e' := by
  cases e with
  | literal text =>
      cases e' with
      | literal => exact congrArg literal values
      | var | comment => simp [label] at labels
  | var key =>
      cases e' with
      | var => exact congrArg var values
      | literal | comment => simp [label] at labels
  | comment note =>
      cases e' with
      | comment => exact congrArg comment values
      | literal | var => simp [label] at labels

/-- **An expression can be told from its line.** -/
theorem displayWith_injective : Function.Injective (displayWith hidden) := by
  intro e e' h
  have none := not_mem_label (c := '(') (by decide)
  have lists := congrArg String.toList h
  rw [toList_displayWith, toList_displayWith] at lists
  have labels := congrArg (List.takeWhile (· != '(')) lists
  rw [takeWhile_front (none e), takeWhile_front (none e')] at labels
  rw [labels] at lists
  have quoted := List.append_cancel_right (List.cons.inj (List.append_cancel_left lists)).2
  exact eq_of_label_of_value (String.toList_inj.mp labels)
    (Text.quoteWith_injective hidden (String.toList_inj.mp quoted))

theorem newline_not_mem_displayWith (e : Expr) : '\n' ∉ (e.displayWith hidden).toList := by
  have label := not_mem_label (c := '\n') (by decide) e
  simp [toList_displayWith, label, Text.newline_not_mem_quoteWith]

/-! ## Listings -/

/-- The listing of several expressions, with `hidden` telling which characters are written by
number. -/
def listingWith (exprs : List Expr) : String :=
  String.join (exprs.map fun e => e.displayWith hidden ++ "\n")

theorem toList_listingWith_cons (e : Expr) (exprs : List Expr) :
    (listingWith hidden (e :: exprs)).toList =
      (e.displayWith hidden).toList ++ '\n' :: (listingWith hidden exprs).toList := by
  simp [listingWith]

theorem splitOn_listingWith (exprs : List Expr) :
    (listingWith hidden exprs).toList.splitOn '\n' =
      exprs.map (fun e => (e.displayWith hidden).toList) ++ [[]] := by
  induction exprs with
  | nil => rfl
  | cons e exprs ih =>
      rw [toList_listingWith_cons,
        List.splitOn_append_cons_self_of_not_mem (newline_not_mem_displayWith hidden e), ih]
      rfl

theorem count_newline_listingWith (exprs : List Expr) :
    (listingWith hidden exprs).toList.count '\n' = exprs.length := by
  induction exprs with
  | nil => rfl
  | cons e exprs ih =>
      have none := List.count_eq_zero.mpr (newline_not_mem_displayWith hidden e)
      rw [toList_listingWith_cons, List.count_append, List.count_cons_self, none, ih,
        List.length_cons, Nat.zero_add]

end Display

/-- **A listing can be read in one way only**, whichever characters are hidden: it is the listing of
one list of expressions, and has a line for each of them.  It is what the command gives for a source
when it is asked for a dump. -/
theorem listing_injective (hidden : Char → Bool) :
    (∀ exprs others, listingWith hidden exprs = listingWith hidden others → exprs = others) ∧
      (∀ e, '\n' ∉ (displayWith hidden e).toList) ∧
      (∀ exprs, (listingWith hidden exprs).toList.count '\n' = exprs.length ∧
        (listingWith hidden exprs).toList.splitOn '\n' =
          exprs.map (fun e => (e.displayWith hidden).toList) ++ [[]]) ∧
      listing = listingWith Text.isHidden ∧
      ∀ source, (Command.listed source).text = listing (compile source) := by
  refine ⟨?_, newline_not_mem_displayWith hidden, fun exprs => ?_, rfl, fun source => rfl⟩
  · intro exprs others h
    have lines := congrArg (fun text => text.toList.splitOn '\n') h
    simp only [splitOn_listingWith] at lines
    refine (List.map_inj_right fun e e' eq => ?_).mp (List.append_cancel_right lines)
    exact displayWith_injective hidden (String.toList_inj.mp eq)
  · exact ⟨count_newline_listingWith hidden exprs, splitOn_listingWith hidden exprs⟩

end Expr

end Stencil
