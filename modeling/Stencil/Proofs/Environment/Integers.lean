/-
# `Environment.Integers` — integers keep their text

The value of a member may be a number.  It is read, kept as an integer or as a float, and printed
again before a name is bound to it; what is printed of a float may be another text than it was read
from.  The integers that a word can hold keep their text, up to both ends of the range, and a
placeholder shows it.

Two lists stand side by side, the members with the texts of their values and the members as they are
read.  The last member of a name is at the same place in both (`rel_lastOf`), so what is known of the
last text of a name is known of the value that the name holds.

* `objectText_integer` — the text of an integer may stand as the value of any name;
* `ofJson_integer` — if no name holds brackets in the end, a text is read, and every name whose last
  text is that of an integer is bound to it;
* `ofJson_integer_shadowed` — the least integer, in a text that gave its name a list before.
-/
import Stencil.Proofs.Environment.RoundTrip
import Stencil.Proofs.Evaluation.Positional
import Stencil.Proofs.Json.Members

namespace Stencil

open Json

variable {i : Int} {digits key : String} {rest : List Char}

/-! ## Texts with integers -/

theorem isBlank_of_isDigit {c : Char} (digit : c.isDigit) : isBlank c = false := by
  by_contra blank
  simp only [isBlank, Bool.or_eq_true, beq_iff_eq, Bool.not_eq_false] at blank
  rcases blank with ((rfl | rfl) | rfl) | rfl <;> exact absurd digit (by decide)

theorem IntegerNumeral.skipBlanks_append (numeral : IntegerNumeral i digits) (fits : FitsWord i)
    (rest : List Char) : skipBlanks (digits.toList ++ rest) = digits.toList ++ rest := by
  obtain ⟨negative, ds, eq, whole, -⟩ := numeral.exists_parts fits
  obtain ⟨d, l, rfl, digit⟩ := whole.exists_digit
  rw [eq]
  cases negative with
  | true => exact skipBlanks_cons rfl _
  | false => exact skipBlanks_cons (isBlank_of_isDigit digit) _

theorem reads_spelledMember {written : String} {v : Value} (key : String)
    (read : Reads (value innerDepth (written.toList ++ rest)) v rest)
    (visible : skipBlanks (written.toList ++ rest) = written.toList ++ rest) :
    Reads (member (spelling (value innerDepth))
      (writeString key ++ ':' :: (written.toList ++ rest))) (key, written) rest := by
  rw [writeString_append, reads_member_iff]
  exact ⟨_, _, _, rfl, reads_written key _, skipBlanks_cons rfl _,
    reads_spelling_iff.mpr ⟨v, read, visible⟩⟩

theorem reads_integerMember (numeral : IntegerNumeral i digits) (fits : FitsWord i) (key : String)
    (ends : Ends rest) :
    Reads (member (spelling (value innerDepth))
      (writeString key ++ ':' :: (digits.toList ++ rest))) (key, digits) rest := by
  have visible := numeral.skipBlanks_append fits rest
  exact reads_spelledMember key (numeral.reads_value fits visible ends) visible

theorem objectText_integer (numeral : IntegerNumeral i digits) (fits : FitsWord i) (key : String) :
    ObjectText (String.ofList ('{' :: (writeString key ++ ':' :: (digits.toList ++ ['}']))))
      [(key, digits)] := by
  have ends : Ends ['}'] := ends_cons_iff.mpr (by decide)
  have member := reads_integerMember numeral fits key ends
  refine ⟨writeString key ++ ':' :: (digits.toList ++ ['}']), [], ?_,
    (reads_items_iff objectBrackets_apart).mpr (.inr ?_), rfl⟩
  · rw [String.toList_ofList]
    exact skipBlanks_cons rfl _
  · rw [writeString_append] at member ⊢
    exact ⟨'"', _, skipBlanks_cons rfl _, by decide, .last member (skipBlanks_cons rfl _)⟩

/-! ## Placeholders -/

/-- A placeholder behind a clean end shows what its key is bound to. -/
theorem evaluate_placeholder {front : String} (clean : Scanner.EndsClean front)
    (noBrace : '}' ∉ key.toList) (back : String) (env : Environment) :
    evaluate (compile (front ++ "$\x7b" ++ key ++ "\x7d" ++ back)) env =
      evaluate (compile front) env ++ (env.get? key).getD "" ++ evaluate (compile back) env := by
  have split := compile_closed clean .var noBrace back
  rw [Markup.kept_var] at split
  have text := congrArg (evaluate · env) split
  rw [evaluate_append, evaluate_cons, ← String.append_assoc] at text
  exact text

namespace Environment

/-! ## What the texts of the members tell -/

section

variable {members : List (String × String)} {values : List (String × Value)}
  (all : List.Forall₂ (SameKey fun written v => WrittenAs innerDepth v written) members values)

include all

theorem nestedNames_eq_empty
    (flat : ∀ name written, lastOf members name = some written → ¬ Bracketed written) :
    nestedNames values = ∅ := by
  refine Set.eq_empty_of_forall_notMem ?_
  rintro name ⟨v, last, nested⟩
  have rel := rel_lastOf all name
  rw [last] at rel
  generalize eq : lastOf members name = held at rel
  cases rel with
  | some writtenAs => exact flat name _ eq ((bracketed_iff writtenAs).mpr nested)

theorem lastOf_eq_integer (numeral : IntegerNumeral i digits) (fits : FitsWord i)
    (last : lastOf members key = some digits) : lastOf values key = some (.num (.int i)) := by
  have rel := rel_lastOf all key
  rw [last] at rel
  generalize lastOf values key = held at rel ⊢
  cases rel with
  | some writtenAs => rw [numeral.eq_of_writtenAs fits writtenAs]

end

theorem exists_ofValue {values : List (String × Value)} (none : nestedNames values = ∅) :
    ∃ env, ofValue (.obj values) = .ok env ∧ ∀ key text, env.get? key = some text ↔
      ∃ v, lastOf values key = some v ∧ v.Spells text := by
  have reading := reading_ofValue (.obj values)
  generalize ofValue (.obj values) = result at reading
  cases reading with
  | notAnObject shape => exact absurd rfl (shape values)
  | notAText least => exact absurd least.1 (none ▸ Set.notMem_empty _)
  | bound _ binds => exact ⟨_, rfl, binds⟩

/-- **Integers keep their text.**  The text of an object, which `ObjectText` tells from texts that
cannot be read, is read if no name holds brackets in the end.  A key whose last value there is the
text of an integer that fits a word is bound to this text, and placeholders of the key show it. -/
theorem ofJson_integer {text : String} {members : List (String × String)} (fits : FitsWord i)
    (numeral : IntegerNumeral i digits) (object : ObjectText text members)
    (flat : ∀ name written, lastOf members name = some written → ¬ Bracketed written)
    (last : lastOf members key = some digits) :
    ∃ env, ofJson text = .ok env ∧ env.get? key = some digits ∧
      ('}' ∉ key.toList → ∀ front, Scanner.EndsClean front → ∀ back,
        evaluate (compile (front ++ "$\x7b" ++ key ++ "\x7d" ++ back)) env =
          evaluate (compile front) env ++ digits ++ evaluate (compile back) env) := by
  obtain ⟨values, parsed, all⟩ := object.exists_values
  obtain ⟨env, read, binds⟩ := exists_ofValue (nestedNames_eq_empty all flat)
  have held := lastOf_eq_integer all numeral fits last
  -- the number the key holds is printed as it was written
  have bound : env.get? key = some digits := (binds key digits).mpr ⟨_, held, .int numeral⟩
  refine ⟨env, (ofJson_of_parse parsed).trans read, bound, fun noBrace front clean back => ?_⟩
  rw [evaluate_placeholder clean noBrace, bound, Option.getD_some]

/-- The least integer keeps its text, also where an earlier member gave its name a list. -/
theorem ofJson_integer_shadowed :
    FitsWord (-2 ^ 63) ∧ IntegerNumeral (-2 ^ 63) "-9223372036854775808" ∧
      ObjectText "\x7b\"k\":[],\"k\":-9223372036854775808\x7d"
        [("k", "[]"), ("k", "-9223372036854775808")] ∧
      ∃ env, ofJson "\x7b\"k\":[],\"k\":-9223372036854775808\x7d" = .ok env ∧
        env.get? "k" = some "-9223372036854775808" ∧
        evaluate (compile "$\x7bk\x7d") env = "-9223372036854775808" := by
  have fits : FitsWord (-2 ^ 63) := by decide
  have numeral : IntegerNumeral (-2 ^ 63) "-9223372036854775808" := by decide
  have ends : Ends ['}'] := ends_cons_iff.mpr (by decide)
  have list (rest : List Char) : Reads (value innerDepth ("[]".toList ++ rest)) (.arr []) rest := by
    have items : Reads (items listBrackets (value 125) (']' :: rest)) [] rest :=
      (reads_items_iff (by decide)).mpr (.inl ⟨rfl, skipBlanks_cons rfl _⟩)
    exact (AnyValue.arr (skipBlanks_cons rfl _) rfl items).reads
  have object : ObjectText "\x7b\"k\":[],\"k\":-9223372036854775808\x7d"
      [("k", "[]"), ("k", "-9223372036854775808")] := by
    have first (rest : List Char) := reads_spelledMember "k" (list rest) (skipBlanks_cons rfl _)
    have second := reads_integerMember numeral fits "k" ends
    refine ⟨_, [], rfl, (reads_items_iff objectBrackets_apart).mpr (.inr ?_), rfl⟩
    exact ⟨'"', _, rfl, by decide, .more (first _) rfl rfl (by decide) (.last second rfl)⟩
  have last : lastOf [("k", "[]"), ("k", "-9223372036854775808")] "k" =
      some "-9223372036854775808" := by decide
  have flat (name written : String)
      (held : lastOf [("k", "[]"), ("k", "-9223372036854775808")] name = some written) :
      ¬ Bracketed written := by
    by_cases own : "k" = name
    · subst own
      rw [← Option.some.inj (last.symm.trans held)]
      decide
    · simp [lastOf_cons, own] at held
  have clean : Scanner.EndsClean "" := Scanner.endsClean_iff.mpr (.inl rfl)
  obtain ⟨env, read, bound, shown⟩ := ofJson_integer fits numeral object flat last
  have text := shown (by decide) "" clean ""
  rw [compile_empty] at text
  exact ⟨fits, numeral, object, env, read, bound, text⟩

end Environment

end Stencil
