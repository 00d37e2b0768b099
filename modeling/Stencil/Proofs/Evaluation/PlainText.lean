/-
# `Evaluation.PlainText` — the templates that stand for themselves

A text that holds no backslash and no opener is a template for itself, in every environment; single
`$`, `#` and braces may stand in it anywhere.  There are no other templates that evaluate to
themselves, not even where nothing is bound:

* an opener takes two characters that nothing makes up for, so the source gives fewer characters than
  it has (`held_compile_le`);
* so does a backslash with a character after it;
* a backslash at the very end costs nothing, but it becomes the sentinel.

The first of these leaves a source that is a single text part; for the other two, `textPart` is
followed to the first backslash (`textPart_eq_self_iff`).
-/
import Stencil.Proofs.Grammar.Segments
import Stencil.Proofs.Scanner.Accounting

namespace Stencil

/-- A text without a backslash and without an opener. -/
def NoMarkup (s : List Char) : Prop :=
  '\\' ∉ s ∧ ¬ ['$', '{'] <:+: s ∧ ¬ ['#', '{'] <:+: s

instance (s : List Char) : Decidable (NoMarkup s) :=
  inferInstanceAs (Decidable (_ ∧ _ ∧ _))

theorem noMarkup_iff {s : List Char} :
    NoMarkup s ↔ '\\' ∉ s ∧ ∀ kind : Markup, ¬ [kind.sigil, '{'] <:+: s := by
  constructor
  · rintro ⟨slash, dollar, hash⟩
    refine ⟨slash, fun kind => ?_⟩
    cases kind with
    | var => exact dollar
    | comment => exact hash
  · rintro ⟨slash, opener⟩
    exact ⟨slash, opener .var, opener .comment⟩

theorem opens_iff_prefix {s : List Char} : Opens s ↔ ∃ kind : Markup, [kind.sigil, '{'] <+: s := by
  constructor
  · rintro ⟨kind, rest, rfl⟩
    exact ⟨kind, rest, rfl⟩
  · rintro ⟨kind, rest, rfl⟩
    exact ⟨kind, rest, rfl⟩

theorem noMarkup_nil : NoMarkup [] := by
  decide

/-- Markup can begin only where a backslash or an opener stands. -/
theorem noMarkup_cons {c : Char} {rest : List Char} :
    NoMarkup (c :: rest) ↔ c ≠ '\\' ∧ ¬ Opens (c :: rest) ∧ NoMarkup rest := by
  rw [noMarkup_iff, noMarkup_iff, opens_iff_prefix]
  simp only [List.infix_cons_iff, List.mem_cons, not_or, not_exists, forall_and]
  constructor
  · rintro ⟨⟨slash, slashes⟩, opener, openers⟩
    exact ⟨Ne.symm slash, opener, slashes, openers⟩
  · rintro ⟨slash, opener, slashes, openers⟩
    exact ⟨⟨Ne.symm slash, slashes⟩, opener, openers⟩

namespace Grammar

theorem length_textPart_le (s : List Char) : (textPart s).1.length ≤ s.length := by
  fun_induction textPart s with
  | case1 => exact Nat.le_refl _
  | case2 => exact Nat.le_refl _
  | case3 c rest ih =>
      simp only [List.length_cons]
      omega
  | case4 => exact Nat.zero_le _
  | case5 => exact Nat.zero_le _
  | case6 c rest _ _ _ _ ih =>
      simp only [List.length_cons]
      omega

/-- **A text part that stands for itself holds no markup.** -/
theorem textPart_eq_self_iff (s : List Char) : textPart s = (s, none) ↔ NoMarkup s := by
  induction s with
  | nil => exact iff_of_true textPart_nil noMarkup_nil
  | cons c rest ih =>
      rw [noMarkup_cons]
      by_cases slash : c = '\\'
      · refine iff_of_false ?_ fun h => h.1 slash
        subst slash
        cases rest with
        | nil => rw [textPart_backslash]; decide
        | cons d rest =>
            -- the backslash is gone, and what follows does not grow
            rw [textPart_escape]
            intro self
            have lengths := congrArg (·.1.length) self
            have le := length_textPart_le rest
            simp only [List.length_cons] at lengths
            omega
      by_cases opens : Opens (c :: rest)
      · refine iff_of_false ?_ fun h => h.2.1 opens
        obtain ⟨kind, body, eq⟩ := opens
        rw [eq, textPart_opener]
        intro self
        exact nomatch congrArg Prod.snd self
      · have itself : textPart (c :: rest) = (c :: rest, none) ↔ textPart rest = (rest, none) := by
          rw [textPart_plain slash opens]
          simp [Prod.ext_iff]
        rw [itself, ih]
        exact ⟨fun plain => ⟨slash, opens, plain⟩, fun h => h.2.2⟩

theorem Segments.of_length_eq_one {total : Nat} {s : List Char} {events : List Transition}
    {exprs : List Expr} (h : Segments total s events exprs) (one : exprs.length = 1) :
    ∃ text, textPart s = (text, none) ∧ exprs = [.literal (String.ofList text)] := by
  cases h with
  | text split => exact ⟨_, split, rfl⟩
  | unclosed _ _ => exact nomatch one
  | closed _ _ _ => exact nomatch one

end Grammar

open Grammar

/-- A source that evaluates to itself where nothing is bound has no opener: each would cost it two
characters. -/
theorem length_compile_of_evaluate_empty {source : String}
    (self : evaluate (compile source) .empty = source) : (compile source).length = 1 := by
  have shown := length_evaluate_empty_le (compile source)
  rw [self] at shown
  have account := held_compile_le source
  rw [length_compile]
  omega

theorem noMarkup_of_evaluate_empty {source : String}
    (self : evaluate (compile source) .empty = source) : NoMarkup source.toList := by
  have one := length_compile_of_evaluate_empty self
  obtain ⟨text, split, eq⟩ := (scan_segments source).of_length_eq_one one
  rw [compile, eq, evaluate_cons, evaluate_nil, String.append_empty] at self
  have same : text = source.toList := by
    rw [← self]
    exact String.toList_ofList.symm
  rw [same] at split
  exact (textPart_eq_self_iff source.toList).mp split

theorem compile_of_noMarkup {source : String} (plain : NoMarkup source.toList) :
    compile source = [.literal source] := by
  have split := (textPart_eq_self_iff source.toList).mpr plain
  rw [compile, (scan_segments source).exprs_eq, parts_text split, String.ofList_toList]

/-- **A template stands for itself exactly when it holds no markup.**  It is enough that it evaluates
to itself where nothing is bound; it then is one literal, and evaluates to itself everywhere. -/
theorem evaluate_eq_self_iff (source : String) :
    (evaluate (compile source) .empty = source ↔ NoMarkup source.toList) ∧
      (compile source = [.literal source] ↔ NoMarkup source.toList) ∧
      ((∀ env, evaluate (compile source) env = source) ↔ NoMarkup source.toList) := by
  have everywhere (eq : compile source = [.literal source]) (env : Environment) :
      evaluate (compile source) env = source := by
    rw [eq, evaluate_cons, evaluate_nil, String.append_empty]
    rfl
  refine ⟨⟨noMarkup_of_evaluate_empty, ?_⟩, ⟨?_, compile_of_noMarkup⟩, ⟨?_, ?_⟩⟩
  · intro plain
    exact everywhere (compile_of_noMarkup plain) .empty
  · intro eq
    exact noMarkup_of_evaluate_empty (everywhere eq .empty)
  · intro self
    exact noMarkup_of_evaluate_empty (self .empty)
  · intro plain
    exact everywhere (compile_of_noMarkup plain)

example : NoMarkup ['$', '$', '#', '}', '{', '#', '$'] := by
  decide

end Stencil
