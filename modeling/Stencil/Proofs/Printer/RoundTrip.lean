/-
# `Printer.RoundTrip` — the lists that come from templates, and a template for each

`WellShaped` is said without the scanner, and `print` does not look at what the scanner does with
its result.  Together they say exactly what `compile` can give:

    WellShaped (compile s)                         nothing else comes out of it
    WellShaped xs → compile (print xs) = xs        all of these do

The first is read off the segments of a source.  For the second, the point at which a printed list
is read wrongly, if anywhere, is where a literal ends and an opener or the end of the source
follows: `textPart_print` says that a printed literal is read back whatever follows it.
-/
import Stencil.Printer
import Stencil.Proofs.Grammar.Segments

namespace Stencil

open Grammar

/-! ## What is compiled is well-shaped -/

theorem brace_not_mem_kept {kind : Markup} {body : List Char} (h : '}' ∉ body) :
    '}' ∉ (kind.kept body).toList := by
  cases kind with
  | var =>
      show '}' ∉ (String.ofList body).toList
      rwa [String.toList_ofList]
  | comment => exact List.not_mem_nil

theorem WellShaped.of_segments {total : Nat} {s : List Char} {events : List Transition}
    {exprs : List Expr} (h : Segments total s events exprs) : WellShaped exprs := by
  induction h with
  | text _ => exact .last _
  | unclosed _ noBrace => exact .unclosed _ _ (brace_not_mem_kept noBrace)
  | @closed _ _ _ _ kind _ _ _ noBrace _ ih =>
      cases kind with
      | var => exact .var _ _ _ (brace_not_mem_kept noBrace) ih
      | comment => exact .comment _ _ ih

/-! ## What is printed is read back -/

/-- **A printed literal is read back, whatever follows it.**  No character of it opens anything with
the one after it, because a `$` or `#` is printed behind a backslash. -/
theorem textPart_print (text rest : List Char) :
    textPart (text.flatMap printChar ++ rest) =
      (text ++ (textPart rest).1, (textPart rest).2) := by
  induction text with
  | nil => rfl
  | cons c text ih =>
      rw [List.flatMap_cons, List.append_assoc]
      by_cases special : c = '\\' ∨ c = '$' ∨ c = '#'
      · have itself : resolve c = c := by
          rcases special with rfl | rfl | rfl <;> rfl
        rw [printChar, if_pos special, List.cons_append, List.cons_append, List.nil_append,
          textPart_escape, ih, itself, List.cons_append]
      · have opens : ¬ Opens (c :: (text.flatMap printChar ++ rest)) := by
          rintro ⟨kind, _, eq⟩
          obtain ⟨rfl, -⟩ := List.cons.inj eq
          cases kind with
          | var => exact special (.inr (.inl rfl))
          | comment => exact special (.inr (.inr rfl))
        rw [printChar, if_neg special, List.cons_append, List.nil_append,
          textPart_plain (fun slash => special (.inl slash)) opens, ih, List.cons_append]

theorem textPart_print_last (text : List Char) :
    textPart (text.flatMap printChar) = (text, none) := by
  have split := textPart_print text []
  rwa [textPart_nil, List.append_nil, List.append_nil] at split

theorem textPart_print_opener (text body : List Char) (kind : Markup) :
    textPart (text.flatMap printChar ++ kind.sigil :: '{' :: body) = (text, some (kind, body)) := by
  rw [textPart_print, textPart_opener, List.append_nil]

/-! The forms a printed list can begin with, an opener spelled by its `sigil`. -/

theorem print_last (text : String) :
    print [.literal text] = text.toList.flatMap printChar := by
  simp [print, Expr.print]

theorem print_unclosed (text rest : String) : print [.literal text, .literal rest] =
    text.toList.flatMap printChar ++ Markup.var.sigil :: '{' :: rest.toList := rfl

theorem print_var (text key : String) (rest : List Expr) :
    print (.literal text :: .var key :: rest) = text.toList.flatMap printChar ++
      Markup.var.sigil :: '{' :: (key.toList ++ '}' :: print rest) := by
  simp [print, Expr.print, Markup.sigil]

theorem print_comment (text note : String) (rest : List Expr) :
    print (.literal text :: .comment note :: rest) = text.toList.flatMap printChar ++
      Markup.comment.sigil :: '{' :: ([] ++ '}' :: print rest) := by
  simp [print, Expr.print, Markup.sigil]

/-- **A well-shaped list is read back from its template.** -/
theorem parts_print {xs : List Expr} (h : WellShaped xs) : parts (print xs) = xs := by
  induction h with
  | last text =>
      rw [print_last, parts_text (textPart_print_last _), String.ofList_toList]
  | unclosed text rest noBrace =>
      rw [print_unclosed, parts_unclosed (textPart_print_opener _ _ _) noBrace,
        String.ofList_toList, Markup.kept_var]
  | var text key rest noBrace _ ih =>
      rw [print_var, parts_closed (textPart_print_opener _ _ _) noBrace, ih,
        String.ofList_toList, Markup.kept_var]
      rfl
  | comment text rest _ ih =>
      rw [print_comment, parts_closed (textPart_print_opener _ _ _) List.not_mem_nil, ih,
        String.ofList_toList]
      rfl

/-- **What `compile` gives are exactly the well-shaped lists.**  In particular, compiling is undone
by printing as far as it can be: up to another source with the same list. -/
theorem compile_image :
    (∀ source, WellShaped (compile source)) ∧
      (∀ xs, WellShaped xs → compile (String.ofList (print xs)) = xs) ∧
      ∀ source, compile (String.ofList (print (compile source))) = compile source := by
  have shaped (source : String) : WellShaped (compile source) :=
    .of_segments (scan_segments source)
  have back (xs : List Expr) (h : WellShaped xs) : compile (String.ofList (print xs)) = xs := by
    rw [compile, (scan_segments _).exprs_eq, String.toList_ofList, parts_print h]
  exact ⟨shaped, back, fun source => back _ (shaped source)⟩

/-- Literals that end in a backslash or in the first character of an opener, right before an opener;
a key that holds one; and a brace in what markup without a closing brace has left. -/
theorem compile_image_dollar :
    WellShaped [.literal "\\", .var "$\x7b\\", .literal "a$", .comment "", .literal "#",
        .literal "\x7b"] ∧
      compile (String.ofList (print [.literal "\\", .var "$\x7b\\", .literal "a$", .comment "",
          .literal "#", .literal "\x7b"])) =
        [.literal "\\", .var "$\x7b\\", .literal "a$", .comment "", .literal "#",
          .literal "\x7b"] := by
  have shaped : WellShaped [.literal "\\", .var "$\x7b\\", .literal "a$", .comment "",
      .literal "#", .literal "\x7b"] :=
    .var _ _ _ (by decide) (.comment _ _ (.unclosed _ _ (by decide)))
  exact ⟨shaped, compile_image.2.1 _ shaped⟩

end Stencil
