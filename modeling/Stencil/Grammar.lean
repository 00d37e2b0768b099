/-
# `Grammar` — what a template consists of

The language of templates, said by splitting the source, without a position or a mode.  A source is
a text part; if an opener ends that, a body up to the first closing brace follows; and if there is
such a brace, what follows it is a source again.

    opener     closed markup          without a closing brace
    `${`       a variable of the body     the body as a literal
    `#{`       an empty comment           an empty literal

In text, a backslash makes a line feed, a carriage return and a tab of `n`, `r` and `t`, any other
character of itself, and U+0000 of the end of the source.  All of this is written out here once more,
and nothing is taken from the tables of the scanner, whose `Markup` only names the two kinds.

* `textPart` — splits off a text part: the text it stands for, and what the opener after it leaves;
* `parts` — the expressions of a source.

`Stencil.Scanner` finds the same expressions in one walk.
-/
import Stencil.Scanner

namespace Stencil.Grammar

/-- What an escape stands for: the character after the backslash, or a control character. -/
def resolve : Char → Char
  | 'n' => '\x0a'
  | 'r' => '\x0d'
  | 't' => '\x09'
  | c => c

/-- The text in front of the first opener of a source, its escapes resolved; then, if there is an
opener, its kind and what follows it. -/
def textPart : List Char → List Char × Option (Markup × List Char)
  | [] => ([], none)
  | ['\\'] => (['\x00'], none)
  | '\\' :: c :: rest => (resolve c :: (textPart rest).1, (textPart rest).2)
  | '$' :: '{' :: body => ([], some (.var, body))
  | '#' :: '{' :: body => ([], some (.comment, body))
  | c :: rest => (c :: (textPart rest).1, (textPart rest).2)

theorem length_lt_of_textPart {s body : List Char} {kind : Markup}
    (h : (textPart s).2 = some (kind, body)) : body.length < s.length := by
  fun_induction textPart s with
  | case1 => simp at h
  | case2 => simp at h
  | case3 c rest ih =>
    have := ih h
    simp only [List.length_cons]
    omega
  | case4 body' | case5 body' =>
    simp only [Option.some.injEq, Prod.mk.injEq] at h
    obtain ⟨_, rfl⟩ := h
    simp only [List.length_cons]
    omega
  | case6 c rest _ _ _ _ ih =>
    have := ih h
    simp only [List.length_cons]
    omega

/-- The literal that markup without a closing brace is taken for. -/
def unclosed : Markup → List Char → Expr
  | .var, body => .literal (String.ofList body)
  | .comment, _ => .literal ""

/-- The expression that closed markup is. -/
def closed : Markup → List Char → Expr
  | .var, body => .var (String.ofList body)
  | .comment, _ => .comment ""

def parts (s : List Char) : List Expr :=
  match _h : textPart s with
  | (text, none) => [.literal (String.ofList text)]
  | (text, some (kind, rest)) =>
    let body := rest.takeWhile (· != '}')
    match _e : rest.dropWhile (· != '}') with
    | [] => [.literal (String.ofList text), unclosed kind body]
    | _ :: after => .literal (String.ofList text) :: closed kind body :: parts after
termination_by s.length
decreasing_by
  have shorter := length_lt_of_textPart (s := s) (by rw [_h])
  have suffix := (List.dropWhile_sublist (· != '}') (l := rest)).length_le
  rw [_e, List.length_cons] at suffix
  omega

end Stencil.Grammar
