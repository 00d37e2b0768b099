/-
# `Text.quote` — texts between double quotes

A text is quoted by putting it between double quotes and writing some of its characters as escapes,
so that the result is one line and can be read back without doubt:

* U+0000, tab, carriage return, line feed, the double quote and the backslash have an escape of two
  characters each;
* a hidden character is written by its number, `\u{…}` in lower-case hexadecimal without leading
  zeros;
* every other character stands for itself, the single quote included.

Which characters are hidden is a parameter (`quoteWith`); `quote` takes those of
`Stencil.Text.Hidden`.
-/
import Stencil.Text.Hidden

namespace Stencil.Text

/-- The escape of a character by its number. -/
def numericEscape (c : Char) : List Char :=
  ['\\', 'u', '{'] ++ Nat.toDigits 16 c.toNat ++ ['}']

/-- What one character is written as between the quotes. -/
def quoteChar (hidden : Char → Bool) : Char → List Char
  | '\x00' => ['\\', '0']
  | '\t' => ['\\', 't']
  | '\r' => ['\\', 'r']
  | '\n' => ['\\', 'n']
  | '"' => ['\\', '"']
  | '\\' => ['\\', '\\']
  | c => if hidden c then numericEscape c else [c]

/-- A text between double quotes, with `hidden` telling which characters are written by number. -/
def quoteWith (hidden : Char → Bool) (s : String) : String :=
  String.ofList ('"' :: (s.toList.flatMap (quoteChar hidden) ++ ['"']))

/-- A text between double quotes, hidden characters written by number. -/
def quote (s : String) : String :=
  quoteWith isHidden s

end Stencil.Text
