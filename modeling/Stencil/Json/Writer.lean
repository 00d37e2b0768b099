/-
# `Json.writeObject` — writing JSON text

Strings and objects of strings as JSON text, without blanks.  A double quote, a backslash and the
characters below U+0020 are written as escapes, the latter by their letter if they have one and by
number otherwise; every other character stands for itself.
-/
namespace Stencil.Json

/-- What one character of a string is written as. -/
def writeChar : Char → List Char
  | '"' => ['\\', '"']
  | '\\' => ['\\', '\\']
  | '\x08' => ['\\', 'b']
  | '\x0c' => ['\\', 'f']
  | '\n' => ['\\', 'n']
  | '\r' => ['\\', 'r']
  | '\t' => ['\\', 't']
  | c =>
    if c < ' ' then
      ['\\', 'u', '0', '0', Nat.digitChar (c.toNat / 16), Nat.digitChar (c.toNat % 16)]
    else [c]

def writeString (s : String) : List Char :=
  '"' :: (s.toList.flatMap writeChar ++ ['"'])

/-- A member of an object: its name, a colon and its string. -/
def writeMember (member : String × String) : List Char :=
  writeString member.1 ++ ':' :: writeString member.2

/-- An object of strings, its members separated by commas. -/
def writeObject (members : List (String × String)) : String :=
  String.ofList ('{' :: ([','].intercalate (members.map writeMember) ++ ['}']))

end Stencil.Json
