/-
# `Json.Reader` — reading JSON text

Readers take a value off the front of a text and leave the rest.  A reader either gives what it read
together with what follows it (`Parsed`), which is never longer than the text was, or the first fault
of the text (`Fault`).

* `scalar` — null, a truth value, a number or a string;
* `items` — what stands between brackets, one item after the other; the same loop serves for lists
  and for the members of objects, with the item as a parameter;
* `value` — any value, with a limit on how deeply brackets may be nested;
* `document` — a text that holds one value and nothing after it but blanks.
-/
import Stencil.Json.Numeral

namespace Stencil.Json

/-- What was read off the front of a text, and what is left of it. -/
structure Parsed (α : Type) (s : List Char) where
  value : α
  rest : List Char
  rest_le : rest.length ≤ s.length

namespace Parsed

def map {α β : Type} {s : List Char} (f : α → β) (p : Parsed α s) : Parsed β s :=
  ⟨f p.value, p.rest, p.rest_le⟩

/-- What was read off a part of a text counts as read off the text. -/
def widen {α : Type} {s t : List Char} (p : Parsed α s) (h : s.length ≤ t.length) : Parsed α t :=
  ⟨p.value, p.rest, Nat.le_trans p.rest_le h⟩

end Parsed

/-- Takes a value off the front of a text. -/
abbrev Reader (α : Type) :=
  (s : List Char) → Except Fault (Parsed α s)

/-! ## Blanks and words -/

/-- Space, tab, line feed and carriage return may stand between the parts of a text. -/
def isBlank (c : Char) : Bool :=
  c == ' ' || c == '\t' || c == '\n' || c == '\r'

def skipBlanks (s : List Char) : List Char :=
  s.dropWhile isBlank

theorem skipBlanks_le (s : List Char) : (skipBlanks s).length ≤ s.length :=
  (List.dropWhile_sublist _).length_le

/-- Passes over the letters of a word. -/
def word : (letters : List Char) → Reader Unit
  | [], s => .ok ⟨(), s, Nat.le_refl _⟩
  | _ :: _, [] => .error (.next .endOfValue [])
  | letter :: letters, c :: s =>
    if c = letter then (word letters s).map (·.widen (Nat.le_succ _))
    else .error (.next .expectedWord (c :: s))

/-! ## Strings -/

def hexValue? (c : Char) : Option Nat :=
  if '0' ≤ c ∧ c ≤ '9' then some (c.toNat - '0'.toNat)
  else if 'a' ≤ c ∧ c ≤ 'f' then some (c.toNat - 'a'.toNat + 10)
  else if 'A' ≤ c ∧ c ≤ 'F' then some (c.toNat - 'A'.toNat + 10)
  else none

/-- The number that four hexadecimal digits give, after `\u`.  Four bytes are taken at once, be they
digits or not; where fewer are left, the string has no end. -/
def hexWord : Reader Nat := fun s =>
  match s with
  | a :: b :: c :: d :: rest =>
    match hexValue? a, hexValue? b, hexValue? c, hexValue? d with
    | some a, some b, some c, some d =>
      .ok ⟨((a * 16 + b) * 16 + c) * 16 + d, rest, by simp only [List.length_cons]; omega⟩
    | _, _, _, _ => .error ⟨.invalidEscape, s, 4⟩
  | _ =>
    if (String.ofList s).utf8ByteSize < 4 then .error (.next .endOfString [])
    else .error ⟨.invalidEscape, s, 4⟩

/-- The second half of a pair of surrogates: `\u` and a word from U+DC00 to U+DFFF. -/
def lowSurrogate : Reader Nat := fun s =>
  match s with
  | [] => .error (.next .endOfString [])
  | '\\' :: [] => .error (.next .endOfString [])
  | '\\' :: 'u' :: r =>
    match hexWord r with
    | .error fault => .error fault
    | .ok p =>
      if 0xdc00 ≤ p.value ∧ p.value < 0xe000 then
        .ok (p.widen (by simp only [List.length_cons]; omega))
      else .error (.last .loneSurrogate p.rest)
  | '\\' :: r => .error (.next .halfSurrogatePair r)
  | s => .error (.next .halfSurrogatePair s)

/-- The character of an escape by number, after `\u`: one word, or a pair of surrogates. -/
def numericEscape : Reader Char := fun s =>
  match hexWord s with
  | .error fault => .error fault
  | .ok high =>
    if 0xdc00 ≤ high.value ∧ high.value < 0xe000 then .error (.last .loneSurrogate high.rest)
    else if 0xd800 ≤ high.value ∧ high.value < 0xdc00 then
      match lowSurrogate high.rest with
      | .error fault => .error fault
      | .ok low =>
        let code := 0x10000 + (high.value - 0xd800) * 0x400 + (low.value - 0xdc00)
        .ok ((low.map fun _ => Char.ofNat code).widen high.rest_le)
    else .ok (high.map Char.ofNat)

/-- The character that a backslash makes of the one after it. -/
def shortEscape? : Char → Option Char
  | '"' => some '"'
  | '\\' => some '\\'
  | '/' => some '/'
  | 'b' => some '\x08'
  | 'f' => some '\x0c'
  | 'n' => some '\n'
  | 'r' => some '\r'
  | 't' => some '\t'
  | _ => none

/-- The character that an escape stands for, after the backslash. -/
def escape : Reader Char := fun s =>
  match s with
  | [] => .error (.next .endOfString [])
  | 'u' :: r => (numericEscape r).map (·.widen (Nat.le_succ _))
  | c :: r =>
    match shortEscape? c with
    | some plain => .ok ⟨plain, r, Nat.le_succ _⟩
    | none => .error (.next .invalidEscape (c :: r))

/-- The rest of a string, `done` having been read of it, up to the closing quote; `s` is what is left
of the text `t`. -/
def stringFrom (t : List Char) (done : String) (s : List Char) (h : s.length ≤ t.length) :
    Except Fault (Parsed String t) :=
  match s with
  | [] => .error (.next .endOfString [])
  | '"' :: r => .ok ⟨done, r, Nat.le_trans (Nat.le_succ _) h⟩
  | '\\' :: r =>
    match escape r with
    | .error fault => .error fault
    | .ok p =>
      stringFrom t (done.push p.value) p.rest
        (Nat.le_trans p.rest_le (Nat.le_trans (Nat.le_succ _) h))
  | c :: r =>
    if c < ' ' then .error (.next .controlCharacter (c :: r))
    else stringFrom t (done.push c) r (Nat.le_trans (Nat.le_succ _) h)
termination_by s.length
decreasing_by
  · have := p.rest_le
    simp only [List.length_cons]
    omega
  · simp only [List.length_cons]
    omega

/-- A string, after its opening quote. -/
def string : Reader String := fun s =>
  stringFrom s "" s (Nat.le_refl _)

/-! ## Numbers -/

def digits : Reader (List Char) := fun s =>
  .ok ⟨s.takeWhile Char.isDigit, s.dropWhile Char.isDigit, (List.dropWhile_sublist _).length_le⟩

def someDigits : Reader (List Char) := fun s =>
  match s with
  | [] => .error (.next .endOfValue [])
  | c :: r => if c.isDigit then digits (c :: r) else .error (.next .invalidNumber (c :: r))

def wholePart : Reader (List Char) := fun s =>
  match s with
  | '0' :: c :: r =>
    if c.isDigit then .error (.next .invalidNumber (c :: r))
    else .ok ⟨['0'], c :: r, Nat.le_succ _⟩
  | s => someDigits s

def fractionPart : Reader (Option (List Char)) := fun s =>
  match s with
  | '.' :: r => (someDigits r).map fun p => (p.map some).widen (Nat.le_succ _)
  | s => .ok ⟨none, s, Nat.le_refl _⟩

/-- The sign of an exponent: whether it is a minus. -/
def exponentSign : Reader Bool := fun s =>
  match s with
  | '-' :: r => .ok ⟨true, r, Nat.le_succ _⟩
  | '+' :: r => .ok ⟨false, r, Nat.le_succ _⟩
  | s => .ok ⟨false, s, Nat.le_refl _⟩

/-- The digits of an exponent with their sign, after the letter. -/
def signedDigits : Reader (Bool × List Char) := fun s => do
  let sign ← exponentSign s
  let ds ← someDigits sign.rest
  return (ds.map (sign.value, ·)).widen sign.rest_le

def exponentPart : Reader (Option (Bool × List Char)) := fun s =>
  match s with
  | 'e' :: r => (signedDigits r).map fun p => (p.map some).widen (Nat.le_succ _)
  | 'E' :: r => (signedDigits r).map fun p => (p.map some).widen (Nat.le_succ _)
  | s => .ok ⟨none, s, Nat.le_refl _⟩

/-- A numeral, its sign having been read. -/
def numeral (negative : Bool) : Reader Numeral := fun s => do
  let whole ← wholePart s
  let fraction ← fractionPart whole.rest
  let exponent ← exponentPart fraction.rest
  return ((exponent.map (⟨negative, whole.value, fraction.value, ·⟩)).widen fraction.rest_le).widen
    whole.rest_le

/-- A number, its sign having been read. -/
def number (negative : Bool) : Reader Number := fun s => do
  let n ← numeral negative s
  let number ← n.value.number n.rest
  return n.map fun _ => number

/-! ## Values without parts -/

/-- A value that is not made of values; no blank stands before it. -/
def scalar : Reader Value := fun s =>
  match s with
  | [] => .error (.next .endOfValue [])
  | c :: r =>
    let after {α : Type} (make : α → Value) (p : Except Fault (Parsed α r)) :
        Except Fault (Parsed Value (c :: r)) :=
      p.map fun p => (p.map make).widen (Nat.le_succ _)
    if c = 'n' then after (fun _ => .null) (word ['u', 'l', 'l'] r)
    else if c = 't' then after (fun _ => .bool true) (word ['r', 'u', 'e'] r)
    else if c = 'f' then after (fun _ => .bool false) (word ['a', 'l', 's', 'e'] r)
    else if c = '"' then after .str (string r)
    else if c = '-' then after .num (number true r)
    else if c.isDigit then (number false (c :: r)).map (·.map .num)
    else .error (.next .expectedValue (c :: r))

/-! ## Brackets -/

/-- A kind of brackets: the closing one, and the faults of a text that ends within them and of an
item that is followed by neither a comma nor the closing bracket. -/
structure Brackets where
  close : Char
  unfinished : Cause
  unseparated : Cause

def listBrackets : Brackets :=
  ⟨']', .endOfList, .expectedListEnd⟩

def objectBrackets : Brackets :=
  ⟨'}', .endOfObject, .expectedObjectEnd⟩

/-- The items from the front of a text to the closing bracket, there being at least one; `done` have
been read before, and `s` is what is left of the text `t`. -/
def itemsFrom {α : Type} (brackets : Brackets) (item : Reader α) (t : List Char) (done : Array α)
    (s : List Char) (h : s.length ≤ t.length) : Except Fault (Parsed (List α) t) :=
  match item s with
  | .error fault => .error fault
  | .ok p =>
    match eq : skipBlanks p.rest with
    | [] => .error (.next brackets.unfinished [])
    | c :: r =>
      have shorter : r.length < s.length := by
        have := skipBlanks_le p.rest
        have := p.rest_le
        simp only [eq, List.length_cons] at *
        omega
      if c = brackets.close then
        .ok ⟨(done.push p.value).toList, r, Nat.le_of_lt (Nat.lt_of_lt_of_le shorter h)⟩
      else if c = ',' then
        match skipBlanks r with
        | [] => .error (.next .endOfValue [])
        | c' :: r' =>
          if c' = brackets.close then .error (.next .trailingComma (c' :: r'))
          else
            itemsFrom brackets item t (done.push p.value) (skipBlanks r)
              (Nat.le_trans (skipBlanks_le r) (Nat.le_of_lt (Nat.lt_of_lt_of_le shorter h)))
      else .error (.next brackets.unseparated (c :: r))
termination_by s.length
decreasing_by exact Nat.lt_of_le_of_lt (skipBlanks_le r) shorter

/-- The items of a list or an object, after its opening bracket. -/
def items {α : Type} (brackets : Brackets) (item : Reader α) : Reader (List α) := fun s =>
  match eq : skipBlanks s with
  | [] => .error (.next brackets.unfinished [])
  | c :: r =>
    if c = brackets.close then
      .ok ⟨[], r, by have := skipBlanks_le s; simp only [eq, List.length_cons] at this; omega⟩
    else itemsFrom brackets item s #[] (skipBlanks s) (skipBlanks_le s)

/-- A member of an object: its name, a colon and what is read by `content`; no blank stands before
it. -/
def member {α : Type} (content : Reader α) : Reader (String × α) := fun s =>
  match s with
  | '"' :: r => do
    let name ← string r
    match eq : skipBlanks name.rest with
    | [] => .error (.next .endOfObject [])
    | c :: r' =>
      if c = ':' then
        let p ← content r'
        return (p.map (name.value, ·)).widen (by
          have := skipBlanks_le name.rest
          have := name.rest_le
          simp only [eq, List.length_cons] at *
          omega)
      else .error (.next .expectedColon (c :: r'))
  | s => .error (.next .keyNotString s)

/-! ## Values -/

/-- A value, given the reader of the values inside it; without one, brackets are nested too deep. -/
def valueOver (inner : Option (Reader Value)) : Reader Value := fun s =>
  match eq : skipBlanks s with
  | [] => .error (.next .endOfValue [])
  | c :: r =>
    have le : r.length + 1 ≤ s.length := by
      have := skipBlanks_le s
      simpa only [eq, List.length_cons] using this
    if c = '[' then
      match inner with
      | none => .error (.next .tooDeep (c :: r))
      | some inner =>
        (items listBrackets inner r).map fun p => (p.map .arr).widen (Nat.le_of_succ_le le)
    else if c = '{' then
      match inner with
      | none => .error (.next .tooDeep (c :: r))
      | some inner =>
        (items objectBrackets (member inner) r).map fun p =>
          (p.map .obj).widen (Nat.le_of_succ_le le)
    else (scalar (c :: r)).map (·.widen le)

/-- A value in which brackets are nested at most `depth` deep. -/
def value : (depth : Nat) → Reader Value
  | 0 => valueOver none
  | depth + 1 => valueOver (some (value depth))

/-- How deep the brackets of a text may be nested. -/
def maxDepth : Nat := 127

/-! ## Whole texts -/

/-- Reads a text that holds one thing and nothing after it but blanks. -/
def document {α : Type} (reader : Reader α) (text : String) : Except Report α :=
  let read : Except Fault α := do
    let p ← reader text.toList
    match skipBlanks p.rest with
    | [] => return p.value
    | rest => .error (.next .trailingCharacters rest)
  read.mapError (.ofFault text)

def parse (text : String) : Except Report Value :=
  document (value maxDepth) text

end Stencil.Json
