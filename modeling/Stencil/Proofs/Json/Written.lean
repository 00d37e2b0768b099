/-
# `Json.Written` — what is written is read back

The writer makes each character of a string into one of three forms: itself, a backslash and a
letter, or a backslash and a number.  The reader of strings goes over the characters of the text one
at a time and knows nothing of the writer; that it passes over each written form in one step and
gathers just the character it was made from (`stringFrom_writeChar`) is all that is needed of the
forms.

* `writeChar_cases` — the three forms;
* `reads_written` — a written string is read back, whatever follows its closing quote.
-/
import Stencil.Json.Writer
import Stencil.Proofs.Json.Reads

namespace Stencil.Json

variable {s t rest : List Char} {c : Char}

/-! ## Escapes -/

theorem hexValue?_digitChar {n : Nat} (h : n < 16) : hexValue? (Nat.digitChar n) = some n := by
  have all : ∀ n < 16, hexValue? (Nat.digitChar n) = some n := by decide
  exact all n h

theorem reads_hexWord_byte {high low : Nat} (hHigh : high < 16) (hLow : low < 16)
    (rest : List Char) :
    Reads (hexWord ('0' :: '0' :: Nat.digitChar high :: Nat.digitChar low :: rest))
      (high * 16 + low) rest := by
  have zero : hexValue? '0' = some 0 := by decide
  unfold hexWord
  simp [zero, hexValue?_digitChar hHigh, hexValue?_digitChar hLow]

theorem reads_numericEscape {r : List Char} {n : Nat} (read : Reads (hexWord r) n rest)
    (small : n < 0xd800) : Reads (numericEscape r) (Char.ofNat n) rest := by
  obtain ⟨p, ok, rfl, rfl⟩ := read
  unfold numericEscape
  rw [ok]
  dsimp only
  rw [if_neg (by omega), if_neg (by omega)]
  exact reads_ok.mpr ⟨rfl, rfl⟩

theorem reads_escape_control (control : c < ' ') :
    Reads (escape ('u' :: '0' :: '0' :: Nat.digitChar (c.toNat / 16) ::
      Nat.digitChar (c.toNat % 16) :: rest)) c rest := by
  have small : c.toNat < 32 := control
  have high : c.toNat / 16 < 16 := by omega
  have low : c.toNat % 16 < 16 := by omega
  have whole : c.toNat / 16 * 16 + c.toNat % 16 = c.toNat := by omega
  have word := reads_hexWord_byte high low rest
  rw [whole] at word
  have read := reads_numericEscape word (by omega)
  rw [Char.ofNat_toNat] at read
  exact reads_widen.mpr read

theorem reads_escape_short {letter : Char} (short : shortEscape? letter = some c) :
    Reads (escape (letter :: rest)) c rest := by
  have other : letter ≠ 'u' := by
    rintro rfl
    simp [shortEscape?] at short
  rw [escape]
  · simp [short]
  · exact other

/-! ## Characters -/

theorem writeChar_cases (c : Char) :
    (∃ letter, shortEscape? letter = some c ∧ writeChar c = ['\\', letter]) ∨
      (c < ' ' ∧ writeChar c = ['\\', 'u', '0', '0', Nat.digitChar (c.toNat / 16),
        Nat.digitChar (c.toNat % 16)]) ∨
      (c ≠ '"' ∧ c ≠ '\\' ∧ ¬ c < ' ' ∧ writeChar c = [c]) := by
  unfold writeChar
  split
  case h_8 quote slash _ _ _ _ _ =>
      right
      split
      · next control => exact .inl ⟨control, rfl⟩
      · next plain => exact .inr ⟨quote, slash, plain, rfl⟩
  all_goals exact .inl ⟨_, rfl, rfl⟩

/-- After a backslash the reader goes on behind what the escape takes. -/
theorem stringFrom_escape {r : List Char} {done : String} (read : Reads (escape r) c s)
    (h : ('\\' :: r).length ≤ t.length) (h' : s.length ≤ t.length) :
    stringFrom t done ('\\' :: r) h = stringFrom t (done.push c) s h' := by
  obtain ⟨p, ok, rfl, rfl⟩ := read
  rw [stringFrom]
  split
  · next error => simp [error] at ok
  · next p' ok' =>
      obtain rfl : p' = p := by simpa [ok'] using ok
      rfl

theorem stringFrom_plain {done : String} (quote : c ≠ '"') (slash : c ≠ '\\') (plain : ¬ c < ' ')
    (h : (c :: s).length ≤ t.length) (h' : s.length ≤ t.length) :
    stringFrom t done (c :: s) h = stringFrom t (done.push c) s h' := by
  rw [stringFrom]
  · rw [if_neg plain]
  · exact quote
  · exact slash

/-- **The reader passes over a written character in one step.** -/
theorem stringFrom_writeChar (c : Char) {done : String} (h : (writeChar c ++ s).length ≤ t.length)
    (h' : s.length ≤ t.length) :
    stringFrom t done (writeChar c ++ s) h = stringFrom t (done.push c) s h' := by
  revert h
  rcases writeChar_cases c with ⟨letter, short, eq⟩ | ⟨control, eq⟩ | ⟨quote, slash, plain, eq⟩
  · rw [eq]
    intro h
    exact stringFrom_escape (reads_escape_short short) h h'
  · rw [eq]
    intro h
    exact stringFrom_escape (reads_escape_control control) h h'
  · rw [eq]
    intro h
    exact stringFrom_plain quote slash plain h h'

/-! ## Strings -/

theorem reads_stringFrom_written (chars : List Char) (rest : List Char) (done : String)
    (h : (chars.flatMap writeChar ++ '"' :: rest).length ≤ t.length) :
    Reads (stringFrom t done (chars.flatMap writeChar ++ '"' :: rest) h)
      (done ++ String.ofList chars) rest := by
  induction chars generalizing done with
  | nil =>
      show Reads (stringFrom t done ('"' :: rest) h) _ _
      rw [stringFrom, reads_ok]
      simp
  | cons c chars ih =>
      have h' : (chars.flatMap writeChar ++ '"' :: rest).length ≤ t.length := by
        simp only [List.flatMap_cons, List.length_append] at h ⊢
        omega
      have read := ih (done.push c) h'
      rw [String.push_eq_append, String.append_assoc, ← String.ofList_cons] at read
      revert h
      rw [List.flatMap_cons, List.append_assoc]
      intro h
      rwa [stringFrom_writeChar c h h', String.push_eq_append]

/-- **A written string is read back**, whatever follows its closing quote. -/
theorem reads_written (text : String) (rest : List Char) :
    Reads (string (text.toList.flatMap writeChar ++ '"' :: rest)) text rest := by
  have whole : "" ++ String.ofList text.toList = text := by simp
  have read := reads_stringFrom_written text.toList rest "" (Nat.le_refl _)
  rwa [whole] at read

theorem writeString_append (text : String) (rest : List Char) :
    writeString text ++ rest = '"' :: (text.toList.flatMap writeChar ++ '"' :: rest) := by
  simp [writeString]

end Stencil.Json
