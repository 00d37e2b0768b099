/-
# `Json.Fronts` — readers take a front off a text

A reader gives what it leaves of a text, and only the length of that is known from its type.  Here it
is shown to be an end of the text: what was read stood in front of it, character by character, and
nothing was skipped, put in or taken from elsewhere.

* `TakesFront` — said of one reader.  What is read in parts keeps it (`TakesFront.member`,
  `TakesFront.items`);
* `takesFront_string`, `takesFront_number` — what has no parts that are values;
* `suffix_skipBlanks_of_value` — values to any depth.  As blanks are passed over before a value, what
  is left is an end even of what comes after them.
-/
import Stencil.Proofs.Json.Reads

namespace Stencil.Json

variable {α : Type} {s t rest : List Char}

/-- Whatever is read, what is left is an end of the text. -/
def TakesFront (reader : Reader α) : Prop :=
  ∀ s x rest, Reads (reader s) x rest → rest <:+ s

theorem TakesFront.suffix_of_ok {reader : Reader α} (takes : TakesFront reader) {p : Parsed α s}
    (ok : reader s = .ok p) : p.rest <:+ s :=
  takes s p.value p.rest ⟨p, ok, rfl, rfl⟩

theorem suffix_of_skipBlanks {c : Char} {r : List Char} (front : skipBlanks s = c :: r)
    (suffix : rest <:+ r) : rest <:+ s := by
  have behind : c :: r <:+ s := front ▸ List.dropWhile_suffix _
  exact suffix.trans ((List.suffix_cons c r).trans behind)

/-! ## Words and strings -/

theorem takesFront_word (letters : List Char) : TakesFront (word letters) := by
  induction letters with
  | nil =>
      intro s x rest read
      obtain rfl : s = rest := (reads_ok.mp read).2
      exact List.suffix_rfl
  | cons letter letters ih =>
      intro s x rest read
      cases s with
      | nil => exact absurd read not_reads_error
      | cons c s =>
          rw [word] at read
          split at read
          · exact (ih _ _ _ (reads_widen.mp read)).trans (List.suffix_cons c s)
          · exact absurd read not_reads_error

theorem takesFront_hexWord : TakesFront hexWord := by
  intro s x rest read
  unfold hexWord at read
  split at read
  · next a b c d r =>
      split at read
      · obtain rfl : r = rest := (reads_ok.mp read).2
        exact List.suffix_append [a, b, c, d] r
      · exact absurd read not_reads_error
  · split at read <;> exact absurd read not_reads_error

theorem takesFront_lowSurrogate : TakesFront lowSurrogate := by
  intro s x rest read
  unfold lowSurrogate at read
  split at read
  case h_3 r =>
    split at read
    · exact absurd read not_reads_error
    · next p ok =>
        split at read
        · obtain rfl : p.rest = rest := (reads_ok.mp read).2
          exact (takesFront_hexWord.suffix_of_ok ok).trans (List.suffix_append ['\\', 'u'] r)
        · exact absurd read not_reads_error
  all_goals exact absurd read not_reads_error

theorem takesFront_numericEscape : TakesFront numericEscape := by
  intro s x rest read
  unfold numericEscape at read
  split at read
  · exact absurd read not_reads_error
  · next high ok =>
      have suffix := takesFront_hexWord.suffix_of_ok ok
      split at read
      · exact absurd read not_reads_error
      split at read
      · split at read
        · exact absurd read not_reads_error
        · next low ok' =>
            obtain rfl : low.rest = rest := (reads_ok.mp read).2
            exact (takesFront_lowSurrogate.suffix_of_ok ok').trans suffix
      · obtain rfl : high.rest = rest := (reads_ok.mp read).2
        exact suffix

theorem takesFront_escape : TakesFront escape := by
  intro s x rest read
  unfold escape at read
  split at read
  · exact absurd read not_reads_error
  · next r =>
      exact (takesFront_numericEscape _ _ _ (reads_widen.mp read)).trans (List.suffix_cons 'u' r)
  · next c r _ =>
      split at read
      · obtain rfl : r = rest := (reads_ok.mp read).2
        exact List.suffix_cons c r
      · exact absurd read not_reads_error

theorem suffix_of_stringFrom {done text : String} {h : s.length ≤ t.length}
    (read : Reads (stringFrom t done s h) text rest) : rest <:+ s := by
  fun_induction stringFrom t done s h with
  | case1 | case3 | case5 => exact absurd read not_reads_error
  | case2 done r h =>
      obtain rfl : r = rest := (reads_ok.mp read).2
      exact List.suffix_cons '"' r
  | case4 done r h p ok _ ih =>
      have escaped := takesFront_escape.suffix_of_ok ok
      exact (ih read).trans (escaped.trans (List.suffix_cons '\\' r))
  | case6 done c r h quote slash plain _ ih => exact (ih read).trans (List.suffix_cons c r)

theorem takesFront_string : TakesFront string :=
  fun _ _ _ read => suffix_of_stringFrom read

/-! ## Numbers -/

theorem takesFront_someDigits : TakesFront someDigits := by
  intro s x rest read
  unfold someDigits at read
  split at read
  · exact absurd read not_reads_error
  · split at read
    · obtain rfl := (reads_ok.mp read).2
      exact List.dropWhile_suffix _
    · exact absurd read not_reads_error

theorem takesFront_wholePart : TakesFront wholePart := by
  intro s x rest read
  unfold wholePart at read
  split at read
  · next c r =>
      split at read
      · exact absurd read not_reads_error
      · obtain rfl : c :: r = rest := (reads_ok.mp read).2
        exact List.suffix_cons '0' (c :: r)
  · exact takesFront_someDigits _ _ _ read

theorem takesFront_fractionPart : TakesFront fractionPart := by
  intro s x rest read
  unfold fractionPart at read
  split at read
  · next r =>
      obtain ⟨_, inside, -⟩ := reads_map_widen.mp read
      exact (takesFront_someDigits _ _ _ inside).trans (List.suffix_cons '.' r)
  · obtain rfl := (reads_ok.mp read).2
    exact List.suffix_rfl

theorem takesFront_exponentSign : TakesFront exponentSign := by
  intro s x rest read
  unfold exponentSign at read
  split at read <;> obtain rfl := (reads_ok.mp read).2
  · exact List.suffix_cons '-' _
  · exact List.suffix_cons '+' _
  · exact List.suffix_rfl

theorem takesFront_signedDigits : TakesFront signedDigits := by
  intro s x rest read
  obtain ⟨sign, ok, read⟩ := reads_bind.mp read
  obtain ⟨ds, ok', read⟩ := reads_bind.mp read
  obtain rfl : ds.rest = rest := (reads_ok.mp read).2
  exact (takesFront_someDigits.suffix_of_ok ok').trans (takesFront_exponentSign.suffix_of_ok ok)

theorem takesFront_exponentPart : TakesFront exponentPart := by
  intro s x rest read
  unfold exponentPart at read
  split at read
  · next r =>
      obtain ⟨_, inside, -⟩ := reads_map_widen.mp read
      exact (takesFront_signedDigits _ _ _ inside).trans (List.suffix_cons 'e' r)
  · next r =>
      obtain ⟨_, inside, -⟩ := reads_map_widen.mp read
      exact (takesFront_signedDigits _ _ _ inside).trans (List.suffix_cons 'E' r)
  · obtain rfl := (reads_ok.mp read).2
    exact List.suffix_rfl

theorem takesFront_number (negative : Bool) : TakesFront (number negative) := by
  intro s x rest read
  obtain ⟨n, read, -⟩ := reads_number_iff.mp read
  obtain ⟨_, mid, _, mid', _, whole, fraction, exponent, -⟩ := reads_numeral_iff.mp read
  exact (takesFront_exponentPart _ _ _ exponent).trans
    ((takesFront_fractionPart _ _ _ fraction).trans (takesFront_wholePart _ _ _ whole))

/-! ## Members and items -/

namespace TakesFront

variable {reader : Reader α}

theorem member (takes : TakesFront reader) : TakesFront (member reader) := by
  intro s m rest read
  obtain ⟨r, mid, r', rfl, name, colon, content⟩ := reads_member_iff.mp read
  have behindName := suffix_of_skipBlanks colon (takes _ _ _ content)
  exact behindName.trans ((takesFront_string _ _ _ name).trans (List.suffix_cons '"' r))

theorem listed (takes : TakesFront reader) {brackets : Brackets} {xs : List α}
    (listed : Listed brackets reader s xs rest) : rest <:+ s := by
  induction listed with
  | last read close =>
      exact (suffix_of_skipBlanks close List.suffix_rfl).trans (takes _ _ _ read)
  | @more s mid r r' rest c x xs read comma next _ _ ih =>
      have further : rest <:+ r := by
        have behind : c :: r' <:+ r := next ▸ List.dropWhile_suffix _
        exact ih.trans behind
      exact (suffix_of_skipBlanks comma further).trans (takes _ _ _ read)

theorem items (takes : TakesFront reader) {brackets : Brackets} (apart : brackets.close ≠ ',') :
    TakesFront (items brackets reader) := by
  intro s xs rest read
  rcases (reads_items_iff apart).mp read with ⟨-, close⟩ | ⟨c, r, front, -, listed⟩
  · exact suffix_of_skipBlanks close List.suffix_rfl
  · have behind : c :: r <:+ s := front ▸ List.dropWhile_suffix _
    exact (takes.listed listed).trans behind

end TakesFront

/-! ## Values -/

theorem PlainValue.suffix {v : Value} (plain : PlainValue s v rest) : rest <:+ s := by
  cases plain with
  | null read | yes read | no read =>
      exact (takesFront_word _ _ _ _ read).trans (List.suffix_cons _ _)
  | str read => exact (takesFront_string _ _ _ read).trans (List.suffix_cons _ _)
  | negative read => exact (takesFront_number _ _ _ _ read).trans (List.suffix_cons _ _)
  | positive _ read => exact takesFront_number _ _ _ _ read

theorem AnyValue.suffix {inner : Option (Reader Value)}
    (takes : ∀ reader ∈ inner, TakesFront reader) {v : Value} (any : AnyValue inner s v rest) :
    rest <:+ skipBlanks s := by
  cases any with
  | arr front some read =>
      rw [front]
      exact ((takes _ some).items (by decide) _ _ _ read).trans (List.suffix_cons _ _)
  | obj front some read =>
      rw [front]
      exact ((takes _ some).member.items (by decide) _ _ _ read).trans (List.suffix_cons _ _)
  | plain plain => exact plain.suffix

/-- **A value is taken off the front of a text**, behind the blanks there. -/
theorem suffix_skipBlanks_of_value {depth : Nat} {v : Value} (read : Reads (value depth s) v rest) :
    rest <:+ skipBlanks s := by
  induction depth generalizing s v rest with
  | zero =>
      refine (anyValue_of_reads read).suffix ?_
      rintro _ ⟨⟩
  | succ depth ih =>
      refine (anyValue_of_reads read).suffix ?_
      rintro _ ⟨⟩ t w left inside
      exact (ih inside).trans (List.dropWhile_suffix _)

end Stencil.Json
