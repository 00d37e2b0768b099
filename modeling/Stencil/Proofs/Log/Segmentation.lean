/-
# `Log.Segmentation` — the log and the expressions describe the same segments

The walk over a source tells the log at which offsets it changes its mode, and gives expressions.
It records an offset when it has read a delimiter, and makes an expression of what is in its buffer,
and nothing in a step ties the two together.  Here they are tied: the offsets cut the source into
slices, and the expressions are these slices, one for one.

    source   text  `${`  key  `}`  text  `#{`  note  `}`  text
    events            ↑        ↑            ↑          ↑
    exprs    literal     var       literal     comment    literal

Counted from 0, the events with an even number open markup and those with an odd number close it.
So `Opening` says what an even event, the end of the slice before it and the expression of that
slice have to do with the source, `Closing` the same of an odd event, and `Segmentation` that all of
them do, with what is said of the last slice, which no event ends.

The proof does not look at the walk again.  `Segments` knows what is left of the source at each
event, and the offset is told by what is left (`delimited`).
-/
import Stencil.Log
import Stencil.Proofs.Grammar.Segments

namespace Stencil

namespace Grammar

/-! ## What a text part stands for -/

/-- The characters that a text without markup stands for, its escapes resolved. -/
def unescaped : List Char → List Char
  | [] => []
  | ['\\'] => ['\x00']
  | '\\' :: c :: rest => resolve c :: unescaped rest
  | c :: rest => c :: unescaped rest

theorem unescaped_plain {c : Char} (slash : c ≠ '\\') (rest : List Char) :
    unescaped (c :: rest) = c :: unescaped rest := by
  rw [unescaped]
  · exact fun eq _ => slash eq
  · exact fun _ _ eq _ => slash eq

theorem textPart_eq (s : List Char) : textPart s = (unescaped s, none) ∨
    ∃ (read : List Char) (kind : Markup) (body : List Char),
      s = read ++ kind.sigil :: '{' :: body ∧ textPart s = (unescaped read, some (kind, body)) := by
  induction s using unescaped.induct with
  | case1 => exact .inl textPart_nil
  | case2 => exact .inl textPart_backslash
  | case3 c rest ih =>
      rw [textPart_escape]
      rcases ih with eq | ⟨read, kind, body, rfl, eq⟩
      · exact .inl (by rw [eq, unescaped])
      · exact .inr ⟨'\\' :: c :: read, kind, body, rfl, by rw [eq, unescaped]⟩
  | case4 c rest alone more ih =>
      have slash : c ≠ '\\' := by
        rintro rfl
        cases rest with
        | nil => exact alone rfl rfl
        | cons d rest => exact more d rest rfl rfl
      by_cases opens : Opens (c :: rest)
      · obtain ⟨kind, body, eq⟩ := opens
        exact .inr ⟨[], kind, body, eq, by rw [eq, textPart_opener, unescaped]⟩
      · rw [textPart_plain slash opens]
        rcases ih with eq | ⟨read, kind, body, rfl, eq⟩
        · exact .inl (by rw [eq, unescaped_plain slash])
        · exact .inr ⟨c :: read, kind, body, rfl, by rw [eq, unescaped_plain slash]⟩

theorem textPart_none {s text : List Char} (h : textPart s = (text, none)) :
    text = unescaped s := by
  rcases textPart_eq s with eq | ⟨read, kind, body, -, eq⟩
  · rw [eq] at h
    exact (congrArg Prod.fst h).symm
  · rw [eq] at h
    exact nomatch congrArg Prod.snd h

theorem textPart_some {s text body : List Char} {kind : Markup}
    (h : textPart s = (text, some (kind, body))) :
    ∃ read, s = read ++ kind.sigil :: '{' :: body ∧ text = unescaped read := by
  rcases textPart_eq s with eq | ⟨read, kind', body', eq, split⟩
  · rw [eq] at h
    exact nomatch congrArg Prod.snd h
  · rw [split] at h
    obtain ⟨rfl, rfl, rfl⟩ : _ ∧ _ ∧ _ := by simpa using h
    exact ⟨read, eq, rfl⟩

end Grammar

/-! ## Segmentations -/

/-- The event `e` opens markup after a text that begins at `start`, and `x` is that text. -/
structure Opening (source : List Char) (start : Nat) (e : Transition) (x : Expr) : Prop where
  source_eq : e.source = .text
  target_eq :
    e.target = .markup .var ∧ source.extract (e.offset - 2) e.offset = ['$', '{'] ∨
      e.target = .markup .comment ∧ source.extract (e.offset - 2) e.offset = ['#', '{']
  after : start + 2 ≤ e.offset
  bounded : e.offset ≤ source.length
  literal : x = .literal
    (String.ofList (Grammar.unescaped (source.extract start (e.offset - 2))))

/-- The event `e'` closes the markup that `e` opens, and `x` is that markup. -/
structure Closing (source : List Char) (e e' : Transition) (x : Expr) : Prop where
  source_eq : e'.source = e.target
  target_eq : e'.target = .text
  after : e.offset < e'.offset
  bounded : e'.offset ≤ source.length
  brace : source.extract (e'.offset - 1) e'.offset = ['}']
  noBrace : '}' ∉ source.extract e.offset (e'.offset - 1)
  var : e.target = .markup .var →
    x = .var (String.ofList (source.extract e.offset (e'.offset - 1)))
  comment : e.target = .markup .comment → x = .comment ""

/-- From `start` on, the events cut the source into slices, and the expressions are these slices. -/
structure Segmentation (source : List Char) (start : Nat) (events : List Transition)
    (exprs : List Expr) : Prop where
  length_eq : exprs.length = events.length + 1
  increasing : (start :: events.map (·.offset)).Pairwise (· < ·)
  opening : ∀ i e, events[2 * i]? = some e →
    ∃ o x, (start :: events.map (·.offset))[2 * i]? = some o ∧ exprs[2 * i]? = some x ∧
      Opening source o e x
  closing : ∀ i e', events[2 * i + 1]? = some e' →
    ∃ e x, events[2 * i]? = some e ∧ exprs[2 * i + 1]? = some x ∧ Closing source e e' x
  lastText : ∀ i, events.length = 2 * i →
    ∃ o, (start :: events.map (·.offset))[2 * i]? = some o ∧
      exprs[2 * i]? = some (.literal (String.ofList (Grammar.unescaped (source.drop o))))
  lastMarkup : ∀ i, events.length = 2 * i + 1 →
    ∃ e, events[2 * i]? = some e ∧ '}' ∉ source.drop e.offset ∧
      (e.target = .markup .var →
        exprs[2 * i + 1]? = some (.literal (String.ofList (source.drop e.offset)))) ∧
      (e.target = .markup .comment → exprs[2 * i + 1]? = some (.literal ""))

variable {source : List Char} {start : Nat} {e e' : Transition} {x x' : Expr} {kind : Markup}

namespace Segmentation

/-- Text up to the end of the source. -/
theorem last : Segmentation source start []
    [.literal (String.ofList (Grammar.unescaped (source.drop start)))] where
  length_eq := rfl
  increasing := List.pairwise_singleton _ _
  opening := by
    intro i e he
    exact nomatch he
  closing := by
    intro i e' he'
    exact nomatch he'
  lastText := by
    intro i len
    obtain rfl : i = 0 := by
      rw [List.length_nil] at len
      omega
    exact ⟨start, rfl, rfl⟩
  lastMarkup := by
    intro i len
    exact nomatch len

/-- Text, an opener, and no closing brace up to the end of the source. -/
theorem unclosed (opening : Opening source start e x) (target : e.target = .markup kind)
    (noBrace : '}' ∉ source.drop e.offset) :
    Segmentation source start [e] [x, .literal (kind.kept (source.drop e.offset))] where
  length_eq := rfl
  increasing := by
    have lt := opening.after
    rw [List.map_singleton, List.pairwise_pair]
    omega
  opening := by
    intro i e₁ he
    cases i with
    | zero =>
        obtain rfl : e = e₁ := Option.some.inj he
        exact ⟨start, x, rfl, rfl, opening⟩
    | succ i => exact nomatch he
  closing := by
    intro i e' he'
    exact nomatch he'
  lastText := by
    intro i len
    rw [List.length_singleton] at len
    omega
  lastMarkup := by
    intro i len
    obtain rfl : i = 0 := by
      rw [List.length_singleton] at len
      omega
    refine ⟨e, rfl, noBrace, ?_, ?_⟩
    · intro var
      obtain rfl := Mode.markup.inj (target.symm.trans var)
      rfl
    · intro comment
      obtain rfl := Mode.markup.inj (target.symm.trans comment)
      rfl

/-- Text, markup, and what follows its closing brace. -/
theorem cons {events : List Transition} {exprs : List Expr} (opening : Opening source start e x)
    (closing : Closing source e e' x') (rest : Segmentation source e'.offset events exprs) :
    Segmentation source start (e :: e' :: events) (x :: x' :: exprs) where
  length_eq := by simp [rest.length_eq]
  increasing := by
    have lt : start < e.offset := by
      have := opening.after
      omega
    have later := (List.pairwise_cons.mp rest.increasing).1
    rw [List.map_cons, List.map_cons]
    refine .cons ?_ (.cons ?_ rest.increasing)
    · intro o ho
      rcases List.mem_cons.mp ho with rfl | ho
      · exact lt
      · rcases List.mem_cons.mp ho with rfl | ho
        · exact lt.trans closing.after
        · exact (lt.trans closing.after).trans (later o ho)
    · intro o ho
      rcases List.mem_cons.mp ho with rfl | ho
      · exact closing.after
      · exact closing.after.trans (later o ho)
  opening := by
    intro i e₁ he
    cases i with
    | zero =>
        obtain rfl : e = e₁ := Option.some.inj he
        exact ⟨start, x, rfl, rfl, opening⟩
    | succ i => exact rest.opening i e₁ he
  closing := by
    intro i e₂ he'
    cases i with
    | zero =>
        obtain rfl : e' = e₂ := Option.some.inj he'
        exact ⟨e, x', rfl, rfl, closing⟩
    | succ i => exact rest.closing i e₂ he'
  lastText := by
    intro i len
    cases i with
    | zero => exact nomatch len
    | succ i => exact rest.lastText i (by simpa [Nat.mul_succ] using len)
  lastMarkup := by
    intro i len
    cases i with
    | zero => exact absurd len (by simp)
    | succ i => exact rest.lastMarkup i (by simpa [Nat.mul_succ] using len)

end Segmentation

/-! ## Offsets are what is not left -/

theorem length_sub_eq {before after : List Char} (eq : source = before ++ after) :
    source.length - after.length = before.length := by
  rw [eq, List.length_append, Nat.add_sub_cancel]

theorem extract_eq {a b c : List Char} {stop : Nat} (eq : source = a ++ (b ++ c))
    (hstart : start = a.length) (hstop : stop = a.length + b.length) :
    source.extract start stop = b := by
  subst eq hstart hstop
  simp

/-- The offset after a delimiter, the delimiter, and the slice in front of it. -/
theorem delimited {before slice delim after : List Char}
    (eq : source = before ++ (slice ++ (delim ++ after))) :
    source.length - after.length = before.length + slice.length + delim.length ∧
      source.extract (before.length + slice.length)
        (before.length + slice.length + delim.length) = delim ∧
      source.extract before.length (before.length + slice.length) = slice := by
  have whole : source = (before ++ slice ++ delim) ++ after := by simp [eq]
  refine ⟨?_, ?_, extract_eq eq rfl rfl⟩
  · rw [length_sub_eq whole, List.length_append, List.length_append]
  · exact extract_eq (a := before ++ slice) (c := after) (by simp [eq]) (by simp) (by simp)

variable {before read body after : List Char}

theorem Opening.of_read (eq : source = before ++ (read ++ kind.sigil :: '{' :: body)) :
    Opening source before.length ⟨.text, .markup kind, source.length - body.length⟩
      (.literal (String.ofList (Grammar.unescaped read))) := by
  have cut : source = before ++ (read ++ ([kind.sigil, '{'] ++ body)) := eq
  obtain ⟨offset, opener, slice⟩ := delimited cut
  have bounded : source.length - body.length ≤ source.length := Nat.sub_le _ _
  rw [offset] at bounded ⊢
  refine ⟨rfl, ?_, by simp, bounded, by simp [slice]⟩
  cases kind with
  | var => exact .inl ⟨rfl, opener⟩
  | comment => exact .inr ⟨rfl, opener⟩

theorem Closing.of_body (eq : source = before ++ (body ++ '}' :: after)) (noBrace : '}' ∉ body) :
    Closing source ⟨.text, .markup kind, source.length - (body ++ '}' :: after).length⟩
      ⟨.markup kind, .text, source.length - after.length⟩ (kind.expr (kind.kept body)) := by
  have cut : source = before ++ (body ++ (['}'] ++ after)) := eq
  obtain ⟨offset, brace, slice⟩ := delimited cut
  have bounded : source.length - after.length ≤ source.length := Nat.sub_le _ _
  rw [offset] at bounded
  rw [length_sub_eq eq, offset]
  have lt : before.length < before.length + body.length + ['}'].length := by
    rw [List.length_singleton]
    omega
  refine ⟨rfl, rfl, lt, bounded, brace, by simpa [slice] using noBrace, ?_, ?_⟩
  · intro var
    obtain rfl := Mode.markup.inj var
    simp [slice, Markup.expr, Markup.kept, Markup.gathers]
  · intro comment
    obtain rfl := Mode.markup.inj comment
    rfl

theorem Segmentation.of_segments {s : List Char} {events : List Transition} {exprs : List Expr}
    (h : Grammar.Segments source.length s events exprs) :
    ∀ {before : List Char}, source = before ++ s →
      Segmentation source before.length events exprs := by
  induction h with
  | @text s text split =>
      intro before eq
      have left : source.drop before.length = s := by rw [eq, List.drop_left]
      rw [Grammar.textPart_none split, ← left]
      exact .last
  | @unclosed s text body kind split noBrace =>
      intro before eq
      obtain ⟨read, rfl, rfl⟩ := Grammar.textPart_some split
      have opened : source = (before ++ read ++ [kind.sigil, '{']) ++ body := by simp [eq]
      have left : source.drop (source.length - body.length) = body := by
        rw [length_sub_eq opened, opened, List.drop_left]
      have only := unclosed (Opening.of_read eq) rfl (by rwa [left])
      rwa [left] at only
  | @closed s text body after kind events exprs split noBrace _ ih =>
      intro before eq
      obtain ⟨read, rfl, rfl⟩ := Grammar.textPart_some split
      have opened : source = (before ++ read ++ [kind.sigil, '{']) ++ (body ++ '}' :: after) := by
        simp [eq]
      have closed : source = (before ++ read ++ [kind.sigil, '{'] ++ body ++ ['}']) ++ after := by
        simp [eq]
      have rest := ih closed
      rw [← length_sub_eq closed] at rest
      exact .cons (Opening.of_read eq) (Closing.of_body opened noBrace) rest

/-! ## The log -/

namespace Log

def transitions (events : List Event) : List Transition :=
  events.filterMap fun
    | .transition change => some change
    | _ => none

theorem transitions_compiling (source : String) (found : Compiled) :
    transitions (compiling source found) = found.transitions := by
  rw [transitions, compiling, List.filterMap_append, List.filterMap_map]
  have last : [Event.compiled source.utf8ByteSize found.exprs.length].filterMap
      (fun | .transition change => some change | _ => none) = ([] : List Transition) := rfl
  rw [last, List.append_nil]
  exact List.filterMap_some

end Log

/-- **The log of compiling a source and its expressions describe the same segments of it**, and the
last event tells how many there are. -/
theorem compile_segmentation (source : String) :
    Segmentation source.toList 0 (Log.transitions (Log.compiling source (scan source)))
        (compile source) ∧
      (Log.compiling source (scan source)).getLast? = some (.compiled source.utf8ByteSize
        ((Log.transitions (Log.compiling source (scan source))).length + 1)) := by
  have segmentation : Segmentation source.toList 0 (scan source).transitions (compile source) :=
    .of_segments (scan_segments source) (List.nil_append _).symm
  rw [Log.transitions_compiling]
  refine ⟨segmentation, ?_⟩
  rw [← segmentation.length_eq, Log.compiling, List.getLast?_append]
  rfl

end Stencil
