/-
# `Command.Spelling` — argument lists and their items

What an argument list asks for is decided by its items alone.  Every item that is not wrong can be
spelled as an argument of its own, so from an argument list any of its items can be left out.

* `Spells.items_cons` — an argument of its own adds its item, whatever follows;
* `exists_items_filter` — there is an argument list of whichever items are kept;
* `read_filter_notOutput` — leaving out the output file asks for the same, but for the output file.
-/
import Stencil.Proofs.Command.Layers

namespace Stencil.Command

/-! ## Arguments of one item -/

theorem piece_flag (flag : Flag) : piece flag.name = ⟨[.flag flag], none⟩ := by
  cases flag <;> decide

theorem piece_setting (setting : Setting) (value : String) :
    piece (setting.name ++ "=" ++ value) = ⟨[.setting setting value], none⟩ := by
  have split : (setting.name ++ "=" ++ value).toList =
      '-' :: '-' :: (setting.name.toList.drop 2 ++ '=' :: value.toList) := by
    cases setting <;> simp [Setting.name]
  have noEquals : '=' ∉ setting.name.toList.drop 2 := by
    cases setting <;> decide
  have option : optionOfName? (String.ofList (setting.name.toList.drop 2)) = some (.inr setting) := by
    cases setting <;> decide
  rw [piece, split]
  show named _ = _
  rw [named, splitAtEquals_front noEquals]
  simp only
  rw [option]
  show Piece.mk [Item.setting setting (String.ofList value.toList)] none = _
  rw [String.ofList_toList]

/-- `Spells argument item`: an argument stands for one item, which is not wrong. -/
structure Spells (argument : String) (item : Item) : Prop where
  piece : piece argument = ⟨[item], none⟩
  sound : ∀ e, item ≠ .wrong e

theorem Spells.items_cons {argument : String} {item : Item} (h : Spells argument item)
    (rest : List String) : items (argument :: rest) = item :: items rest := by
  have notEnd : argument ≠ "--" := by
    rintro rfl
    have wrong : Command.piece "--" = ⟨[.wrong (.unknownOption "--")], none⟩ := by decide
    obtain ⟨eq, -⟩ := (Piece.mk.injEq ..).mp (wrong.symm.trans h.piece)
    exact h.sound _ (List.cons.inj eq).1.symm
  rw [items.eq_def]
  simp only
  rw [if_neg notEnd, h.piece]
  rfl

/-! ## Spelling items anew -/

theorem positional_not_mem_letters (text : String) (l : List Char) :
    .positional text ∉ (letters l).items := by
  fun_induction letters l <;> simp_all

theorem positional_not_mem_named (text : String) (l : List Char) :
    .positional text ∉ (named l).items := by
  fun_cases named l <;> simp

theorem piece_cases (argument : String) :
    piece argument = ⟨[.positional argument], none⟩ ∨
      ∃ text, piece argument = named text ∨ piece argument = letters text := by
  unfold piece
  split
  · exact .inl rfl
  · exact .inr ⟨_, .inl rfl⟩
  · exact .inr ⟨_, .inr rfl⟩
  · exact .inl rfl

theorem exists_spells {argument : String} {item : Item} (mem : item ∈ (piece argument).items)
    (sound : ∀ e, item ≠ .wrong e) : ∃ spelling, Spells spelling item := by
  cases item with
  | flag flag => exact ⟨_, piece_flag flag, sound⟩
  | setting setting value => exact ⟨_, piece_setting setting value, sound⟩
  | wrong e => exact absurd rfl (sound e)
  | positional text =>
      -- Options have no positional item, so the argument is the text itself.
      rcases piece_cases argument with eq | ⟨l, eq | eq⟩
      · rw [eq] at mem
        obtain rfl : text = argument := by simpa using mem
        exact ⟨text, eq, sound⟩
      · rw [eq] at mem
        exact absurd mem (positional_not_mem_named text l)
      · rw [eq] at mem
        exact absurd mem (positional_not_mem_letters text l)

theorem exists_items_append {l : List Item} (spelled : ∀ item ∈ l, ∃ spelling, Spells spelling item) :
    ∃ front, ∀ rest, items (front ++ rest) = l ++ items rest := by
  induction l with
  | nil => exact ⟨[], fun _ => rfl⟩
  | cons item l ih =>
      obtain ⟨spelling, spells⟩ := spelled item List.mem_cons_self
      obtain ⟨front, eq⟩ := ih fun item mem => spelled item (List.mem_cons_of_mem _ mem)
      refine ⟨spelling :: front, fun rest => ?_⟩
      rw [List.cons_append, spells.items_cons, eq, List.cons_append]

section

variable (keep : Item → Bool)

theorem exists_items_filter_append {l tail : List Item}
    (spelled : ∀ item ∈ l, ∃ spelling, Spells spelling item)
    (kept : ∃ bare, items bare = tail.filter keep) :
    ∃ bare, items bare = (l ++ tail).filter keep := by
  obtain ⟨bare, eq⟩ := kept
  obtain ⟨front, append⟩ := exists_items_append (l := l.filter keep)
    fun item mem => spelled item (List.mem_filter.mp mem).1
  exact ⟨front ++ bare, by rw [append, eq, List.filter_append]⟩

/-- **Any items can be left out** of an argument list in which nothing is wrong. -/
theorem exists_items_filter {arguments : List String} (sound : ∀ e, .wrong e ∉ items arguments) :
    ∃ bare, items bare = (items arguments).filter keep := by
  fun_induction items arguments with
  | case1 => exact ⟨[], rfl⟩
  | case2 rest =>
      refine ⟨"--" :: rest.filter (keep ∘ .positional), ?_⟩
      rw [List.filter_map]
      rfl
  | case3 argument notEnd rest none ih =>
      refine exists_items_filter_append keep (fun item mem => exists_spells mem ?_)
        (ih fun e mem => sound e (List.mem_append_right _ mem))
      rintro e rfl
      exact sound e (List.mem_append_left _ mem)
  | case4 argument notEnd setting waiting => exact absurd (by simp) (sound (.missingValue setting))
  | case5 argument notEnd setting value rest waiting option =>
      exact absurd (by simp) (sound (.missingValue setting))
  | case6 argument notEnd setting value rest waiting plain ih =>
      rw [List.append_cons] at sound ⊢
      refine exists_items_filter_append keep (fun item mem => ?_)
        (ih fun e mem => sound e (List.mem_append_right _ mem))
      have unwrong : ∀ e, item ≠ .wrong e := by
        rintro e rfl
        exact sound e (List.mem_append_left _ mem)
      rcases List.mem_append.mp mem with mem | mem
      · exact exists_spells mem unwrong
      · rw [List.mem_singleton.mp mem]
        exact ⟨_, piece_setting setting value, nofun⟩

end

/-! ## Leaving out the output file -/

def Item.notOutput : Item → Bool
  | setting .output _ => false
  | _ => true

def Config.withoutOutput (config : Config) : Config :=
  { config with output := none }

def Draft.withoutOutput (d : Draft) : Draft :=
  { d with output := none }

variable {d d' : Draft} {config : Config} {l : List Item}

theorem not_wrong_of_read (h : d.read l = .ok (.run config)) (e : UsageError) : .wrong e ∉ l := by
  fun_induction Draft.read d l with
  | case1 => exact List.not_mem_nil
  | case2 | case3 | case4 | case5 | case7 | case9 => exact nomatch h
  | case6 d rest once ih => exact List.not_mem_cons_of_ne_of_not_mem nofun (ih h)
  | case8 d rest once ih => exact List.not_mem_cons_of_ne_of_not_mem nofun (ih h)
  | case10 d setting value rest d' set ih => exact List.not_mem_cons_of_ne_of_not_mem nofun (ih h)
  | case11 d text rest ih => exact List.not_mem_cons_of_ne_of_not_mem nofun (ih h)

theorem finish_withoutOutput (h : d.finish = .ok (.run config)) :
    d.withoutOutput.finish = .ok (.run config.withoutOutput) := by
  unfold Draft.finish at h ⊢
  cases positionals : d.positionals.toList with
  | nil =>
      rw [positionals] at h
      exact nomatch h
  | cons template values =>
      rw [positionals] at h
      obtain rfl := Request.run.inj (Except.ok.inj h)
      have same : d.withoutOutput.positionals = d.positionals := rfl
      rw [same, positionals]
      rfl

theorem map_eq_ok {ε α β : Type} {x : Except ε α} {f : α → β} {b : β} :
    x.map f = .ok b ↔ ∃ a, x = .ok a ∧ f a = b := by
  cases x with
  | error e => exact iff_of_false nofun fun ⟨_, eq, _⟩ => nomatch eq
  | ok a =>
      constructor
      · intro eq
        exact ⟨a, rfl, Except.ok.inj eq⟩
      · rintro ⟨a', eq, rfl⟩
        rw [eq]
        rfl

theorem set_withoutOutput {value : String} {setting : Setting} (h : d.set value setting = .ok d') :
    setting = .output ∧ d'.withoutOutput = d.withoutOutput ∨
      setting ≠ .output ∧ d.withoutOutput.set value setting = .ok d'.withoutOutput := by
  cases setting with
  | define =>
      obtain rfl := Except.ok.inj h
      exact .inr ⟨nofun, rfl⟩
  | envFile =>
      obtain ⟨path, name, rfl⟩ := map_eq_ok.mp h
      exact .inr ⟨nofun, map_eq_ok.mpr ⟨path, name, rfl⟩⟩
  | output =>
      obtain ⟨path, -, rfl⟩ := map_eq_ok.mp h
      exact .inl ⟨rfl, rfl⟩

theorem read_filter_notOutput (h : d.read l = .ok (.run config)) :
    d.withoutOutput.read (l.filter Item.notOutput) = .ok (.run config.withoutOutput) := by
  fun_induction Draft.read d l with
  | case1 d => exact finish_withoutOutput h
  | case2 | case3 | case4 | case5 | case7 | case9 => exact nomatch h
  | case6 d rest once ih =>
      rw [List.filter_cons_of_pos rfl, Draft.read]
      exact (if_neg once).trans (ih h)
  | case8 d rest once ih =>
      rw [List.filter_cons_of_pos rfl, Draft.read]
      exact (if_neg once).trans (ih h)
  | case10 d setting value rest d' set ih =>
      rcases set_withoutOutput set with ⟨rfl, eq⟩ | ⟨ne, eq⟩
      · rw [List.filter_cons_of_neg Bool.false_ne_true, ← eq]
        exact ih h
      · have kept : (Item.setting setting value).notOutput = true := by
          cases setting with
          | output => exact absurd rfl ne
          | define | envFile => rfl
        rw [List.filter_cons_of_pos kept, Draft.read, eq]
        exact ih h
  | case11 d text rest ih =>
      rw [List.filter_cons_of_pos rfl, Draft.read]
      exact ih h

theorem parse_of_items_filter {arguments bare : List String}
    (parsed : parse arguments = .ok (.run config))
    (same : items bare = (items arguments).filter Item.notOutput) :
    parse bare = .ok (.run config.withoutOutput) := by
  rw [parse, same]
  exact read_filter_notOutput parsed

end Stencil.Command
