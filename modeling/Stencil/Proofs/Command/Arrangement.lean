/-
# `Command.Arrangement` — the order and the spelling of options do not matter

What is to be done can be asked for by many argument lists.  Options may stand anywhere among the
positional arguments, and most of them can be written in several ways; a `--` may stand before
positional arguments at the end.  `Arrangement config arguments` collects these lists without reading
any of them:

    Interleaves config l      `l` are the items of the configuration in some order, in which the
                              positional texts and the defines keep theirs
    Renderings l arguments    the items one after the other, each by one of its spellings

Only texts that could be taken for something else are kept out of it (`Config.Plain`): those that
begin with a hyphen, and files without a name.

* `Rendering.items_append` — a spelling adds its item to the items of the list, whatever follows;
* `read_of_completes` — the reading of items in any order, by what is still missing from a draft;
* `run_arrangement` — hence every arrangement is understood, and they all do the same.
-/
import Stencil.Proofs.Command.Effects

namespace Stencil.Command

/-! ## Items of a configuration -/

def Unhyphened (text : String) : Prop :=
  text.toList.head? ≠ some '-'

instance : DecidablePred Unhyphened := fun _ => inferInstanceAs (Decidable (_ ≠ _))

/-- A configuration none of whose texts can be taken for an option or for nothing. -/
structure Config.Plain (config : Config) : Prop where
  positionals : ∀ text ∈ config.template :: config.values, text = "-" ∨ Unhyphened text
  defines : ∀ define ∈ config.defines, ∃ key text, Defines define key text ∧ Unhyphened key
  envFile : ∀ path ∈ config.envFile, path ≠ "" ∧ Unhyphened path
  output : ∀ path ∈ config.output, path ≠ "" ∧ Unhyphened path

/-- What an argument list has to say to ask for a configuration. -/
def Config.items (config : Config) : List Item :=
  (config.template :: config.values).map .positional ++ config.defines.map (.setting .define) ++
    List.replicate config.inline.toNat (.flag .inline) ++
    List.replicate config.dump.toNat (.flag .dump) ++
    config.envFile.toList.map (.setting .envFile) ++ config.output.toList.map (.setting .output)

def Item.positional? : Item → Option String
  | positional text => some text
  | flag _ | setting _ _ | wrong _ => none

def Item.valueOf? (setting : Setting) : Item → Option String
  | .setting other value => if other = setting then some value else none
  | flag _ | positional _ | wrong _ => none

/-- `Interleaves config l`: the items of a configuration in some order, in which the positional texts
and the defines keep theirs. -/
structure Interleaves (config : Config) (l : List Item) : Prop where
  rearranges : l.Perm config.items
  positionals : l.filterMap Item.positional? = config.template :: config.values
  defines : l.filterMap (Item.valueOf? .define) = config.defines

/-! ## Spellings -/

def Flag.names : Flag → List String
  | inline => ["-e", "--inline"]
  | dump => ["--dump"]
  | help => ["-h", "--help"]
  | version => ["-V", "--version"]

/-- The letters of a setting, which its value may follow at once. -/
def Setting.letters : Setting → List String
  | define => ["-D"]
  | envFile => []
  | output => ["-o"]

/-- The ways of writing a setting, its value apart. -/
def Setting.names (setting : Setting) : List String :=
  setting.letters ++ [setting.name]

/-- `Rendering item front`: the arguments `front` are a way of writing the item.  An equals sign
after a letter is no part of the value, so a value that begins with one cannot follow the letter at
once. -/
inductive Rendering : Item → List String → Prop
  | positional (text : String) : Rendering (.positional text) [text]
  | flag {flag : Flag} {name : String} : name ∈ flag.names → Rendering (.flag flag) [name]
  | apart {setting : Setting} {name : String} (value : String) : name ∈ setting.names →
      Rendering (.setting setting value) [name, value]
  | equals {setting : Setting} {name : String} (value : String) : name ∈ setting.names →
      Rendering (.setting setting value) [name ++ "=" ++ value]
  | attached {setting : Setting} {letter value : String} : letter ∈ setting.letters →
      value.toList.head? ≠ some '=' → Rendering (.setting setting value) [letter ++ value]

/-- `Renderings l arguments`: the arguments write the items one after the other.  Before positional
items at the end there may be a `--`. -/
inductive Renderings : List Item → List String → Prop
  | nil : Renderings [] []
  | cons {item : Item} {front : List String} {l : List Item} {rest : List String} :
      Rendering item front → Renderings l rest → Renderings (item :: l) (front ++ rest)
  | rest (texts : List String) : Renderings (texts.map .positional) ("--" :: texts)

/-- `Arrangement config arguments`: an argument list that says what a configuration wants, in some
order and by some spellings. -/
def Arrangement (config : Config) (arguments : List String) : Prop :=
  ∃ l, Interleaves config l ∧ Renderings l arguments

/-! ## From arguments to items -/

/-- An item that is asked for: its text cannot be taken for an option or for nothing. -/
def Item.Plain : Item → Prop
  | positional text => text = "-" ∨ Unhyphened text
  | setting _ value => value ≠ "" ∧ Unhyphened value
  | flag .inline | flag .dump => True
  | flag .help | flag .version | wrong _ => False

theorem Unhyphened.append {text : String} (unhyphened : Unhyphened text) (nonempty : text ≠ "")
    (back : String) : Unhyphened (text ++ back) := by
  obtain ⟨c, rest, eq⟩ := List.exists_cons_of_ne_nil (mt String.toList_eq_nil_iff.mp nonempty)
  rw [Unhyphened, eq] at unhyphened
  rw [Unhyphened, String.toList_append, eq]
  exact unhyphened

theorem Config.Plain.item {config : Config} (plain : config.Plain) {item : Item}
    (mem : item ∈ config.items) : item.Plain := by
  simp only [Config.items, List.mem_append, List.mem_map, List.mem_replicate,
    Option.mem_toList] at mem
  rcases mem with ((((⟨text, mem, rfl⟩ | ⟨define, mem, rfl⟩) | ⟨-, rfl⟩) | ⟨-, rfl⟩) |
    ⟨path, mem, rfl⟩) | ⟨path, mem, rfl⟩
  · exact plain.positionals text mem
  · obtain ⟨key, text, ⟨rfl, -, nonempty⟩, unhyphened⟩ := plain.defines define mem
    exact ⟨by simp, (unhyphened.append nonempty "=").append (by simp) text⟩
  · exact trivial
  · exact trivial
  · exact plain.envFile path mem
  · exact plain.output path mem

theorem piece_positional {text : String} (plain : text = "-" ∨ Unhyphened text) :
    piece text = ⟨[.positional text], none⟩ := by
  rcases plain with rfl | unhyphened
  · rfl
  · unfold piece
    split
    · rfl
    · next eq => exact absurd (by rw [eq]; rfl) unhyphened
    · next eq => exact absurd (by rw [eq]; rfl) unhyphened
    · rfl

theorem piece_name {flag : Flag} {name : String} (mem : name ∈ flag.names) :
    piece name = ⟨[.flag flag], none⟩ := by
  revert name
  cases flag <;> decide

theorem piece_waiting {setting : Setting} {name : String} (mem : name ∈ setting.names) :
    piece name = ⟨[], some setting⟩ := by
  revert name
  cases setting <;> decide

theorem toList_of_mem_letters {setting : Setting} {letter : String}
    (mem : letter ∈ setting.letters) :
    ∃ c, letter.toList = ['-', c] ∧ c ≠ '-' ∧ optionOfLetter? c = some (.inr setting) := by
  cases setting with
  | define =>
      obtain rfl := List.mem_singleton.mp mem
      exact ⟨'D', rfl, by decide, rfl⟩
  | envFile => exact absurd mem List.not_mem_nil
  | output =>
      obtain rfl := List.mem_singleton.mp mem
      exact ⟨'o', rfl, by decide, rfl⟩

theorem piece_of_letter {argument : String} {c : Char} {rest : List Char}
    (eq : argument.toList = '-' :: c :: rest) (hyphen : c ≠ '-') :
    piece argument = letters (c :: rest) := by
  unfold piece
  rw [eq]
  split
  · next bare => exact nomatch bare
  · next long =>
      obtain ⟨rfl, -⟩ := List.cons.inj (List.cons.inj long).2
      exact absurd rfl hyphen
  · next short =>
      rw [(List.cons.inj short).2]
  · next other => exact absurd rfl (other _)

theorem piece_attached {setting : Setting} {letter value : String}
    (mem : letter ∈ setting.letters) (nonempty : value ≠ "")
    (noEquals : value.toList.head? ≠ some '=') :
    piece (letter ++ value) = ⟨[.setting setting value], none⟩ := by
  obtain ⟨c, eq, hyphen, option⟩ := toList_of_mem_letters mem
  obtain ⟨first, rest, cons⟩ :=
    List.exists_cons_of_ne_nil (mt String.toList_eq_nil_iff.mp nonempty)
  have text : (letter ++ value).toList = '-' :: c :: first :: rest := by
    rw [String.toList_append, eq, cons]
    rfl
  have back : String.ofList (first :: rest) = value := by rw [← cons, String.ofList_toList]
  rw [cons, List.head?_cons, ne_eq, Option.some.injEq] at noEquals
  rw [piece_of_letter text hyphen, letters, option]
  simp only
  split
  · next empty => exact absurd empty (List.cons_ne_nil _ _)
  · next equals => exact absurd (List.cons.inj equals).1 noEquals
  · rw [back]

theorem piece_equals {setting : Setting} {name : String} (mem : name ∈ setting.names)
    (value : String) : piece (name ++ "=" ++ value) = ⟨[.setting setting value], none⟩ := by
  rcases List.mem_append.mp mem with letter | long
  · obtain ⟨c, eq, hyphen, option⟩ := toList_of_mem_letters letter
    have text : (name ++ "=" ++ value).toList = '-' :: c :: '=' :: value.toList := by
      rw [String.toList_append, String.toList_append, eq]
      rfl
    rw [piece_of_letter text hyphen, letters, option]
    simp only [String.ofList_toList]
  · obtain rfl := List.mem_singleton.mp long
    exact piece_setting setting value

theorem not_looksLikeOption {value : String} (unhyphened : Unhyphened value) :
    looksLikeOption value = false := by
  have start : value.startsWith "-" = false := by
    rw [String.startsWith_string_eq_false_iff]
    rintro ⟨rest, eq⟩
    exact unhyphened (by rw [← eq]; rfl)
  rw [looksLikeOption, start, Bool.false_and]

theorem items_apart {setting : Setting} {name value : String} (mem : name ∈ setting.names)
    (unhyphened : Unhyphened value) (rest : List String) :
    items (name :: value :: rest) = .setting setting value :: items rest := by
  have notEnd : name ≠ "--" := by
    rintro rfl
    cases setting <;> exact absurd mem (by decide)
  rw [items.eq_def]
  simp only
  rw [if_neg notEnd, piece_waiting mem]
  simp only [not_looksLikeOption unhyphened]
  rfl

/-- A spelling adds its item to the items of the arguments, whatever follows. -/
theorem Rendering.items_append {item : Item} {front : List String} (rendering : Rendering item front)
    (plain : item.Plain) (rest : List String) : items (front ++ rest) = item :: items rest := by
  cases rendering with
  | positional text => exact Spells.items_cons ⟨piece_positional plain, nofun⟩ rest
  | flag mem => exact Spells.items_cons ⟨piece_name mem, nofun⟩ rest
  | apart value mem => exact items_apart mem plain.2 rest
  | equals value mem => exact Spells.items_cons ⟨piece_equals mem value, nofun⟩ rest
  | attached mem noEquals =>
      exact Spells.items_cons ⟨piece_attached mem plain.1 noEquals, nofun⟩ rest

theorem Renderings.items_eq {l : List Item} {arguments : List String}
    (renderings : Renderings l arguments) (plain : ∀ item ∈ l, item.Plain) :
    items arguments = l := by
  induction renderings with
  | nil => rfl
  | @cons item front l rest rendering _ ih =>
      rw [rendering.items_append (plain item List.mem_cons_self),
        ih fun item mem => plain item (List.mem_cons_of_mem _ mem)]
  | rest texts => rfl

/-! ## From items to the configuration -/

/-- `Completes config d l`: with the items that are left, what has been said so far comes to the
configuration. -/
structure Completes (config : Config) (d : Draft) (l : List Item) : Prop where
  positionals : d.positionals.toList ++ l.filterMap Item.positional? =
    config.template :: config.values
  defines : d.defines.toList ++ l.filterMap (Item.valueOf? .define) = config.defines
  envFile : d.envFile.toList ++ l.filterMap (Item.valueOf? .envFile) = config.envFile.toList
  output : d.output.toList ++ l.filterMap (Item.valueOf? .output) = config.output.toList
  inline : d.inline.toNat + l.count (.flag .inline) = config.inline.toNat
  dump : d.dump.toNat + l.count (.flag .dump) = config.dump.toNat
  plain : ∀ item ∈ l, item.Plain

section

variable {config : Config} {d : Draft} {l : List Item} {text value : String} {setting : Setting}

theorem eq_of_toNat_eq {a b : Bool} (eq : a.toNat = b.toNat) : a = b := by
  revert a b
  decide

/-- What is given at most once has not been given before the one time that it is given. -/
theorem not_given {before whole : Bool} {more : Nat}
    (total : before.toNat + (more + 1) = whole.toNat) :
    before = false ∧ true.toNat + more = whole.toNat := by
  have := whole.toNat_le
  cases before with
  | false => exact ⟨rfl, by rw [← total]; simp [Nat.add_comm]⟩
  | true => simp at total; omega

theorem fileName_of_toList {before whole : Option String} {more : List String}
    (total : before.toList ++ value :: more = whole.toList) (nonempty : value ≠ "") :
    Draft.fileName setting before value = .ok (some value) ∧
      (some value).toList ++ more = whole.toList := by
  cases before with
  | none => exact ⟨by simp [Draft.fileName, nonempty], total⟩
  | some other =>
      cases whole <;> simp at total

theorem Completes.finish (h : Completes config d []) : d.finish = .ok (.run config) := by
  have positionals : d.positionals.toList = config.template :: config.values := by
    simpa using h.positionals
  have defines : d.defines.toList = config.defines := by simpa using h.defines
  have envFile : d.envFile = config.envFile := by simpa using congrArg List.head? h.envFile
  have output : d.output = config.output := by simpa using congrArg List.head? h.output
  have inline : d.inline = config.inline := eq_of_toNat_eq h.inline
  have dump : d.dump = config.dump := eq_of_toNat_eq h.dump
  rw [Draft.finish, positionals, defines, envFile, output, inline, dump]

theorem Completes.positional (h : Completes config d (.positional text :: l)) :
    Completes config { d with positionals := d.positionals.push text } l where
  positionals := by
    rw [Array.toList_push, List.append_assoc]
    exact h.positionals
  defines := h.defines
  envFile := h.envFile
  output := h.output
  inline := h.inline
  dump := h.dump
  plain := fun item mem => h.plain item (List.mem_cons_of_mem _ mem)

theorem Completes.inlined (h : Completes config d (.flag .inline :: l)) :
    d.inline = false ∧ Completes config { d with inline := true } l := by
  have total := h.inline
  rw [List.count_cons_self] at total
  obtain ⟨before, after⟩ := not_given total
  exact ⟨before, h.positionals, h.defines, h.envFile, h.output, after, h.dump,
    fun item mem => h.plain item (List.mem_cons_of_mem _ mem)⟩

theorem Completes.dumped (h : Completes config d (.flag .dump :: l)) :
    d.dump = false ∧ Completes config { d with dump := true } l := by
  have total := h.dump
  rw [List.count_cons_self] at total
  obtain ⟨before, after⟩ := not_given total
  exact ⟨before, h.positionals, h.defines, h.envFile, h.output, h.inline, after,
    fun item mem => h.plain item (List.mem_cons_of_mem _ mem)⟩

theorem Completes.set (h : Completes config d (.setting setting value :: l)) :
    ∃ d', d.set value setting = .ok d' ∧ Completes config d' l := by
  have nonempty : value ≠ "" := (h.plain _ List.mem_cons_self).1
  have plain (item : Item) (mem : item ∈ l) : item.Plain :=
    h.plain item (List.mem_cons_of_mem _ mem)
  cases setting with
  | define =>
      refine ⟨_, rfl, h.positionals, ?_, h.envFile, h.output, h.inline, h.dump, plain⟩
      rw [Array.toList_push, List.append_assoc]
      exact h.defines
  | envFile =>
      obtain ⟨name, after⟩ := fileName_of_toList h.envFile nonempty
      exact ⟨_, map_eq_ok.mpr ⟨_, name, rfl⟩, h.positionals, h.defines, after, h.output, h.inline,
        h.dump, plain⟩
  | output =>
      obtain ⟨name, after⟩ := fileName_of_toList h.output nonempty
      exact ⟨_, map_eq_ok.mpr ⟨_, name, rfl⟩, h.positionals, h.defines, h.envFile, after, h.inline,
        h.dump, plain⟩

theorem read_of_completes (h : Completes config d l) : d.read l = .ok (.run config) := by
  induction l generalizing d with
  | nil => exact h.finish
  | cons item l ih =>
      cases item with
      | positional text => exact ih h.positional
      | flag flag =>
          cases flag with
          | inline =>
              obtain ⟨once, after⟩ := h.inlined
              rw [Draft.read, once]
              exact ih after
          | dump =>
              obtain ⟨once, after⟩ := h.dumped
              rw [Draft.read, once]
              exact ih after
          | help | version => exact (h.plain _ List.mem_cons_self).elim
      | setting setting value =>
          obtain ⟨d', set, after⟩ := h.set
          rw [Draft.read, set]
          exact ih after
      | wrong e => exact (h.plain _ List.mem_cons_self).elim

theorem filterMap_setting (setting other : Setting) (values : List String) :
    (values.map (.setting other)).filterMap (Item.valueOf? setting) =
      if other = setting then values else [] := by
  rw [List.filterMap_map]
  split
  · next same =>
      have given : Item.valueOf? setting ∘ Item.setting other = some := by
        funext value
        exact if_pos same
      rw [given, List.filterMap_some]
  · next differs =>
      rw [List.filterMap_eq_nil_iff]
      intro value _
      exact if_neg differs

theorem filterMap_items (config : Config) :
    config.items.filterMap (Item.valueOf? .envFile) = config.envFile.toList ∧
      config.items.filterMap (Item.valueOf? .output) = config.output.toList := by
  have texts (setting : Setting) (l : List String) :
      (l.map .positional).filterMap (Item.valueOf? setting) = [] :=
    List.filterMap_eq_nil_iff.mpr (by simp [Item.valueOf?])
  have flags (setting : Setting) (n : Nat) (flag : Flag) :
      (List.replicate n (.flag flag)).filterMap (Item.valueOf? setting) = [] :=
    List.filterMap_eq_nil_iff.mpr (by simp [Item.valueOf?])
  simp only [Config.items, List.filterMap_append, texts, flags, filterMap_setting]
  exact ⟨by simp, by simp⟩

theorem count_items (config : Config) :
    config.items.count (.flag .inline) = config.inline.toNat ∧
      config.items.count (.flag .dump) = config.dump.toNat := by
  have texts (flag : Flag) (l : List String) : (l.map Item.positional).count (.flag flag) = 0 :=
    List.count_eq_zero.mpr (by simp)
  have values (flag : Flag) (setting : Setting) (l : List String) :
      (l.map (Item.setting setting)).count (.flag flag) = 0 :=
    List.count_eq_zero.mpr (by simp)
  simp only [Config.items, List.count_append, texts, values, List.count_replicate]
  exact ⟨by simp, by simp⟩

theorem eq_toList_of_perm {texts : List String} {o : Option String} (perm : texts.Perm o.toList) :
    texts = o.toList := by
  cases o with
  | none => exact List.perm_nil.mp perm
  | some text => exact List.perm_singleton.mp perm

theorem Interleaves.completes (h : Interleaves config l) (plain : config.Plain) :
    Completes config .blank l where
  positionals := h.positionals
  defines := h.defines
  envFile := by
    have perm := h.rearranges.filterMap (Item.valueOf? .envFile)
    rw [(filterMap_items config).1] at perm
    exact eq_toList_of_perm perm
  output := by
    have perm := h.rearranges.filterMap (Item.valueOf? .output)
    rw [(filterMap_items config).2] at perm
    exact eq_toList_of_perm perm
  inline := by
    rw [h.rearranges.count_eq, (count_items config).1]
    exact Nat.zero_add _
  dump := by
    rw [h.rearranges.count_eq, (count_items config).2]
    exact Nat.zero_add _
  plain := fun item mem => plain.item (h.rearranges.mem_iff.mp mem)

end

/-! ## Arrangements -/

theorem Arrangement.parse_eq {config : Config} {arguments : List String}
    (arrangement : Arrangement config arguments) (plain : config.Plain) :
    parse arguments = .ok (.run config) := by
  obtain ⟨l, interleaves, renderings⟩ := arrangement
  have completes := interleaves.completes plain
  rw [parse, renderings.items_eq completes.plain]
  exact read_of_completes completes

/-- **The order and the spelling of options do not matter.**  Every arrangement of a configuration
is understood as asking for it, and on every host any two of them are the same action: they read and
write the same files and end alike. -/
theorem run_arrangement {config : Config} (plain : config.Plain) {arguments : List String}
    (arrangement : Arrangement config arguments) :
    parse arguments = .ok (.run config) ∧
      ∀ others, Arrangement config others →
        ∀ (m : Type → Type) [Monad m] [Host m] (log : Option String),
          (run arguments log : m Outcome) = run others log := by
  have parsed := arrangement.parse_eq plain
  refine ⟨parsed, fun others other m _ _ log => ?_⟩
  rw [run_of_parse parsed, run_of_parse (other.parse_eq plain)]

/-- A define in front and a lone hyphen behind `--`, or the define at the end. -/
theorem run_arrangement_hyphen :
    Config.Plain ⟨"t", ["-"], false, ["k=v"], none, none, false⟩ ∧
      Arrangement ⟨"t", ["-"], false, ["k=v"], none, none, false⟩ ["-D=k=v", "t", "--", "-"] ∧
      Arrangement ⟨"t", ["-"], false, ["k=v"], none, none, false⟩ ["t", "-", "--define", "k=v"] ∧
      ∀ log : Option String, (run ["-D=k=v", "t", "--", "-"] log : StateM World Outcome) =
        run ["t", "-", "--define", "k=v"] log := by
  have plain : Config.Plain ⟨"t", ["-"], false, ["k=v"], none, none, false⟩ := by
    refine ⟨by decide, ?_, nofun, nofun⟩
    intro define mem
    obtain rfl := List.mem_singleton.mp mem
    exact ⟨"k", "v", ⟨rfl, by decide, by decide⟩, by decide⟩
  have front : Arrangement ⟨"t", ["-"], false, ["k=v"], none, none, false⟩
      ["-D=k=v", "t", "--", "-"] := by
    refine ⟨[.setting .define "k=v", .positional "t", .positional "-"], ⟨by decide, rfl, rfl⟩, ?_⟩
    have define : Rendering (.setting .define "k=v") ["-D=k=v"] :=
      @Rendering.equals .define "-D" "k=v" (by decide)
    exact .cons define (.cons (.positional "t") (.rest ["-"]))
  have behind : Arrangement ⟨"t", ["-"], false, ["k=v"], none, none, false⟩
      ["t", "-", "--define", "k=v"] := by
    refine ⟨[.positional "t", .positional "-", .setting .define "k=v"], ⟨by decide, rfl, rfl⟩, ?_⟩
    exact .cons (.positional "t") (.cons (.positional "-") (.cons (.apart "k=v" (by decide)) .nil))
  exact ⟨plain, front, behind, (run_arrangement plain front).2 _ behind (StateM World)⟩

end Stencil.Command
