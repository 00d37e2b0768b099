/-
# `Command.parse` — the arguments of the command

Arguments are read from left to right.

* `Item` — what an argument list is made of: flags, settings with their values, and positional texts;
* `items` — the items of an argument list.  A setting takes its value from the same argument, after
  the letter or after an equals sign, or else from the next one, which then must not look like an
  option; after `--` every argument is positional;
* `parse` — what the items ask for.  Help and version are answered as soon as they are met, and the
  first thing that is wrong ends the reading; only that the template is missing is found out at the
  end.
-/
namespace Stencil.Command

/-! ## What there is -/

/-- Options without a value. -/
inductive Flag where
  | inline
  | dump
  | help
  | version
  deriving DecidableEq, Repr

/-- Options with a value. -/
inductive Setting where
  | define
  | envFile
  | output
  deriving DecidableEq, Repr

def optionOfLetter? : Char → Option (Flag ⊕ Setting)
  | 'e' => some (.inl .inline)
  | 'h' => some (.inl .help)
  | 'V' => some (.inl .version)
  | 'D' => some (.inr .define)
  | 'o' => some (.inr .output)
  | _ => none

def optionOfName? : String → Option (Flag ⊕ Setting)
  | "inline" => some (.inl .inline)
  | "dump" => some (.inl .dump)
  | "help" => some (.inl .help)
  | "version" => some (.inl .version)
  | "define" => some (.inr .define)
  | "env-file" => some (.inr .envFile)
  | "output" => some (.inr .output)
  | _ => none

/-- What can be wrong with an argument list. -/
inductive UsageError where
  | unknownOption (text : String)
  | unwantedValue (flag : Flag)
  | missingValue (setting : Setting)
  | emptyValue (setting : Setting)
  | repeatedFlag (flag : Flag)
  | repeatedSetting (setting : Setting)
  | missingTemplate
  deriving DecidableEq, Repr

def Flag.name : Flag → String
  | inline => "--inline"
  | dump => "--dump"
  | help => "--help"
  | version => "--version"

def Setting.name : Setting → String
  | define => "--define"
  | envFile => "--env-file"
  | output => "--output"

def UsageError.message : UsageError → String
  | unknownOption text => "unexpected argument '" ++ text ++ "'"
  | unwantedValue flag => "no value may be given for '" ++ flag.name ++ "'"
  | missingValue setting => "a value is required for '" ++ setting.name ++ "'"
  | emptyValue setting => "the value of '" ++ setting.name ++ "' may not be empty"
  | repeatedFlag flag => "'" ++ flag.name ++ "' may not be given more than once"
  | repeatedSetting setting => "'" ++ setting.name ++ "' may not be given more than once"
  | missingTemplate => "the argument <TEMPLATE> is required"

/-- A part of an argument list. -/
inductive Item where
  | flag (flag : Flag)
  | setting (setting : Setting) (value : String)
  | positional (text : String)
  | wrong (e : UsageError)
  deriving DecidableEq, Repr

/-! ## Taking arguments apart -/

/-- The parts of one argument, and the setting that still waits for its value. -/
structure Piece where
  items : List Item
  waiting : Option Setting
  deriving DecidableEq, Repr

/-- Splits a text at its first equals sign. -/
def splitAtEquals (text : List Char) : List Char × Option (List Char) :=
  (text.takeWhile (· != '='), (text.dropWhile (· != '=')).tail?)

/-- An argument of letters, after its hyphen: flags, and at most one setting at the end, which takes
what follows its letter as its value, a leading equals sign apart. -/
def letters : List Char → Piece
  | [] => ⟨[], none⟩
  | c :: rest =>
    match optionOfLetter? c with
    | none => ⟨[.wrong (.unknownOption (String.ofList ['-', c]))], none⟩
    | some (.inl flag) => { letters rest with items := .flag flag :: (letters rest).items }
    | some (.inr setting) =>
      match rest with
      | [] => ⟨[], some setting⟩
      | '=' :: value => ⟨[.setting setting (String.ofList value)], none⟩
      | value => ⟨[.setting setting (String.ofList value)], none⟩

/-- An argument with a name, after its two hyphens. -/
def named (text : List Char) : Piece :=
  let (name, value) := splitAtEquals text
  match optionOfName? (String.ofList name), value with
  | none, _ => ⟨[.wrong (.unknownOption (String.ofList ('-' :: '-' :: name)))], none⟩
  | some (.inl flag), none => ⟨[.flag flag], none⟩
  | some (.inl flag), some _ => ⟨[.wrong (.unwantedValue flag)], none⟩
  | some (.inr setting), none => ⟨[], some setting⟩
  | some (.inr setting), some value => ⟨[.setting setting (String.ofList value)], none⟩

/-- One argument taken apart; a hyphen alone is positional. -/
def piece (argument : String) : Piece :=
  match argument.toList with
  | ['-'] => ⟨[.positional argument], none⟩
  | '-' :: '-' :: text => named text
  | '-' :: text => letters text
  | _ => ⟨[.positional argument], none⟩

/-- Whether an argument looks like an option, and so cannot be the value of the setting before it. -/
def looksLikeOption (argument : String) : Bool :=
  argument.startsWith "-" && argument != "-"

def items : List String → List Item
  | [] => []
  | argument :: rest =>
    if argument = "--" then rest.map .positional
    else
      match (piece argument).waiting, rest with
      | none, rest => (piece argument).items ++ items rest
      | some setting, [] => (piece argument).items ++ [.wrong (.missingValue setting)]
      | some setting, value :: rest =>
        if looksLikeOption value then (piece argument).items ++ [.wrong (.missingValue setting)]
        else (piece argument).items ++ .setting setting value :: items rest

/-! ## Putting them together -/

/-- What the command is to do. -/
structure Config where
  template : String
  values : List String
  inline : Bool
  defines : List String
  envFile : Option String
  output : Option String
  dump : Bool
  deriving DecidableEq, Repr

inductive Request where
  | help
  | version
  | run (config : Config)
  deriving DecidableEq, Repr

/-- What has been said so far. -/
structure Draft where
  positionals : Array String
  inline : Bool
  defines : Array String
  envFile : Option String
  output : Option String
  dump : Bool
  deriving DecidableEq, Repr

namespace Draft

def blank : Draft :=
  ⟨#[], false, #[], none, none, false⟩

/-- A file name that is given once and is not empty. -/
def fileName (setting : Setting) (before : Option String) (value : String) :
    Except UsageError (Option String) :=
  if before.isSome then .error (.repeatedSetting setting)
  else if value = "" then .error (.emptyValue setting)
  else .ok (some value)

/-- Gives the values of settings that may be given several times or once. -/
def set (d : Draft) (value : String) : Setting → Except UsageError Draft
  | .define => .ok { d with defines := d.defines.push value }
  | .envFile => (fileName .envFile d.envFile value).map ({ d with envFile := · })
  | .output => (fileName .output d.output value).map ({ d with output := · })

/-- What the draft asks for at the end of the arguments. -/
def finish (d : Draft) : Except UsageError Request :=
  match d.positionals.toList with
  | [] => .error .missingTemplate
  | template :: values =>
    .ok (.run ⟨template, values, d.inline, d.defines.toList, d.envFile, d.output, d.dump⟩)

/-- Goes on with more items. -/
def read (d : Draft) : List Item → Except UsageError Request
  | [] => d.finish
  | .wrong e :: _ => .error e
  | .flag .help :: _ => .ok .help
  | .flag .version :: _ => .ok .version
  | .flag .inline :: rest =>
    if d.inline then .error (.repeatedFlag .inline) else { d with inline := true }.read rest
  | .flag .dump :: rest =>
    if d.dump then .error (.repeatedFlag .dump) else { d with dump := true }.read rest
  | .setting setting value :: rest =>
    match d.set value setting with
    | .error e => .error e
    | .ok d => d.read rest
  | .positional text :: rest => { d with positionals := d.positionals.push text }.read rest

end Draft

/-- What an argument list asks for. -/
def parse (arguments : List String) : Except UsageError Request :=
  Draft.blank.read (items arguments)

end Stencil.Command
