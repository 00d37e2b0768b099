/-
# `Command.run` — running the command

The command evaluates one template and prints the result or writes it to a file.

* `produce` — the output text of a configuration.  Nothing is written before it is complete;
* `execute` — producing the output and then printing or writing it;
* `run` — the whole command, from its arguments to what it prints and its exit code.

A key is bound by the environment file, by the positional values and by the defines, each of which
takes precedence over those named before it.
-/
import Stencil.Command.Failure
import Stencil.Command.Options
import Stencil.Template

namespace Stencil.Command

/-! ## Bindings -/

/-- The key and the text of a define: what stands before and after its first equals sign, the key not
being empty. -/
def binding? (define : String) : Option (String × String) :=
  match splitAtEquals define.toList with
  | ([], _) => none
  | (_, none) => none
  | (key, some text) => some (String.ofList key, String.ofList text)

/-- The bindings of several defines, or a failure for the first that is none. -/
def bindings : List String → Except Failure (List (String × String))
  | [] => .ok []
  | define :: rest =>
    match binding? define with
    | none => .error (.define define)
    | some pair => (bindings rest).map (pair :: ·)

/-- The environment of a configuration whose file gave the environment `base`. -/
def layered (base : Environment) (config : Config) : Except Failure Environment :=
  (bindings config.defines).map (base.merge (.ofValues config.values)).extend

/-! ## Producing the output -/

def textOf (read : Except HostError ByteArray) : Except ReadError String :=
  match read with
  | .error e => .error (.host e)
  | .ok bytes => (String.fromUTF8? bytes).elim (.error .notText) .ok

section

variable {m : Type → Type} [Monad m] [Host m]

/-- The source of the template: the argument itself, the input stream, or a file. -/
def readSource (config : Config) : m (Except Failure String) := do
  if config.inline then return .ok config.template
  else if config.template = "-" then
    return (textOf (← Host.readInput)).mapError .input
  else
    return (textOf (← Host.readFile config.template)).mapError (.template config.template)

/-- What the environment file binds; without one, nothing. -/
def readBase (config : Config) : m (Except Failure Environment) := do
  match config.envFile with
  | none => return .ok .empty
  | some path =>
    match textOf (← Host.readFile path) with
    | .error e => return .error (.envFile path e)
    | .ok text => return (Environment.ofJson text).mapError (.environment path)

/-- An output text, and what the log is told while it is made. -/
structure Product where
  text : String
  events : List Log.Event
  deriving DecidableEq, Repr

def listed (source : String) : Product :=
  let forced := (Template.ofString source).force
  ⟨Expr.listing forced.exprs, forced.events⟩

def evaluated (source : String) (env : Environment) : Product :=
  let forced := (Template.ofString source).force
  ⟨evaluate forced.exprs env, .evaluating env.size :: forced.events⟩

/-- The output of a configuration. -/
def produce (config : Config) : m (Except Failure Product) := do
  match ← readSource config with
  | .error f => return .error f
  | .ok source =>
    if config.dump then return .ok (listed source)
    else
      match ← readBase config with
      | .error f => return .error f
      | .ok base => return (layered base config).map (evaluated source)

/-! ## The whole command -/

structure Outcome where
  exit : Nat
  stdout : String
  stderr : String
  deriving DecidableEq, Repr

/-- The end of a command that failed after the log was told some events. -/
def failed (filter : Log.Filter) (events : List Log.Event) (f : Failure) : Outcome :=
  ⟨1, "", filter.lines events ++ f.report⟩

/-- Produces the output of a configuration, and prints it or writes it to a file. -/
def execute (filter : Log.Filter) (config : Config) : m Outcome := do
  match ← produce config with
  | .error f => return failed filter [] f
  | .ok product =>
    match config.output with
    | none => return ⟨0, product.text, filter.lines product.events⟩
    | some path =>
      match ← Host.writeFile path product.text.toUTF8 with
      | .error e => return failed filter product.events (.output path e)
      | .ok () =>
        let events := product.events ++ [.wrote path product.text.utf8ByteSize]
        return ⟨0, "", filter.lines events⟩

def versionText : String :=
  "texttemplate 0.1.0\n"

/-- What the command tells about its use, line by line. -/
def helpLines : List String :=
  ["Render a text template",
    "",
    "Usage: texttemplate [OPTIONS] <TEMPLATE> [VALUES]...",
    "",
    "Arguments:",
    "  <TEMPLATE>   Template file (use '-' for stdin), or the template text with --inline",
    "  [VALUES]...  Values bound to $\x7b0\x7d, $\x7b1\x7d, ... in order",
    "",
    "Options:",
    "  -e, --inline              Treat TEMPLATE as the template text instead of a path",
    "  -D, --define <KEY=VALUE>  Named binding (KEY=VALUE), applied after positional values",
    "      --env-file <FILE>     JSON object of bindings, applied before everything else",
    "  -o, --output <FILE>       Write output to FILE instead of stdout",
    "      --dump                Print the compiled expressions instead of evaluating",
    "  -h, --help                Print help",
    "  -V, --version             Print version"]

def helpText : String :=
  String.join (helpLines.map (· ++ "\n"))

/-- The command: its arguments, and the text that says which events are wanted, if there is one. -/
def run (arguments : List String) (log : Option String) : m Outcome := do
  match parse arguments with
  | .error e => return ⟨2, "", "error: " ++ e.message ++ "\n"⟩
  | .ok .help => return ⟨0, helpText, ""⟩
  | .ok .version => return ⟨0, versionText, ""⟩
  | .ok (.run config) => execute ((log.map .ofString).getD .usual) config

end

end Stencil.Command
