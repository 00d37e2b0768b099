/-
# `Command.Failure` — what can keep the command from its work

A failure is something that goes wrong once the arguments are understood.  It is reported by a
headline, which its causes follow, the nearest first.  Several causes are numbered, and the further
lines of a cause stand below the beginning of its first.
-/
import Stencil.Command.Host
import Stencil.Environment.Json

namespace Stencil.Command

/-- Why no text could be read. -/
inductive ReadError where
  | host (e : HostError)
  | notText
  deriving DecidableEq, Repr

def ReadError.message : ReadError → String
  | host e => e.message
  | notText => "stream did not contain valid UTF-8"

/-- What went wrong. -/
inductive Failure where
  | template (path : String) (e : ReadError)
  | input (e : ReadError)
  | envFile (path : String) (e : ReadError)
  | environment (path : String) (e : Environment.Error)
  | define (text : String)
  | output (path : String) (e : HostError)
  deriving DecidableEq, Repr

namespace Failure

/-- The line that says what could not be done. -/
def headline : Failure → String
  | template path _ => "Failed to read template " ++ path
  | input _ => "Failed to read template from stdin"
  | envFile path _ => "Failed to read env file " ++ path
  | environment path _ => "Invalid env file " ++ path
  | define text => "Invalid --define '" ++ text ++ "': expected KEY=VALUE"
  | output path _ => "Failed to write output to " ++ path

/-- Why it could not be done. -/
def causes : Failure → List String
  | template _ e => [e.message]
  | input e => [e.message]
  | envFile _ e => [e.message]
  | environment _ (.malformed report) =>
    [(Environment.Error.malformed report).message, report.message]
  | environment _ e => [e.message]
  | define _ => []
  | output _ e => [e.message]

/-- A text whose lines after the first are moved to the right. -/
def indented (width : Nat) (text : String) : String :=
  String.ofList <| text.toList.flatMap fun c =>
    if c = '\n' then '\n' :: List.replicate width ' ' else [c]

def causeLines : List String → String
  | [] => ""
  | [cause] => "\nCaused by:\n    " ++ indented 4 cause ++ "\n"
  | causes =>
    "\nCaused by:\n" ++
      String.join (causes.zipIdx.map fun (cause, index) =>
        "    " ++ toString index ++ ": " ++ indented 7 cause ++ "\n")

def report (f : Failure) : String :=
  "Error: " ++ f.headline ++ "\n" ++ causeLines f.causes

end Failure

end Stencil.Command
