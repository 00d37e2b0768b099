/-
# The command on a machine

The command with the files, the streams and the environment variables of the machine it runs on.
-/
import Stencil.Command.Run

namespace Stencil.Command

/-- The number of a machine's refusal.  The refusal to open a file gives it negated. -/
def refusalNumber (code : UInt32) : UInt32 :=
  min code (0 - code)

/-- A machine's refusal as the command knows it. -/
def hostError : IO.Error → HostError
  | .noFileOrDirectory _ _ _ => .notFound
  | .inappropriateType path code details =>
    match refusalNumber code with
    | 20 => .notDirectory
    | 21 => .isDirectory
    | _ => .other (toString (IO.Error.inappropriateType path code details))
  | .invalidArgument path code details =>
    match refusalNumber code with
    | 36 => .nameTooLong
    | _ => .other (toString (IO.Error.invalidArgument path code details))
  | e => .other (toString e)

def attempt {α : Type} (action : IO α) : IO (Except HostError α) := do
  try
    return .ok (← action)
  catch e =>
    return .error (hostError e)

instance : Host IO where
  readFile path := attempt (IO.FS.readBinFile path)
  readInput := attempt do (← IO.getStdin).readBinToEnd
  writeFile path content := attempt (IO.FS.writeBinFile path content)

end Stencil.Command

def main (arguments : List String) : IO UInt32 := do
  let outcome ← Stencil.Command.run arguments (← IO.getEnv "RUST_LOG")
  (← IO.getStderr).putStr outcome.stderr
  (← IO.getStdout).putStr outcome.stdout
  (← IO.getStdout).flush
  return outcome.exit.toUInt32
