/-
# `Command.Hosts` — what the command may rely on

The command reads and writes through any `Host`.  To say what it does, one has to know what the
actions of the host do: `HostStates` carries them out from one state to another, and tells of a
state to which file a path leads and what a file holds.  `LawfulHost` are the laws that all of this
keeps to:

    actions     are carried out one after the other
    reading     gives what the file holds that the path leads to, or is refused; it changes nothing
    writing     takes effect wholly, on one file and on nothing else, or is refused and changes nothing

Why a path is refused is left open, and so is where it leads: several may lead to one file, and one
may lead to a file that is not there yet.  But what was written at a path can be read there.  A
state knows what the input stream holds even after that was read.

* `Readings` — what there is to be read in a state;
* `Overwritten` — two states between which the file of a path was written.
-/
import Stencil.Command.Run

namespace Stencil.Command

/-- What the actions of a host do to its states. -/
class HostStates (m : Type → Type) (σ : outParam Type) where
  /-- What an action gives from a state on, and the state after it. -/
  exec {α : Type} (action : m α) (s : σ) : α × σ
  /-- The files that there may be. -/
  File : Type
  /-- The file that a path leads to. -/
  leads (s : σ) (path : String) : Option File
  /-- What a file holds, if it is there. -/
  holds (s : σ) (file : File) : Option ByteArray

export HostStates (exec)

open HostStates (File leads holds)

/-- What there is to be read. -/
structure Readings where
  file (path : String) : Except HostError ByteArray
  input : Except HostError ByteArray

section

variable (m : Type → Type) {σ : Type} [Host m] [HostStates m σ]

def readings (s : σ) : Readings where
  file path := (exec (Host.readFile path : m _) s).1
  input := (exec (Host.readInput : m _) s).1

/-- `Overwritten m before after path content`: between two states the file of a path has come to hold
the content, which is what the path reads then, and nothing else differs. -/
structure Overwritten (before after : σ) (path : String) (content : ByteArray) : Prop where
  read_eq : (readings m after).file path = .ok content
  others : ∃ file : File m, leads before path = some file ∧
    ∀ other, other ≠ file → holds after other = holds before other
  leads_eq (other : String) : (leads after other : Option (File m)) = leads before other
  input_eq : (readings m after).input = (readings m before).input

class LawfulHost [Monad m] : Prop where
  exec_pure {α : Type} (a : α) (s : σ) : exec (pure a : m α) s = (a, s)
  exec_bind {α β : Type} (x : m α) (f : α → m β) (s : σ) :
    exec (x >>= f) s = exec (f (exec x s).1) (exec x s).2
  /-- Reading a file changes nothing. -/
  exec_readFile (path : String) (s : σ) :
    exec (Host.readFile path : m _) s = ((readings m s).file path, s)
  /-- Reading the input stream changes nothing. -/
  exec_readInput (s : σ) : exec (Host.readInput : m _) s = ((readings m s).input, s)
  /-- A path reads what the file holds that it leads to. -/
  file_eq_ok_iff (path : String) (content : ByteArray) (s : σ) :
    (readings m s).file path = .ok content ↔
      ∃ file : File m, leads s path = some file ∧ holds s file = some content
  /-- A write that is refused changes nothing. -/
  write_refused {path : String} {content : ByteArray} {s after : σ} {e : HostError} :
    exec (Host.writeFile path content : m _) s = (.error e, after) → after = s
  /-- A write that is not refused takes effect on the file that the path leads to, and on no other. -/
  write_file {path : String} {content : ByteArray} {s after : σ} :
    exec (Host.writeFile path content : m _) s = (.ok (), after) →
      ∃ file : File m, leads s path = some file ∧ holds after file = some content ∧
        ∀ other, other ≠ file → holds after other = holds s other
  /-- After a write every path leads where it led before. -/
  write_leads {path : String} {content : ByteArray} {s after : σ} :
    exec (Host.writeFile path content : m _) s = (.ok (), after) →
      ∀ other, (leads after other : Option (File m)) = leads s other
  /-- A write takes nothing from the input stream. -/
  write_input {path : String} {content : ByteArray} {s after : σ} :
    exec (Host.writeFile path content : m _) s = (.ok (), after) →
      (readings m after).input = (readings m s).input

variable {m} [Monad m] [LawfulHost m] {α β : Type} {s s' : σ} {path : String} {content : ByteArray}

theorem exec_bind_of_exec {x : m α} {f : α → m β} {a : α} (h : exec x s = (a, s')) :
    exec (x >>= f) s = exec (f a) s' := by
  rw [LawfulHost.exec_bind, h]

theorem overwritten_of_write
    (written : exec (Host.writeFile path content : m _) s = (.ok (), s')) :
    Overwritten m s s' path content where
  read_eq := by
    obtain ⟨file, leads, held, -⟩ := LawfulHost.write_file written
    rw [LawfulHost.file_eq_ok_iff]
    exact ⟨file, by rw [LawfulHost.write_leads written, leads], held⟩
  others := by
    obtain ⟨file, leads, -, others⟩ := LawfulHost.write_file written
    exact ⟨file, leads, others⟩
  leads_eq := LawfulHost.write_leads written
  input_eq := LawfulHost.write_input written

end

end Stencil.Command
