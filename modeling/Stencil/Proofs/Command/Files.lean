/-
# `Command.Files` — the worlds are a lawful host

A path is followed through directories alone, and writing makes no directory and replaces none.  So
after a write every path leads where it led before (`locate_of_sameDirectories`), although one that
led nowhere may be refused for another reason.

* `World.leads` — the file that a path leads to, known by its trail;
* `read_eq_ok_iff`, `write_eq_ok_iff` — what is read and written, and where;
* `instance : LawfulHost (StateM World)`.
-/
import Stencil.Proofs.Command.Hosts

namespace Stencil.Command

theorem bind_eq_ok_iff {ε α β : Type} {x : Except ε α} {f : α → Except ε β} {b : β} :
    x >>= f = .ok b ↔ ∃ a, x = .ok a ∧ f a = .ok b := by
  cases x with
  | error e => exact iff_of_false nofun nofun
  | ok a => simp [bind, Except.bind]

namespace World

/-- The trail of the file that a path leads to, whether or not there is such a file. -/
def leads (w : World) (path : String) : Option Trail :=
  match w.locate path with
  | .ok (.entry within name false) =>
    if name.utf8ByteSize ≤ Path.nameLimit then some (name :: within) else none
  | _ => none

instance : HostStates (StateM World) World where
  exec action w := action.run w
  File := Trail
  leads := leads
  holds := holds

/-! ## Following paths -/

/-- Two worlds with the same directories and the same home. -/
structure SameDirectories (w w' : World) : Prop where
  directory (trail : Trail) :
    w.entries[trail]? = some .directory ↔ w'.entries[trail]? = some .directory
  home_eq : w.home = w'.home

variable {w w' : World} {within trail : Trail} {name path : String} {content : ByteArray}

theorem SameDirectories.symm (same : SameDirectories w w') : SameDirectories w' w where
  directory trail := (same.directory trail).symm
  home_eq := same.home_eq.symm

theorem find_eq_ok_iff {entry : Option Entry} : w.find within name = .ok entry ↔
    name.utf8ByteSize ≤ Path.nameLimit ∧ w.entries[name :: within]? = entry := by
  unfold find
  split
  · next long => simp [Nat.not_le.mpr long]
  · next short => simp [Nat.le_of_not_lt short]

theorem enter_eq_ok_iff {part : String} : w.enter within part = .ok trail ↔
    part = "." ∧ trail = within ∨
    part = ".." ∧ trail = within.tail ∨
    part ≠ "." ∧ part ≠ ".." ∧ part.utf8ByteSize ≤ Path.nameLimit ∧
      w.entries[part :: within]? = some .directory ∧ trail = part :: within := by
  unfold enter
  by_cases dot : part = "."
  · simp [dot, eq_comm]
  by_cases up : part = ".."
  · simp [up, eq_comm]
  rw [if_neg dot, if_neg up]
  constructor
  · intro ok
    split at ok
    · exact nomatch ok
    · exact nomatch ok
    · exact nomatch ok
    · next found =>
        obtain ⟨short, directory⟩ := find_eq_ok_iff.mp found
        exact .inr (.inr ⟨dot, up, short, directory, (Except.ok.inj ok).symm⟩)
  · rintro (⟨eq, -⟩ | ⟨eq, -⟩ | ⟨-, -, short, directory, rfl⟩)
    · exact absurd eq dot
    · exact absurd eq up
    · rw [find_eq_ok_iff.mpr ⟨short, directory⟩]

theorem enter_of_sameDirectories (same : SameDirectories w w') {part : String}
    (ok : w.enter within part = .ok trail) : w'.enter within part = .ok trail := by
  rwa [enter_eq_ok_iff, same.directory, ← enter_eq_ok_iff] at ok

theorem follow_of_sameDirectories (same : SameDirectories w w') {slashed : Bool} {place : Place}
    {parts : List String} (ok : w.follow slashed within parts = .ok place) :
    w'.follow slashed within parts = .ok place := by
  induction within, parts using follow.induct with
  | case1 within => rwa [follow] at ok ⊢
  | case2 within name => rwa [follow] at ok ⊢
  | case3 within part next rest ih =>
      rw [follow] at ok ⊢
      cases entered : w.enter within part with
      | error e => rw [entered] at ok; exact nomatch ok
      | ok trail =>
          rw [entered] at ok
          rw [enter_of_sameDirectories same entered]
          exact ih trail ok

theorem locate_of_sameDirectories (same : SameDirectories w w') {place : Place}
    (ok : w.locate path = .ok place) : w'.locate path = .ok place := by
  unfold locate at ok ⊢
  split
  · next empty => rwa [if_pos empty] at ok
  · next empty =>
      rw [if_neg empty] at ok
      split
      · next long => rwa [if_pos long] at ok
      · next long =>
          rw [if_neg long] at ok
          rw [← same.home_eq]
          exact follow_of_sameDirectories same ok

theorem leads_eq_some_iff : w.leads path = some trail ↔
    ∃ name within, w.locate path = .ok (.entry within name false) ∧
      name.utf8ByteSize ≤ Path.nameLimit ∧ trail = name :: within := by
  unfold leads
  split
  · next within name eq =>
      rw [Option.ite_none_right_eq_some, Option.some.injEq]
      constructor
      · rintro ⟨short, rfl⟩
        exact ⟨name, within, eq, short, rfl⟩
      · rintro ⟨name', within', eq', short, rfl⟩
        obtain ⟨rfl, rfl, -⟩ := Place.entry.inj (Except.ok.inj (eq.symm.trans eq'))
        exact ⟨short, rfl⟩
  · next other =>
      refine iff_of_false nofun ?_
      rintro ⟨name, within, eq, -⟩
      exact other within name eq

theorem leads_of_sameDirectories (same : SameDirectories w w') (path : String) :
    w.leads path = w'.leads path := by
  refine Option.ext fun trail => ?_
  rw [leads_eq_some_iff, leads_eq_some_iff]
  constructor
  · rintro ⟨name, within, located, short⟩
    exact ⟨name, within, locate_of_sameDirectories same located, short⟩
  · rintro ⟨name, within, located, short⟩
    exact ⟨name, within, locate_of_sameDirectories same.symm located, short⟩

/-! ## Reading and writing -/

theorem holds_eq_some_iff : w.holds trail = some content ↔
    w.entries[trail]? = some (.file content) := by
  unfold holds
  split
  · next eq => rw [eq, Option.some.injEq, Option.some.injEq, Entry.file.injEq]
  · next other => exact iff_of_false nofun (other content)

theorem read_eq_ok_iff : w.read path = .ok content ↔
    ∃ trail, w.leads path = some trail ∧ w.holds trail = some content := by
  simp only [read, bind_eq_ok_iff, leads_eq_some_iff, holds_eq_some_iff]
  constructor
  · rintro ⟨place, located, ok⟩
    cases place with
    | directory => exact nomatch ok
    | entry within name slashed =>
        obtain ⟨entry, found, ok⟩ := bind_eq_ok_iff.mp ok
        obtain ⟨short, rfl⟩ := find_eq_ok_iff.mp found
        split at ok
        · exact nomatch ok
        · exact nomatch ok
        · next content' eq =>
            cases slashed with
            | true => exact nomatch ok
            | false =>
                obtain rfl := Except.ok.inj ok
                exact ⟨name :: within, ⟨name, within, located, short, rfl⟩, eq⟩
  · rintro ⟨_, ⟨name, within, located, short, rfl⟩, held⟩
    exact ⟨_, located, bind_eq_ok_iff.mpr ⟨_, find_eq_ok_iff.mpr ⟨short, held⟩, rfl⟩⟩

/-- What is written, and where: at a name that stands for no directory. -/
theorem write_eq_ok_iff : w.write path content = .ok w' ↔
    ∃ trail, w.leads path = some trail ∧ w.entries[trail]? ≠ some .directory ∧
      w' = { w with entries := w.entries.insert trail (.file content) } := by
  simp only [write, bind_eq_ok_iff, leads_eq_some_iff]
  constructor
  · rintro ⟨place, located, ok⟩
    cases place with
    | directory => exact nomatch ok
    | entry within name slashed =>
        cases slashed with
        | true => exact nomatch ok
        | false =>
            obtain ⟨entry, found, ok⟩ := bind_eq_ok_iff.mp ok
            obtain ⟨short, rfl⟩ := find_eq_ok_iff.mp found
            split at ok
            · exact nomatch ok
            · next other =>
                exact ⟨name :: within, ⟨name, within, located, short, rfl⟩, other,
                  (Except.ok.inj ok).symm⟩
  · rintro ⟨_, ⟨name, within, located, short, rfl⟩, other, rfl⟩
    refine ⟨_, located, bind_eq_ok_iff.mpr ⟨_, find_eq_ok_iff.mpr ⟨short, rfl⟩, ?_⟩⟩
    split
    · next eq => exact absurd eq other
    · rfl

theorem holds_insert {trail other : Trail} (ne : other ≠ trail) (entry : Entry) :
    holds { w with entries := w.entries.insert trail entry } other = w.holds other := by
  have eq : (w.entries.insert trail entry)[other]? = w.entries[other]? := by
    rw [Std.ExtTreeMap.getElem?_insert, if_neg]
    exact fun eq => ne (Std.compare_eq_iff_eq.mp eq).symm
  rw [holds, eq, holds]

/-- Writing a file makes no directory and replaces none. -/
theorem sameDirectories_insert (other : w.entries[trail]? ≠ some .directory)
    (content : ByteArray) :
    SameDirectories w { w with entries := w.entries.insert trail (.file content) } where
  directory trail' := by
    rw [Std.ExtTreeMap.getElem?_insert]
    split
    · next eq =>
        obtain rfl := Std.compare_eq_iff_eq.mp eq
        exact iff_of_false other nofun
    · rfl
  home_eq := rfl

end World

/-! ## The laws -/

open World

variable {w after : World} {path : String} {content : ByteArray}

theorem exec_writeFile (w : World) (path : String) (content : ByteArray) :
    exec (Host.writeFile path content : StateM World _) w =
      match w.write path content with
      | .ok after => (.ok (), after)
      | .error e => (.error e, w) := by
  have unfolded : exec (Host.writeFile path content : StateM World _) w =
      StateT.run (m := Id) (match w.write path content with
        | .ok after => (do set after; return .ok ())
        | .error e => return .error e) w := rfl
  rw [unfolded]
  cases w.write path content <;> rfl

theorem written_of_exec
    (h : exec (Host.writeFile path content : StateM World _) w = (.ok (), after)) :
    ∃ trail, w.leads path = some trail ∧ w.entries[trail]? ≠ some .directory ∧
      after = { w with entries := w.entries.insert trail (.file content) } := by
  rw [exec_writeFile] at h
  split at h
  · next eq =>
      obtain ⟨-, rfl⟩ := Prod.mk.inj h
      exact write_eq_ok_iff.mp eq
  · exact nomatch congrArg Prod.fst h

instance : LawfulHost (StateM World) where
  exec_pure _ _ := rfl
  exec_bind _ _ _ := rfl
  exec_readFile _ _ := rfl
  exec_readInput _ := rfl
  file_eq_ok_iff _ _ _ := read_eq_ok_iff
  write_refused {path content w after e} h := by
    rw [exec_writeFile] at h
    split at h
    · exact nomatch congrArg Prod.fst h
    · exact (congrArg Prod.snd h).symm
  write_file h := by
    obtain ⟨trail, leads, -, rfl⟩ := written_of_exec h
    exact ⟨trail, leads, holds_eq_some_iff.mpr Std.ExtTreeMap.getElem?_insert_self,
      fun other ne => holds_insert ne _⟩
  write_leads h other := by
    obtain ⟨trail, -, free, rfl⟩ := written_of_exec h
    exact (leads_of_sameDirectories (sameDirectories_insert free _) other).symm
  write_input h := by
    obtain ⟨trail, -, -, rfl⟩ := written_of_exec h
    rfl

end Stencil.Command
