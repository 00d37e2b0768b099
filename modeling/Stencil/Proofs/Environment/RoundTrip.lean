/-
# `Environment.RoundTrip` — an environment written as JSON is read back

The text of an environment lists its bindings one after the other.  Whatever their order, reading the
text directly takes the same members off it (`document_writeObject`), and as every key is listed
once, they bind what the environment binds (`ofList_of_perm`).  Reading by way of a value then gives
the same, since both ways agree on objects of strings.
-/
import Stencil.Proofs.Environment.Agreement
import Stencil.Proofs.Json.Written

namespace Stencil

namespace Json

/-! ## Without blanks -/

theorem skipBlanks_cons {c : Char} (visible : isBlank c = false) (s : List Char) :
    skipBlanks (c :: s) = c :: s := by
  refine List.dropWhile_cons_of_neg ?_
  simp [visible]

theorem writeMember_append (m : String × String) (rest : List Char) :
    writeMember m ++ rest =
      '"' :: (m.1.toList.flatMap writeChar ++ '"' :: ':' :: (writeString m.2 ++ rest)) := by
  rw [writeMember, List.append_assoc, writeString_append, List.cons_append]

theorem written_eq_cons (m : String × String) (ms : List (String × String)) (rest : List Char) :
    ∃ r, [','].intercalate ((m :: ms).map writeMember) ++ rest = '"' :: r := by
  cases ms with
  | nil =>
      rw [List.map_singleton, List.intercalate_singleton]
      exact ⟨_, writeMember_append m rest⟩
  | cons m' ms =>
      rw [List.map_cons, List.map_cons, List.intercalate_cons_cons, List.append_assoc,
        List.append_assoc]
      exact ⟨_, writeMember_append m _⟩

end Json

namespace Environment

open Json

/-! ## Members and objects -/

theorem reads_writeString (text : String) (rest : List Char) :
    Reads (stringItem (writeString text ++ rest)) text rest := by
  rw [reads_stringItem_iff, writeString_append, skipBlanks_cons rfl]
  exact ⟨_, rfl, reads_written text rest⟩

theorem reads_writeMember (m : String × String) (rest : List Char) :
    Reads (member stringItem (writeMember m ++ rest)) m rest := by
  rw [reads_member_iff, writeMember_append]
  refine ⟨_, ':' :: (writeString m.2 ++ rest), _, rfl, reads_written _ _, ?_,
    reads_writeString m.2 rest⟩
  exact skipBlanks_cons rfl _

theorem listed_written (m : String × String) (ms : List (String × String)) (rest : List Char) :
    Listed objectBrackets (member stringItem)
      ([','].intercalate ((m :: ms).map writeMember) ++ '}' :: rest) (m :: ms) rest := by
  induction ms generalizing m with
  | nil =>
      rw [List.map_singleton, List.intercalate_singleton]
      exact .last (reads_writeMember m _) (skipBlanks_cons rfl _)
  | cons m' ms ih =>
      obtain ⟨r, eq⟩ := written_eq_cons m' ms ('}' :: rest)
      have further := ih m'
      rw [List.map_cons, List.map_cons, List.intercalate_cons_cons, List.append_assoc,
        List.append_assoc, List.singleton_append, ← List.map_cons]
      rw [eq] at further ⊢
      exact .more (reads_writeMember m _) (skipBlanks_cons rfl _) (skipBlanks_cons rfl _)
        (by decide) further

theorem document_writeObject (members : List (String × String)) :
    document stringMembers (writeObject members) = .ok members := by
  rw [document_eq_ok_iff, writeObject, String.toList_ofList]
  refine ⟨[], reads_stringMembers_iff.mpr ⟨_, skipBlanks_cons rfl _, ?_⟩, rfl⟩
  rw [reads_items_iff (by decide)]
  cases members with
  | nil => exact .inl ⟨rfl, skipBlanks_cons rfl _⟩
  | cons m ms =>
      right
      obtain ⟨r, eq⟩ := written_eq_cons m ms ['}']
      have listed := listed_written m ms []
      rw [eq] at listed ⊢
      exact ⟨'"', r, skipBlanks_cons rfl r, by decide, listed⟩

/-- **Reading the text of an environment gives the environment back**, both ways, and in whatever
order the text lists the bindings. -/
theorem toJson_read_back (env : Environment) :
    (ofJson env.toJson = .ok env ∧ ofStringsJson env.toJson = .ok env) ∧
      ∀ members, members.Perm env.toList →
        ofJson (writeObject members) = .ok env ∧ ofStringsJson (writeObject members) = .ok env := by
  have back (members : List (String × String)) (listing : members.Perm env.toList) :
      ofJson (writeObject members) = .ok env ∧ ofStringsJson (writeObject members) = .ok env := by
    have parsed := document_strings_iff.mp (document_writeObject members)
    have binds := ofList_of_perm listing
    constructor
    · rw [ofJson_of_parse parsed, ofValue_strings, binds]
    · exact ofStringsJson_eq_ok.mpr ⟨members, parsed, binds⟩
  exact ⟨back env.toList (.refl _), back⟩

end Environment

end Stencil
