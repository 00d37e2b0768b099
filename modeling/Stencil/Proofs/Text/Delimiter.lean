/-
# `Text.Delimiter` — what stands in front of a delimiter

Bodies of markup end at the first closing brace, keys of defines at the first equals sign.  Both are
found by going on as long as the delimiter is not met.  Once found, they are known by what they are:
texts without the delimiter.
-/
import Mathlib.Data.List.TakeWhile

namespace Stencil

variable {delimiter : Char} {front back : List Char}

theorem bne_of_not_mem (h : delimiter ∉ front) : ∀ c ∈ front, (c != delimiter) = true := by
  intro c mem
  simpa using fun eq : c = delimiter => h (eq ▸ mem)

theorem takeWhile_front (h : delimiter ∉ front) :
    (front ++ delimiter :: back).takeWhile (· != delimiter) = front := by
  rw [List.takeWhile_append_of_pos (bne_of_not_mem h)]
  simp

theorem dropWhile_front (h : delimiter ∉ front) :
    (front ++ delimiter :: back).dropWhile (· != delimiter) = delimiter :: back := by
  rw [List.dropWhile_append_of_pos (bne_of_not_mem h)]
  simp

theorem takeWhile_all (h : delimiter ∉ front) : front.takeWhile (· != delimiter) = front :=
  List.takeWhile_eq_self_iff.mpr (bne_of_not_mem h)

theorem dropWhile_all (h : delimiter ∉ front) : front.dropWhile (· != delimiter) = [] :=
  List.dropWhile_eq_nil_iff.mpr (bne_of_not_mem h)

end Stencil
