/-
# `Environment.Positions` — values bound to their positions

A list of values is bound to its positions, counted from 0 and written in decimal.

* `get?_ofValues` — a key is bound to a value exactly if it is the numeral of the value's position;
* `size_ofValues` — and every value is bound.
-/
import Stencil.Proofs.Decimal.Numerals
import Stencil.Proofs.Environment.LastWrite

namespace Stencil

namespace Environment

theorem distinct_positions (values : List String) :
    (values.zipIdx.map fun (value, index) => (toString index, value)).Pairwise
      (fun a b => a.1 ≠ b.1) := by
  have indices : (values.zipIdx.map Prod.snd).Nodup := by
    rw [List.zipIdx_map_snd]
    exact List.nodup_range'
  rw [List.pairwise_map]
  refine (List.pairwise_map.mp indices).imp ?_
  intro a b ne eq
  have numeral : Numeral b.2 (toString a.2) := numeral_iff.mpr eq
  exact ne ((numeral_iff.mpr rfl).unique numeral)

/-- **A key is bound to a value exactly if it is the numeral of the value's position.** -/
theorem get?_ofValues {values : List String} {key text : String} :
    (ofValues values).get? key = some text ↔ ∃ i, Numeral i key ∧ values[i]? = some text := by
  rw [ofValues, get?_ofList, lastOf_eq_some_iff (distinct_positions values), List.mem_map]
  constructor
  · rintro ⟨⟨value, i⟩, mem, eq⟩
    obtain ⟨rfl, rfl⟩ := Prod.mk.inj eq
    exact ⟨i, numeral_iff.mpr rfl, List.mk_mem_zipIdx_iff_getElem?.mp mem⟩
  · rintro ⟨i, numeral, at_i⟩
    refine ⟨(text, i), List.mk_mem_zipIdx_iff_getElem?.mpr at_i, ?_⟩
    rw [numeral_iff.mp numeral]

theorem get?_ofValues_eq_none {values : List String} {key : String} :
    (ofValues values).get? key = none ↔ ∀ i < values.length, ¬ Numeral i key := by
  rw [Option.eq_none_iff_forall_ne_some]
  constructor
  · intro none i lt numeral
    exact none values[i] (get?_ofValues.mpr ⟨i, numeral, List.getElem?_eq_getElem lt⟩)
  · intro none text bound
    obtain ⟨i, numeral, value⟩ := get?_ofValues.mp bound
    exact none i (List.getElem?_eq_some_iff.mp value).1 numeral

theorem get?_ofValues_toString (values : List String) (i : Nat) :
    (ofValues values).get? (toString i) = values[i]? := by
  have numeral : Numeral i (toString i) := numeral_iff.mpr rfl
  ext text
  rw [get?_ofValues]
  constructor
  · rintro ⟨j, other, value⟩
    rwa [numeral.unique other]
  · intro value
    exact ⟨i, numeral, value⟩

/-- No value is lost: there are as many bindings as values. -/
theorem size_ofValues (values : List String) : (ofValues values).size = values.length := by
  have distinct := List.pairwise_map.mpr (distinct_positions values)
  rw [ofValues, size_eq_length_dedup (get?_ofList _), List.dedup_eq_self.mpr distinct, List.length_map,
    List.length_map, List.length_zipIdx]

end Environment

end Stencil
