import Mathlib.Data.Finset.Card
import Mathlib.Algebra.BigOperators.Group.Finset.Basic
import Mathlib.Algebra.BigOperators.Group.Finset.Piecewise

/-!
# Counting the places of a table

How many places of a finite table or of a list hold a value of some kind, and how
one assignment changes the number.
-/

namespace TinierOS

universe u v

open scoped BigOperators

variable {ι : Type u} {κ : Type v} [Fintype ι]

/-- The number of places whose value passes the test. -/
def countWhere (test : κ → Bool) (table : ι → κ) : Nat :=
  (Finset.univ.filter fun place => test (table place) = true).card

theorem countWhere_eq_zero_iff
    {test : κ → Bool}
    {table : ι → κ} :
    countWhere test table = 0 ↔ ∀ place, test (table place) = false := by
  simp [countWhere, Finset.filter_eq_empty_iff]

theorem countWhere_pos_of
    {test : κ → Bool}
    {table : ι → κ}
    {place : ι}
    (passes : test (table place) = true) :
    0 < countWhere test table := by
  apply Finset.card_pos.mpr
  exact ⟨place, by simpa using passes⟩

/-- One assignment removes the old value from the count and adds the new one. -/
theorem countWhere_update
    [DecidableEq ι]
    (test : κ → Bool)
    (table : ι → κ)
    (place : ι)
    (value : κ) :
    countWhere test (Function.update table place value) +
        (if test (table place) then 1 else 0) =
      countWhere test table + (if test value then 1 else 0) := by
  have split : ∀ filled : ι → κ, countWhere test filled =
      (if test (filled place) then 1 else 0) +
        ∑ other ∈ Finset.univ.erase place,
          if test (filled other) = true then 1 else 0 := by
    intro filled
    rw [countWhere, Finset.card_filter]
    exact (Finset.add_sum_erase _ _ (Finset.mem_univ place)).symm
  have others : ∑ other ∈ Finset.univ.erase place,
        (if test (Function.update table place value other) = true then 1
          else 0) =
      ∑ other ∈ Finset.univ.erase place,
        if test (table other) = true then 1 else 0 := by
    apply Finset.sum_congr rfl
    intro other member
    rw [Function.update_of_ne (Finset.ne_of_mem_erase member)]
  rw [split, split table, others, Function.update_self]
  omega

/-- A value of the other kind is replaced. -/
theorem countWhere_insert
    [DecidableEq ι]
    {test : κ → Bool}
    {table : ι → κ}
    {place : ι}
    {value : κ}
    (fails : test (table place) = false)
    (passes : test value = true) :
    countWhere test (Function.update table place value) =
      countWhere test table + 1 := by
  have updated := countWhere_update test table place value
  simpa [fails, passes] using updated

/-- A value of this kind is replaced. -/
theorem countWhere_remove
    [DecidableEq ι]
    {test : κ → Bool}
    {table : ι → κ}
    {place : ι}
    {value : κ}
    (passes : test (table place) = true)
    (fails : test value = false) :
    countWhere test (Function.update table place value) + 1 =
      countWhere test table := by
  have updated := countWhere_update test table place value
  simpa [fails, passes] using updated

/-- The kind does not change. -/
theorem countWhere_keep
    [DecidableEq ι]
    {test : κ → Bool}
    {table : ι → κ}
    {place : ι}
    {value : κ}
    (same : test value = test (table place)) :
    countWhere test (Function.update table place value) =
      countWhere test table := by
  have updated := countWhere_update test table place value
  rw [same] at updated
  omega

/-- One assignment in a list removes the old value from the count and adds the new
one. -/
theorem countP_set_add
    {values : List κ}
    {index : Nat}
    {old : κ}
    (isAt : values[index]? = some old)
    (test : κ → Bool)
    (new : κ) :
    (values.set index new).countP test + (if test old then 1 else 0) =
      values.countP test + (if test new then 1 else 0) := by
  obtain ⟨inRange, isAt⟩ := List.getElem?_eq_some_iff.mp isAt
  have positive : test old = true → 0 < values.countP test := by
    intro passes
    rw [List.countP_pos_iff]
    exact ⟨old, isAt ▸ List.getElem_mem inRange, passes⟩
  rw [List.countP_set inRange, isAt]
  split_ifs with passes
  · have := positive passes
    omega
  · have := positive passes
    omega
  · omega
  · omega

end TinierOS
