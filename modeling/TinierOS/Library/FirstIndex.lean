import Mathlib.Data.List.FinRange
import Mathlib.Data.List.Sort

/-!
# Scanning an array for its first match

The loop `for (i = 0; i < n; i++) if (p(i)) break;` as a function, and the loop
`while (i < n && !p(i)) i++;` that goes on from where an earlier scan stopped.
-/

namespace TinierOS

/-- The smallest index that satisfies the predicate. -/
def firstIndex {count : Nat} (test : Fin count → Bool) :
    Option (Fin count) :=
  (List.finRange count).find? test

variable {count : Nat} {test : Fin count → Bool}

theorem firstIndex_eq_none_iff :
    firstIndex test = none ↔ ∀ index, test index = false := by
  simp [firstIndex]

theorem firstIndex_eq_some_iff {index : Fin count} :
    firstIndex test = some index ↔
      test index = true ∧ ∀ other < index, test other = false := by
  unfold firstIndex
  rw [List.find?_eq_some_iff_append]
  constructor
  · rintro ⟨found, before, after, split, skipped⟩
    refine ⟨found, fun other smaller => ?_⟩
    have ordered := List.pairwise_lt_finRange count
    rw [split, List.pairwise_append, List.pairwise_cons] at ordered
    have listed : other ∈ before ++ index :: after := by
      rw [← split]
      exact List.mem_finRange other
    rcases List.mem_append.mp listed with inBefore | inAfter
    · simpa using skipped other inBefore
    · rcases List.mem_cons.mp inAfter with rfl | inAfter
      · exact absurd smaller (lt_irrefl _)
      · exact absurd (smaller.trans (ordered.2.1.1 other inAfter))
          (lt_irrefl _)
  · rintro ⟨found, smallest⟩
    obtain ⟨before, after, split⟩ :=
      List.append_of_mem (List.mem_finRange index)
    refine ⟨found, before, after, split, fun other inBefore => ?_⟩
    have ordered := List.pairwise_lt_finRange count
    rw [split, List.pairwise_append] at ordered
    have smaller := ordered.2.2 other inBefore index (List.mem_cons_self ..)
    rw [smallest other smaller]
    rfl

theorem firstIndex_test
    {index : Fin count}
    (found : firstIndex test = some index) :
    test index = true :=
  (firstIndex_eq_some_iff.mp found).1

/-! ## Going on from a cursor -/

/-- The first index from the cursor on that satisfies the predicate; the number
of indices or more when there is none. -/
def seekIndex {count : Nat} (test : Fin count → Bool) (cursor : Nat) : Nat :=
  if inRange : cursor < count then
    if test ⟨cursor, inRange⟩ then cursor
    else seekIndex test (cursor + 1)
  else cursor
termination_by count - cursor

/-- The indices from the cursor on that satisfy the predicate, in increasing
order. -/
def matchesFrom {count : Nat} (test : Fin count → Bool) (cursor : Nat) :
    List (Fin count) :=
  (List.finRange count).filter fun index => cursor ≤ index.val && test index

theorem mem_matchesFrom
    {cursor : Nat}
    {index : Fin count} :
    index ∈ matchesFrom test cursor ↔
      cursor ≤ index.val ∧ test index = true := by
  simp [matchesFrom]

theorem matchesFrom_pairwise (test : Fin count → Bool) (cursor : Nat) :
    (matchesFrom test cursor).Pairwise (· < ·) :=
  (List.pairwise_lt_finRange count).filter _

theorem matchesFrom_zero :
    matchesFrom test 0 = (List.finRange count).filter test := by
  simp [matchesFrom]

/-- An index that does not satisfy the predicate is passed over. -/
theorem matchesFrom_skip
    {cursor : Nat}
    (inRange : cursor < count)
    (skipped : test ⟨cursor, inRange⟩ = false) :
    matchesFrom test cursor = matchesFrom test (cursor + 1) := by
  unfold matchesFrom
  apply List.filter_congr
  intro index _
  rw [Bool.eq_iff_iff]
  simp only [Bool.and_eq_true, decide_eq_true_eq]
  constructor
  · rintro ⟨beyond, found⟩
    refine ⟨Nat.lt_of_le_of_ne beyond ?_, found⟩
    rintro rfl
    rw [skipped] at found
    cases found
  · rintro ⟨beyond, found⟩
    exact ⟨Nat.le_of_succ_le beyond, found⟩

theorem matchesFrom_hit
    {cursor : Nat}
    (inRange : cursor < count)
    (found : test ⟨cursor, inRange⟩ = true) :
    matchesFrom test cursor =
      ⟨cursor, inRange⟩ :: matchesFrom test (cursor + 1) := by
  refine List.Pairwise.eq_of_mem_iff (matchesFrom_pairwise test cursor) ?_ ?_
  · refine List.pairwise_cons.mpr
      ⟨?_, matchesFrom_pairwise test (cursor + 1)⟩
    intro index member
    exact Nat.lt_of_succ_le (mem_matchesFrom.mp member).1
  · intro index
    rw [List.mem_cons, mem_matchesFrom, mem_matchesFrom, Fin.ext_iff]
    constructor
    · rintro ⟨beyond, satisfied⟩
      rcases Nat.eq_or_lt_of_le beyond with same | further
      · exact Or.inl same.symm
      · exact Or.inr ⟨further, satisfied⟩
    · rintro (same | ⟨further, satisfied⟩)
      · refine ⟨Nat.le_of_eq same.symm, ?_⟩
        rwa [show index = ⟨cursor, inRange⟩ from Fin.ext same]
      · exact ⟨Nat.le_of_succ_le further, satisfied⟩

theorem matchesFrom_beyond
    {cursor : Nat}
    (beyond : count ≤ cursor) :
    matchesFrom test cursor = [] := by
  rw [List.eq_nil_iff_forall_not_mem]
  intro index member
  have := (mem_matchesFrom.mp member).1
  omega

/-- One scan finds the first of the remaining matches. -/
theorem matchesFrom_seekIndex (test : Fin count → Bool) (cursor : Nat) :
    matchesFrom test cursor =
      if inRange : seekIndex test cursor < count then
        ⟨seekIndex test cursor, inRange⟩ ::
          matchesFrom test (seekIndex test cursor + 1)
      else [] := by
  fun_induction seekIndex test cursor with
  | case1 cursor inRange found =>
      rw [dif_pos inRange]
      exact matchesFrom_hit inRange found
  | case2 cursor inRange skipped inductionHypothesis =>
      rw [matchesFrom_skip inRange (by simpa using skipped)]
      exact inductionHypothesis
  | case3 cursor outOfRange =>
      rw [dif_neg outOfRange]
      exact matchesFrom_beyond (Nat.le_of_not_lt outOfRange)

theorem firstIndex_eq_head?_matchesFrom :
    firstIndex test = (matchesFrom test 0).head? := by
  rw [matchesFrom_zero, List.head?_filter, firstIndex]

end TinierOS
