import TinierOS.Util.Rlist

/-!
# Searching and comparing lists

`rlist_len`, `rlist_equal` and `rlist_find` of `include/util.h` walk over a list
without changing it.
-/

namespace TinierOS
namespace RlHeap

variable {α κ : Type} [DecidableEq α]

/-- The loop of `rlist_len`, from node `p`; `count` is an `unsigned int`.  The
bound is for the turns of the loop. -/
def rlistLenLoop
    (modulus : Nat)
    (heap : RlHeap α κ)
    (list : α) : Nat → α → Nat → Option Nat
  | 0, _, _ => none
  | fuel + 1, p, count =>
      if p = list then some count
      else rlistLenLoop modulus heap list fuel (heap p).next
        ((count + 1) % modulus)

/-- `rlist_len`; `modulus` is one more than the largest `unsigned int`. -/
def rlistLen
    (modulus fuel : Nat)
    (heap : RlHeap α κ)
    (list : α) : Option Nat :=
  rlistLenLoop modulus heap list fuel (heap list).next 0

/-- The loop of `rlist_find`, from node `i`. -/
def rlistFindLoop
    [DecidableEq κ]
    (heap : RlHeap α κ)
    (list : α)
    (key : κ)
    (fail : Option α) : Nat → α → Option (Option α)
  | 0, _ => none
  | fuel + 1, i =>
      if i = list then some fail
      else if (heap i).obj = key then some (some i)
      else rlistFindLoop heap list key fail fuel (heap i).next

/-- `rlist_find`; the node `fail` may be null. -/
def rlistFind
    [DecidableEq κ]
    (fuel : Nat)
    (heap : RlHeap α κ)
    (list : α)
    (key : κ)
    (fail : Option α) : Option (Option α) :=
  rlistFindLoop heap list key fail fuel (heap list).next

/-- The loop of `rlist_equal`, from nodes `i1` and `i2`. -/
def rlistEqualLoop
    [DecidableEq κ]
    (heap : RlHeap α κ)
    (first second : α) : Nat → α → α → Option Bool
  | 0, _, _ => none
  | fuel + 1, i1, i2 =>
      if i1 = first then some (i2 = second)
      else if i2 = second ∨ (heap i1).obj ≠ (heap i2).obj then some false
      else rlistEqualLoop heap first second fuel (heap i1).next (heap i2).next

/-- `rlist_equal` -/
def rlistEqual
    [DecidableEq κ]
    (fuel : Nat)
    (heap : RlHeap α κ)
    (first second : α) : Option Bool :=
  rlistEqualLoop heap first second fuel (heap first).next (heap second).next

/-! ## What the walks compute -/

section Walks

variable {heap : RlHeap α κ}
variable {list : α}

/-- The loop of `rlist_len` counts the nodes that are ahead. -/
theorem rlistLenLoop_eq
    (modulus : Nat)
    {start : α}
    {ahead : List α}
    (segment : heap.links.Segment start ahead list)
    (notAhead : list ∉ ahead)
    {fuel : Nat}
    (enough : ahead.length < fuel)
    (count : Nat)
    (inRange : count % modulus = count) :
    rlistLenLoop modulus heap list fuel (heap start).next count =
      some ((count + ahead.length) % modulus) := by
  induction ahead generalizing start fuel count with
  | nil =>
      obtain ⟨fuel, rfl⟩ := Nat.exists_eq_succ_of_ne_zero
        (Nat.ne_zero_of_lt enough)
      have atEnd : (heap start).next = list := segment.next_start
      rw [rlistLenLoop, if_pos atEnd]
      simp [inRange]
  | cons p ahead inductionHypothesis =>
      obtain ⟨fuel, rfl⟩ := Nat.exists_eq_succ_of_ne_zero
        (Nat.ne_zero_of_lt enough)
      obtain ⟨different, notLater⟩ := List.ne_and_not_mem_of_not_mem_cons notAhead
      have atNode : (heap start).next = p := segment.next_start
      rw [rlistLenLoop, atNode, if_neg (Ne.symm different),
        inductionHypothesis (Links.segment_cons.mp segment).2 notLater
          (Nat.lt_of_succ_lt_succ enough) _ (Nat.mod_mod ..)]
      rw [Nat.mod_add_mod, List.length_cons]
      congr 2
      omega

/-- The loop of `rlist_find` returns the first node with the key, of those that
are ahead. -/
theorem rlistFindLoop_eq
    [DecidableEq κ]
    {start : α}
    {ahead : List α}
    (segment : heap.links.Segment start ahead list)
    (notAhead : list ∉ ahead)
    {fuel : Nat}
    (enough : ahead.length < fuel)
    (key : κ)
    (fail : Option α) :
    rlistFindLoop heap list key fail fuel (heap start).next =
      some ((ahead.find? fun node => (heap node).obj = key).or fail) := by
  induction ahead generalizing start fuel with
  | nil =>
      obtain ⟨fuel, rfl⟩ := Nat.exists_eq_succ_of_ne_zero
        (Nat.ne_zero_of_lt enough)
      have atEnd : (heap start).next = list := segment.next_start
      rw [rlistFindLoop, if_pos atEnd]
      simp
  | cons p ahead inductionHypothesis =>
      obtain ⟨fuel, rfl⟩ := Nat.exists_eq_succ_of_ne_zero
        (Nat.ne_zero_of_lt enough)
      obtain ⟨different, notLater⟩ := List.ne_and_not_mem_of_not_mem_cons notAhead
      have atNode : (heap start).next = p := segment.next_start
      rw [rlistFindLoop, atNode, if_neg (Ne.symm different)]
      by_cases found : (heap p).obj = key
      · rw [if_pos found]
        simp [found]
      · rw [if_neg found,
          inductionHypothesis (Links.segment_cons.mp segment).2 notLater
            (Nat.lt_of_succ_lt_succ enough)]
        simp [found]

/-- The loop of `rlist_equal` compares the nodes that are ahead, by their keys.
It stops at the end of the first list; the end of the second one is looked for
before each comparison. -/
theorem rlistEqualLoop_eq
    [DecidableEq κ]
    {first second start other : α}
    {xs ys : List α}
    (segment : heap.links.Segment start xs first)
    (notFirst : first ∉ xs)
    (otherSegment : heap.links.Segment other ys second)
    (notSecond : second ∉ ys)
    {fuel : Nat}
    (enough : xs.length < fuel) :
    rlistEqualLoop heap first second fuel (heap start).next (heap other).next =
      some (decide (xs.map (fun node => (heap node).obj) =
        ys.map fun node => (heap node).obj)) := by
  induction xs generalizing start other ys fuel with
  | nil =>
      obtain ⟨fuel, rfl⟩ := Nat.exists_eq_succ_of_ne_zero
        (Nat.ne_zero_of_lt enough)
      have atEnd : (heap start).next = first := segment.next_start
      rw [rlistEqualLoop, if_pos atEnd]
      cases ys with
      | nil =>
          have bothEnd : (heap other).next = second := otherSegment.next_start
          simp [bothEnd]
      | cons q ys =>
          have atNode : (heap other).next = q := otherSegment.next_start
          have different := (List.ne_and_not_mem_of_not_mem_cons notSecond).1
          simp [atNode, Ne.symm different]
  | cons p xs inductionHypothesis =>
      obtain ⟨fuel, rfl⟩ := Nat.exists_eq_succ_of_ne_zero
        (Nat.ne_zero_of_lt enough)
      obtain ⟨different, notLater⟩ := List.ne_and_not_mem_of_not_mem_cons notFirst
      have atNode : (heap start).next = p := segment.next_start
      rw [rlistEqualLoop, atNode, if_neg (Ne.symm different)]
      cases ys with
      | nil =>
          have atEnd : (heap other).next = second := otherSegment.next_start
          rw [if_pos (.inl atEnd)]
          simp
      | cons q ys =>
          obtain ⟨otherDifferent, otherLater⟩ :=
            List.ne_and_not_mem_of_not_mem_cons notSecond
          have otherNode : (heap other).next = q := otherSegment.next_start
          rw [otherNode]
          by_cases keys : (heap p).obj = (heap q).obj
          · rw [if_neg (by simp [Ne.symm otherDifferent, keys]),
              inductionHypothesis (Links.segment_cons.mp segment).2 notLater
                (Links.segment_cons.mp otherSegment).2 otherLater
                (Nat.lt_of_succ_lt_succ enough)]
            simp [keys]
          · rw [if_pos (.inr keys)]
            simp [keys]

/-- A node that `rlist_find` finds has the key. -/
theorem rlistFindLoop_key
    [DecidableEq κ]
    {key : κ}
    {fuel : Nat}
    {i node : α}
    (found : rlistFindLoop heap list key none fuel i = some (some node)) :
    (heap node).obj = key := by
  induction fuel generalizing i with
  | zero => cases found
  | succ fuel inductionHypothesis =>
      rw [rlistFindLoop] at found
      split_ifs at found with atEnd isKey
      · cases found
      · cases found
        exact isKey
      · exact inductionHypothesis found

/-- `rlist_find` finds the first node with the key. -/
theorem rlistFind_eq
    [DecidableEq κ]
    {xs : List α}
    (ring : heap.links.IsRing list xs)
    {fuel : Nat}
    (enough : xs.length < fuel)
    (key : κ)
    (fail : Option α) :
    heap.rlistFind fuel list key fail =
      some ((xs.find? fun node => (heap node).obj = key).or fail) :=
  rlistFindLoop_eq ring.segment ring.head_not_mem enough key fail

/-- The walks over lists of any length compute the length, as far as an
`unsigned int` can count, the first node with a key, and equality of the keys;
the lists compared may be one and the same. -/
theorem rlistWalks_eq
    [DecidableEq κ]
    {first second : α}
    {xs ys : List α}
    (ring : heap.links.IsRing first xs)
    (otherRing : heap.links.IsRing second ys)
    {fuel : Nat}
    (enough : xs.length < fuel)
    (modulus : Nat)
    (key : κ)
    (fail : Option α) :
    heap.rlistLen modulus fuel first = some (xs.length % modulus) ∧
    heap.rlistFind fuel first key fail =
      some ((xs.find? fun node => (heap node).obj = key).or fail) ∧
    heap.rlistEqual fuel first second =
      some (decide (xs.map (fun node => (heap node).obj) =
        ys.map fun node => (heap node).obj)) := by
  refine ⟨?_, rlistFind_eq ring enough key fail, ?_⟩
  · have counted := rlistLenLoop_eq modulus ring.segment ring.head_not_mem
      enough 0 (Nat.zero_mod modulus)
    rw [Nat.zero_add] at counted
    exact counted
  · exact rlistEqualLoop_eq ring.segment ring.head_not_mem otherRing.segment
      otherRing.head_not_mem enough

end Walks

/-- Two lists that differ in their third node. -/
def threeAndTwo : RlHeap (Fin 7) Nat
  | 0 => { obj := 0, prev := 3, next := 1 }
  | 1 => { obj := 7, prev := 0, next := 2 }
  | 2 => { obj := 8, prev := 1, next := 3 }
  | 3 => { obj := 9, prev := 2, next := 0 }
  | 4 => { obj := 0, prev := 6, next := 5 }
  | 5 => { obj := 7, prev := 4, next := 6 }
  | 6 => { obj := 8, prev := 5, next := 4 }

theorem rlistWalks_eq_threeAndTwo :
    threeAndTwo.rlistLen 65536 4 0 = some 3 ∧
    threeAndTwo.rlistFind 4 0 8 none = some (some 2) ∧
    threeAndTwo.rlistEqual 4 0 4 = some false := by
  have ring : threeAndTwo.links.IsRing 0 [1, 2, 3] := by
    refine ⟨by decide, ?_⟩
    simp only [Links.segment_cons, Links.segment_nil, Links.Follows]
    decide
  have otherRing : threeAndTwo.links.IsRing 4 [5, 6] := by
    refine ⟨by decide, ?_⟩
    simp only [Links.segment_cons, Links.segment_nil, Links.Follows]
    decide
  exact rlistWalks_eq ring otherRing (by decide : [1, 2, 3].length < 4) 65536 8
    none

end RlHeap
end TinierOS
