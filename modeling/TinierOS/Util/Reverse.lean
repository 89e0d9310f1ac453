import TinierOS.Library.FiniteRings
import TinierOS.Util.Rlist

/-!
# Reversing a ring

`rlist_reverse` exchanges the two list pointers of one node after the other and
goes on along the pointer it has just stored.  Half way, the nodes behind the
cursor point one way and those ahead of it the other way; what carries the loop
is that the nodes ahead are still those of the ring walked backwards.
-/

namespace TinierOS
namespace RlHeap

variable {α κ : Type} [DecidableEq α]

/-- `rlnode_swap` applied to the two list pointers of one node. -/
def rlnodeSwapPointers (heap : RlHeap α κ) (p : α) : RlHeap α κ :=
  let temp := (heap p).prev
  let heap := Function.update heap p { heap p with prev := (heap p).next }
  Function.update heap p { heap p with next := temp }

/-- The loop of `rlist_reverse`, with the cursor at `p`: the nodes it visits and
the heap afterwards, or nothing when the fuel runs out first. -/
def rlistReverseLoop
    (l : α) :
    Nat → α → RlHeap α κ → Option (List α × RlHeap α κ)
  | 0, _, _ => none
  | fuel + 1, p, heap =>
      let heap := heap.rlnodeSwapPointers p
      let next := (heap p).next
      if next ≠ l then
        (rlistReverseLoop l fuel next heap).map fun (visited, heap) =>
          (p :: visited, heap)
      else some ([p], heap)

/-- `rlist_reverse` -/
def rlistReverse
    (fuel : Nat)
    (heap : RlHeap α κ)
    (l : α) :
    Option (List α × RlHeap α κ) :=
  rlistReverseLoop l fuel l heap

/-- The heap in which the pointers of the given nodes are exchanged. -/
def exchanged (heap : RlHeap α κ) (nodes : List α) : RlHeap α κ := fun node =>
  if node ∈ nodes then
    { heap node with prev := (heap node).next, next := (heap node).prev }
  else heap node

theorem exchanged_of_mem
    {heap : RlHeap α κ}
    {nodes : List α}
    {node : α}
    (member : node ∈ nodes) :
    heap.exchanged nodes node =
      { heap node with prev := (heap node).next, next := (heap node).prev } :=
  if_pos member

theorem exchanged_of_not_mem
    {heap : RlHeap α κ}
    {nodes : List α}
    {node : α}
    (absent : node ∉ nodes) :
    heap.exchanged nodes node = heap node :=
  if_neg absent

@[simp] theorem exchanged_nil (heap : RlHeap α κ) :
    heap.exchanged [] = heap := by
  funext node
  exact exchanged_of_not_mem List.not_mem_nil

@[simp] theorem exchanged_obj
    (heap : RlHeap α κ)
    (nodes : List α)
    (node : α) :
    (heap.exchanged nodes node).obj = (heap node).obj := by
  unfold exchanged
  split <;> rfl

/-- Only the set of nodes matters. -/
theorem exchanged_congr
    {nodes others : List α}
    (heap : RlHeap α κ)
    (same : ∀ node, node ∈ nodes ↔ node ∈ others) :
    heap.exchanged nodes = heap.exchanged others := by
  funext node
  simp only [exchanged, same]

/-- Exchanging twice restores every node. -/
theorem exchanged_exchanged (heap : RlHeap α κ) (nodes : List α) :
    (heap.exchanged nodes).exchanged nodes = heap := by
  funext node
  by_cases member : node ∈ nodes
  · rw [exchanged_of_mem member, exchanged_of_mem member]
  · rw [exchanged_of_not_mem member, exchanged_of_not_mem member]

/-- One turn of the loop exchanges the pointers of one more node. -/
theorem rlnodeSwapPointers_exchanged
    {p : α}
    {visited : List α}
    (heap : RlHeap α κ)
    (fresh : p ∉ visited) :
    (heap.exchanged visited).rlnodeSwapPointers p =
      heap.exchanged (p :: visited) := by
  funext node
  by_cases same : node = p
  · subst same
    rw [exchanged_of_mem (List.mem_cons_self ..)]
    simp [rlnodeSwapPointers, exchanged_of_not_mem fresh]
  · simp [rlnodeSwapPointers, exchanged, same]

/-- A ring whose nodes are all exchanged is the same ring walked backwards. -/
theorem exchanged_isRing
    {heap : RlHeap α κ}
    {l : α}
    {rest : List α}
    (ring : heap.links.IsRing l rest) :
    (heap.exchanged (l :: rest)).links.IsRing l rest.reverse := by
  apply ring.flip.congr
  · intro node member
    rw [List.mem_cons, List.mem_reverse, ← List.mem_cons] at member
    rw [links_next, exchanged_of_mem member]
    exact links_prev heap node
  · intro node member
    rw [List.mem_cons, List.mem_reverse, ← List.mem_cons] at member
    rw [links_prev, exchanged_of_mem member]
    exact links_next heap node

/-- One turn of the loop, with the nodes behind the cursor exchanged. -/
theorem rlistReverseLoop_succ
    {heap : RlHeap α κ}
    {p : α}
    {visited : List α}
    (l : α)
    (fuel : Nat)
    (fresh : p ∉ visited) :
    rlistReverseLoop l (fuel + 1) p (heap.exchanged visited) =
      if (heap p).prev ≠ l then
        (rlistReverseLoop l fuel (heap p).prev
          (heap.exchanged (p :: visited))).map
            fun (later, after) => (p :: later, after)
      else some ([p], heap.exchanged (p :: visited)) := by
  rw [rlistReverseLoop, rlnodeSwapPointers_exchanged heap fresh,
    exchanged_of_mem (List.mem_cons_self ..)]

/-- The loop, half way: the nodes behind the cursor are exchanged, and those
from the cursor on still lead backwards to the start. -/
theorem rlistReverseLoop_eq
    {heap : RlHeap α κ}
    {l p : α}
    {ahead visited : List α}
    {fuel : Nat}
    (segment : heap.links.flip.Segment p ahead l)
    (nodup : (p :: ahead).Nodup)
    (fresh : ∀ node ∈ p :: ahead, node ∉ visited)
    (apart : l ∉ ahead)
    (enough : ahead.length < fuel) :
    rlistReverseLoop l fuel p (heap.exchanged visited) =
      some (p :: ahead, heap.exchanged ((p :: ahead).reverse ++ visited)) := by
  induction ahead generalizing p visited fuel with
  | nil =>
      obtain ⟨fuel, rfl⟩ := Nat.exists_eq_succ_of_ne_zero
        (Nat.ne_zero_of_lt enough)
      have last : (heap p).prev = l := (Links.segment_nil.mp segment).1
      rw [Nat.succ_eq_add_one,
        rlistReverseLoop_succ l fuel (fresh p (List.mem_cons_self ..)),
        if_neg (not_not.mpr last)]
      rfl
  | cons first ahead inductionHypothesis =>
      obtain ⟨fuel, rfl⟩ := Nat.exists_eq_succ_of_ne_zero
        (Nat.ne_zero_of_lt enough)
      obtain ⟨⟨backward, _⟩, remaining⟩ := Links.segment_cons.mp segment
      have step : (heap p).prev = first := backward
      rw [List.mem_cons, not_or] at apart
      rw [List.nodup_cons] at nodup
      have stillFresh : ∀ node ∈ first :: ahead, node ∉ p :: visited := by
        intro node member again
        rcases List.mem_cons.mp again with rfl | earlier
        · exact nodup.1 member
        · exact fresh node (List.mem_cons_of_mem _ member) earlier
      rw [Nat.succ_eq_add_one,
        rlistReverseLoop_succ l fuel (fresh p (List.mem_cons_self ..)), step,
        if_pos (Ne.symm apart.1),
        inductionHypothesis remaining nodup.2 stillFresh apart.2
          (Nat.lt_of_succ_lt_succ enough),
        Option.map_some]
      simp

/-- On a ring, the whole run of `rlist_reverse`. -/
theorem rlistReverse_eq
    {heap : RlHeap α κ}
    {l : α}
    {rest : List α}
    {fuel : Nat}
    (ring : heap.links.IsRing l rest)
    (enough : rest.length < fuel) :
    heap.rlistReverse fuel l =
      some (l :: rest.reverse, heap.exchanged (l :: rest)) := by
  have mirrored := ring.flip
  have run : rlistReverseLoop l fuel l (heap.exchanged []) = some _ :=
    rlistReverseLoop_eq mirrored.segment mirrored.nodup
      (fun _ _ => List.not_mem_nil) mirrored.head_not_mem
      (by rwa [List.length_reverse])
  rw [exchanged_nil, List.append_nil] at run
  rw [rlistReverse, run]
  congr 2
  apply exchanged_congr
  simp [or_comm]

/-- What `rlist_reverse` does to the ring of `l`, whose other nodes are `rest`:
which nodes the loop visits, the ring afterwards, and all the rest. -/
structure Reverses
    (heap : RlHeap α κ)
    (l : α)
    (rest visited : List α)
    (after : RlHeap α κ) : Prop where
  once : visited.Nodup ∧ visited.Perm (l :: rest)
  ring : after.links.IsRing l rest.reverse
  forward : ∀ fuel, rest.length < fuel →
    Links.walk (fun node => (after node).next) l fuel (after l).next =
      some rest.reverse
  inverse : after.links.InverseOn {node | node ∈ l :: rest}
  keys : ∀ node, (after node).obj = (heap node).obj
  outside : ∀ node, node ∉ l :: rest → after node = heap node
  others : ∀ head others, heap.links.IsRing head others → l ∉ head :: others →
    after.links.IsRing head others ∧
      ∀ node ∈ head :: others, after node = heap node

theorem exchanged_reverses
    {heap : RlHeap α κ}
    {l : α}
    {rest : List α}
    (ring : heap.links.IsRing l rest) :
    Reverses heap l rest (l :: rest.reverse) (heap.exchanged (l :: rest)) := by
  have reversed := exchanged_isRing ring
  have outside : ∀ node, node ∉ l :: rest →
      heap.exchanged (l :: rest) node = heap node :=
    fun _ absent => exchanged_of_not_mem absent
  refine ⟨⟨reversed.nodup, (List.reverse_perm rest).cons l⟩, reversed, ?_, ?_,
    exchanged_obj heap (l :: rest), outside, ?_⟩
  · intro fuel enough
    exact reversed.walk_next (by rwa [List.length_reverse])
  · have inverse := reversed.inverseOn
    simpa only [List.mem_cons, List.mem_reverse] using inverse
  · intro head others otherRing apart
    have untouched : ∀ node ∈ head :: others,
        heap.exchanged (l :: rest) node = heap node := by
      intro node member
      apply outside
      exact otherRing.disjoint ring apart member
    exact ⟨isRing_of_untouched otherRing untouched, untouched⟩

/-- `rlist_reverse` terminates on every ring and from every node of it, visits
each node once, leaves the ring in the opposite order, and undoes itself. -/
theorem rlistReverse_reverses
    (heap : RlHeap α κ)
    (l : α)
    (rest : List α)
    (ring : heap.links.IsRing l rest) :
    ∃ visited after,
      (∀ fuel, rest.length < fuel →
        heap.rlistReverse fuel l = some (visited, after)) ∧
      Reverses heap l rest visited after ∧
      ∃ again, ∀ fuel, rest.length < fuel →
        after.rlistReverse fuel l = some (again, heap) := by
  refine ⟨_, _, fun fuel enough => rlistReverse_eq ring enough,
    exchanged_reverses ring, l :: rest, ?_⟩
  intro fuel enough
  have sameNodes : (heap.exchanged (l :: rest)).exchanged (l :: rest.reverse) =
      (heap.exchanged (l :: rest)).exchanged (l :: rest) :=
    exchanged_congr _ (by simp)
  rw [rlistReverse_eq (exchanged_isRing ring) (by rwa [List.length_reverse]),
    List.reverse_reverse, sameNodes, exchanged_exchanged]

/-- A ring of four nodes. -/
def fourNodes : RlHeap Nat Unit := fun node =>
  { obj := (), prev := (node + 3) % 4, next := (node + 1) % 4 }

theorem rlistReverse_reverses_fourNodes :
    fourNodes.links.IsRing 1 [2, 3, 0] ∧
      ∃ visited after,
        (∀ fuel, 3 < fuel →
          fourNodes.rlistReverse fuel 1 = some (visited, after)) ∧
        Reverses fourNodes 1 [2, 3, 0] visited after ∧
        ∃ again, ∀ fuel, 3 < fuel →
          after.rlistReverse fuel 1 = some (again, fourNodes) := by
  have ring : fourNodes.links.IsRing 1 [2, 3, 0] := by
    refine ⟨by decide, ?_⟩
    simp only [Links.segment_cons, Links.segment_nil, Links.Follows]
    decide
  exact ⟨ring, rlistReverse_reverses fourNodes 1 [2, 3, 0] ring⟩

end RlHeap
end TinierOS
