import TinierOS.Library.FiniteRings
import TinierOS.Util.Rlist

/-!
# The splice law

`rl_splice` on any finite set of nodes whose list pointers undo each other: what
becomes of the rings of the two nodes, that every other node is left as it was,
and that a second splice takes the first one back.  `rlist_pop_back` is one
splice, and the law says what that splice really does to a list.
-/

namespace TinierOS
namespace RlHeap

variable {α κ : Type} [DecidableEq α]

/-- What `rl_splice` of `a` and `b` does to the rings of a set of nodes. -/
structure SpliceLaw
    (heap : RlHeap α κ)
    (nodes : Finset α)
    (a b : α) : Prop where
  inverse : (rlSplice heap a b).links.InverseOn nodes
  places : a = b ∨
    (∃ x y, heap.links.IsRing a x ∧ heap.links.IsRing b y ∧
      (a :: x).Disjoint (b :: y)) ∨
    ∃ x y, heap.links.IsRing a (x ++ b :: y)
  same : a = b → rlSplice heap a b = heap
  joins : ∀ x y, heap.links.IsRing a x → heap.links.IsRing b y →
    (a :: x).Disjoint (b :: y) →
    (rlSplice heap a b).links.IsRing a (y ++ b :: x)
  splits : ∀ x y, heap.links.IsRing a (x ++ b :: y) →
    (rlSplice heap a b).links.IsRing a y ∧
      (rlSplice heap a b).links.IsRing b x
  others : ∀ head rest, heap.links.IsRing head rest →
    a ∉ head :: rest → b ∉ head :: rest →
    (rlSplice heap a b).links.IsRing head rest ∧
      ∀ node ∈ head :: rest, rlSplice heap a b node = heap node
  outside : ∀ node, node ∉ nodes → rlSplice heap a b node = heap node
  keys : ∀ node, (rlSplice heap a b node).obj = (heap node).obj
  undone : rlSplice (rlSplice heap a b) a b = heap

/-- Repeating a splice restores the heap, whatever it held. -/
theorem rlSplice_twice (heap : RlHeap α κ) (a b : α) :
    rlSplice (rlSplice heap a b) a b = heap := by
  apply ext_links
  · rw [rlSplice_links, rlSplice_links, Links.splice_splice]
  · intro node
    rw [rlSplice_obj, rlSplice_obj]

/-- A node that a splice of two nodes does not touch: it is on a ring with
neither of them. -/
theorem rlSplice_of_ring
    {heap : RlHeap α κ}
    {a b head node : α}
    {rest : List α}
    (leftConsistent : heap.links.prev (heap.links.next a) = a)
    (rightConsistent : heap.links.prev (heap.links.next b) = b)
    (ring : heap.links.IsRing head rest)
    (leftApart : a ∉ head :: rest)
    (rightApart : b ∉ head :: rest)
    (member : node ∈ head :: rest) :
    rlSplice heap a b node = heap node := by
  have apart : ∀ {spliced}, heap.links.prev (heap.links.next spliced) = spliced →
      spliced ∉ head :: rest →
      node ≠ spliced ∧ node ≠ (heap spliced).next := by
    intro spliced consistent absent
    constructor
    · rintro rfl
      exact absent member
    · rintro rfl
      apply absent
      rw [← consistent]
      exact ring.prev_mem member
  obtain ⟨notLeft, notLeftNext⟩ := apart leftConsistent leftApart
  obtain ⟨notRight, notRightNext⟩ := apart rightConsistent rightApart
  exact rlSplice_of_apart notLeft notRight notLeftNext notRightNext

/-- The splice law, for every finite set of nodes with mutually inverse list
pointers and every two nodes of it. -/
theorem rlSplice_law
    (heap : RlHeap α κ)
    (nodes : Finset α)
    (inverse : heap.links.InverseOn nodes)
    (a b : α)
    (leftIn : a ∈ nodes)
    (rightIn : b ∈ nodes) :
    SpliceLaw heap nodes a b where
  inverse := by
    rw [rlSplice_links]
    exact inverse.splice leftIn rightIn
  places := inverse.classify nodes.finite_toSet leftIn rightIn
  same := by
    rintro rfl
    exact rlSplice_self heap a
  joins := by
    intro x y leftRing rightRing disjoint
    rw [rlSplice_links]
    exact leftRing.splice_join rightRing disjoint
  splits := by
    intro x y ring
    rw [rlSplice_links]
    exact ring.splice_split
  others := by
    intro head rest ring leftApart rightApart
    have leftConsistent := inverse.prev_next a leftIn
    have rightConsistent := inverse.prev_next b rightIn
    constructor
    · rw [rlSplice_links]
      exact ring.splice_apart leftConsistent rightConsistent leftApart
        rightApart
    · intro node member
      exact rlSplice_of_ring leftConsistent rightConsistent ring leftApart
        rightApart member
  outside := by
    intro node absent
    have notNode : ∀ {other}, other ∈ nodes → node ≠ other := by
      rintro other isNode rfl
      exact absent isNode
    exact rlSplice_of_apart (notNode leftIn) (notNode rightIn)
      (notNode (inverse.next_mem a leftIn))
      (notNode (inverse.next_mem b rightIn))
  keys := rlSplice_obj heap a b
  undone := rlSplice_twice heap a b

/-- Two rings of two nodes each. -/
def twoPairs : RlHeap (Fin 4) Unit
  | 0 => { obj := (), prev := 1, next := 1 }
  | 1 => { obj := (), prev := 0, next := 0 }
  | 2 => { obj := (), prev := 3, next := 3 }
  | 3 => { obj := (), prev := 2, next := 2 }

theorem rlSplice_law_twoPairs :
    twoPairs.links.InverseOn (Finset.univ : Finset (Fin 4)) ∧
      SpliceLaw twoPairs Finset.univ 0 2 := by
  have inverse : twoPairs.links.InverseOn (Finset.univ : Finset (Fin 4)) := by
    refine ⟨fun _ _ => by simp, fun _ _ => by simp, ?_, ?_⟩
    · intro node _
      revert node
      decide
    · intro node _
      revert node
      decide
  exact ⟨inverse, rlSplice_law twoPairs Finset.univ inverse 0 2 (by decide)
    (by decide)⟩

/-! ## Taking the tail -/

/-- What `rlist_pop_back` is documented to do to a list that ends in `last`:
the tail is returned and stands alone, the list keeps everything before it, and
no ring without a node of the list changes. -/
structure PopsTail
    (heap : RlHeap α κ)
    (list : α)
    (before : List α)
    (last : α) : Prop where
  returned : (heap.rlistPopBack list).1 = last
  alone : (heap.rlistPopBack list).2.links.IsRing last []
  kept : (heap.rlistPopBack list).2.links.IsRing list before
  others : ∀ head rest, heap.links.IsRing head rest →
    list ∉ head :: rest →
    (heap.rlistPopBack list).2.links.IsRing head rest ∧
      ∀ node ∈ head :: rest, (heap.rlistPopBack list).2 node = heap node

theorem rlistPopBack_fst_of_ring
    {heap : RlHeap α κ}
    {list last : α}
    {before : List α}
    (ring : heap.links.IsRing list (before ++ [last])) :
    (heap.rlistPopBack list).1 = last := by
  have backward := ring.prev_head
  rw [List.getLast_cons (by simp), List.getLast_append_singleton] at backward
  exact backward

/-- The list comes out empty, and the returned node carries all the others. -/
theorem rlistPopBack_rings
    {heap : RlHeap α κ}
    {list last : α}
    {before : List α}
    (ring : heap.links.IsRing list (before ++ [last])) :
    (heap.rlistPopBack list).2.links.IsRing list [] ∧
      (heap.rlistPopBack list).2.links.IsRing last before := by
  have popped := rlistPopBack_fst_of_ring ring
  unfold rlistPopBack at popped ⊢
  dsimp only at popped ⊢
  rw [popped, rlSplice_links]
  exact ring.splice_split

theorem rlistPopBack_others
    {heap : RlHeap α κ}
    {list last head : α}
    {before rest : List α}
    (ring : heap.links.IsRing list (before ++ [last]))
    (otherRing : heap.links.IsRing head rest)
    (apart : list ∉ head :: rest) :
    (heap.rlistPopBack list).2.links.IsRing head rest ∧
      ∀ node ∈ head :: rest, (heap.rlistPopBack list).2 node = heap node := by
  have popped := rlistPopBack_fst_of_ring ring
  have lastIn : last ∈ list :: (before ++ [last]) := by simp
  have lastApart : last ∉ head :: rest := fun member =>
    otherRing.disjoint ring apart member lastIn
  have listConsistent := ring.prev_next_head
  have lastConsistent := ring.prev_next_of_mem lastIn
  unfold rlistPopBack at popped ⊢
  dsimp only at popped ⊢
  rw [popped]
  constructor
  · rw [rlSplice_links]
    exact otherRing.splice_apart listConsistent lastConsistent apart lastApart
  · intro node member
    exact rlSplice_of_ring listConsistent lastConsistent otherRing apart
      lastApart member

/-- `rlist_pop_back` takes only the tail exactly on lists of one element. -/
theorem rlistPopBack_popsTail_iff
    (heap : RlHeap α κ)
    (list last : α)
    (before : List α)
    (ring : heap.links.IsRing list (before ++ [last])) :
    PopsTail heap list before last ↔ before = [] := by
  obtain ⟨emptied, carried⟩ := rlistPopBack_rings ring
  constructor
  · intro pops
    exact pops.kept.unique emptied
  · rintro rfl
    exact ⟨rlistPopBack_fst_of_ring ring, carried, emptied,
      fun _ _ otherRing apart => rlistPopBack_others ring otherRing apart⟩

/-- A list with sentinel `0` and the elements `1` and `2`. -/
def twoElements : RlHeap (Fin 3) Unit := fun node =>
  { obj := (), prev := node - 1, next := node + 1 }

theorem twoElements_isRing : twoElements.links.IsRing 0 ([1] ++ [2]) := by
  refine ⟨by decide, ?_⟩
  simp only [List.singleton_append, Links.segment_cons, Links.segment_nil,
    Links.Follows]
  decide

/-- With two elements the whole list is lost. -/
theorem rlistPopBack_loses_list :
    twoElements.links.IsRing 0 ([1] ++ [2]) ∧
      (twoElements.rlistPopBack 0).1 = 2 ∧
      (twoElements.rlistPopBack 0).2.isRlistEmpty 0 = true ∧
      ¬ PopsTail twoElements 0 [1] 2 := by
  refine ⟨twoElements_isRing, by decide, by decide, ?_⟩
  intro pops
  have emptied := (rlistPopBack_rings twoElements_isRing).1
  exact List.cons_ne_nil _ _ (pops.kept.unique emptied)

/-- The condition is met by a list of one element. -/
theorem rlistPopBack_popsTail_single :
    twoPairs.links.IsRing 0 ([] ++ [1]) ∧ PopsTail twoPairs 0 [] 1 := by
  have ring : twoPairs.links.IsRing 0 ([] ++ [1]) := by
    refine ⟨by decide, ?_⟩
    simp only [List.nil_append, Links.segment_cons, Links.segment_nil,
      Links.Follows]
    decide
  exact ⟨ring, (rlistPopBack_popsTail_iff twoPairs 0 1 [] ring).mpr rfl⟩

end RlHeap
end TinierOS
