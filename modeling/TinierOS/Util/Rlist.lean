import TinierOS.Library.RingLists

/-!
# Resource lists

The circular lists of `include/util.h`.  An `rlnode` holds a key and two list
pointers; all list operations are built from `rl_splice`.

A heap is a map from node addresses to nodes.  The address type of each heap of
the kernel has a `null` member, so that the zeroed static storage of a node that
was never passed to `rlnode_init` is represented as it is.
-/

namespace TinierOS

/-- `rlnode`: the key (the union's `obj`) and the two list pointers. -/
structure Rlnode (α κ : Type) where
  obj : κ
  prev : α
  next : α
  deriving DecidableEq

/-- The nodes at all addresses of one family of lists. -/
abbrev RlHeap (α κ : Type) := α → Rlnode α κ

namespace RlHeap

variable {α κ : Type}

/-- The list pointers of a heap, without the keys. -/
def links (heap : RlHeap α κ) : Links α where
  next := fun node => (heap node).next
  prev := fun node => (heap node).prev

@[simp] theorem links_next (heap : RlHeap α κ) (node : α) :
    heap.links.next node = (heap node).next := rfl

@[simp] theorem links_prev (heap : RlHeap α κ) (node : α) :
    heap.links.prev node = (heap node).prev := rfl

/-- A heap is its list pointers and its keys. -/
theorem ext_links
    {heap other : RlHeap α κ}
    (sameLinks : heap.links = other.links)
    (sameKeys : ∀ node, (heap node).obj = (other node).obj) :
    heap = other := by
  funext node
  have sameNext := congrFun (congrArg Links.next sameLinks) node
  have samePrev := congrFun (congrArg Links.prev sameLinks) node
  have sameKey := sameKeys node
  simp only [links_next, links_prev] at sameNext samePrev
  cases left : heap node with
  | mk obj prev next =>
      cases right : other node with
      | mk obj' prev' next' =>
          simp only [left, right] at sameNext samePrev sameKey
          rw [sameNext, samePrev, sameKey]

/-- A ring of nodes that are not written stays a ring. -/
theorem isRing_of_untouched
    {heap after : RlHeap α κ}
    {head : α}
    {others : List α}
    (ring : heap.links.IsRing head others)
    (untouched : ∀ node ∈ head :: others, after node = heap node) :
    after.links.IsRing head others := by
  apply ring.congr
  · intro node member
    rw [links_next, links_next, untouched node member]
  · intro node member
    rw [links_prev, links_prev, untouched node member]

variable [DecidableEq α]

/-- `rlnode_init`: a singleton ring with the given key. -/
def rlnodeInit (heap : RlHeap α κ) (node : α) (ptr : κ) : RlHeap α κ :=
  Function.update heap node { obj := ptr, prev := node, next := node }

/-- `rlnode_swap` applied to the `prev` fields of two nodes. -/
def rlnodeSwapPrev (heap : RlHeap α κ) (first second : α) : RlHeap α κ :=
  let temp := (heap first).prev
  let heap := Function.update heap first
    { heap first with prev := (heap second).prev }
  Function.update heap second { heap second with prev := temp }

/-- `rlnode_swap` applied to the `next` fields of two nodes. -/
def rlnodeSwapNext (heap : RlHeap α κ) (first second : α) : RlHeap α κ :=
  let temp := (heap first).next
  let heap := Function.update heap first
    { heap first with next := (heap second).next }
  Function.update heap second { heap second with next := temp }

/-- `rl_splice`: swap `a->next->prev` with `b->next->prev`, then `a->next` with
`b->next`.  The returned pointer is always the second argument. -/
def rlSplice (heap : RlHeap α κ) (a b : α) : RlHeap α κ :=
  let heap := rlnodeSwapPrev heap (heap a).next (heap b).next
  rlnodeSwapNext heap a b

/-- `rlist_remove` -/
def rlistRemove (heap : RlHeap α κ) (a : α) : RlHeap α κ :=
  rlSplice heap a (heap a).prev

/-- `is_rlist_empty` -/
def isRlistEmpty (heap : RlHeap α κ) (list : α) : Bool :=
  list = (heap list).next

/-- `rlist_push_front` -/
def rlistPushFront (heap : RlHeap α κ) (list node : α) : RlHeap α κ :=
  rlSplice heap list node

/-- `rlist_push_back` -/
def rlistPushBack (heap : RlHeap α κ) (list node : α) : RlHeap α κ :=
  rlSplice heap (heap list).prev node

/-- `rlist_pop_front`: the popped node, which is the list itself when the list
is empty, and the heap afterwards. -/
def rlistPopFront (heap : RlHeap α κ) (list : α) : α × RlHeap α κ :=
  ((heap list).next, rlSplice heap list (heap list).next)

/-- `rlist_pop_back`: the returned node and the heap afterwards. -/
def rlistPopBack (heap : RlHeap α κ) (list : α) : α × RlHeap α κ :=
  ((heap list).prev, rlSplice heap list (heap list).prev)

/-- `rlist_append` -/
def rlistAppend (heap : RlHeap α κ) (ldest lsrc : α) : RlHeap α κ :=
  let heap := rlistPushBack heap ldest lsrc
  rlistRemove heap lsrc

/-- `rlist_prepend` -/
def rlistPrepend (heap : RlHeap α κ) (ldest lsrc : α) : RlHeap α κ :=
  let heap := rlistPushFront heap ldest lsrc
  rlistRemove heap lsrc

/-! ## Effect on the list pointers -/

@[simp] theorem rlnodeInit_links
    (heap : RlHeap α κ)
    (node : α)
    (ptr : κ) :
    (heap.rlnodeInit node ptr).links = heap.links.single node := by
  ext other
  · by_cases same : other = node
    · subst same
      simp [rlnodeInit, Links.single]
    · simp [rlnodeInit, Links.single, same]
  · by_cases same : other = node
    · subst same
      simp [rlnodeInit, Links.single]
    · simp [rlnodeInit, Links.single, same]

@[simp] theorem rlnodeInit_obj_self
    (heap : RlHeap α κ)
    (node : α)
    (ptr : κ) :
    (heap.rlnodeInit node ptr node).obj = ptr := by
  simp [rlnodeInit]

theorem rlnodeInit_of_ne
    {heap : RlHeap α κ}
    {node other : α}
    {ptr : κ}
    (different : other ≠ node) :
    heap.rlnodeInit node ptr other = heap other := by
  simp [rlnodeInit, different]

/-- Initialising a family of nodes leaves every other node alone. -/
theorem rlnodeInit_foldl_of_ne
    {ε : Type}
    {address : ε → α}
    {key : ε → κ}
    {node : α}
    {elements : List ε}
    (heap : RlHeap α κ)
    (outside : ∀ element ∈ elements, node ≠ address element) :
    elements.foldl (fun heap element =>
      heap.rlnodeInit (address element) (key element)) heap node =
        heap node := by
  induction elements generalizing heap with
  | nil => rfl
  | cons first rest inductionHypothesis =>
      rw [List.foldl_cons, inductionHypothesis _ fun element member =>
        outside element (List.mem_cons_of_mem _ member)]
      exact rlnodeInit_of_ne (outside first (List.mem_cons_self ..))

/-- Initialising a family of nodes makes each of them a singleton. -/
theorem rlnodeInit_foldl_of_mem
    {ε : Type}
    {address : ε → α}
    {element : ε}
    {elements : List ε}
    (heap : RlHeap α κ)
    (key : ε → κ)
    (injective : Function.Injective address)
    (member : element ∈ elements) :
    elements.foldl (fun heap element =>
      heap.rlnodeInit (address element) (key element)) heap
        (address element) =
      { obj := key element
        prev := address element
        next := address element } := by
  induction elements generalizing heap with
  | nil => cases member
  | cons first rest inductionHypothesis =>
      rw [List.foldl_cons]
      by_cases later : element ∈ rest
      · exact inductionHypothesis _ later
      · obtain rfl : element = first :=
          (List.mem_cons.mp member).resolve_right later
        rw [rlnodeInit_foldl_of_ne]
        · simp [rlnodeInit]
        · rintro other inRest equal
          rw [injective equal] at later
          exact later inRest

theorem rlnodeSwapPrev_eq
    (heap : RlHeap α κ)
    (first second node : α) :
    rlnodeSwapPrev heap first second node =
      { heap node with
        prev := (heap (Equiv.swap first second node)).prev } := by
  unfold rlnodeSwapPrev
  simp only [Function.update_apply, Equiv.swap_apply_def]
  split_ifs with isSecond isFirst <;> simp_all

theorem rlnodeSwapNext_eq
    (heap : RlHeap α κ)
    (first second node : α) :
    rlnodeSwapNext heap first second node =
      { heap node with
        next := (heap (Equiv.swap first second node)).next } := by
  unfold rlnodeSwapNext
  simp only [Function.update_apply, Equiv.swap_apply_def]
  split_ifs with isSecond isFirst <;> simp_all

/-- The two swaps of `rl_splice` are one splice of the links. -/
@[simp] theorem rlSplice_links
    (heap : RlHeap α κ)
    (a b : α) :
    (rlSplice heap a b).links = heap.links.splice a b := by
  ext node
  · simp [rlSplice, rlnodeSwapNext_eq, rlnodeSwapPrev_eq, Links.splice]
  · simp [rlSplice, rlnodeSwapNext_eq, rlnodeSwapPrev_eq, Links.splice]

@[simp] theorem rlSplice_obj
    (heap : RlHeap α κ)
    (a b node : α) :
    (rlSplice heap a b node).obj = (heap node).obj := by
  simp [rlSplice, rlnodeSwapNext_eq, rlnodeSwapPrev_eq]

/-- A splice writes the two nodes and their successors only. -/
theorem rlSplice_of_apart
    {heap : RlHeap α κ}
    {a b node : α}
    (notLeft : node ≠ a)
    (notRight : node ≠ b)
    (notLeftNext : node ≠ (heap a).next)
    (notRightNext : node ≠ (heap b).next) :
    rlSplice heap a b node = heap node := by
  simp [rlSplice, rlnodeSwapNext_eq, rlnodeSwapPrev_eq,
    Equiv.swap_apply_of_ne_of_ne notLeft notRight,
    Equiv.swap_apply_of_ne_of_ne notLeftNext notRightNext]

/-- Popping an empty list changes nothing. -/
theorem rlSplice_self (heap : RlHeap α κ) (a : α) :
    rlSplice heap a a = heap := by
  funext node
  simp [rlSplice, rlnodeSwapNext_eq, rlnodeSwapPrev_eq]

@[simp] theorem rlistRemove_links (heap : RlHeap α κ) (a : α) :
    (heap.rlistRemove a).links = heap.links.splice a (heap.links.prev a) := by
  rw [rlistRemove, rlSplice_links, links_prev]

@[simp] theorem rlistRemove_obj (heap : RlHeap α κ) (a node : α) :
    (heap.rlistRemove a node).obj = (heap node).obj := by
  rw [rlistRemove, rlSplice_obj]

@[simp] theorem rlistPushFront_links (heap : RlHeap α κ) (list node : α) :
    (heap.rlistPushFront list node).links = heap.links.splice list node := by
  rw [rlistPushFront, rlSplice_links]

@[simp] theorem rlistPushFront_obj (heap : RlHeap α κ) (list node other : α) :
    (heap.rlistPushFront list node other).obj = (heap other).obj := by
  rw [rlistPushFront, rlSplice_obj]

@[simp] theorem rlistPushBack_links (heap : RlHeap α κ) (list node : α) :
    (heap.rlistPushBack list node).links =
      heap.links.splice (heap.links.prev list) node := by
  rw [rlistPushBack, rlSplice_links, links_prev]

@[simp] theorem rlistPushBack_obj (heap : RlHeap α κ) (list node other : α) :
    (heap.rlistPushBack list node other).obj = (heap other).obj := by
  rw [rlistPushBack, rlSplice_obj]

@[simp] theorem rlistPopFront_fst (heap : RlHeap α κ) (list : α) :
    (heap.rlistPopFront list).1 = heap.links.next list := rfl

@[simp] theorem rlistPopFront_links (heap : RlHeap α κ) (list : α) :
    (heap.rlistPopFront list).2.links =
      heap.links.splice list (heap.links.next list) := by
  rw [rlistPopFront, rlSplice_links, links_next]

@[simp] theorem rlistPopFront_obj (heap : RlHeap α κ) (list node : α) :
    ((heap.rlistPopFront list).2 node).obj = (heap node).obj := by
  rw [rlistPopFront, rlSplice_obj]

/-- The emptiness test, for a list that the heap represents. -/
theorem isRlistEmpty_iff
    {σ τ : Type}
    {layout : Layout σ τ α}
    {heap : RlHeap α κ}
    {lists : σ → List τ}
    {live : τ → Prop}
    (represents : layout.Represents heap.links lists live)
    (list : σ) :
    heap.isRlistEmpty (layout.sentinel list) = true ↔ lists list = [] := by
  rw [← represents.next_sentinel_eq_iff list]
  simp [isRlistEmpty, eq_comm]

end RlHeap
end TinierOS
