import TinierOS.Util.Select

/-!
# The wait set of a condition variable

`CondVar` of `old/kernel_cc.c`: a pointer to the oldest waiter, whose node is on
a ring without a sentinel.  The key of a node is the waiter it is embedded in,
and a waiter and its node have one address.
-/

namespace TinierOS

/-- The nodes of all waiters and the field `waitset`. -/
structure Waitset (α : Type) where
  nodes : RlHeap α α
  waitset : Option α

namespace Waitset

variable {α : Type}

/-- The ring consists of the given waiters, in order, and `waitset` is the first
of them. -/
structure Holds
    (set : Waitset α)
    (waiters : List α) : Prop where
  oldest : set.waitset = waiters.head?
  ring : ∀ first rest, waiters = first :: rest →
    set.nodes.links.IsRing first rest

/-- A node that is on no ring with others. -/
def Alone (set : Waitset α) (w : α) : Prop :=
  set.nodes.links.IsRing w []

theorem Holds.nodup
    {set : Waitset α}
    {waiters : List α}
    (holds : set.Holds waiters) :
    waiters.Nodup := by
  cases waiters with
  | nil => exact List.nodup_nil
  | cons first rest => exact (holds.ring first rest rfl).nodup

/-- A ring whose nodes are not written stays as it is. -/
theorem Holds.of_untouched
    {set after : Waitset α}
    {waiters : List α}
    (holds : set.Holds waiters)
    (sameOldest : after.waitset = set.waitset)
    (untouched : ∀ w ∈ waiters, after.nodes w = set.nodes w) :
    after.Holds waiters := by
  refine ⟨sameOldest.trans holds.oldest, ?_⟩
  rintro first rest rfl
  exact RlHeap.isRing_of_untouched (holds.ring first rest rfl) untouched

variable [DecidableEq α]

/-- `rlnode_init(& waiter.node, &waiter)` -/
def initNode (set : Waitset α) (w : α) : Waitset α :=
  { set with nodes := set.nodes.rlnodeInit w w }

/-- The enqueueing of `cv_wait`. -/
def pushBack (set : Waitset α) (w : α) : Waitset α :=
  match set.waitset with
  | some wset => { set with nodes := set.nodes.rlistPushBack wset w }
  | none => { set with waitset := some w }

/-- `remove_from_ring` -/
def removeFromRing (set : Waitset α) (w : α) : Waitset α where
  waitset :=
    if set.waitset = some w then
      let nextw := (set.nodes (set.nodes w).next).obj
      if nextw = w then none else some nextw
    else set.waitset
  nodes := set.nodes.rlistRemove w

/-! ## Effect on the ring -/

theorem alone_initNode (set : Waitset α) (w : α) :
    (set.initNode w).Alone w := by
  rw [Alone, initNode, RlHeap.rlnodeInit_links]
  exact set.nodes.links.single_isRing w

@[simp] theorem initNode_obj_self (set : Waitset α) (w : α) :
    ((set.initNode w).nodes w).obj = w :=
  set.nodes.rlnodeInit_obj_self w w

theorem initNode_of_ne
    {set : Waitset α}
    {w other : α}
    (different : other ≠ w) :
    (set.initNode w).nodes other = set.nodes other :=
  RlHeap.rlnodeInit_of_ne different

theorem Alone.initNode
    {set : Waitset α}
    {w other : α}
    (alone : set.Alone other)
    (different : other ≠ w) :
    (set.initNode w).Alone other := by
  apply RlHeap.isRing_of_untouched alone
  intro node member
  rw [List.mem_singleton] at member
  rw [member]
  exact initNode_of_ne different

theorem Holds.initNode
    {set : Waitset α}
    {waiters : List α}
    {w : α}
    (holds : set.Holds waiters)
    (absent : w ∉ waiters) :
    (set.initNode w).Holds waiters := by
  apply holds.of_untouched
  · rfl
  · intro node member
    apply initNode_of_ne
    rintro rfl
    exact absent member

@[simp] theorem pushBack_obj (set : Waitset α) (w node : α) :
    ((set.pushBack w).nodes node).obj = (set.nodes node).obj := by
  unfold pushBack
  cases set.waitset with
  | none => rfl
  | some wset => exact RlHeap.rlistPushBack_obj set.nodes wset w node

/-- A waiter that arrives is the last of the ring. -/
theorem Holds.pushBack
    {set : Waitset α}
    {waiters : List α}
    {w : α}
    (holds : set.Holds waiters)
    (alone : set.Alone w)
    (absent : w ∉ waiters) :
    (set.pushBack w).Holds (waiters ++ [w]) := by
  unfold Waitset.pushBack
  cases waiters with
  | nil =>
      rw [holds.oldest]
      refine ⟨rfl, ?_⟩
      rintro first rest equal
      cases equal
      exact alone
  | cons first rest =>
      simp only [holds.oldest, List.head?_cons]
      refine ⟨rfl, ?_⟩
      rintro first' rest' equal
      cases equal
      simp only [RlHeap.rlistPushBack_links]
      exact (holds.ring first rest rfl).push_back alone absent

/-- The arrival of a waiter does not touch nodes that are on no ring. -/
theorem Alone.pushBack
    {set : Waitset α}
    {waiters : List α}
    {w other : α}
    (holds : set.Holds waiters)
    (alone : set.Alone w)
    (otherAlone : set.Alone other)
    (different : other ≠ w)
    (absent : other ∉ waiters) :
    (set.pushBack w).Alone other := by
  unfold Waitset.pushBack Alone
  cases waiters with
  | nil =>
      rw [holds.oldest]
      exact otherAlone
  | cons first rest =>
      have ring := holds.ring first rest rfl
      have lastMember := ring.prev_mem (List.mem_cons_self ..)
      rw [holds.oldest]
      simp only [List.head?_cons, RlHeap.rlistPushBack_links]
      apply otherAlone.splice_apart
      · exact ring.prev_next_of_mem lastMember
      · exact alone.prev_next_head
      · rw [List.mem_singleton]
        intro same
        exact absent (same ▸ lastMember)
      · rw [List.mem_singleton]
        exact Ne.symm different

@[simp] theorem removeFromRing_obj (set : Waitset α) (w node : α) :
    ((set.removeFromRing w).nodes node).obj = (set.nodes node).obj :=
  RlHeap.rlistRemove_obj set.nodes w node

omit [DecidableEq α] in
/-- The ring read from one of its waiters. -/
theorem Holds.ring_from
    {set : Waitset α}
    {before after : List α}
    {w : α}
    (holds : set.Holds (before ++ w :: after)) :
    set.nodes.links.IsRing w (after ++ before) := by
  cases before with
  | nil => simpa using holds.ring w after rfl
  | cons first before =>
      exact (holds.ring first (before ++ w :: after) rfl).rotate

/-- A waiter that leaves does so without moving the others, whether it is the
oldest, the only one or neither. -/
theorem Holds.removeFromRing
    {set : Waitset α}
    {before after : List α}
    {w : α}
    (holds : set.Holds (before ++ w :: after))
    (keys : ∀ other ∈ before ++ w :: after, (set.nodes other).obj = other) :
    (set.removeFromRing w).Holds (before ++ after) := by
  have nodup := holds.nodup
  have oldest := holds.oldest
  cases before with
  | cons first before =>
      have apart : first ≠ w := by
        rintro rfl
        simp at nodup
      rw [List.cons_append, List.head?_cons] at oldest
      constructor
      · simp [Waitset.removeFromRing, oldest, apart]
      · rintro first' rest' equal
        cases equal
        simp only [Waitset.removeFromRing, RlHeap.rlistRemove_links]
        exact (holds.ring first (before ++ w :: after) rfl).remove.1
  | nil =>
      have ring := holds.ring w after rfl
      have next := ring.next_head
      rw [List.nil_append, List.head?_cons] at oldest
      cases after with
      | nil =>
          simp only [List.nil_append, List.head_cons, RlHeap.links_next] at next
          constructor
          · simp [Waitset.removeFromRing, oldest, next,
              keys w (by simp)]
          · rintro first rest equal
            cases equal
      | cons second after =>
          simp only [List.cons_append, List.head_cons, RlHeap.links_next] at next
          have apart : second ≠ w := by
            rintro rfl
            simp at nodup
          constructor
          · simp [Waitset.removeFromRing, oldest, next,
              keys second (by simp), apart]
          · rintro first rest equal
            cases equal
            have turned : set.nodes.links.IsRing second (after ++ w :: []) :=
              ring.rotate
            simp only [Waitset.removeFromRing, RlHeap.rlistRemove_links]
            have removed := turned.remove.1
            rwa [List.append_nil] at removed

/-- A waiter that leaves does not touch nodes that are on no ring. -/
theorem Alone.removeFromRing
    {set : Waitset α}
    {before after : List α}
    {w other : α}
    (holds : set.Holds (before ++ w :: after))
    (otherAlone : set.Alone other)
    (absent : other ∉ before ++ w :: after) :
    (set.removeFromRing w).Alone other := by
  have ring := holds.ring_from
  have member := List.mem_cons_self (a := w) (l := after ++ before)
  have prevMember := ring.prev_mem member
  have apart : ∀ {node}, node ∈ w :: (after ++ before) → node ∉ [other] := by
    intro node inRing isOther
    rw [List.mem_singleton.mp isOther] at inRing
    simp only [List.mem_cons, List.mem_append] at inRing absent
    tauto
  simp only [Alone, Waitset.removeFromRing, RlHeap.rlistRemove_links]
  exact otherAlone.splice_apart (ring.prev_next_of_mem member)
    (ring.prev_next_of_mem prevMember) (apart member) (apart prevMember)

end Waitset
end TinierOS
