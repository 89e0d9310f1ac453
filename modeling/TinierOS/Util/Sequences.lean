import TinierOS.Library.FiniteRings
import TinierOS.Util.Rlist

/-!
# List operations refine sequences

A family of resource lists and of nodes that are in no list, under any sequence
of calls of the list package.  The abstract state is one sequence of nodes for
each sentinel; each call is the matching operation on sequences.
-/

namespace TinierOS

/-- The calls of the list package, on the lists `σ` and the nodes `τ` of a
family. -/
inductive ListCall (σ τ : Type) where
  | pushFront (list : σ) (node : τ)
  | pushBack (list : σ) (node : τ)
  | popFront (list : σ)
  | remove (node : τ)
  | append (ldest lsrc : σ)
  | prepend (ldest lsrc : σ)
  | isEmpty (list : σ)

/-- What a call returns: nothing, the address of a node, or a truth value. -/
inductive ListReply (α : Type) where
  | done
  | node (address : α)
  | truth (value : Bool)
  deriving DecidableEq

namespace ListCall

variable {σ τ α κ : Type}

/-- The lists whose contents a call may change. -/
def Names (lists : σ → List τ) (list : σ) : ListCall σ τ → Prop
  | pushFront named _ => list = named
  | pushBack named _ => list = named
  | popFront named => list = named
  | remove node => node ∈ lists list
  | append ldest lsrc => list = ldest ∨ list = lsrc
  | prepend ldest lsrc => list = ldest ∨ list = lsrc
  | isEmpty _ => False

/-- Only nodes that are in no list may be pushed, and only two different lists
may be concatenated. -/
def Permitted (lists : σ → List τ) : ListCall σ τ → Prop
  | pushFront _ node => ∀ list, node ∉ lists list
  | pushBack _ node => ∀ list, node ∉ lists list
  | append ldest lsrc => ldest ≠ lsrc
  | prepend ldest lsrc => ldest ≠ lsrc
  | popFront _ => True
  | remove _ => True
  | isEmpty _ => True

/-- The nodes and the sentinel that a call takes out of a ring. -/
def released
    (layout : Layout σ τ α)
    (lists : σ → List τ) :
    ListCall σ τ → Option α
  | popFront list => (lists list).head?.map layout.cell
  | remove node => some (layout.cell node)
  | append _ lsrc => some (layout.sentinel lsrc)
  | prepend _ lsrc => some (layout.sentinel lsrc)
  | pushFront _ _ => none
  | pushBack _ _ => none
  | isEmpty _ => none

/-- A call on the heap. -/
def onHeap
    [DecidableEq α]
    (layout : Layout σ τ α)
    (heap : RlHeap α κ) :
    ListCall σ τ → ListReply α × RlHeap α κ
  | pushFront list node =>
      (.done, heap.rlistPushFront (layout.sentinel list) (layout.cell node))
  | pushBack list node =>
      (.done, heap.rlistPushBack (layout.sentinel list) (layout.cell node))
  | popFront list =>
      let (node, heap) := heap.rlistPopFront (layout.sentinel list)
      (.node node, heap)
  | remove node =>
      (.node (layout.cell node), heap.rlistRemove (layout.cell node))
  | append ldest lsrc =>
      (.done, heap.rlistAppend (layout.sentinel ldest) (layout.sentinel lsrc))
  | prepend ldest lsrc =>
      (.done, heap.rlistPrepend (layout.sentinel ldest) (layout.sentinel lsrc))
  | isEmpty list => (.truth (heap.isRlistEmpty (layout.sentinel list)), heap)

/-- The same call on sequences. -/
def onSequences
    [DecidableEq σ]
    [DecidableEq τ]
    (layout : Layout σ τ α)
    (lists : σ → List τ) :
    ListCall σ τ → ListReply α × (σ → List τ)
  | pushFront list node =>
      (.done, Function.update lists list (node :: lists list))
  | pushBack list node =>
      (.done, Function.update lists list (lists list ++ [node]))
  | popFront list =>
      match lists list with
      | [] => (.node (layout.sentinel list), lists)
      | first :: rest =>
          (.node (layout.cell first), Function.update lists list rest)
  | remove node =>
      (.node (layout.cell node), fun list => (lists list).erase node)
  | append ldest lsrc =>
      (.done, Function.update
        (Function.update lists ldest (lists ldest ++ lists lsrc)) lsrc [])
  | prepend ldest lsrc =>
      (.done, Function.update
        (Function.update lists ldest (lists lsrc ++ lists ldest)) lsrc [])
  | isEmpty list => (.truth (lists list).isEmpty, lists)

end ListCall

namespace Layout

variable {σ τ α κ : Type} [DecidableEq α] [DecidableEq σ] [DecidableEq τ]

/-- A sequence of calls on the heap: the replies and the final heap. -/
def runHeap
    (layout : Layout σ τ α)
    (heap : RlHeap α κ) :
    List (ListCall σ τ) → List (ListReply α) × RlHeap α κ
  | [] => ([], heap)
  | call :: calls =>
      let (reply, heap) := call.onHeap layout heap
      let (replies, heap) := layout.runHeap heap calls
      (reply :: replies, heap)

/-- The same calls on sequences. -/
def runSequences
    (layout : Layout σ τ α)
    (lists : σ → List τ) :
    List (ListCall σ τ) → List (ListReply α) × (σ → List τ)
  | [] => ([], lists)
  | call :: calls =>
      let (reply, lists) := call.onSequences layout lists
      let (replies, lists) := layout.runSequences lists calls
      (reply :: replies, lists)

/-- Every call of the sequence is permitted when its turn comes. -/
def PermittedRun
    (layout : Layout σ τ α)
    (lists : σ → List τ) :
    List (ListCall σ τ) → Prop
  | [] => True
  | call :: calls => call.Permitted lists ∧
      layout.PermittedRun (call.onSequences layout lists).2 calls

/-- A node that is its own successor and predecessor. -/
def Singleton (heap : RlHeap α κ) (node : α) : Prop :=
  (heap node).next = node ∧ (heap node).prev = node

/-- The heap holds the given sequences: the loops over each list, forwards and
backwards, visit exactly its nodes, and all other nodes are singletons. -/
structure Walked
    (layout : Layout σ τ α)
    (heap : RlHeap α κ)
    (lists : σ → List τ) : Prop where
  forward : ∀ list fuel, (lists list).length < fuel →
    Links.walk (fun node => (heap node).next) (layout.sentinel list) fuel
      (heap (layout.sentinel list)).next =
        some ((lists list).map layout.cell)
  backward : ∀ list fuel, (lists list).length < fuel →
    Links.walk (fun node => (heap node).prev) (layout.sentinel list) fuel
      (heap (layout.sentinel list)).prev =
        some ((lists list).map layout.cell).reverse
  alone : ∀ node, (∀ list, node ∉ lists list) →
    Singleton heap (layout.cell node)

/-- What one call does beside its effect on the sequences. -/
structure Framed
    (layout : Layout σ τ α)
    (heap : RlHeap α κ)
    (lists : σ → List τ)
    (call : ListCall σ τ) : Prop where
  released : ∀ node ∈ call.released layout lists,
    Singleton (call.onHeap layout heap).2 node
  emptyPop : ∀ list, call = .popFront list → lists list = [] →
    call.onHeap layout heap = (.node (layout.sentinel list), heap)
  others : ∀ list, ¬ call.Names lists list →
    (call.onSequences layout lists).2 list = lists list ∧
      ∀ node ∈ layout.sentinel list :: (lists list).map layout.cell,
        (call.onHeap layout heap).2 node = heap node

/-! ## One call -/

/-- The family of lists that a heap represents; all nodes are initialised. -/
abbrev Family
    (layout : Layout σ τ α)
    (heap : RlHeap α κ)
    (lists : σ → List τ) : Prop :=
  layout.Represents heap.links lists fun _ => True

variable {layout : Layout σ τ α} {heap : RlHeap α κ} {lists : σ → List τ}

omit [DecidableEq α] in
theorem singleton_of_isRing
    {node : α}
    (ring : heap.links.IsRing node []) :
    Singleton heap node :=
  Links.isRing_nil.mp ring

omit [DecidableEq σ] [DecidableEq τ] in
theorem onHeap_obj
    (layout : Layout σ τ α)
    (heap : RlHeap α κ)
    (call : ListCall σ τ)
    (node : α) :
    ((call.onHeap layout heap).2 node).obj = (heap node).obj := by
  cases call <;>
    simp [ListCall.onHeap, RlHeap.rlistAppend, RlHeap.rlistPrepend]

omit [DecidableEq α] in
/-- The call on sequences keeps every list it does not name. -/
theorem onSequences_of_not_names
    {call : ListCall σ τ}
    {list : σ}
    (layout : Layout σ τ α)
    (unnamed : ¬ call.Names lists list) :
    (call.onSequences layout lists).2 list = lists list := by
  cases call with
  | pushFront named node => exact Function.update_of_ne unnamed ..
  | pushBack named node => exact Function.update_of_ne unnamed ..
  | popFront named =>
      simp only [ListCall.onSequences]
      split
      · rfl
      · exact Function.update_of_ne unnamed ..
  | remove node => exact List.erase_of_not_mem unnamed
  | append ldest lsrc =>
      simp only [ListCall.Names, not_or] at unnamed
      simp only [ListCall.onSequences]
      rw [Function.update_of_ne unnamed.2, Function.update_of_ne unnamed.1]
  | prepend ldest lsrc =>
      simp only [ListCall.Names, not_or] at unnamed
      simp only [ListCall.onSequences]
      rw [Function.update_of_ne unnamed.2, Function.update_of_ne unnamed.1]
  | isEmpty named => rfl

/-- One permitted call does to the heap what it does to the sequences, and
returns the same. -/
theorem Family.onHeap
    {call : ListCall σ τ}
    (family : layout.Family heap lists)
    (permitted : call.Permitted lists) :
    (call.onHeap layout heap).1 = (call.onSequences layout lists).1 ∧
      layout.Family (call.onHeap layout heap).2
        (call.onSequences layout lists).2 := by
  cases call with
  | pushFront list node =>
      refine ⟨rfl, ?_⟩
      simp only [ListCall.onHeap, ListCall.onSequences, Family,
        RlHeap.rlistPushFront_links]
      exact family.push_front trivial permitted list
  | pushBack list node =>
      refine ⟨rfl, ?_⟩
      simp only [ListCall.onHeap, ListCall.onSequences, Family,
        RlHeap.rlistPushBack_links]
      exact family.push_back trivial permitted list
  | popFront list =>
      simp only [ListCall.onHeap, ListCall.onSequences, Family,
        RlHeap.rlistPopFront_fst, RlHeap.rlistPopFront_links]
      cases contents : lists list with
      | nil =>
          have itself := (family.next_sentinel_eq_iff list).mpr contents
          rw [itself, Links.splice_self]
          exact ⟨rfl, family⟩
      | cons first rest =>
          exact ⟨by rw [family.next_sentinel_cons contents],
            family.pop_front contents⟩
  | remove node =>
      refine ⟨rfl, ?_⟩
      simp only [ListCall.onHeap, ListCall.onSequences, Family,
        RlHeap.rlistRemove_links]
      exact family.unlink trivial
  | append ldest lsrc =>
      refine ⟨rfl, ?_⟩
      simp only [ListCall.onHeap, ListCall.onSequences, Family,
        RlHeap.rlistAppend, RlHeap.rlistRemove_links,
        RlHeap.rlistPushBack_links]
      exact family.append permitted
  | prepend ldest lsrc =>
      refine ⟨rfl, ?_⟩
      simp only [ListCall.onHeap, ListCall.onSequences, Family,
        RlHeap.rlistPrepend, RlHeap.rlistRemove_links,
        RlHeap.rlistPushFront_links]
      exact family.prepend permitted
  | isEmpty list =>
      refine ⟨?_, family⟩
      simp only [ListCall.onHeap, ListCall.onSequences, ListReply.truth.injEq]
      rw [Bool.eq_iff_iff, RlHeap.isRlistEmpty_iff family list,
        List.isEmpty_iff]

omit [DecidableEq σ] [DecidableEq τ] in
theorem Family.walked (family : layout.Family heap lists) :
    layout.Walked heap lists where
  forward := fun list fuel enough =>
    (family.ring list).walk_next (by rwa [List.length_map])
  backward := fun list fuel enough =>
    (family.ring list).walk_prev (by rwa [List.length_map])
  alone := fun _ unlisted =>
    singleton_of_isRing (family.alone trivial unlisted)

/-- What a call takes out of a ring is in no list afterwards. -/
theorem Family.released
    {call : ListCall σ τ}
    {node : α}
    (family : layout.Family heap lists)
    (permitted : call.Permitted lists)
    (isReleased : node ∈ call.released layout lists) :
    Singleton (call.onHeap layout heap).2 node := by
  have after := (family.onHeap permitted).2
  cases call with
  | pushFront list other => cases isReleased
  | pushBack list other => cases isReleased
  | isEmpty list => cases isReleased
  | popFront list =>
      simp only [ListCall.released, Option.mem_def, Option.map_eq_some_iff]
        at isReleased
      obtain ⟨first, isHead, rfl⟩ := isReleased
      obtain ⟨rest, contents⟩ := List.head?_eq_some_iff.mp isHead
      refine after.walked.alone first ?_
      have listNodup := family.nodup list
      rw [contents, List.nodup_cons] at listNodup
      intro other
      simp only [ListCall.onSequences, contents]
      by_cases same : other = list
      · rw [same, Function.update_self]
        exact listNodup.1
      · rw [Function.update_of_ne same]
        intro again
        apply same
        refine family.unique again ?_
        rw [contents]
        exact List.mem_cons_self ..
  | remove other =>
      simp only [ListCall.released, Option.mem_def, Option.some.injEq]
        at isReleased
      subst isReleased
      exact after.walked.alone other fun list => (family.nodup list).not_mem_erase
  | append ldest lsrc =>
      simp only [ListCall.released, Option.mem_def, Option.some.injEq]
        at isReleased
      subst isReleased
      have ring := after.ring lsrc
      simp only [ListCall.onSequences, Function.update_self,
        List.map_nil] at ring
      exact singleton_of_isRing ring
  | prepend ldest lsrc =>
      simp only [ListCall.released, Option.mem_def, Option.some.injEq]
        at isReleased
      subst isReleased
      have ring := after.ring lsrc
      simp only [ListCall.onSequences, Function.update_self,
        List.map_nil] at ring
      exact singleton_of_isRing ring

theorem Family.framed
    {call : ListCall σ τ}
    (family : layout.Family heap lists)
    (permitted : call.Permitted lists) :
    layout.Framed heap lists call where
  released := fun _ isReleased => family.released permitted isReleased
  emptyPop := by
    rintro list rfl contents
    have itself := (family.next_sentinel_eq_iff list).mpr contents
    rw [RlHeap.links_next] at itself
    simp only [ListCall.onHeap, RlHeap.rlistPopFront, itself,
      RlHeap.rlSplice_self]
  others := by
    intro list unnamed
    have same := onSequences_of_not_names layout unnamed
    refine ⟨same, ?_⟩
    intro node member
    -- The ring of the list is as before, and a ring determines its links.
    have ring := (family.onHeap permitted).2.ring list
    rw [same] at ring
    obtain ⟨sameNext, samePrev⟩ := (family.ring list).same_links ring member
    simp only [RlHeap.links_next, RlHeap.links_prev] at sameNext samePrev
    have sameKey := onHeap_obj layout heap call node
    cases before : heap node with
    | mk obj prev next =>
        cases after : (call.onHeap layout heap).2 node with
        | mk obj' prev' next' =>
            simp only [before, after] at sameNext samePrev sameKey
            rw [sameNext, samePrev, sameKey]

/-! ## Any sequence of calls -/

theorem Family.runHeap
    {calls : List (ListCall σ τ)}
    (family : layout.Family heap lists)
    (permitted : layout.PermittedRun lists calls) :
    (layout.runHeap heap calls).1 = (layout.runSequences lists calls).1 ∧
      layout.Family (layout.runHeap heap calls).2
        (layout.runSequences lists calls).2 := by
  induction calls generalizing heap lists with
  | nil => exact ⟨rfl, family⟩
  | cons call calls inductionHypothesis =>
      obtain ⟨sameReply, after⟩ := family.onHeap permitted.1
      obtain ⟨sameReplies, final⟩ := inductionHypothesis after permitted.2
      refine ⟨?_, final⟩
      simp only [Layout.runHeap, Layout.runSequences]
      rw [sameReply, sameReplies]

/-- Every sequence of calls on a family of lists returns what it returns on
sequences and leaves each list holding its sequence, in both directions; and
every further call releases, pops and frames as it should. -/
theorem lists_refine_sequences
    (layout : Layout σ τ α)
    (heap : RlHeap α κ)
    (lists : σ → List τ)
    (family : layout.Family heap lists)
    (calls : List (ListCall σ τ))
    (permitted : layout.PermittedRun lists calls) :
    (layout.runHeap heap calls).1 = (layout.runSequences lists calls).1 ∧
      layout.Walked (layout.runHeap heap calls).2
        (layout.runSequences lists calls).2 ∧
      ∀ call : ListCall σ τ,
        call.Permitted (layout.runSequences lists calls).2 →
        layout.Framed (layout.runHeap heap calls).2
          (layout.runSequences lists calls).2 call := by
  obtain ⟨sameReplies, final⟩ := family.runHeap permitted
  exact ⟨sameReplies, final.walked, fun _ callPermitted =>
    final.framed callPermitted⟩

/-- Two lists and two nodes, all apart. -/
def twoLists : Layout (Fin 2) (Fin 2) (Fin 2 ⊕ Fin 2) where
  sentinel := Sum.inl
  cell := Sum.inr
  sentinel_injective := Sum.inl_injective
  cell_injective := Sum.inr_injective
  sentinel_ne_cell := fun _ _ => Sum.inl_ne_inr

theorem lists_refine_sequences_twoLists :
    let heap : RlHeap (Fin 2 ⊕ Fin 2) Unit := fun node =>
      { obj := (), prev := node, next := node }
    let calls : List (ListCall (Fin 2) (Fin 2)) :=
      [.pushBack 0 0, .pushFront 0 1, .append 1 0, .popFront 1, .remove 0]
    (twoLists.runHeap heap calls).1 =
        [.done, .done, .done, .node (Sum.inr 1), .node (Sum.inr 0)] ∧
      twoLists.Walked (twoLists.runHeap heap calls).2
        (twoLists.runSequences (fun _ => []) calls).2 := by
  intro heap calls
  have family : twoLists.Family heap fun _ => [] :=
    Represents.of_singletons (fun _ => ⟨rfl, rfl⟩) (fun _ _ => ⟨rfl, rfl⟩)
  have permitted : twoLists.PermittedRun (fun _ => []) calls := by
    simp only [calls, PermittedRun, ListCall.Permitted]
    decide
  obtain ⟨sameReplies, walked, -⟩ :=
    lists_refine_sequences twoLists heap _ family calls permitted
  refine ⟨?_, walked⟩
  rw [sameReplies]
  decide

end Layout
end TinierOS
