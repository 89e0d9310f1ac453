import TinierOS.Library.FiniteRings
import TinierOS.Util.Rlist

/-!
# Selecting from a list

`rlist_select` walks one list and moves the nodes that satisfy a predicate to
the end of another.  The cursor is always the last node that stays: what is
behind it has been kept, what is ahead of it has not been looked at.
-/

namespace TinierOS
namespace RlHeap

variable {α κ : Type} [DecidableEq α]

/-- The loop of `rlist_select`, with the cursor at `I`, or nothing when the fuel
runs out first.  The predicate sees a node's address and its key. -/
def rlistSelectLoop
    (Lsrc Ldest : α)
    (pred : α → κ → Bool) :
    Nat → α → RlHeap α κ → Option (RlHeap α κ)
  | 0, _, _ => none
  | fuel + 1, I, heap =>
      let p := (heap I).next
      if p ≠ Lsrc then
        if pred p (heap p).obj then
          let heap := heap.rlistRemove p
          let heap := heap.rlistPushBack Ldest p
          rlistSelectLoop Lsrc Ldest pred fuel I heap
        else rlistSelectLoop Lsrc Ldest pred fuel p heap
      else some heap

/-- `rlist_select` -/
def rlistSelect
    (fuel : Nat)
    (heap : RlHeap α κ)
    (Lsrc Ldest : α)
    (pred : α → κ → Bool) :
    Option (RlHeap α κ) :=
  rlistSelectLoop Lsrc Ldest pred fuel Lsrc heap

/-- `rlist_remove` followed by `rlist_push_back`, the body of the loop. -/
def moveBack (heap : RlHeap α κ) (dest p : α) : RlHeap α κ :=
  (heap.rlistRemove p).rlistPushBack dest p

@[simp] theorem moveBack_obj (heap : RlHeap α κ) (dest p node : α) :
    (heap.moveBack dest p node).obj = (heap node).obj := by
  rw [moveBack, rlistPushBack_obj, rlistRemove_obj]

/-- A ring without the removed node is left as it is. -/
theorem rlistRemove_isRing_apart
    {heap : RlHeap α κ}
    {src dest p : α}
    {before after others : List α}
    (srcRing : heap.links.IsRing src (before ++ p :: after))
    (destRing : heap.links.IsRing dest others)
    (apart : dest ∉ src :: (before ++ p :: after)) :
    (heap.rlistRemove p).links.IsRing dest others := by
  have member : p ∈ src :: (before ++ p :: after) := by simp
  have prevMember := srcRing.prev_mem member
  have disjoint := srcRing.disjoint destRing apart
  rw [rlistRemove_links]
  exact destRing.splice_apart (srcRing.prev_next_of_mem member)
    (srcRing.prev_next_of_mem prevMember) (disjoint member)
    (disjoint prevMember)

/-- Moving a node to another list takes it out of its ring and puts it at the
end of the other. -/
theorem moveBack_rings
    {heap : RlHeap α κ}
    {src dest p : α}
    {before after others : List α}
    (srcRing : heap.links.IsRing src (before ++ p :: after))
    (destRing : heap.links.IsRing dest others)
    (apart : dest ∉ src :: (before ++ p :: after)) :
    (heap.moveBack dest p).links.IsRing src (before ++ after) ∧
      (heap.moveBack dest p).links.IsRing dest (others ++ [p]) := by
  have disjoint := srcRing.disjoint destRing apart
  have member : p ∈ src :: (before ++ p :: after) := by simp
  have shorter : ∀ {node}, node ∈ src :: (before ++ after) →
      node ∈ src :: (before ++ p :: after) := by
    intro node inShorter
    simp only [List.mem_cons, List.mem_append] at inShorter ⊢
    tauto
  have destKept := rlistRemove_isRing_apart srcRing destRing apart
  obtain ⟨srcShorter, alone⟩ := srcRing.remove
  rw [← rlistRemove_links] at srcShorter alone
  have pApart : p ∉ src :: (before ++ after) := by
    have nodup := srcRing.nodup
    simp only [List.nodup_cons, List.mem_append, List.mem_cons,
      List.nodup_append] at nodup ⊢
    grind
  rw [moveBack, rlistPushBack_links]
  constructor
  · have lastMember := destKept.prev_mem (List.mem_cons_self ..)
    apply srcShorter.splice_apart
    · exact destKept.prev_next_of_mem lastMember
    · exact alone.prev_next_head
    · exact fun again => disjoint (shorter again) lastMember
    · exact pApart
  · exact destKept.push_back alone (disjoint member)

/-- Nodes on neither ring are not written. -/
theorem moveBack_outside
    {heap : RlHeap α κ}
    {src dest p node : α}
    {before after others : List α}
    (srcRing : heap.links.IsRing src (before ++ p :: after))
    (destRing : heap.links.IsRing dest others)
    (apart : dest ∉ src :: (before ++ p :: after))
    (notSrc : node ∉ src :: (before ++ p :: after))
    (notDest : node ∉ dest :: others) :
    heap.moveBack dest p node = heap node := by
  have member : p ∈ src :: (before ++ p :: after) := by simp
  have srcInverse := srcRing.inverseOn
  have prevMember := srcRing.prev_mem member
  have destKept := rlistRemove_isRing_apart srcRing destRing apart
  have destInverse := destKept.inverseOn
  have lastMember := destKept.prev_mem (List.mem_cons_self ..)
  have alone := srcRing.remove.2
  rw [← rlistRemove_links] at alone
  have notIn : ∀ {cells : List α} {other : α},
      node ∉ cells → other ∈ cells → node ≠ other := by
    rintro cells other absent inCells rfl
    exact absent inCells
  calc heap.moveBack dest p node = heap.rlistRemove p node := by
        apply rlSplice_of_apart
        · exact notIn notDest lastMember
        · exact notIn notSrc member
        · exact notIn notDest (destInverse.next_mem _ lastMember)
        · have itself := (Links.isRing_nil.mp alone).1
          rw [links_next] at itself
          rw [itself]
          exact notIn notSrc member
    _ = heap node := by
        apply rlSplice_of_apart
        · exact notIn notSrc member
        · exact notIn notSrc prevMember
        · exact notIn notSrc (srcInverse.next_mem p member)
        · exact notIn notSrc (srcInverse.next_mem _ prevMember)

omit [DecidableEq α] in
/-- What follows the last of the nodes that were kept. -/
theorem next_getLast_kept
    {heap : RlHeap α κ}
    {src : α}
    {kept ahead : List α}
    (ring : heap.links.IsRing src (kept ++ ahead)) :
    (heap ((src :: kept).getLast (by simp))).next =
      (ahead ++ [src]).head (by simp) := by
  rcases List.eq_nil_or_concat kept with rfl | ⟨earlier, last, rfl⟩
  · exact ring.next_head
  · rw [List.concat_eq_append, List.append_assoc, List.singleton_append] at ring
    have forward := ring.rotate.next_head
    rw [links_next] at forward
    have lastKept : (src :: earlier.concat last).getLast (by simp) = last := by
      simp
    rw [lastKept, forward]
    cases ahead <;> rfl

/-- What selecting leaves of the nodes `xs` of one list and the nodes `ys` of
another. -/
structure Selects
    (heap : RlHeap α κ)
    (Lsrc Ldest : α)
    (xs ys : List α)
    (pred : α → κ → Bool)
    (after : RlHeap α κ) : Prop where
  kept : after.links.IsRing Lsrc
    (xs.filter fun node => !pred node (heap node).obj)
  moved : after.links.IsRing Ldest
    (ys ++ xs.filter fun node => pred node (heap node).obj)
  keys : ∀ node, (after node).obj = (heap node).obj
  outside : ∀ node, node ∉ Lsrc :: xs → node ∉ Ldest :: ys →
    after node = heap node
  others : ∀ head others, heap.links.IsRing head others →
    Lsrc ∉ head :: others → Ldest ∉ head :: others →
    after.links.IsRing head others ∧
      ∀ node ∈ head :: others, after node = heap node

/-- The loop, half way: the cursor is at the last node that was kept, the nodes
`ahead` have not been looked at, and `ys` are on the other list by now. -/
theorem rlistSelectLoop_eq
    {heap : RlHeap α κ}
    {Lsrc Ldest : α}
    {kept ahead ys : List α}
    (pred : α → κ → Bool)
    (srcRing : heap.links.IsRing Lsrc (kept ++ ahead))
    (destRing : heap.links.IsRing Ldest ys)
    (apart : Ldest ∉ Lsrc :: (kept ++ ahead)) :
    ∃ after,
      (∀ fuel, ahead.length < fuel →
        rlistSelectLoop Lsrc Ldest pred fuel
          ((Lsrc :: kept).getLast (by simp)) heap = some after) ∧
      after.links.IsRing Lsrc
        (kept ++ ahead.filter fun node => !pred node (heap node).obj) ∧
      after.links.IsRing Ldest
        (ys ++ ahead.filter fun node => pred node (heap node).obj) ∧
      (∀ node, (after node).obj = (heap node).obj) ∧
      ∀ node, node ∉ Lsrc :: (kept ++ ahead) → node ∉ Ldest :: ys →
        after node = heap node := by
  have cursor := next_getLast_kept srcRing
  induction ahead generalizing heap kept ys with
  | nil =>
      refine ⟨heap, ?_, by simpa using srcRing, by simpa using destRing,
        fun _ => rfl, fun _ _ _ => rfl⟩
      intro fuel enough
      obtain ⟨fuel, rfl⟩ := Nat.exists_eq_succ_of_ne_zero
        (Nat.ne_zero_of_lt enough)
      have atEnd : (heap ((Lsrc :: kept).getLast (by simp))).next = Lsrc := cursor
      rw [rlistSelectLoop, atEnd]
      exact if_neg (not_not.mpr rfl)
  | cons p ahead inductionHypothesis =>
      have atNode : (heap ((Lsrc :: kept).getLast (by simp))).next = p := cursor
      have notEnd : p ≠ Lsrc := by
        rintro rfl
        exact srcRing.head_not_mem (by simp)
      by_cases selected : pred p (heap p).obj = true
      · obtain ⟨shorter, longer⟩ := moveBack_rings srcRing destRing apart
        have stillApart : Ldest ∉ Lsrc :: (kept ++ ahead) := by
          simp only [List.mem_cons, List.mem_append] at apart ⊢
          tauto
        obtain ⟨after, run, keptRing, movedRing, keys, outside⟩ :=
          inductionHypothesis shorter longer stillApart
            (next_getLast_kept shorter)
        simp only [moveBack_obj] at keptRing movedRing keys
        refine ⟨after, ?_, ?_, ?_, keys, ?_⟩
        · intro fuel enough
          obtain ⟨fuel, rfl⟩ := Nat.exists_eq_succ_of_ne_zero
            (Nat.ne_zero_of_lt enough)
          rw [rlistSelectLoop, atNode, if_pos notEnd, if_pos selected]
          exact run fuel (Nat.lt_of_succ_lt_succ enough)
        · simpa [selected] using keptRing
        · simpa [selected] using movedRing
        · intro node notSrc notDest
          have inSrc : p ∈ Lsrc :: (kept ++ p :: ahead) := by simp
          rw [outside node, moveBack_outside srcRing destRing apart notSrc
            notDest]
          · simp only [List.mem_cons, List.mem_append] at notSrc ⊢
            tauto
          · simp only [List.mem_cons, List.mem_append] at notSrc notDest ⊢
            tauto
      · have regrouped : kept ++ p :: ahead = (kept ++ [p]) ++ ahead := by simp
        rw [regrouped] at srcRing apart
        obtain ⟨after, run, keptRing, movedRing, keys, outside⟩ :=
          inductionHypothesis srcRing destRing apart (next_getLast_kept srcRing)
        refine ⟨after, ?_, ?_, ?_, keys, ?_⟩
        · intro fuel enough
          obtain ⟨fuel, rfl⟩ := Nat.exists_eq_succ_of_ne_zero
            (Nat.ne_zero_of_lt enough)
          rw [rlistSelectLoop, atNode, if_pos notEnd, if_neg selected]
          have later := run fuel (Nat.lt_of_succ_lt_succ enough)
          rw [List.getLast_cons (by simp), List.getLast_concat] at later
          exact later
        · simpa [selected] using keptRing
        · simpa [selected] using movedRing
        · rwa [regrouped]

/-- `rlist_select` is a stable partition: it terminates on every two disjoint
lists and keeps the order of both. -/
theorem rlistSelect_selects
    (heap : RlHeap α κ)
    (Lsrc Ldest : α)
    (xs ys : List α)
    (pred : α → κ → Bool)
    (srcRing : heap.links.IsRing Lsrc xs)
    (destRing : heap.links.IsRing Ldest ys)
    (disjoint : (Lsrc :: xs).Disjoint (Ldest :: ys)) :
    ∃ after,
      (∀ fuel, xs.length < fuel →
        heap.rlistSelect fuel Lsrc Ldest pred = some after) ∧
      Selects heap Lsrc Ldest xs ys pred after := by
  have apart : Ldest ∉ Lsrc :: xs := fun member =>
    disjoint member (List.mem_cons_self ..)
  rw [← List.nil_append xs] at srcRing apart
  obtain ⟨after, run, kept, moved, keys, outside⟩ :=
    rlistSelectLoop_eq pred srcRing destRing apart
  refine ⟨after, run, kept, moved, keys, outside, ?_⟩
  intro head others ring srcApart destApart
  have untouched : ∀ node ∈ head :: others, after node = heap node := by
    intro node member
    apply outside
    · exact fun again => ring.disjoint srcRing srcApart member again
    · exact fun again => ring.disjoint destRing destApart member again
  exact ⟨isRing_of_untouched ring untouched, untouched⟩

/-- A list of three nodes and a list of one. -/
def threeAndOne : RlHeap (Fin 6) Nat
  | 0 => { obj := 0, prev := 3, next := 1 }
  | 1 => { obj := 7, prev := 0, next := 2 }
  | 2 => { obj := 8, prev := 1, next := 3 }
  | 3 => { obj := 9, prev := 2, next := 0 }
  | 4 => { obj := 0, prev := 5, next := 5 }
  | 5 => { obj := 1, prev := 4, next := 4 }

theorem rlistSelect_selects_threeAndOne :
    ∃ after,
      (∀ fuel, 3 < fuel →
        threeAndOne.rlistSelect fuel 0 4 (fun _ key => key % 2 = 1) =
          some after) ∧
      Selects threeAndOne 0 4 [1, 2, 3] [5] (fun _ key => key % 2 = 1)
        after := by
  apply rlistSelect_selects threeAndOne 0 4 [1, 2, 3] [5]
  · refine ⟨by decide, ?_⟩
    simp only [Links.segment_cons, Links.segment_nil, Links.Follows]
    decide
  · refine ⟨by decide, ?_⟩
    simp only [Links.segment_cons, Links.segment_nil, Links.Follows]
    decide
  · intro node
    revert node
    decide

end RlHeap
end TinierOS
