import Mathlib.Data.List.Chain
import Mathlib.Data.List.Nodup
import Mathlib.Logic.Equiv.Basic

/-!
# Doubly linked rings

A heap of cells, each with a successor and a predecessor, and the one operation
that moves cells between rings: splicing two cells exchanges their successors
and repairs the two predecessors.  Splicing cells of different rings joins the
rings; splicing two cells of one ring splits it.

Rings are described one at a time, so nothing is assumed about cells outside
the rings that a lemma names.
-/

namespace TinierOS

universe u v

/-- Successor and predecessor of every cell. -/
@[ext] structure Links (α : Type u) where
  next : α → α
  prev : α → α

namespace Links

variable {α : Type u}

/-- `second` comes right after `first`, in both directions. -/
def Follows (links : Links α) (first second : α) : Prop :=
  links.next first = second ∧ links.prev second = first

/-- The cells strictly between `start` and `stop`, in order. -/
def Segment
    (links : Links α)
    (start : α)
    (inner : List α)
    (stop : α) : Prop :=
  List.IsChain links.Follows (start :: (inner ++ [stop]))

/-- The ring through `head`, whose other cells are `rest` in order. -/
structure IsRing
    (links : Links α)
    (head : α)
    (rest : List α) : Prop where
  nodup : (head :: rest).Nodup
  segment : links.Segment head rest head

theorem segment_nil
    {links : Links α}
    {start stop : α} :
    links.Segment start [] stop ↔ links.Follows start stop := by
  simp [Segment]

theorem segment_cons
    {links : Links α}
    {start middle stop : α}
    {inner : List α} :
    links.Segment start (middle :: inner) stop ↔
      links.Follows start middle ∧ links.Segment middle inner stop := by
  simp [Segment]

/-- A cell that is its own neighbour is a ring of one. -/
theorem isRing_nil
    {links : Links α}
    {head : α} :
    links.IsRing head [] ↔ links.Follows head head :=
  ⟨fun ring => segment_nil.mp ring.segment,
    fun follows => ⟨List.nodup_singleton head, segment_nil.mpr follows⟩⟩

/-- A segment is cut at any of its inner cells. -/
theorem segment_append_cons
    {links : Links α}
    {start middle stop : α}
    {before after : List α} :
    links.Segment start (before ++ middle :: after) stop ↔
      links.Segment start before middle ∧
        links.Segment middle after stop := by
  unfold Segment
  rw [List.append_assoc, List.cons_append]
  exact List.isChain_cons_split

theorem Segment.next_start
    {links : Links α}
    {start stop : α}
    {inner : List α}
    (segment : links.Segment start inner stop) :
    links.next start = (inner ++ [stop]).head (by simp) := by
  cases inner with
  | nil => exact (segment_nil.mp segment).1
  | cons first inner => exact (segment_cons.mp segment).1.1

/-- Walking one step forward and one step back from the first cell of a
segment comes back to it. -/
theorem Segment.prev_next_start
    {links : Links α}
    {start stop : α}
    {inner : List α}
    (segment : links.Segment start inner stop) :
    links.prev (links.next start) = start := by
  cases inner with
  | nil =>
      obtain ⟨forward, backward⟩ := segment_nil.mp segment
      rw [forward, backward]
  | cons first inner =>
      obtain ⟨forward, backward⟩ := (segment_cons.mp segment).1
      rw [forward, backward]

/-- Following the links from a cell leads to `stop` in one way only. -/
theorem Segment.unique
    {links : Links α}
    {start stop : α}
    {inner other : List α}
    (segment : links.Segment start inner stop)
    (again : links.Segment start other stop)
    (notInner : stop ∉ inner)
    (notOther : stop ∉ other) :
    inner = other := by
  induction inner generalizing start other with
  | nil =>
      have ends := segment.next_start
      rw [again.next_start] at ends
      cases other with
      | nil => rfl
      | cons second other => simp_all
  | cons first inner inductionHypothesis =>
      have begins := segment.next_start
      rw [again.next_start] at begins
      cases other with
      | nil => simp_all
      | cons second other =>
          have same : second = first := by simpa using begins
          subst same
          rw [inductionHypothesis (segment_cons.mp segment).2
            (segment_cons.mp again).2
            (fun member => notInner (List.mem_cons_of_mem _ member))
            (fun member => notOther (List.mem_cons_of_mem _ member))]

theorem Segment.prev_stop
    {links : Links α}
    {start stop : α}
    {inner : List α}
    (segment : links.Segment start inner stop) :
    links.prev stop = (start :: inner).getLast (by simp) := by
  rcases List.eq_nil_or_concat inner with rfl | ⟨before, last, rfl⟩
  · exact (segment_nil.mp segment).2
  · rw [List.concat_eq_append] at segment
    have final := (segment_append_cons.mp segment).2
    simpa using (segment_nil.mp final).2

namespace IsRing

variable {links : Links α} {head : α} {rest : List α}

theorem head_not_mem (ring : links.IsRing head rest) : head ∉ rest :=
  (List.nodup_cons.mp ring.nodup).1

theorem rest_nodup (ring : links.IsRing head rest) : rest.Nodup :=
  (List.nodup_cons.mp ring.nodup).2

theorem next_head (ring : links.IsRing head rest) :
    links.next head = (rest ++ [head]).head (by simp) :=
  ring.segment.next_start

theorem prev_head (ring : links.IsRing head rest) :
    links.prev head = (head :: rest).getLast (by simp) :=
  ring.segment.prev_stop

/-- The test a list uses for emptiness: its sentinel is its own successor. -/
theorem next_head_eq_head_iff (ring : links.IsRing head rest) :
    links.next head = head ↔ rest = [] := by
  rw [ring.next_head]
  cases rest with
  | nil => simp
  | cons first rest =>
      have distinct := ring.head_not_mem
      simp only [List.mem_cons, not_or] at distinct
      simp [Ne.symm distinct.1]

/-- The same ring, read from any of its cells. -/
theorem rotate
    {middle : α}
    {before after : List α}
    (ring : links.IsRing head (before ++ middle :: after)) :
    links.IsRing middle (after ++ head :: before) := by
  obtain ⟨first, second⟩ := segment_append_cons.mp ring.segment
  refine ⟨?_, segment_append_cons.mpr ⟨second, first⟩⟩
  have rotated : (head :: (before ++ middle :: after)).Perm
      (middle :: (after ++ head :: before)) := by
    rw [← List.cons_append, ← List.cons_append]
    exact List.perm_append_comm
  exact rotated.nodup_iff.mp ring.nodup

/-- A ring can be read from any of its cells. -/
theorem read_from
    {cell : α}
    (ring : links.IsRing head rest)
    (member : cell ∈ head :: rest) :
    ∃ others, links.IsRing cell others ∧
      ∀ other, other ∈ cell :: others ↔ other ∈ head :: rest := by
  rcases List.mem_cons.mp member with rfl | inRest
  · exact ⟨rest, ring, fun other => Iff.rfl⟩
  · obtain ⟨before, after, rfl⟩ := List.append_of_mem inRest
    refine ⟨after ++ head :: before, ring.rotate, fun other => ?_⟩
    simp only [List.mem_cons, List.mem_append]
    tauto

/-- The predecessor of a cell of a ring is on that ring. -/
theorem prev_mem
    {cell : α}
    (ring : links.IsRing head rest)
    (member : cell ∈ head :: rest) :
    links.prev cell ∈ head :: rest := by
  obtain ⟨others, fromCell, same⟩ := ring.read_from member
  rw [← same, fromCell.prev_head]
  exact List.getLast_mem _

/-- A ring determines the links of its cells. -/
theorem same_links
    {others : Links α}
    {cell : α}
    (ring : links.IsRing head rest)
    (again : others.IsRing head rest)
    (member : cell ∈ head :: rest) :
    others.next cell = links.next cell ∧ others.prev cell = links.prev cell := by
  rcases List.mem_cons.mp member with rfl | inRest
  · rw [again.next_head, again.prev_head, ring.next_head, ring.prev_head]
    exact ⟨rfl, rfl⟩
  · obtain ⟨before, after, rfl⟩ := List.append_of_mem inRest
    rw [again.rotate.next_head, again.rotate.prev_head,
      ring.rotate.next_head, ring.rotate.prev_head]
    exact ⟨rfl, rfl⟩

theorem prev_next_head (ring : links.IsRing head rest) :
    links.prev (links.next head) = head :=
  ring.segment.prev_next_start

/-- Reading a ring from a member gives the consistency of that member. -/
theorem prev_next_of_mem
    {cell : α}
    (ring : links.IsRing head rest)
    (member : cell ∈ head :: rest) :
    links.prev (links.next cell) = cell := by
  rcases List.mem_cons.mp member with rfl | inRest
  · exact ring.prev_next_head
  · obtain ⟨before, after, rfl⟩ := List.append_of_mem inRest
    exact ring.rotate.prev_next_head

/-- A cell that shares its ring with another is not its own successor. -/
theorem next_ne_of_mem
    {cell : α}
    (ring : links.IsRing head rest)
    (member : cell ∈ rest) :
    links.next cell ≠ cell := by
  obtain ⟨before, after, rfl⟩ := List.append_of_mem member
  intro fixed
  simpa using ring.rotate.next_head_eq_head_iff.mp fixed

/-- The head determines its ring. -/
theorem unique
    {other : List α}
    (ring : links.IsRing head rest)
    (again : links.IsRing head other) :
    rest = other :=
  ring.segment.unique again.segment ring.head_not_mem again.head_not_mem

end IsRing

/-- Each cell of a segment is followed by the one after it. -/
theorem Segment.next_getElem
    {links : Links α}
    {start stop first second : α}
    {inner : List α}
    {index : Nat}
    (segment : links.Segment start inner stop)
    (isFirst : (start :: inner)[index]? = some first)
    (isSecond : (inner ++ [stop])[index]? = some second) :
    links.next first = second := by
  induction inner generalizing start index with
  | nil =>
      cases index with
      | zero =>
          rw [List.getElem?_cons_zero, Option.some.injEq] at isFirst
          rw [List.nil_append, List.getElem?_cons_zero, Option.some.injEq]
            at isSecond
          rw [← isFirst, ← isSecond]
          exact (segment_nil.mp segment).1
      | succ index => simp at isFirst
  | cons middle inner inductionHypothesis =>
      obtain ⟨follows, remaining⟩ := segment_cons.mp segment
      cases index with
      | zero =>
          rw [List.getElem?_cons_zero, Option.some.injEq] at isFirst
          rw [List.cons_append, List.getElem?_cons_zero, Option.some.injEq]
            at isSecond
          rw [← isFirst, ← isSecond]
          exact follows.1
      | succ index =>
          rw [List.getElem?_cons_succ] at isFirst
          rw [List.cons_append, List.getElem?_cons_succ] at isSecond
          exact inductionHypothesis remaining isFirst isSecond

/-- A segment depends only on the successors of its cells and the predecessors
of what follows them. -/
theorem Segment.congr
    {links others : Links α}
    {start stop : α}
    {inner : List α}
    (segment : links.Segment start inner stop)
    (sameNext : ∀ cell ∈ start :: inner, others.next cell = links.next cell)
    (samePrev : ∀ cell ∈ inner ++ [stop], others.prev cell = links.prev cell) :
    others.Segment start inner stop := by
  induction inner generalizing start with
  | nil =>
      obtain ⟨forward, backward⟩ := segment_nil.mp segment
      refine segment_nil.mpr ⟨?_, ?_⟩
      · rw [sameNext start (List.mem_cons_self ..), forward]
      · rw [samePrev stop (List.mem_singleton_self stop), backward]
  | cons first inner inductionHypothesis =>
      obtain ⟨⟨forward, backward⟩, remaining⟩ := segment_cons.mp segment
      refine segment_cons.mpr ⟨⟨?_, ?_⟩, ?_⟩
      · rw [sameNext start (List.mem_cons_self ..), forward]
      · rw [samePrev first (List.mem_cons_self ..), backward]
      · apply inductionHypothesis remaining
        · exact fun cell member => sameNext cell (List.mem_cons_of_mem _ member)
        · exact fun cell member => samePrev cell (List.mem_cons_of_mem _ member)

/-- A ring depends only on the links of its cells. -/
theorem IsRing.congr
    {links others : Links α}
    {head : α}
    {rest : List α}
    (ring : links.IsRing head rest)
    (sameNext : ∀ cell ∈ head :: rest, others.next cell = links.next cell)
    (samePrev : ∀ cell ∈ head :: rest, others.prev cell = links.prev cell) :
    others.IsRing head rest := by
  refine ⟨ring.nodup, ring.segment.congr sameNext ?_⟩
  intro cell member
  apply samePrev
  rw [List.mem_append, List.mem_singleton] at member
  exact List.mem_cons.mpr member.symm

/-- Every cell is the predecessor of its successor and the successor of its
predecessor: all cells lie on rings. -/
structure Inverse (links : Links α) : Prop where
  prev_next : ∀ cell, links.prev (links.next cell) = cell
  next_prev : ∀ cell, links.next (links.prev cell) = cell

theorem Inverse.next_injective
    {links : Links α}
    (inverse : links.Inverse) :
    Function.Injective links.next :=
  Function.LeftInverse.injective inverse.prev_next

/-- On consistent links a cell that is its own successor is a ring of one. -/
theorem Inverse.isRing_nil_iff
    {links : Links α}
    (inverse : links.Inverse)
    (head : α) :
    links.IsRing head [] ↔ links.next head = head := by
  rw [Links.isRing_nil, Follows]
  constructor
  · exact fun follows => follows.1
  · intro fixed
    refine ⟨fixed, ?_⟩
    have back := inverse.prev_next head
    rwa [fixed] at back

theorem Inverse.prev_injective
    {links : Links α}
    (inverse : links.Inverse) :
    Function.Injective links.prev :=
  Function.LeftInverse.injective inverse.next_prev

variable [DecidableEq α]

/-- Make a cell its own successor and predecessor, whatever it held before. -/
def single (links : Links α) (cell : α) : Links α where
  next := Function.update links.next cell cell
  prev := Function.update links.prev cell cell

/-- Exchange the successors of two cells and the predecessors of those
successors. -/
def splice (links : Links α) (left right : α) : Links α where
  next := links.next ∘ Equiv.swap left right
  prev := links.prev ∘ Equiv.swap (links.next left) (links.next right)

theorem splice_self (links : Links α) (cell : α) :
    links.splice cell cell = links := by
  simp [splice]

theorem splice_comm (links : Links α) (left right : α) :
    links.splice left right = links.splice right left := by
  unfold splice
  rw [Equiv.swap_comm left right,
    Equiv.swap_comm (links.next left) (links.next right)]

theorem single_isRing (links : Links α) (cell : α) :
    (links.single cell).IsRing cell [] := by
  refine ⟨by simp, segment_nil.mpr ?_⟩
  simp [Follows, single]

/-- A segment that avoids a cell survives the reset of that cell. -/
theorem Segment.single
    {links : Links α}
    {start stop cell : α}
    {inner : List α}
    (segment : links.Segment start inner stop)
    (startApart : start ≠ cell)
    (innerApart : cell ∉ inner)
    (stopApart : stop ≠ cell) :
    (links.single cell).Segment start inner stop := by
  induction inner generalizing start with
  | nil =>
      rw [segment_nil] at segment ⊢
      simpa [Follows, Links.single, startApart, stopApart] using segment
  | cons first inner inductionHypothesis =>
      rw [segment_cons] at segment ⊢
      simp only [List.mem_cons, not_or] at innerApart
      have firstApart : first ≠ cell := Ne.symm innerApart.1
      refine ⟨?_, inductionHypothesis segment.2 firstApart innerApart.2⟩
      simpa [Follows, Links.single, startApart, firstApart] using segment.1

theorem IsRing.single
    {links : Links α}
    {head cell : α}
    {rest : List α}
    (ring : links.IsRing head rest)
    (apart : cell ∉ head :: rest) :
    (links.single cell).IsRing head rest := by
  simp only [List.mem_cons, not_or] at apart
  exact ⟨ring.nodup, ring.segment.single (Ne.symm apart.1) apart.2
    (Ne.symm apart.1)⟩

/-! ## One splice -/

/-- A link whose source is not spliced survives, provided the predecessors of
the two displaced cells were right. -/
theorem Follows.splice
    {links : Links α}
    {first second left right : α}
    (follows : links.Follows first second)
    (leftConsistent : links.prev (links.next left) = left)
    (rightConsistent : links.prev (links.next right) = right)
    (leftApart : first ≠ left)
    (rightApart : first ≠ right) :
    (links.splice left right).Follows first second := by
  obtain ⟨forward, backward⟩ := follows
  have secondLeft : second ≠ links.next left := by
    intro equal
    rw [equal, leftConsistent] at backward
    exact leftApart backward.symm
  have secondRight : second ≠ links.next right := by
    intro equal
    rw [equal, rightConsistent] at backward
    exact rightApart backward.symm
  constructor
  · simp [Links.splice, Equiv.swap_apply_of_ne_of_ne leftApart rightApart,
      forward]
  · simp [Links.splice,
      Equiv.swap_apply_of_ne_of_ne secondLeft secondRight, backward]

/-- After a splice the left cell is followed by what followed the right one. -/
theorem Follows.splice_left
    {links : Links α}
    {left right second : α}
    (follows : links.Follows right second)
    (leftConsistent : links.prev (links.next left) = left) :
    (links.splice left right).Follows left second := by
  obtain ⟨forward, _⟩ := follows
  constructor
  · simp [Links.splice, forward]
  · simp [Links.splice, forward, leftConsistent]

theorem Segment.splice_apart
    {links : Links α}
    {start stop left right : α}
    {inner : List α}
    (segment : links.Segment start inner stop)
    (leftConsistent : links.prev (links.next left) = left)
    (rightConsistent : links.prev (links.next right) = right)
    (leftApart : left ∉ start :: inner)
    (rightApart : right ∉ start :: inner) :
    (links.splice left right).Segment start inner stop := by
  induction inner generalizing start with
  | nil =>
      rw [segment_nil] at segment ⊢
      simp only [List.mem_singleton] at leftApart rightApart
      exact segment.splice leftConsistent rightConsistent
        (Ne.symm leftApart) (Ne.symm rightApart)
  | cons first inner inductionHypothesis =>
      rw [segment_cons] at segment ⊢
      rw [List.mem_cons, not_or] at leftApart rightApart
      exact ⟨segment.1.splice leftConsistent rightConsistent
          (Ne.symm leftApart.1) (Ne.symm rightApart.1),
        inductionHypothesis segment.2 leftApart.2 rightApart.2⟩

/-- The exchange law: after a splice of `left` and `right`, what followed
`right` follows `left`. -/
theorem Segment.splice_exchange
    {links : Links α}
    {left right stop : α}
    {inner : List α}
    (segment : links.Segment right inner stop)
    (leftConsistent : links.prev (links.next left) = left)
    (leftApart : left ∉ inner)
    (rightApart : right ∉ inner) :
    (links.splice left right).Segment left inner stop := by
  have rightConsistent := segment.prev_next_start
  cases inner with
  | nil =>
      rw [segment_nil] at segment ⊢
      exact segment.splice_left leftConsistent
  | cons first inner =>
      rw [segment_cons] at segment ⊢
      exact ⟨segment.1.splice_left leftConsistent,
        segment.2.splice_apart leftConsistent rightConsistent
          leftApart rightApart⟩

namespace IsRing

variable {links : Links α}

/-- Splicing two cells leaves every other ring alone. -/
theorem splice_apart
    {head left right : α}
    {rest : List α}
    (ring : links.IsRing head rest)
    (leftConsistent : links.prev (links.next left) = left)
    (rightConsistent : links.prev (links.next right) = right)
    (leftApart : left ∉ head :: rest)
    (rightApart : right ∉ head :: rest) :
    (links.splice left right).IsRing head rest :=
  ⟨ring.nodup, ring.segment.splice_apart leftConsistent rightConsistent
    leftApart rightApart⟩

/-- Splicing cells of two rings joins the rings. -/
theorem splice_join
    {left right : α}
    {leftRest rightRest : List α}
    (leftRing : links.IsRing left leftRest)
    (rightRing : links.IsRing right rightRest)
    (disjoint : (left :: leftRest).Disjoint (right :: rightRest)) :
    (links.splice left right).IsRing left (rightRest ++ right :: leftRest) := by
  have leftNotRight : left ∉ rightRest := fun member =>
    disjoint (List.mem_cons_self ..) (List.mem_cons_of_mem _ member)
  have rightNotLeft : right ∉ leftRest := fun member =>
    disjoint (List.mem_cons_of_mem _ member) (List.mem_cons_self ..)
  have toRight : (links.splice left right).Segment left rightRest right :=
    rightRing.segment.splice_exchange leftRing.prev_next_head
      leftNotRight rightRing.head_not_mem
  have toLeft : (links.splice left right).Segment right leftRest left := by
    rw [splice_comm]
    exact leftRing.segment.splice_exchange rightRing.prev_next_head
      rightNotLeft leftRing.head_not_mem
  refine ⟨?_, segment_append_cons.mpr ⟨toRight, toLeft⟩⟩
  have joined : ((left :: leftRest) ++ (right :: rightRest)).Nodup :=
    List.nodup_append.mpr ⟨leftRing.nodup, rightRing.nodup,
      fun _ inLeft _ inRight equal =>
        disjoint inLeft (equal ▸ inRight)⟩
  have permuted : ((left :: leftRest) ++ (right :: rightRest)).Perm
      (left :: (rightRest ++ right :: leftRest)) := by
    rw [List.cons_append]
    refine List.Perm.cons _ ?_
    refine List.perm_append_comm.trans ?_
    rw [List.cons_append]
    exact List.perm_middle.symm
  exact permuted.nodup_iff.mp joined

/-- Splicing two cells of one ring splits it. -/
theorem splice_split
    {left right : α}
    {leftRest rightRest : List α}
    (ring : links.IsRing left (leftRest ++ right :: rightRest)) :
    (links.splice left right).IsRing left rightRest ∧
      (links.splice left right).IsRing right leftRest := by
  obtain ⟨toRight, toLeft⟩ := segment_append_cons.mp ring.segment
  have nodup := ring.nodup
  rw [List.nodup_cons, List.nodup_append, List.nodup_cons] at nodup
  obtain ⟨leftApart, leftNodup, ⟨rightApart, rightNodup⟩, apart⟩ := nodup
  simp only [List.mem_append, List.mem_cons, not_or] at leftApart
  have rightNotLeft : right ∉ leftRest := fun member =>
    apart right member right (List.mem_cons_self ..) rfl
  constructor
  · exact ⟨List.nodup_cons.mpr ⟨leftApart.2.2, rightNodup⟩,
      toLeft.splice_exchange ring.prev_next_head leftApart.2.2 rightApart⟩
  · refine ⟨List.nodup_cons.mpr ⟨rightNotLeft, leftNodup⟩, ?_⟩
    rw [splice_comm]
    exact toRight.splice_exchange toLeft.prev_next_start
      rightNotLeft leftApart.1

/-! ## List operations -/

/-- Splicing a singleton after a cell of a ring inserts it there. -/
theorem insert_after
    {head target cell : α}
    {before after : List α}
    (ring : links.IsRing head (before ++ target :: after))
    (alone : links.IsRing cell [])
    (apart : cell ∉ head :: (before ++ target :: after)) :
    (links.splice target cell).IsRing head
      (before ++ target :: cell :: after) := by
  have disjoint : (target :: (after ++ head :: before)).Disjoint [cell] := by
    intro element member equal
    rw [List.mem_singleton] at equal
    subst equal
    apply apart
    simp only [List.mem_cons, List.mem_append] at member ⊢
    tauto
  have joined := ring.rotate.splice_join alone disjoint
  rw [List.nil_append, ← List.cons_append] at joined
  exact joined.rotate

/-- Splicing a singleton after the sentinel puts it at the front. -/
theorem push_front
    {head cell : α}
    {rest : List α}
    (ring : links.IsRing head rest)
    (alone : links.IsRing cell [])
    (apart : cell ∉ head :: rest) :
    (links.splice head cell).IsRing head (cell :: rest) :=
  ring.splice_join alone fun _ member equal =>
    apart (List.mem_singleton.mp equal ▸ member)

/-- Splicing a singleton after the last cell puts it at the back. -/
theorem push_back
    {head cell : α}
    {rest : List α}
    (ring : links.IsRing head rest)
    (alone : links.IsRing cell [])
    (apart : cell ∉ head :: rest) :
    (links.splice (links.prev head) cell).IsRing head (rest ++ [cell]) := by
  rw [ring.prev_head]
  rcases List.eq_nil_or_concat rest with rfl | ⟨before, last, rfl⟩
  · exact ring.push_front alone apart
  · rw [List.concat_eq_append] at ring apart ⊢
    simpa using ring.insert_after alone apart

/-- Splicing another ring after the last cell puts all of it at the back, its
own head last. -/
theorem join_back
    {head other : α}
    {rest others : List α}
    (ring : links.IsRing head rest)
    (otherRing : links.IsRing other others)
    (disjoint : (head :: rest).Disjoint (other :: others)) :
    (links.splice (links.prev head) other).IsRing head
      (rest ++ others ++ [other]) := by
  rw [ring.prev_head]
  rcases List.eq_nil_or_concat rest with rfl | ⟨before, last, rfl⟩
  · exact ring.splice_join otherRing disjoint
  · rw [List.concat_eq_append] at ring disjoint ⊢
    rw [List.getLast_cons (by simp), List.getLast_append_singleton]
    have apart : (last :: head :: before).Disjoint (other :: others) := by
      intro cell member
      apply disjoint
      simp only [List.mem_cons, List.mem_append] at member ⊢
      tauto
    have joined := ring.rotate.splice_join otherRing apart
    rw [List.nil_append, ← List.singleton_append, ← List.append_assoc] at joined
    simpa using joined.rotate

/-- Putting a cell of the ring at the back again cuts off what came after
it. -/
theorem push_back_again
    {head cell : α}
    {before after : List α}
    (ring : links.IsRing head (before ++ cell :: after)) :
    (links.splice (links.prev head) cell).IsRing head (before ++ [cell]) := by
  rw [ring.prev_head]
  rcases List.eq_nil_or_concat after with rfl | ⟨earlier, last, rfl⟩
  · simpa [splice_self] using ring
  · rw [List.concat_eq_append] at ring ⊢
    have fromCell := ring.rotate
    rw [List.append_assoc, List.singleton_append] at fromCell
    have cut := fromCell.splice_split.1
    rw [← List.nil_append (head :: before), splice_comm] at cut
    simpa using cut.rotate

/-- Splicing the sentinel with its successor takes the front cell out. -/
theorem pop_front
    {head first : α}
    {rest : List α}
    (ring : links.IsRing head (first :: rest)) :
    (links.splice head first).IsRing head rest ∧
      (links.splice head first).IsRing first [] := by
  rw [← List.nil_append (first :: rest)] at ring
  exact ring.splice_split

/-- Splicing a cell with its predecessor takes it out of its ring. -/
theorem remove
    {head cell : α}
    {before after : List α}
    (ring : links.IsRing head (before ++ cell :: after)) :
    (links.splice cell (links.prev cell)).IsRing head (before ++ after) ∧
      (links.splice cell (links.prev cell)).IsRing cell [] := by
  have toCell := (segment_append_cons.mp ring.segment).1
  rw [toCell.prev_stop]
  rcases List.eq_nil_or_concat before with rfl | ⟨earlier, last, rfl⟩
  · rw [List.nil_append] at ring ⊢
    rw [List.getLast_singleton, splice_comm]
    exact ring.pop_front
  · rw [List.concat_eq_append] at ring ⊢
    rw [List.getLast_cons (by simp), List.getLast_append_singleton]
    have turned := ring.rotate
    rw [← List.cons_append, ← List.append_assoc] at turned
    obtain ⟨alone, remaining⟩ := turned.splice_split
    refine ⟨?_, alone⟩
    have back := remaining.rotate
    simpa using back

end IsRing

/-! ## Links that are inverse to each other -/

namespace Inverse

variable {links : Links α}

/-- Any splice keeps all cells on rings. -/
theorem splice
    (inverse : links.Inverse)
    (left right : α) :
    (links.splice left right).Inverse := by
  constructor
  · intro cell
    simp only [Links.splice, Function.comp_apply]
    rw [inverse.next_injective.swap_apply, inverse.prev_next,
      Equiv.swap_apply_self]
  · intro cell
    have moved := inverse.prev_injective.swap_apply (links.next left)
      (links.next right) cell
    rw [inverse.prev_next, inverse.prev_next] at moved
    simp only [Links.splice, Function.comp_apply]
    rw [← moved, Equiv.swap_apply_self, inverse.next_prev]

/-- A removed cell is alone. -/
theorem next_removed
    (inverse : links.Inverse)
    (cell : α) :
    (links.splice cell (links.prev cell)).next cell = cell := by
  simp [Links.splice, inverse.next_prev]

end Inverse

theorem splice_next_left (links : Links α) (left right : α) :
    (links.splice left right).next left = links.next right := by
  simp [splice]

theorem splice_next_of_ne
    {left right cell : α}
    (links : Links α)
    (leftApart : cell ≠ left)
    (rightApart : cell ≠ right) :
    (links.splice left right).next cell = links.next cell := by
  simp [splice, Equiv.swap_apply_of_ne_of_ne leftApart rightApart]

/-- A label that is constant on every ring stays so when two cells with the
same label are spliced. -/
theorem splice_label
    {κ : Type v}
    {links : Links α}
    {label : α → κ}
    {left right : α}
    (constant : ∀ cell, label (links.next cell) = label cell)
    (same : label left = label right)
    (cell : α) :
    label ((links.splice left right).next cell) = label cell := by
  simp only [splice, Function.comp_apply]
  rw [constant, Equiv.swap_apply_def]
  split_ifs with isLeft isRight
  · rw [isLeft, same]
  · rw [isRight, same]
  · rfl

end Links
end TinierOS
