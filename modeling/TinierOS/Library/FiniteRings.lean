import TinierOS.Library.Ring
import Mathlib.Data.List.Iterate
import Mathlib.Dynamics.PeriodicPts.Lemmas

/-!
# Finite sets of cells with inverse links

A finite set of cells that is closed under its links, and on which successor and
predecessor undo each other, falls apart into rings.  Two cells of the set are
therefore equal, or on different rings, or at two places of one ring, and a
splice of them is described by those three cases.
-/

namespace TinierOS
namespace Links

universe u

variable {α : Type u}

/-- The links stay among the given cells and undo each other there. -/
structure InverseOn (links : Links α) (cells : Set α) : Prop where
  next_mem : ∀ cell ∈ cells, links.next cell ∈ cells
  prev_mem : ∀ cell ∈ cells, links.prev cell ∈ cells
  prev_next : ∀ cell ∈ cells, links.prev (links.next cell) = cell
  next_prev : ∀ cell ∈ cells, links.next (links.prev cell) = cell

/-- The same ring, walked the other way. -/
def flip (links : Links α) : Links α where
  next := links.prev
  prev := links.next

theorem Segment.flip
    {links : Links α}
    {start stop : α}
    {inner : List α}
    (segment : links.Segment start inner stop) :
    links.flip.Segment stop inner.reverse start := by
  induction inner generalizing start with
  | nil =>
      rw [segment_nil] at segment
      exact segment_nil.mpr ⟨segment.2, segment.1⟩
  | cons first inner inductionHypothesis =>
      obtain ⟨follows, rest⟩ := segment_cons.mp segment
      rw [List.reverse_cons]
      exact segment_append_cons.mpr ⟨inductionHypothesis rest,
        segment_nil.mpr ⟨follows.2, follows.1⟩⟩

/-- Walking a ring backwards meets its cells in the opposite order. -/
theorem IsRing.flip
    {links : Links α}
    {head : α}
    {rest : List α}
    (ring : links.IsRing head rest) :
    links.flip.IsRing head rest.reverse := by
  refine ⟨?_, ring.segment.flip⟩
  rw [List.nodup_cons, List.mem_reverse, List.nodup_reverse]
  exact List.nodup_cons.mp ring.nodup

/-- On a ring, successor and predecessor undo each other. -/
theorem IsRing.inverseOn
    {links : Links α}
    {head : α}
    {rest : List α}
    (ring : links.IsRing head rest) :
    links.InverseOn {cell | cell ∈ head :: rest} := by
  have mirrored : ∀ cell, cell ∈ head :: rest.reverse ↔ cell ∈ head :: rest := by
    simp
  refine ⟨?_, ?_, ?_, ?_⟩
  · intro cell member
    apply (mirrored _).mp
    exact ring.flip.prev_mem ((mirrored cell).mpr member)
  · exact fun cell member => ring.prev_mem member
  · exact fun cell member => ring.prev_next_of_mem member
  · intro cell member
    exact ring.flip.prev_next_of_mem ((mirrored cell).mpr member)

/-- Two rings that share a cell have the same cells. -/
theorem IsRing.mem_iff_of_shared
    {links : Links α}
    {head other cell : α}
    {rest others : List α}
    (ring : links.IsRing head rest)
    (otherRing : links.IsRing other others)
    (member : cell ∈ head :: rest)
    (again : cell ∈ other :: others) :
    ∀ which, which ∈ head :: rest ↔ which ∈ other :: others := by
  obtain ⟨around, fromRing, sameRing⟩ := ring.read_from member
  obtain ⟨circle, fromOther, sameOther⟩ := otherRing.read_from again
  intro which
  rw [← sameRing which, ← sameOther which, fromRing.unique fromOther]

/-- Rings of which one misses a cell of the other have no cell in common. -/
theorem IsRing.disjoint
    {links : Links α}
    {head other : α}
    {rest others : List α}
    (ring : links.IsRing head rest)
    (otherRing : links.IsRing other others)
    (apart : other ∉ head :: rest) :
    (head :: rest).Disjoint (other :: others) := by
  intro cell member again
  apply apart
  rw [ring.mem_iff_of_shared otherRing member again other]
  exact List.mem_cons_self ..

/-- The links followed from a cell of the set form a segment. -/
theorem segment_iterate
    {links : Links α}
    {cells : Set α}
    {cell : α}
    (inverse : links.InverseOn cells)
    (member : cell ∈ cells)
    (count : Nat) :
    links.Segment cell (List.iterate links.next (links.next cell) count)
      (links.next^[count + 1] cell) := by
  induction count generalizing cell with
  | zero => exact segment_nil.mpr ⟨rfl, inverse.prev_next cell member⟩
  | succ count inductionHypothesis =>
      exact segment_cons.mpr ⟨⟨rfl, inverse.prev_next cell member⟩,
        inductionHypothesis (inverse.next_mem cell member)⟩

namespace InverseOn

variable {links : Links α} {cells : Set α}

/-- In a finite set the walk from any cell comes back to it. -/
theorem mem_periodicPts
    {cell : α}
    (inverse : links.InverseOn cells)
    (finite : cells.Finite)
    (member : cell ∈ cells) :
    cell ∈ Function.periodicPts links.next := by
  have maps : Set.MapsTo links.next cells cells := inverse.next_mem
  have injective : Function.Injective (maps.restrict links.next cells cells) := by
    apply Set.MapsTo.restrict_inj maps |>.mpr
    intro first inFirst second inSecond equal
    rw [← inverse.prev_next first inFirst, equal,
      inverse.prev_next second inSecond]
  have := finite.to_subtype
  obtain ⟨count, positive, periodic⟩ :=
    injective.mem_periodicPts (⟨cell, member⟩ : cells)
  refine ⟨count, positive, ?_⟩
  have returned := congrArg Subtype.val periodic
  rw [maps.iterate_restrict] at returned
  exact returned

/-- Every cell of a finite set lies on a ring. -/
theorem exists_isRing
    {cell : α}
    (inverse : links.InverseOn cells)
    (finite : cells.Finite)
    (member : cell ∈ cells) :
    ∃ rest, links.IsRing cell rest := by
  have periodic := inverse.mem_periodicPts finite member
  obtain ⟨count, period⟩ := Nat.exists_eq_succ_of_ne_zero
    (Function.minimalPeriod_pos_of_mem_periodicPts periodic).ne'
  refine ⟨List.iterate links.next (links.next cell) count, ?_, ?_⟩
  · have nodup := Function.nodup_periodicOrbit (f := links.next) (x := cell)
    rw [Function.periodicOrbit, Cycle.nodup_coe_iff,
      List.range_map_iterate, period] at nodup
    exact nodup
  · have segment := segment_iterate inverse member count
    rwa [← Nat.succ_eq_add_one, ← period,
      Function.iterate_minimalPeriod] at segment

/-- The three ways in which two cells of a finite set can stand to each
other. -/
theorem classify
    (inverse : links.InverseOn cells)
    (finite : cells.Finite)
    {left right : α}
    (leftIn : left ∈ cells)
    (rightIn : right ∈ cells) :
    left = right ∨
      (∃ leftRest rightRest, links.IsRing left leftRest ∧
        links.IsRing right rightRest ∧
        (left :: leftRest).Disjoint (right :: rightRest)) ∨
      ∃ between beyond, links.IsRing left (between ++ right :: beyond) := by
  obtain ⟨leftRest, leftRing⟩ := inverse.exists_isRing finite leftIn
  obtain ⟨rightRest, rightRing⟩ := inverse.exists_isRing finite rightIn
  by_cases same : left = right
  · exact Or.inl same
  · by_cases shared : right ∈ leftRest
    · obtain ⟨between, beyond, rfl⟩ := List.append_of_mem shared
      exact Or.inr (Or.inr ⟨between, beyond, leftRing⟩)
    · refine Or.inr (Or.inl ⟨leftRest, rightRest, leftRing, rightRing, ?_⟩)
      exact leftRing.disjoint rightRing (by
        simpa [Ne.symm same] using shared)

variable [DecidableEq α]

/-- A splice of two of the cells keeps the links inverse on all of them. -/
theorem splice
    {left right : α}
    (inverse : links.InverseOn cells)
    (leftIn : left ∈ cells)
    (rightIn : right ∈ cells) :
    (links.splice left right).InverseOn cells := by
  have swapped : ∀ {first second cell : α}, first ∈ cells → second ∈ cells →
      cell ∈ cells → Equiv.swap first second cell ∈ cells := by
    intro first second cell inFirst inSecond member
    rw [Equiv.swap_apply_def]
    split_ifs
    · exact inSecond
    · exact inFirst
    · exact member
  have leftNext := inverse.next_mem left leftIn
  have rightNext := inverse.next_mem right rightIn
  have injective : ∀ first ∈ cells, ∀ second ∈ cells,
      links.next first = links.next second → first = second := by
    intro first inFirst second inSecond equal
    rw [← inverse.prev_next first inFirst, equal,
      inverse.prev_next second inSecond]
  -- Exchanging two cells and walking on is walking on and then exchanging.
  have commutes : ∀ cell ∈ cells,
      Equiv.swap (links.next left) (links.next right) (links.next cell) =
        links.next (Equiv.swap left right cell) := by
    intro cell member
    by_cases isLeft : cell = left
    · rw [isLeft, Equiv.swap_apply_left, Equiv.swap_apply_left]
    · by_cases isRight : cell = right
      · rw [isRight, Equiv.swap_apply_right, Equiv.swap_apply_right]
      · rw [Equiv.swap_apply_of_ne_of_ne isLeft isRight,
          Equiv.swap_apply_of_ne_of_ne
            (fun equal => isLeft (injective _ member _ leftIn equal))
            (fun equal => isRight (injective _ member _ rightIn equal))]
  refine ⟨?_, ?_, ?_, ?_⟩
  · intro cell member
    exact inverse.next_mem _ (swapped leftIn rightIn member)
  · intro cell member
    exact inverse.prev_mem _ (swapped leftNext rightNext member)
  · intro cell member
    simp only [Links.splice, Function.comp_apply]
    rw [← commutes cell member, Equiv.swap_apply_self,
      inverse.prev_next cell member]
  · intro cell member
    have moved := swapped leftNext rightNext member
    have back := commutes _ (inverse.prev_mem _ moved)
    rw [inverse.next_prev _ moved, Equiv.swap_apply_self] at back
    simp only [Links.splice, Function.comp_apply]
    exact back.symm

end InverseOn

variable [DecidableEq α]

/-- A splice is undone by repeating it. -/
theorem splice_splice (links : Links α) (left right : α) :
    (links.splice left right).splice left right = links := by
  ext cell
  · simp [splice]
  · simp [splice, Equiv.swap_comm (links.next right)]

/-! ## Walking a list -/

/-- The loop that visits a list: from a cell, step until the sentinel is
reached.  The walk is unfinished when the fuel runs out before. -/
def walk (step : α → α) (sentinel : α) : Nat → α → Option (List α)
  | 0, _ => none
  | fuel + 1, cell =>
      if cell = sentinel then some []
      else (walk step sentinel fuel (step cell)).map (cell :: ·)

theorem Segment.walk
    {links : Links α}
    {start stop : α}
    {inner : List α}
    {fuel : Nat}
    (segment : links.Segment start inner stop)
    (apart : stop ∉ inner)
    (enough : inner.length < fuel) :
    Links.walk links.next stop fuel (links.next start) = some inner := by
  induction inner generalizing start fuel with
  | nil =>
      obtain ⟨fuel, rfl⟩ := Nat.exists_eq_succ_of_ne_zero
        (Nat.ne_of_gt enough)
      rw [(segment_nil.mp segment).1, Links.walk, if_pos rfl]
  | cons first inner inductionHypothesis =>
      obtain ⟨fuel, rfl⟩ := Nat.exists_eq_succ_of_ne_zero
        (Nat.ne_zero_of_lt enough)
      obtain ⟨follows, rest⟩ := segment_cons.mp segment
      rw [List.mem_cons, not_or] at apart
      rw [follows.1, Links.walk, if_neg (Ne.symm apart.1),
        inductionHypothesis rest apart.2 (Nat.lt_of_succ_lt_succ enough),
        Option.map_some]

/-- The loop visits exactly the cells of the ring. -/
theorem IsRing.walk_next
    {links : Links α}
    {head : α}
    {rest : List α}
    {fuel : Nat}
    (ring : links.IsRing head rest)
    (enough : rest.length < fuel) :
    Links.walk links.next head fuel (links.next head) = some rest :=
  ring.segment.walk ring.head_not_mem enough

/-- Backwards, the loop visits them in the opposite order. -/
theorem IsRing.walk_prev
    {links : Links α}
    {head : α}
    {rest : List α}
    {fuel : Nat}
    (ring : links.IsRing head rest)
    (enough : rest.length < fuel) :
    Links.walk links.prev head fuel (links.prev head) =
      some rest.reverse :=
  ring.flip.walk_next (by rwa [List.length_reverse])

end Links
end TinierOS
