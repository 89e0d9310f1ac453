import TinierOS.Library.Ring
import Mathlib.Data.List.Basic
import Mathlib.Data.List.Perm.Basic

/-!
# Families of intrusive lists

Many lists share one heap of cells.  Each list has a sentinel cell, each element
owns exactly one cell, and an element is in at most one list at a time.  The
operations below are the splices of an intrusive list package; each lemma says
how the represented sequences change and that every other list stays as it was.
-/

namespace TinierOS

universe u v w

/-- Where a family of lists keeps its cells: one sentinel for each list and one
cell for each element. -/
structure Layout (σ : Type u) (τ : Type v) (α : Type w) where
  sentinel : σ → α
  cell : τ → α
  sentinel_injective : Function.Injective sentinel
  cell_injective : Function.Injective cell
  sentinel_ne_cell : ∀ list element, sentinel list ≠ cell element

namespace Layout

variable {σ : Type u} {τ : Type v} {α : Type w}

/-- The heap holds the given lists.  Elements that are `live` have an
initialised cell; those in no list form singleton rings. -/
structure Represents
    (layout : Layout σ τ α)
    (links : Links α)
    (lists : σ → List τ)
    (live : τ → Prop) : Prop where
  ring : ∀ list, links.IsRing (layout.sentinel list)
    ((lists list).map layout.cell)
  unique : ∀ {first second element},
    element ∈ lists first → element ∈ lists second → first = second
  alive : ∀ {list element}, element ∈ lists list → live element
  alone : ∀ {element}, live element → (∀ list, element ∉ lists list) →
    links.IsRing (layout.cell element) []

namespace Represents

variable {layout : Layout σ τ α} {links : Links α}
variable {lists : σ → List τ} {live : τ → Prop}

/-- Sentinels and cells that are their own neighbours are empty lists. -/
theorem of_singletons
    (sentinels : ∀ list,
      links.Follows (layout.sentinel list) (layout.sentinel list))
    (cells : ∀ element, live element →
      links.Follows (layout.cell element) (layout.cell element)) :
    layout.Represents links (fun _ => []) live where
  ring := fun list => Links.isRing_nil.mpr (sentinels list)
  unique := fun member _ => absurd member List.not_mem_nil
  alive := fun member => absurd member List.not_mem_nil
  alone := fun isLive _ => Links.isRing_nil.mpr (cells _ isLive)

theorem nodup
    (represents : layout.Represents links lists live)
    (list : σ) :
    (lists list).Nodup :=
  List.Nodup.of_map _ (represents.ring list).rest_nodup

/-- The list package's emptiness test. -/
theorem next_sentinel_eq_iff
    (represents : layout.Represents links lists live)
    (list : σ) :
    links.next (layout.sentinel list) = layout.sentinel list ↔
      lists list = [] := by
  rw [(represents.ring list).next_head_eq_head_iff, List.map_eq_nil_iff]

theorem next_sentinel_cons
    {list : σ}
    {first : τ}
    {rest : List τ}
    (represents : layout.Represents links lists live)
    (front : lists list = first :: rest) :
    links.next (layout.sentinel list) = layout.cell first := by
  rw [(represents.ring list).next_head]
  simp [front]

/-- The successor of an element's cell. -/
theorem next_cell
    {list : σ}
    {element : τ}
    {before after : List τ}
    (represents : layout.Represents links lists live)
    (split : lists list = before ++ element :: after) :
    links.next (layout.cell element) =
      (after.map layout.cell ++ [layout.sentinel list]).head (by simp) := by
  have ring := represents.ring list
  rw [split, List.map_append, List.map_cons] at ring
  rw [(Links.segment_append_cons.mp ring.segment).2.next_start]

/-- A listed element is never mistaken for a singleton. -/
theorem next_cell_ne
    {list : σ}
    {element : τ}
    (represents : layout.Represents links lists live)
    (member : element ∈ lists list) :
    links.next (layout.cell element) ≠ layout.cell element :=
  (represents.ring list).next_ne_of_mem (List.mem_map_of_mem member)

/-- Elements may stop being live once they are in no list. -/
theorem weaken
    {fewer : τ → Prop}
    (represents : layout.Represents links lists live)
    (implies : ∀ element, fewer element → live element)
    (listed : ∀ {list element}, element ∈ lists list → fewer element) :
    layout.Represents links lists fewer where
  ring := represents.ring
  unique := represents.unique
  alive := listed
  alone := fun isLive unlisted =>
    represents.alone (implies _ isLive) unlisted

theorem cell_mem_iff
    (layout : Layout σ τ α)
    {list : σ}
    {element : τ}
    {elements : List τ} :
    layout.cell element ∈
        layout.sentinel list :: elements.map layout.cell ↔
      element ∈ elements := by
  rw [List.mem_cons, List.mem_map_of_injective layout.cell_injective]
  simp [Ne.symm (layout.sentinel_ne_cell list element)]

/-- Every cell of one list lies outside the ring of another. -/
theorem ring_apart
    {first second : σ}
    {cell : α}
    (represents : layout.Represents links lists live)
    (different : first ≠ second)
    (member : cell ∈
      layout.sentinel first :: (lists first).map layout.cell) :
    cell ∉ layout.sentinel second :: (lists second).map layout.cell := by
  rcases List.mem_cons.mp member with rfl | inRest
  · simp only [List.mem_cons, List.mem_map, not_or, not_exists, not_and]
    exact ⟨fun equal => different (layout.sentinel_injective equal),
      fun element _ equal => layout.sentinel_ne_cell first element equal.symm⟩
  · obtain ⟨element, listed, rfl⟩ := List.mem_map.mp inRest
    rw [cell_mem_iff]
    exact fun again => different (represents.unique listed again)

variable [DecidableEq α]

/-- Initialising the cell of an element that is in no list makes it live. -/
theorem single
    {element : τ}
    (represents : layout.Represents links lists live)
    (unlisted : ∀ list, element ∉ lists list) :
    layout.Represents (links.single (layout.cell element)) lists
      (fun other => other = element ∨ live other) where
  ring := fun list => (represents.ring list).single (by
    rw [cell_mem_iff]
    exact unlisted list)
  unique := represents.unique
  alive := fun listed => Or.inr (represents.alive listed)
  alone := by
    intro other isLive otherUnlisted
    by_cases same : other = element
    · subst same
      exact links.single_isRing _
    · have wasLive := isLive.resolve_left same
      refine (represents.alone wasLive otherUnlisted).single ?_
      simpa using fun equal => same (layout.cell_injective equal).symm

/-- Cells outside the family may be initialised freely. -/
theorem single_outside
    {cell : α}
    (represents : layout.Represents links lists live)
    (notSentinel : ∀ list, cell ≠ layout.sentinel list)
    (notCell : ∀ element, cell ≠ layout.cell element) :
    layout.Represents (links.single cell) lists live where
  ring := fun list => (represents.ring list).single (by
    simp only [List.mem_cons, List.mem_map, not_or, not_exists, not_and]
    exact ⟨notSentinel list, fun element _ equal => notCell element equal.symm⟩)
  unique := represents.unique
  alive := represents.alive
  alone := fun isLive unlisted =>
    (represents.alone isLive unlisted).single (by
      simpa using notCell _)

/-- Removing an element that is in no list changes nothing. -/
theorem remove_unlisted
    {element : τ}
    (represents : layout.Represents links lists live)
    (isLive : live element)
    (unlisted : ∀ list, element ∉ lists list) :
    links.splice (layout.cell element) (links.prev (layout.cell element)) =
      links := by
  have backward := (represents.alone isLive unlisted).prev_head
  rw [List.getLast_singleton] at backward
  rw [backward, Links.splice_self]

variable [DecidableEq σ]

/-- Common part of every insertion: a live element in no list is spliced after
a cell of one ring, and that ring comes out holding the longer list. -/
theorem insert_of_ring
    {list : σ}
    {element : τ}
    {target : α}
    {longer : List τ}
    (represents : layout.Represents links lists live)
    (isLive : live element)
    (unlisted : ∀ other, element ∉ lists other)
    (inRing : target ∈
      layout.sentinel list :: (lists list).map layout.cell)
    (ring : (links.splice target (layout.cell element)).IsRing
      (layout.sentinel list) (longer.map layout.cell))
    (longerPerm : longer.Perm (element :: lists list)) :
    layout.Represents (links.splice target (layout.cell element))
      (Function.update lists list longer) live := by
  have elementAlone := represents.alone isLive unlisted
  have targetConsistent := (represents.ring list).prev_next_of_mem inRing
  have listedLonger : ∀ {other}, other ∈ longer ↔
      other = element ∨ other ∈ lists list := by
    intro other
    rw [longerPerm.mem_iff, List.mem_cons]
  refine ⟨?_, ?_, ?_, ?_⟩
  · intro other
    by_cases same : other = list
    · subst same
      rwa [Function.update_self]
    · rw [Function.update_of_ne same]
      refine (represents.ring other).splice_apart targetConsistent
        elementAlone.prev_next_head ?_ ?_
      · exact represents.ring_apart (Ne.symm same) inRing
      · rw [cell_mem_iff]
        exact unlisted other
  · intro first second other inFirst inSecond
    simp only [Function.update_apply] at inFirst inSecond
    by_cases isElement : other = element
    · subst isElement
      have firstSame : first = list := by
        by_contra different
        rw [if_neg different] at inFirst
        exact unlisted _ inFirst
      have secondSame : second = list := by
        by_contra different
        rw [if_neg different] at inSecond
        exact unlisted _ inSecond
      rw [firstSame, secondSame]
    · have before : ∀ {which}, other ∈ (if which = list then longer
          else lists which) → other ∈ lists which := by
        intro which member
        by_cases same : which = list
        · subst same
          rw [if_pos rfl, listedLonger] at member
          exact member.resolve_left isElement
        · rwa [if_neg same] at member
      exact represents.unique (before inFirst) (before inSecond)
  · intro other element' member
    simp only [Function.update_apply] at member
    by_cases same : other = list
    · rw [if_pos same, listedLonger] at member
      rcases member with rfl | member
      · exact isLive
      · exact represents.alive member
    · rw [if_neg same] at member
      exact represents.alive member
  · intro other otherLive otherUnlisted
    have notElement : other ≠ element := by
      rintro rfl
      apply otherUnlisted list
      rw [Function.update_self, listedLonger]
      exact Or.inl rfl
    have wasUnlisted : ∀ which, other ∉ lists which := by
      intro which member
      by_cases same : which = list
      · subst same
        apply otherUnlisted which
        rw [Function.update_self, listedLonger]
        exact Or.inr member
      · apply otherUnlisted which
        rwa [Function.update_of_ne same]
    refine (represents.alone otherLive wasUnlisted).splice_apart
      targetConsistent elementAlone.prev_next_head ?_ ?_
    · rintro member
      rw [List.mem_singleton] at member
      subst member
      exact wasUnlisted list ((cell_mem_iff layout).mp inRing)
    · rw [List.mem_singleton]
      exact fun equal => notElement (layout.cell_injective equal).symm

/-- Common part of every removal: splicing two cells of one ring leaves the
element alone and the ring holding the shorter list. -/
theorem remove_of_ring
    {list : σ}
    {element : τ}
    {left right : α}
    {shorter : List τ}
    (represents : layout.Represents links lists live)
    (leftIn : left ∈ layout.sentinel list :: (lists list).map layout.cell)
    (rightIn : right ∈ layout.sentinel list :: (lists list).map layout.cell)
    (ring : (links.splice left right).IsRing
      (layout.sentinel list) (shorter.map layout.cell))
    (elementAlone : (links.splice left right).IsRing
      (layout.cell element) [])
    (shorterPerm : (lists list).Perm (element :: shorter)) :
    layout.Represents (links.splice left right)
      (Function.update lists list shorter) live := by
  have leftConsistent := (represents.ring list).prev_next_of_mem leftIn
  have rightConsistent := (represents.ring list).prev_next_of_mem rightIn
  have listed : ∀ {other}, other ∈ lists list ↔
      other = element ∨ other ∈ shorter := by
    intro other
    rw [shorterPerm.mem_iff, List.mem_cons]
  have before : ∀ {which other},
      other ∈ Function.update lists list shorter which →
        other ∈ lists which := by
    intro which other member
    by_cases same : which = list
    · subst same
      rw [Function.update_self] at member
      exact listed.mpr (Or.inr member)
    · rwa [Function.update_of_ne same] at member
  refine ⟨?_, ?_, ?_, ?_⟩
  · intro other
    by_cases same : other = list
    · subst same
      rwa [Function.update_self]
    · rw [Function.update_of_ne same]
      exact (represents.ring other).splice_apart leftConsistent
        rightConsistent
        (represents.ring_apart (Ne.symm same) leftIn)
        (represents.ring_apart (Ne.symm same) rightIn)
  · intro first second other inFirst inSecond
    exact represents.unique (before inFirst) (before inSecond)
  · intro other element' member
    exact represents.alive (before member)
  · intro other otherLive otherUnlisted
    by_cases isElement : other = element
    · subst isElement
      exact elementAlone
    · have wasUnlisted : ∀ which, other ∉ lists which := by
        intro which member
        apply otherUnlisted which
        by_cases same : which = list
        · subst same
          rw [Function.update_self]
          exact (listed.mp member).resolve_left isElement
        · rwa [Function.update_of_ne same]
      have apart : ∀ {cell : α}, cell ∈
          layout.sentinel list :: (lists list).map layout.cell →
            cell ∉ [layout.cell other] := by
        rintro cell inRing member
        rw [List.mem_singleton] at member
        subst member
        exact wasUnlisted list ((cell_mem_iff layout).mp inRing)
      exact (represents.alone otherLive wasUnlisted).splice_apart
        leftConsistent rightConsistent (apart leftIn) (apart rightIn)

/-! ## The list package -/

theorem push_back
    {element : τ}
    (represents : layout.Represents links lists live)
    (isLive : live element)
    (unlisted : ∀ other, element ∉ lists other)
    (list : σ) :
    layout.Represents
      (links.splice (links.prev (layout.sentinel list))
        (layout.cell element))
      (Function.update lists list (lists list ++ [element])) live := by
  have elementAlone := represents.alone isLive unlisted
  have apart : layout.cell element ∉
      layout.sentinel list :: (lists list).map layout.cell := by
    rw [cell_mem_iff]
    exact unlisted list
  have ring := (represents.ring list).push_back elementAlone apart
  refine represents.insert_of_ring isLive unlisted ?_ ?_ ?_
  · rw [(represents.ring list).prev_head]
    exact List.getLast_mem _
  · simpa using ring
  · exact List.perm_append_singleton _ _

theorem push_front
    {element : τ}
    (represents : layout.Represents links lists live)
    (isLive : live element)
    (unlisted : ∀ other, element ∉ lists other)
    (list : σ) :
    layout.Represents
      (links.splice (layout.sentinel list) (layout.cell element))
      (Function.update lists list (element :: lists list)) live := by
  have elementAlone := represents.alone isLive unlisted
  have apart : layout.cell element ∉
      layout.sentinel list :: (lists list).map layout.cell := by
    rw [cell_mem_iff]
    exact unlisted list
  have ring := (represents.ring list).push_front elementAlone apart
  refine represents.insert_of_ring isLive unlisted
    (List.mem_cons_self ..) ?_ (List.Perm.refl _)
  simpa using ring

/-- Insertion before a position, through the predecessor of the cell that
stands there. -/
theorem insert_before
    {list : σ}
    {element : τ}
    {before after : List τ}
    (represents : layout.Represents links lists live)
    (isLive : live element)
    (unlisted : ∀ other, element ∉ lists other)
    (split : lists list = before ++ after) :
    layout.Represents
      (links.splice
        (links.prev ((after.map layout.cell ++
          [layout.sentinel list]).head (by simp)))
        (layout.cell element))
      (Function.update lists list (before ++ element :: after)) live := by
  have elementAlone := represents.alone isLive unlisted
  have whole := represents.ring list
  have apart : layout.cell element ∉
      layout.sentinel list :: (lists list).map layout.cell := by
    rw [cell_mem_iff]
    exact unlisted list
  have predecessor :
      links.prev ((after.map layout.cell ++
          [layout.sentinel list]).head (by simp)) =
        (layout.sentinel list :: before.map layout.cell).getLast
          (by simp) := by
    cases after with
    | nil =>
        rw [List.append_nil] at split
        simp only [List.map_nil, List.nil_append, List.head_cons]
        rw [whole.prev_head]
        simp [split]
    | cons first after =>
        have segment := whole.segment
        rw [split, List.map_append, List.map_cons] at segment
        simpa using (Links.segment_append_cons.mp segment).1.prev_stop
  rw [predecessor]
  have longerPerm : (before ++ element :: after).Perm
      (element :: lists list) := by
    rw [split]
    exact List.perm_middle
  rcases List.eq_nil_or_concat before with rfl | ⟨earlier, last, rfl⟩
  · rw [List.nil_append] at split
    have ring := whole.push_front elementAlone apart
    refine represents.insert_of_ring isLive unlisted
      (List.mem_cons_self ..) ?_ longerPerm
    simpa [split] using ring
  · rw [List.concat_eq_append] at split longerPerm ⊢
    have lastIn : layout.cell last ∈
        layout.sentinel list :: (lists list).map layout.cell := by
      rw [cell_mem_iff, split]
      simp
    have ring := whole
    rw [split, List.append_assoc, List.map_append] at ring
    rw [split, List.append_assoc, List.map_append] at apart
    have inserted := ring.insert_after elementAlone apart
    have lastCell : (layout.sentinel list ::
          (earlier ++ [last]).map layout.cell).getLast (by simp) =
        layout.cell last := by
      simp
    rw [lastCell]
    refine represents.insert_of_ring isLive unlisted lastIn ?_ longerPerm
    simpa using inserted

theorem pop_front
    {list : σ}
    {first : τ}
    {rest : List τ}
    (represents : layout.Represents links lists live)
    (front : lists list = first :: rest) :
    layout.Represents
      (links.splice (layout.sentinel list)
        (links.next (layout.sentinel list)))
      (Function.update lists list rest) live := by
  rw [represents.next_sentinel_cons front]
  have whole := represents.ring list
  rw [front, List.map_cons] at whole
  obtain ⟨ring, firstAlone⟩ := whole.pop_front
  refine represents.remove_of_ring (List.mem_cons_self ..) ?_ ring
    firstAlone ?_
  · rw [cell_mem_iff, front]
    exact List.mem_cons_self ..
  · rw [front]

theorem remove
    [DecidableEq τ]
    {list : σ}
    {element : τ}
    (represents : layout.Represents links lists live)
    (member : element ∈ lists list) :
    layout.Represents
      (links.splice (layout.cell element)
        (links.prev (layout.cell element)))
      (Function.update lists list ((lists list).erase element)) live := by
  obtain ⟨before, after, split⟩ := List.append_of_mem member
  have listNodup := represents.nodup list
  have whole := represents.ring list
  rw [split, List.map_append, List.map_cons] at whole
  obtain ⟨ring, elementAlone⟩ := whole.remove
  have toElement := (Links.segment_append_cons.mp whole.segment).1
  have shorter : (lists list).erase element = before ++ after := by
    rw [split] at listNodup ⊢
    have notBefore : element ∉ before := fun inBefore =>
      (List.nodup_append.mp listNodup).2.2 element inBefore element
        (List.mem_cons_self ..) rfl
    rw [List.erase_append_right _ notBefore, List.erase_cons_head]
  refine represents.remove_of_ring ?_ ?_ ?_ elementAlone ?_
  · rw [cell_mem_iff]
    exact member
  · rw [toElement.prev_stop, split, List.map_append, ← List.cons_append]
    exact List.mem_append_left _ (List.getLast_mem _)
  · rw [shorter, List.map_append]
    exact ring
  · rw [shorter, split]
    exact List.perm_middle

/-- Where the elements are after a whole list has been moved to another. -/
theorem mem_of_mem_moved
    {dest src which : σ}
    {moved : List τ}
    {element : τ}
    (movedPerm : moved.Perm (lists dest ++ lists src))
    (member : element ∈
      Function.update (Function.update lists dest moved) src [] which) :
    which ≠ src ∧
      (element ∈ lists which ∨ which = dest ∧ element ∈ lists src) := by
  by_cases isSrc : which = src
  · rw [isSrc, Function.update_self] at member
    exact absurd member List.not_mem_nil
  · refine ⟨isSrc, ?_⟩
    rw [Function.update_of_ne isSrc] at member
    by_cases isDest : which = dest
    · rw [isDest, Function.update_self, movedPerm.mem_iff,
        List.mem_append] at member
      rw [isDest]
      exact member.imp_right fun inSrc => ⟨rfl, inSrc⟩
    · rw [Function.update_of_ne isDest] at member
      exact Or.inl member

/-- Moving a whole list to another forgets no element. -/
theorem not_mem_of_not_mem_moved
    {dest src : σ}
    {moved : List τ}
    {element : τ}
    (different : dest ≠ src)
    (movedPerm : moved.Perm (lists dest ++ lists src))
    (absent : ∀ which, element ∉
      Function.update (Function.update lists dest moved) src [] which)
    (which : σ) :
    element ∉ lists which := by
  intro member
  by_cases isMoved : which = dest ∨ which = src
  · apply absent dest
    rw [Function.update_of_ne different, Function.update_self,
      movedPerm.mem_iff, List.mem_append]
    rcases isMoved with rfl | rfl
    · exact Or.inl member
    · exact Or.inr member
  · rw [not_or] at isMoved
    apply absent which
    rwa [Function.update_of_ne isMoved.2, Function.update_of_ne isMoved.1]

/-- Common part of moving a whole list to another: the source sentinel, spliced
into the destination's ring with all its elements, is taken out again. -/
theorem transfer_of_ring
    {dest src : σ}
    {target : α}
    {before after : List τ}
    (represents : layout.Represents links lists live)
    (different : dest ≠ src)
    (targetIn : target ∈
      layout.sentinel dest :: (lists dest).map layout.cell)
    (joined : (links.splice target (layout.sentinel src)).IsRing
      (layout.sentinel dest)
      (before.map layout.cell ++
        layout.sentinel src :: after.map layout.cell))
    (movedPerm : (before ++ after).Perm (lists dest ++ lists src)) :
    layout.Represents
      ((links.splice target (layout.sentinel src)).splice
        (layout.sentinel src)
        ((links.splice target (layout.sentinel src)).prev
          (layout.sentinel src)))
      (Function.update (Function.update lists dest (before ++ after)) src [])
      live := by
  obtain ⟨destRing, srcRing⟩ := joined.remove
  have targetConsistent := (represents.ring dest).prev_next_of_mem targetIn
  have srcConsistent := (represents.ring src).prev_next_head
  have srcIn : layout.sentinel src ∈ layout.sentinel dest ::
      (before.map layout.cell ++
        layout.sentinel src :: after.map layout.cell) := by
    simp
  have predecessorIn := joined.prev_mem srcIn
  have cells : ∀ {cell}, cell ∈ layout.sentinel dest ::
        (before.map layout.cell ++
          layout.sentinel src :: after.map layout.cell) →
      cell ∈ layout.sentinel dest :: (lists dest).map layout.cell ∨
        cell ∈ layout.sentinel src :: (lists src).map layout.cell := by
    intro cell member
    have moved : ∀ element, element ∈ before ∨ element ∈ after ↔
        element ∈ lists dest ∨ element ∈ lists src := by
      intro element
      rw [← List.mem_append, movedPerm.mem_iff, List.mem_append]
    simp only [List.mem_cons, List.mem_append, List.mem_map] at member ⊢
    grind
  -- A ring that meets neither list goes through both splices unchanged.
  have others : ∀ {head rest}, links.IsRing head rest →
      (∀ cell ∈ head :: rest,
        cell ∉ layout.sentinel dest :: (lists dest).map layout.cell ∧
          cell ∉ layout.sentinel src :: (lists src).map layout.cell) →
      ((links.splice target (layout.sentinel src)).splice
        (layout.sentinel src)
        ((links.splice target (layout.sentinel src)).prev
          (layout.sentinel src))).IsRing head rest := by
    intro head rest ring apart
    have outside : ∀ {cell}, cell ∈ layout.sentinel dest ::
        (before.map layout.cell ++
          layout.sentinel src :: after.map layout.cell) →
        cell ∉ head :: rest := by
      intro cell inJoined inRing
      rcases cells inJoined with inDest | inSrc
      · exact (apart cell inRing).1 inDest
      · exact (apart cell inRing).2 inSrc
    have first := ring.splice_apart targetConsistent srcConsistent
      (fun inRing => (apart _ inRing).1 targetIn)
      (fun inRing => (apart _ inRing).2 (List.mem_cons_self ..))
    exact first.splice_apart (joined.prev_next_of_mem srcIn)
      (joined.prev_next_of_mem predecessorIn) (outside srcIn)
      (outside predecessorIn)
  refine ⟨?_, ?_, ?_, ?_⟩
  · intro which
    by_cases isSrc : which = src
    · rw [isSrc, Function.update_self]
      exact srcRing
    · rw [Function.update_of_ne isSrc]
      by_cases isDest : which = dest
      · rw [isDest, Function.update_self, List.map_append]
        exact destRing
      · rw [Function.update_of_ne isDest]
        exact others (represents.ring which) fun cell member =>
          ⟨represents.ring_apart isDest member,
            represents.ring_apart isSrc member⟩
  · intro first second element inFirst inSecond
    obtain ⟨firstNotSrc, wasFirst⟩ := mem_of_mem_moved movedPerm inFirst
    obtain ⟨secondNotSrc, wasSecond⟩ := mem_of_mem_moved movedPerm inSecond
    rcases wasFirst with wasFirst | ⟨rfl, wasSrc⟩
    · rcases wasSecond with wasSecond | ⟨rfl, wasSrc⟩
      · exact represents.unique wasFirst wasSecond
      · exact absurd (represents.unique wasFirst wasSrc) firstNotSrc
    · rcases wasSecond with wasSecond | ⟨rfl, _⟩
      · exact absurd (represents.unique wasSecond wasSrc) secondNotSrc
      · rfl
  · intro which element member
    rcases (mem_of_mem_moved movedPerm member).2 with
      wasListed | ⟨_, wasListed⟩
    · exact represents.alive wasListed
    · exact represents.alive wasListed
  · intro element isLive absent
    have wasUnlisted :=
      not_mem_of_not_mem_moved different movedPerm absent
    refine others (represents.alone isLive wasUnlisted) ?_
    intro cell member
    rw [List.mem_singleton] at member
    subst member
    rw [cell_mem_iff, cell_mem_iff]
    exact ⟨wasUnlisted dest, wasUnlisted src⟩

/-- Moving all elements of a list to the back of another. -/
theorem append
    {dest src : σ}
    (represents : layout.Represents links lists live)
    (different : dest ≠ src) :
    layout.Represents
      ((links.splice (links.prev (layout.sentinel dest))
          (layout.sentinel src)).splice (layout.sentinel src)
        ((links.splice (links.prev (layout.sentinel dest))
          (layout.sentinel src)).prev (layout.sentinel src)))
      (Function.update (Function.update lists dest
        (lists dest ++ lists src)) src []) live := by
  have joined : (links.splice (links.prev (layout.sentinel dest))
      (layout.sentinel src)).IsRing (layout.sentinel dest)
        ((lists dest ++ lists src).map layout.cell ++
          layout.sentinel src :: ([] : List τ).map layout.cell) := by
    rw [List.map_append]
    exact (represents.ring dest).join_back (represents.ring src)
      fun _ inDest inSrc => represents.ring_apart different inDest inSrc
  have moved := represents.transfer_of_ring different
    ((represents.ring dest).prev_mem (List.mem_cons_self ..)) joined
    (by rw [List.append_nil])
  rwa [List.append_nil] at moved

/-- Moving all elements of a list to the front of another. -/
theorem prepend
    {dest src : σ}
    (represents : layout.Represents links lists live)
    (different : dest ≠ src) :
    layout.Represents
      ((links.splice (layout.sentinel dest)
          (layout.sentinel src)).splice (layout.sentinel src)
        ((links.splice (layout.sentinel dest)
          (layout.sentinel src)).prev (layout.sentinel src)))
      (Function.update (Function.update lists dest
        (lists src ++ lists dest)) src []) live :=
  represents.transfer_of_ring different (List.mem_cons_self ..)
    ((represents.ring dest).splice_join (represents.ring src)
      fun _ inDest inSrc => represents.ring_apart different inDest inSrc)
    List.perm_append_comm

/-- Removing a live element, in whichever list it is. -/
theorem unlink
    [DecidableEq τ]
    {element : τ}
    (represents : layout.Represents links lists live)
    (isLive : live element) :
    layout.Represents
      (links.splice (layout.cell element)
        (links.prev (layout.cell element)))
      (fun list => (lists list).erase element) live := by
  by_cases listed : ∃ list, element ∈ lists list
  · obtain ⟨list, member⟩ := listed
    have shorter : Function.update lists list ((lists list).erase element) =
        fun other => (lists other).erase element := by
      funext other
      by_cases same : other = list
      · rw [same, Function.update_self]
      · rw [Function.update_of_ne same, List.erase_of_not_mem]
        exact fun again => same (represents.unique again member)
    rw [← shorter]
    exact represents.remove member
  · have unlisted : ∀ list, element ∉ lists list := by
      simpa using listed
    have same : (fun list => (lists list).erase element) = lists := by
      funext list
      exact List.erase_of_not_mem (unlisted list)
    rw [same, represents.remove_unlisted isLive unlisted]
    exact represents

end Represents

end Layout
end TinierOS
