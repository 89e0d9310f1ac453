import TinierOS.Old.ProcTree
import Mathlib.Tactic.Convert

/-!
# Ending a process of the old kernel

The last thread of a process hands its children to the initial process, living
ones and zombies, and leaves the process as a zombie in the ring of its parent.
The tree stays one tree.
-/

namespace TinierOS

variable {limits : Limits}

namespace ProcTable

/-- `get_pcb(1)` -/
theorem getPcb_init
    {table : ProcTable limits}
    {initpcb : Fin limits.maxProc}
    (isInit : initpcb.val = 1)
    (inUse : table.pstate initpcb ≠ .free) :
    table.getPcb 1 = .ok (some initpcb) := by
  obtain ⟨pid, inRange⟩ := initpcb
  subst isInit
  unfold getPcb
  rw [dif_pos ⟨by decide, inRange⟩]
  exact if_neg inUse

/-- `is_rlist_empty` of the list head of a process. -/
theorem isRlistEmpty_list
    {heap : RlHeap (PcbNode limits) (Option (Fin limits.maxProc))}
    {lists : Fin limits.maxProc → List (Fin limits.maxProc)}
    (represents : (pcbLayout limits).Represents heap.links lists fun _ => True)
    (pid : Fin limits.maxProc) :
    heap.isRlistEmpty (.list pid) = true ↔ lists pid = [] :=
  RlHeap.isRlistEmpty_iff represents pid

/-- The children of a process have become those of the initial one: the last
child is in front. -/
structure Adopted
    (before after : ProcTable limits)
    (lists : Fin limits.maxProc → List (Fin limits.maxProc))
    (curproc initpcb : Fin limits.maxProc) : Prop where
  ring : (pcbLayout limits).Represents after.children.links
    (Function.update (Function.update lists initpcb
      ((lists curproc).reverse ++ lists initpcb)) curproc []) fun _ => True
  key : ∀ pid, (after.children (.node pid)).obj = some pid
  pcb : ∀ pid, after.pcb pid =
    if pid ∈ lists curproc then
      { before.pcb pid with parent := some initpcb }
    else before.pcb pid
  freelist : after.freelist = before.freelist
  processCount : after.processCount = before.processCount
  exited : after.exited = before.exited

/-- One turn of the loop: the first child moves to the front of the initial
process's children. -/
theorem adopt_ring
    {links : Links (PcbNode limits)}
    {lists : Fin limits.maxProc → List (Fin limits.maxProc)}
    {curproc initpcb first : Fin limits.maxProc}
    {rest : List (Fin limits.maxProc)}
    (represents : (pcbLayout limits).Represents links lists fun _ => True)
    (different : initpcb ≠ curproc)
    (front : lists curproc = first :: rest) :
    (pcbLayout limits).Represents
      ((links.splice (.list curproc) (links.next (.list curproc))).splice
        (.list initpcb) (.node first))
      (Function.update (Function.update lists curproc rest) initpcb
        (first :: lists initpcb)) fun _ => True := by
  have popped : (pcbLayout limits).Represents
      (links.splice (.list curproc) (links.next (.list curproc)))
      (Function.update lists curproc rest) fun _ => True :=
    represents.pop_front front
  have inList : first ∈ lists curproc := by
    rw [front]
    exact List.mem_cons_self ..
  have unlisted : ∀ other, first ∉ Function.update lists curproc rest other := by
    intro other member
    by_cases same : other = curproc
    · subst same
      rw [Function.update_self] at member
      have nodup := represents.nodup other
      rw [front] at nodup
      exact (List.nodup_cons.mp nodup).1 member
    · rw [Function.update_of_ne same] at member
      exact same (represents.unique member inList)
  have pushed := popped.push_front trivial unlisted initpcb
  rw [Function.update_of_ne different] at pushed
  exact pushed

/-- One turn of the loop. -/
theorem adoptChild_eq_ok
    {table : ProcTable limits}
    {lists : Fin limits.maxProc → List (Fin limits.maxProc)}
    {curproc initpcb first : Fin limits.maxProc}
    {rest : List (Fin limits.maxProc)}
    (isInit : initpcb.val = 1)
    (inUse : table.pstate initpcb ≠ .free)
    (different : initpcb ≠ curproc)
    (represents : (pcbLayout limits).Represents table.children.links lists
      fun _ => True)
    (key : ∀ pid, (table.children (.node pid)).obj = some pid)
    (front : lists curproc = first :: rest) :
    ∃ after, table.adoptChild curproc = .ok after ∧
      (pcbLayout limits).Represents after.children.links
        (Function.update (Function.update lists curproc rest) initpcb
          (first :: lists initpcb)) (fun _ => True) ∧
      (∀ pid, (after.children (.node pid)).obj = some pid) ∧
      after.pcb = Function.update table.pcb first
        { table.pcb first with parent := some initpcb } ∧
      after.freelist = table.freelist ∧
      after.processCount = table.processCount ∧
      after.exited = table.exited := by
  have isFirst : (table.children.rlistPopFront (.list curproc)).1 =
      .node first :=
    represents.next_sentinel_cons front
  have firstKey : ((table.children.rlistPopFront (.list curproc)).2
      (.node first)).obj = some first := by
    rw [RlHeap.rlistPopFront_obj]
    exact key first
  refine ⟨{ table.modifyPcb first fun block =>
      { block with parent := some initpcb } with
    children := (table.children.rlistPopFront (.list curproc)).2.rlistPushFront
      (.list initpcb) (.node first) }, ?_, ?_, ?_, rfl, rfl, rfl, rfl⟩
  · simp only [adoptChild, getPcb_init isInit inUse, isFirst, firstKey, bind,
      Except.bind, pure, Except.pure]
  · show (pcbLayout limits).Represents (RlHeap.rlistPushFront _ _ _).links _ _
    rw [RlHeap.rlistPushFront_links, RlHeap.rlistPopFront_links]
    exact adopt_ring represents different front
  · intro pid
    show ((RlHeap.rlistPushFront _ _ _ : RlHeap (PcbNode limits) _)
      (.node pid)).obj = some pid
    rw [RlHeap.rlistPushFront_obj, RlHeap.rlistPopFront_obj]
    exact key pid

/-- The loop ends when all children have been handed over. -/
theorem adoptLoop_eq_ok
    {table : ProcTable limits}
    {lists : Fin limits.maxProc → List (Fin limits.maxProc)}
    {curproc initpcb : Fin limits.maxProc}
    {fuel : Nat}
    (isInit : initpcb.val = 1)
    (inUse : table.pstate initpcb ≠ .free)
    (different : initpcb ≠ curproc)
    (represents : (pcbLayout limits).Represents table.children.links lists
      fun _ => True)
    (key : ∀ pid, (table.children (.node pid)).obj = some pid)
    (enough : (lists curproc).length ≤ fuel) :
    ∃ after, adoptLoop curproc fuel table = .ok after ∧
      Adopted table after lists curproc initpcb := by
  generalize isXs : lists curproc = xs at enough
  induction xs generalizing table lists fuel with
  | nil =>
      have empty := (isRlistEmpty_list represents curproc).mpr isXs
      refine ⟨table, by cases fuel <;> rw [adoptLoop, if_pos empty], ?_⟩
      constructor
      case ring =>
        rw [isXs, List.reverse_nil, List.nil_append, Function.update_eq_self,
          ← isXs, Function.update_eq_self]
        exact represents
      case key => exact key
      case pcb => simp [isXs]
      case freelist => rfl
      case processCount => rfl
      case exited => rfl
  | cons first rest inductionHypothesis =>
      have nonempty : ¬table.children.isRlistEmpty (.list curproc) = true := by
        rw [isRlistEmpty_list represents, isXs]
        simp
      have notRest : first ∉ rest := by
        have nodup := represents.nodup curproc
        rw [isXs] at nodup
        exact (List.nodup_cons.mp nodup).1
      obtain ⟨middle, isMiddle, ring, middleKey, pcb, freelist, processCount,
        exited⟩ :=
        adoptChild_eq_ok isInit inUse different represents key isXs
      have middleUsed : middle.pstate initpcb ≠ .free := by
        have same : middle.pstate initpcb = table.pstate initpcb := by
          rw [pstate, pcb, Function.update_apply]
          split_ifs with isChild
          · rw [← isChild]
            rfl
          · rfl
        rw [same]
        exact inUse
      have curRest : Function.update (Function.update lists curproc rest)
          initpcb (first :: lists initpcb) curproc = rest := by
        rw [Function.update_of_ne different.symm, Function.update_self]
      cases fuel with
      | zero => simp at enough
      | succ fuel =>
          obtain ⟨after, ran, adopted⟩ := inductionHypothesis middleUsed ring
            middleKey curRest (by simpa using enough)
          refine ⟨after, ?_, ?_⟩
          · rw [adoptLoop, if_neg nonempty, isMiddle]
            exact ran
          constructor
          case ring =>
            have longer := adopted.ring
            rw [curRest, Function.update_self] at longer
            rw [isXs, List.reverse_cons, List.append_assoc,
              List.singleton_append]
            convert longer using 1
            funext other
            by_cases isCur : other = curproc
            · simp [isCur]
            · by_cases isInit : other = initpcb
              · simp [isInit, different]
              · simp [isCur, isInit]
          case key => exact adopted.key
          case pcb =>
            intro pid
            rw [adopted.pcb, curRest, isXs, pcb]
            by_cases isFirst : pid = first
            · subst isFirst
              simp [notRest]
            · simp [isFirst]
          case freelist => rw [adopted.freelist, freelist]
          case processCount => rw [adopted.processCount, processCount]
          case exited => rw [adopted.exited, exited]

/-! ## The rest of the end -/

/-- What the end of a process does to the table: it becomes a zombie and its
children become children of the initial process. -/
structure Ended
    (before after : ProcTable limits)
    (curproc : Fin limits.maxProc) : Prop where
  pstate : after.pstate = Function.update before.pstate curproc .zombie
  kept : ∀ {child}, ¬before.IsParent child curproc →
    after.parent child = before.parent child
  adopted : ∀ {child}, before.IsParent child curproc →
    ∃ root, root.val = 1 ∧ after.parent child = some root
  fields : ∀ pid, (after.pcb pid).exitval = (before.pcb pid).exitval ∧
    (after.pcb pid).mainTask = (before.pcb pid).mainTask ∧
    (after.pcb pid).threadCount = (before.pcb pid).threadCount

namespace Tree

variable {table after : ProcTable limits}
variable {children exited : Fin limits.maxProc → List (Fin limits.maxProc)}
variable {frees : List (Fin limits.maxProc)}
variable {curproc initpcb : Fin limits.maxProc}

/-- The exited children of a process are among its children. -/
theorem exited_subset
    (tree : table.Tree children exited frees)
    (parent : Fin limits.maxProc) :
    exited parent ⊆ children parent := by
  intro child member
  obtain ⟨isZombie, isParent⟩ := tree.mem_exited.mp member
  exact tree.mem_children.mpr ⟨by rw [isZombie]; decide, isParent⟩

theorem adoptExited_eq_ok
    {middle : ProcTable limits}
    (represents : (pcbLayout limits).Represents middle.exited.links exited
      fun _ => True)
    (isInit : initpcb.val = 1)
    (inUse : middle.pstate initpcb ≠ .free)
    (different : initpcb ≠ curproc) :
    ∃ heap, middle.adoptExited curproc = .ok { middle with exited := heap } ∧
      (pcbLayout limits).Represents heap.links
        (Function.update (Function.update exited initpcb
          (exited initpcb ++ exited curproc)) curproc []) (fun _ => True) ∧
      ∀ pid, (heap (.node pid)).obj = (middle.exited (.node pid)).obj := by
  unfold adoptExited
  by_cases empty : exited curproc = []
  · rw [if_pos ((isRlistEmpty_list represents curproc).mpr empty)]
    refine ⟨middle.exited, rfl, ?_, fun _ => rfl⟩
    rw [empty, List.append_nil, Function.update_eq_self, ← empty,
      Function.update_eq_self]
    exact represents
  · rw [if_neg ((isRlistEmpty_list represents curproc).not.mpr empty)]
    simp only [getPcb_init isInit inUse, bind, Except.bind]
    refine ⟨middle.exited.rlistAppend (.list initpcb) (.list curproc), rfl,
      ?_, ?_⟩
    · rw [RlHeap.rlistAppend, RlHeap.rlistRemove_links,
        RlHeap.rlistPushBack_links]
      exact represents.append different
    · intro pid
      rw [RlHeap.rlistAppend, RlHeap.rlistRemove_obj, RlHeap.rlistPushBack_obj]

/-- The lists of children after a process has handed over its own. -/
def handedChildren
    (lists : Fin limits.maxProc → List (Fin limits.maxProc))
    (curproc initpcb : Fin limits.maxProc) :
    Fin limits.maxProc → List (Fin limits.maxProc) :=
  Function.update (Function.update lists initpcb
    ((lists curproc).reverse ++ lists initpcb)) curproc []

/-- The lists of exited children after a process has handed over its own. -/
def handedExited
    (lists : Fin limits.maxProc → List (Fin limits.maxProc))
    (curproc initpcb : Fin limits.maxProc) :
    Fin limits.maxProc → List (Fin limits.maxProc) :=
  Function.update (Function.update lists initpcb
    (lists initpcb ++ lists curproc)) curproc []

theorem mem_handedChildren
    {lists : Fin limits.maxProc → List (Fin limits.maxProc)}
    {child parent : Fin limits.maxProc}
    (different : initpcb ≠ curproc) :
    child ∈ handedChildren lists curproc initpcb parent ↔
      parent ≠ curproc ∧ (child ∈ lists parent ∨
        parent = initpcb ∧ child ∈ lists curproc) := by
  unfold handedChildren
  by_cases isCur : parent = curproc
  · simp [isCur]
  · by_cases isInit : parent = initpcb
    · subst isInit
      simp [isCur, or_comm]
    · simp [isCur, isInit]

theorem mem_handedExited
    {lists : Fin limits.maxProc → List (Fin limits.maxProc)}
    {child parent : Fin limits.maxProc}
    (different : initpcb ≠ curproc) :
    child ∈ handedExited lists curproc initpcb parent ↔
      parent ≠ curproc ∧ (child ∈ lists parent ∨
        parent = initpcb ∧ child ∈ lists curproc) := by
  unfold handedExited
  by_cases isCur : parent = curproc
  · simp [isCur]
  · by_cases isInit : parent = initpcb
    · subst isInit
      simp [isCur]
    · simp [isCur, isInit]

/-- The table after `sys_ThreadExit` has handed over the children of a process
and put it into the ring of its parent. -/
structure HandedOver
    (before after : ProcTable limits)
    (children exited : Fin limits.maxProc → List (Fin limits.maxProc))
    (curproc initpcb parent : Fin limits.maxProc) : Prop where
  childRing : (pcbLayout limits).Represents after.children.links
    (handedChildren children curproc initpcb) fun _ => True
  exitedRing : (pcbLayout limits).Represents after.exited.links
    (Function.update (handedExited exited curproc initpcb) parent
      (curproc :: handedExited exited curproc initpcb parent)) fun _ => True
  childKey : ∀ pid, (after.children (.node pid)).obj = some pid
  exitedKey : ∀ pid, (after.exited (.node pid)).obj = some pid
  pcb : ∀ pid, after.pcb pid =
    if pid ∈ children curproc then
      { before.pcb pid with parent := some initpcb }
    else before.pcb pid
  freelist : after.freelist = before.freelist
  processCount : after.processCount = before.processCount

/-- A process other than the initial one hands over what it has. -/
theorem handOver_eq_ok
    {parent : Fin limits.maxProc}
    (tree : table.Tree children exited frees)
    (isInit : initpcb.val = 1)
    (initAlive : table.pstate initpcb = .alive)
    (isHigh : 1 < curproc.val)
    (isAlive : table.pstate curproc = .alive)
    (isParent : table.parent curproc = some parent) :
    ∃ after, table.handOver curproc = .ok after ∧
      HandedOver table after children exited curproc initpcb parent := by
  have different : initpcb ≠ curproc := by
    rintro rfl
    omega
  have inUse : table.pstate initpcb ≠ .free := by
    rw [initAlive]
    decide
  have few : (children curproc).length ≤ limits.maxProc := by
    simpa using (tree.childRing.nodup curproc).length_le_card
  obtain ⟨middle, looped, adopted⟩ := adoptLoop_eq_ok isInit inUse different
    tree.childRing tree.childKey few
  have middleUsed : middle.pstate initpcb ≠ .free := by
    rw [pstate, adopted.pcb]
    split_ifs
    · exact inUse
    · exact inUse
  have middleRing : (pcbLayout limits).Represents middle.exited.links exited
      fun _ => True := by
    rw [adopted.exited]
    exact tree.exitedRing
  obtain ⟨heap, joined, heapRing, heapKey⟩ := adoptExited_eq_ok
    middleRing isInit middleUsed different
  have notChild : curproc ∉ children curproc := fun member =>
    tree.parent_ne (tree.mem_children.mp member) rfl
  have middleParent : (middle.pcb curproc).parent = some parent := by
    rw [adopted.pcb, if_neg notChild]
    exact isParent
  have unlisted : ∀ other,
      curproc ∉ handedExited exited curproc initpcb other := by
    have notZombie : ∀ other, curproc ∉ exited other := by
      intro other member
      have isZombie := (tree.mem_exited.mp member).1
      rw [isAlive] at isZombie
      cases isZombie
    intro other member
    rcases ((mem_handedExited different).mp member).2 with found | ⟨-, found⟩
    · exact notZombie _ found
    · exact notZombie _ found
  refine ⟨{ middle with
    exited := heap.rlistPushFront (.list parent) (.node curproc) }, ?_, ?_⟩
  · unfold handOver
    rw [if_neg (by omega), looped]
    simp only [bind, Except.bind, joined, joinExited, middleParent]
  · constructor
    case childRing => exact adopted.ring
    case exitedRing =>
      show (pcbLayout limits).Represents (RlHeap.rlistPushFront _ _ _).links _ _
      rw [RlHeap.rlistPushFront_links]
      exact heapRing.push_front trivial unlisted parent
    case childKey => exact adopted.key
    case exitedKey =>
      intro pid
      show (heap.rlistPushFront (.list parent) (.node curproc)
        (.node pid)).obj = some pid
      rw [RlHeap.rlistPushFront_obj, heapKey, adopted.exited]
      exact tree.exitedKey pid
    case pcb => exact adopted.pcb
    case freelist => exact adopted.freelist
    case processCount => exact adopted.processCount

/-- The table at the end of a process that has handed over what it has. -/
def buried
    (table : ProcTable limits)
    (curproc : Fin limits.maxProc) : ProcTable limits :=
  table.modifyPcb curproc fun block =>
    { block with args := none, pstate := .zombie }

section Buried

variable {handed : ProcTable limits}
variable {parent : Fin limits.maxProc}

theorem HandedOver.pstate
    (handedOver : HandedOver table handed children exited curproc initpcb
      parent) :
    (buried handed curproc).pstate =
      Function.update table.pstate curproc .zombie := by
  funext pid
  by_cases same : pid = curproc
  · subst same
    simp [buried, ProcTable.pstate, modifyPcb]
  · simp only [buried, ProcTable.pstate, modifyPcb, ne_eq, same,
      not_false_eq_true, Function.update_of_ne, handedOver.pcb]
    split_ifs <;> rfl

theorem HandedOver.parent_eq
    (handedOver : HandedOver table handed children exited curproc initpcb
      parent)
    (pid : Fin limits.maxProc) :
    (buried handed curproc).parent pid =
      if pid ∈ children curproc then some initpcb else table.parent pid := by
  by_cases same : pid = curproc
  · subst same
    simp only [buried, ProcTable.parent, modifyPcb, Function.update_self,
      handedOver.pcb]
    split_ifs <;> rfl
  · simp only [buried, ProcTable.parent, modifyPcb, ne_eq, same,
      not_false_eq_true, Function.update_of_ne, handedOver.pcb]
    split_ifs <;> rfl

/-- The parents after the end of a process. -/
theorem HandedOver.isParent
    (handedOver : HandedOver table handed children exited curproc initpcb
      parent)
    (tree : table.Tree children exited frees)
    (isAlive : table.pstate curproc = .alive)
    {child other : Fin limits.maxProc} :
    (buried handed curproc).IsParent child other ↔
      (table.IsParent child curproc ∧ other = initpcb) ∨
        (¬table.IsParent child curproc ∧ table.IsParent child other) := by
  have inUse : Function.update table.pstate curproc .zombie child ≠ .free ↔
      table.pstate child ≠ .free := by
    by_cases same : child = curproc
    · subst same
      simp [isAlive]
    · simp [same]
  rw [IsParent, handedOver.pstate, handedOver.parent_eq, inUse,
    ← tree.mem_children]
  by_cases isChild : child ∈ children curproc
  · have := (tree.mem_children.mp isChild).1
    simp [isChild, this, eq_comm]
  · simp [isChild, IsParent]

/-- Paths to the initial process avoid the one that has ended. -/
theorem HandedOver.path
    {pid : Fin limits.maxProc}
    (handedOver : HandedOver table handed children exited curproc initpcb
      parent)
    (tree : table.Tree children exited frees)
    (isAlive : table.pstate curproc = .alive)
    (path : Relation.ReflTransGen table.IsParent pid initpcb) :
    Relation.ReflTransGen (buried handed curproc).IsParent pid initpcb := by
  induction path using Relation.ReflTransGen.head_induction_on with
  | refl => exact .refl
  | @head child other first _ inductionHypothesis =>
      by_cases isChild : table.IsParent child curproc
      · apply Relation.ReflTransGen.single
        exact (handedOver.isParent tree isAlive).mpr (.inl ⟨isChild, rfl⟩)
      · apply inductionHypothesis.head
        exact (handedOver.isParent tree isAlive).mpr (.inr ⟨isChild, first⟩)

/-- The process itself is the only new exited child. -/
theorem HandedOver.mem_exited
    {child other : Fin limits.maxProc}
    (handedOver : HandedOver table handed children exited curproc initpcb
      parent)
    (tree : table.Tree children exited frees)
    (isAlive : table.pstate curproc = .alive)
    (isParent : table.parent curproc = some parent)
    (different : initpcb ≠ curproc) :
    child ∈ Function.update (handedExited exited curproc initpcb) parent
        (curproc :: handedExited exited curproc initpcb parent) other ↔
      (buried handed curproc).pstate child = .zombie ∧
        (buried handed curproc).parent child = some other := by
  have notChild : curproc ∉ children curproc := fun member =>
    tree.parent_ne (tree.mem_children.mp member) rfl
  have split : child ∈ Function.update (handedExited exited curproc initpcb)
        parent (curproc :: handedExited exited curproc initpcb parent) other ↔
      (child = curproc ∧ other = parent) ∨
        child ∈ handedExited exited curproc initpcb other := by
    by_cases same : other = parent
    · subst same
      simp
    · simp [same]
  rw [split, mem_handedExited different, handedOver.pstate,
    handedOver.parent_eq, tree.mem_exited, tree.mem_exited]
  by_cases isCur : child = curproc
  · subst isCur
    simp [notChild, isAlive, isParent, eq_comm]
  · simp only [isCur, false_and, false_or, ne_eq, not_false_eq_true,
      Function.update_of_ne]
    by_cases isChild : child ∈ children curproc
    · have wasParent := (tree.mem_children.mp isChild).2
      rw [if_pos isChild, wasParent]
      constructor
      · rintro ⟨notCur, ⟨-, equal⟩ | ⟨rfl, isZombie, -⟩⟩
        · exact absurd (Option.some.inj equal).symm notCur
        · exact ⟨isZombie, rfl⟩
      · rintro ⟨isZombie, equal⟩
        cases equal
        exact ⟨different, .inr ⟨rfl, isZombie, rfl⟩⟩
    · rw [if_neg isChild]
      have notParent : table.pstate child = .zombie →
          table.parent child ≠ some curproc := by
        intro isZombie wasParent
        apply isChild
        exact tree.mem_children.mpr ⟨by rw [isZombie]; decide, wasParent⟩
      constructor
      · rintro ⟨-, was | ⟨-, isZombie, wasParent⟩⟩
        · exact was
        · exact absurd wasParent (notParent isZombie)
      · rintro ⟨isZombie, wasParent⟩
        refine ⟨?_, .inl ⟨isZombie, wasParent⟩⟩
        rintro rfl
        exact notParent isZombie wasParent

/-- A process that has ended stays in the tree, without children. -/
theorem HandedOver.tree
    (handedOver : HandedOver table handed children exited curproc initpcb
      parent)
    (tree : table.Tree children exited frees)
    (isInit : initpcb.val = 1)
    (initAlive : table.pstate initpcb = .alive)
    (isAlive : table.pstate curproc = .alive)
    (isParent : table.parent curproc = some parent)
    (different : initpcb ≠ curproc) :
    (buried handed curproc).Tree (handedChildren children curproc initpcb)
      (Function.update (handedExited exited curproc initpcb) parent
        (curproc :: handedExited exited curproc initpcb parent)) frees := by
  have inUse : ∀ {pid}, (buried handed curproc).pstate pid ≠ .free ↔
      table.pstate pid ≠ .free := by
    intro pid
    rw [handedOver.pstate]
    by_cases same : pid = curproc
    · subst same
      simp [isAlive]
    · simp [same]
  constructor
  case childRing => exact handedOver.childRing
  case exitedRing => exact handedOver.exitedRing
  case childKey => exact handedOver.childKey
  case exitedKey => exact handedOver.exitedKey
  case mem_children =>
    intro child other
    rw [mem_handedChildren different, handedOver.isParent tree isAlive,
      tree.mem_children, tree.mem_children]
    constructor
    · rintro ⟨notCur, was | ⟨rfl, was⟩⟩
      · refine .inr ⟨fun isChild => notCur ?_, was⟩
        exact Option.some.inj (was.2.symm.trans isChild.2)
      · exact .inl ⟨was, rfl⟩
    · rintro (⟨was, rfl⟩ | ⟨notChild, was⟩)
      · exact ⟨different, .inr ⟨rfl, was⟩⟩
      · exact ⟨fun isCur => notChild (isCur ▸ was), .inl was⟩
  case mem_exited =>
    exact handedOver.mem_exited tree isAlive isParent different
  case free =>
    show Linked _ handed.freelist frees
    rw [handedOver.freelist]
    apply tree.free.congr
    intro pid member
    rw [handedOver.parent_eq, if_neg]
    intro isChild
    exact (tree.mem_children.mp isChild).1 (tree.mem_free.mp member)
  case free_nodup => exact tree.free_nodup
  case mem_free =>
    intro pid
    rw [tree.mem_free, ← not_iff_not]
    exact inUse.symm
  case parentAlive =>
    intro child other wasParent
    rw [handedOver.pstate]
    rcases (handedOver.isParent tree isAlive).mp wasParent with
      ⟨-, rfl⟩ | ⟨notChild, was⟩
    · rw [Function.update_of_ne different]
      exact initAlive
    · rw [Function.update_of_ne]
      · exact tree.parentAlive was
      · rintro rfl
        exact notChild was
  case orphan =>
    intro pid used
    rw [handedOver.parent_eq]
    split_ifs with isChild
    · have was := tree.mem_children.mp isChild
      have := tree.orphan was.1
      simpa [was.2] using this
    · exact tree.orphan (inUse.mp used)
  case rooted =>
    intro pid used notSystem
    obtain ⟨root, isRoot, path⟩ := tree.rooted (inUse.mp used) notSystem
    obtain rfl : root = initpcb := Fin.ext (isRoot.trans isInit.symm)
    exact ⟨root, isRoot, handedOver.path tree isAlive path⟩
  case count =>
    show handed.processCount = _
    rw [handedOver.processCount, handedOver.pstate, tree.count]
    symm
    apply congrArg
    apply countWhere_keep
    simp [isAlive]

theorem HandedOver.ended
    (handedOver : HandedOver table handed children exited curproc initpcb
      parent)
    (tree : table.Tree children exited frees)
    (isInit : initpcb.val = 1) :
    Ended table (buried handed curproc) curproc where
  pstate := handedOver.pstate
  kept := by
    intro child notChild
    rw [handedOver.parent_eq, if_neg (tree.mem_children.not.mpr notChild)]
  adopted := by
    intro child isChild
    refine ⟨initpcb, isInit, ?_⟩
    rw [handedOver.parent_eq, if_pos (tree.mem_children.mpr isChild)]
  fields := by
    intro pid
    by_cases same : pid = curproc
    · subst same
      simp only [buried, modifyPcb, Function.update_self, handedOver.pcb]
      split_ifs <;> exact ⟨rfl, rfl, rfl⟩
    · simp only [buried, modifyPcb, ne_eq, same, not_false_eq_true,
        Function.update_of_ne, handedOver.pcb]
      split_ifs <;> exact ⟨rfl, rfl, rfl⟩

end Buried

/-- The last thread of a process other than the initial one ends it: its children
go to the initial process, it stays in the tree as a zombie. -/
theorem endProcess_eq_ok
    (tree : table.Tree children exited frees)
    (isHigh : 1 < curproc.val)
    (isAlive : table.pstate curproc = .alive) :
    ∃ after children exited, table.endProcess curproc = .ok after ∧
      after.Tree children exited frees ∧ Ended table after curproc := by
  have inUse : table.pstate curproc ≠ .free := by
    rw [isAlive]
    decide
  obtain ⟨initpcb, isInit, initAlive⟩ := tree.init_alive inUse isHigh
  obtain ⟨parent, -, isParent⟩ := tree.exists_parent inUse isHigh
  obtain ⟨handed, ran, handedOver⟩ := tree.handOver_eq_ok isInit initAlive isHigh
    isAlive isParent
  have different : initpcb ≠ curproc := by
    rintro rfl
    omega
  have parentDifferent : parent ≠ curproc := tree.parent_ne ⟨inUse, isParent⟩
  have emptied : handed.children.isRlistEmpty (.list curproc) = true ∧
      handed.exited.isRlistEmpty (.list curproc) = true := by
    rw [isRlistEmpty_list handedOver.childRing,
      isRlistEmpty_list handedOver.exitedRing]
    refine ⟨Function.update_self .., ?_⟩
    rw [Function.update_of_ne parentDifferent.symm]
    exact Function.update_self ..
  refine ⟨buried handed curproc, _, _, ?_,
    handedOver.tree tree isInit initAlive isAlive isParent different,
    handedOver.ended tree isInit⟩
  unfold endProcess
  rw [ran]
  simp only [bind, Except.bind]
  rw [if_pos emptied]
  rfl

/-- The table after a process has been marked as a zombie. -/
theorem buried_pstate
    (table : ProcTable limits)
    (curproc : Fin limits.maxProc) :
    (buried table curproc).pstate =
      Function.update table.pstate curproc .zombie := by
  funext pid
  by_cases same : pid = curproc
  · subst same
    simp [buried, ProcTable.pstate, modifyPcb]
  · simp [buried, ProcTable.pstate, modifyPcb, same]

theorem buried_parent
    (table : ProcTable limits)
    (curproc : Fin limits.maxProc) :
    (buried table curproc).parent = table.parent := by
  funext pid
  by_cases same : pid = curproc
  · subst same
    simp [buried, ProcTable.parent, modifyPcb]
  · simp [buried, ProcTable.parent, modifyPcb, same]

/-- A process without parent and children may end where it is. -/
theorem buried_tree
    (tree : table.Tree children exited frees)
    (isInit : curproc.val = 1)
    (isAlive : table.pstate curproc = .alive)
    (childless : children curproc = []) :
    (buried table curproc).Tree children exited frees := by
  have noParent : table.parent curproc = none :=
    (tree.orphan (by rw [isAlive]; decide)).mpr (by omega)
  have isParent : (buried table curproc).IsParent = table.IsParent := by
    funext child parent
    rw [IsParent, IsParent, buried_pstate, buried_parent]
    by_cases same : child = curproc
    · subst same
      simp [isAlive]
    · simp [same]
  have inUse : ∀ {pid}, (buried table curproc).pstate pid ≠ .free ↔
      table.pstate pid ≠ .free := by
    intro pid
    rw [buried_pstate]
    by_cases same : pid = curproc
    · subst same
      simp [isAlive]
    · simp [same]
  constructor
  case childRing => exact tree.childRing
  case exitedRing => exact tree.exitedRing
  case childKey => exact tree.childKey
  case exitedKey => exact tree.exitedKey
  case mem_children =>
    rw [isParent]
    exact tree.mem_children
  case mem_exited =>
    intro child parent
    rw [tree.mem_exited, buried_pstate, buried_parent]
    by_cases same : child = curproc
    · subst same
      simp [isAlive, noParent]
    · simp [same]
  case free =>
    rw [buried_parent]
    exact tree.free
  case free_nodup => exact tree.free_nodup
  case mem_free =>
    intro pid
    rw [tree.mem_free, ← not_iff_not]
    exact inUse.symm
  case parentAlive =>
    intro child parent was
    rw [isParent] at was
    rw [buried_pstate, Function.update_of_ne]
    · exact tree.parentAlive was
    · rintro rfl
      have member := tree.mem_children.mpr was
      rw [childless] at member
      cases member
  case orphan =>
    intro pid used
    rw [buried_parent]
    exact tree.orphan (inUse.mp used)
  case rooted =>
    intro pid used notSystem
    rw [isParent]
    exact tree.rooted (inUse.mp used) notSystem
  case count =>
    rw [buried_pstate]
    show table.processCount = _
    rw [tree.count]
    symm
    apply congrArg
    apply countWhere_keep
    simp [isAlive]

/-- The initial process can only end without children. -/
theorem endProcess_init
    (tree : table.Tree children exited frees)
    (isInit : curproc.val = 1)
    (isAlive : table.pstate curproc = .alive) :
    (children curproc ≠ [] ∧ table.endProcess curproc = .error .assertion) ∨
      (children curproc = [] ∧
        table.endProcess curproc = .ok (buried table curproc) ∧
        (buried table curproc).Tree children exited frees ∧
        Ended table (buried table curproc) curproc) := by
  have noChildren := isRlistEmpty_list tree.childRing curproc
  have noneExited := isRlistEmpty_list tree.exitedRing curproc
  have handed : table.handOver curproc = .ok table := by
    rw [handOver, if_pos isInit]
  unfold endProcess
  rw [handed]
  simp only [bind, Except.bind]
  by_cases childless : children curproc = []
  · have noExited : exited curproc = [] := by
      have subset := tree.exited_subset curproc
      rw [childless] at subset
      exact List.eq_nil_of_subset_nil subset
    refine .inr ⟨childless, ?_, tree.buried_tree isInit isAlive childless, ?_⟩
    · rw [if_pos ⟨noChildren.mpr childless, noneExited.mpr noExited⟩]
      rfl
    · constructor
      case pstate => exact buried_pstate table curproc
      case kept =>
        intro child _
        rw [buried_parent]
      case adopted =>
        intro child isChild
        have member := tree.mem_children.mpr isChild
        rw [childless] at member
        cases member
      case fields =>
        intro pid
        by_cases same : pid = curproc
        · subst same
          simp [buried, modifyPcb]
        · simp [buried, modifyPcb, same]
  · refine .inl ⟨childless, ?_⟩
    rw [if_neg]
    rintro ⟨empty, -⟩
    exact childless (noChildren.mp empty)

end Tree
end ProcTable
end TinierOS
