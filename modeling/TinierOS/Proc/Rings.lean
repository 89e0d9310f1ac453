import TinierOS.Proc.Effect

/-!
# The rings of children

Every PCB has a ring of living children and a ring of exited ones.  A family of
rings is right when the ring of each process holds exactly the processes that
have it as parent and are in the state of the family.

The exited children need less to be found by their parent: the node of a process
is only ever spliced into the ring of the parent it names, whatever else went
wrong.
-/

namespace TinierOS

variable {limits : Limits}

/-- One family of rings of PCBs: each process heads a ring and owns a node. -/
def pcbLayout (limits : Limits) :
    Layout (Fin limits.maxProc) (Fin limits.maxProc) (PcbNode limits) where
  sentinel := .list
  cell := .node
  sentinel_injective := by
    intro first second equal
    simpa using equal
  cell_injective := by
    intro first second equal
    simpa using equal
  sentinel_ne_cell := by simp

namespace Kernel

/-! ## Rings that hold the processes of one state -/

/-- `pid` is a child of `parent` in the given state. -/
def IsChild
    (kernel : Kernel limits)
    (state : PidState)
    (pid parent : Fin limits.maxProc) : Prop :=
  kernel.pstate pid = state ∧ kernel.parent pid = some parent

/-- The rings of one family hold the children in one state, each once. -/
structure RingsOf
    (kernel : Kernel limits)
    (links : Links (PcbNode limits))
    (state : PidState)
    (lists : Fin limits.maxProc → List (Fin limits.maxProc)) : Prop where
  represents : (pcbLayout limits).Represents links lists fun _ => True
  mem : ∀ {pid parent}, pid ∈ lists parent ↔ kernel.IsChild state pid parent

namespace RingsOf

variable {before after : Kernel limits}
variable {links : Links (PcbNode limits)}
variable {state : PidState}
variable {lists : Fin limits.maxProc → List (Fin limits.maxProc)}
variable {proc parent : Fin limits.maxProc}

/-- The same children are in the state. -/
theorem congr
    (rings : before.RingsOf links state lists)
    (same : ∀ pid parent, after.IsChild state pid parent ↔
      before.IsChild state pid parent) :
    after.RingsOf links state lists where
  represents := rings.represents
  mem := by
    intro pid parent
    rw [rings.mem, same]

theorem of_same
    (rings : before.RingsOf links state lists)
    (same : SameProcs before after) :
    after.RingsOf links state lists := by
  refine rings.congr ?_
  intro pid parent
  rw [IsChild, IsChild, same.pstate, same.parent]

/-- A process passes between two other states, or enters the state without a
parent. -/
theorem of_update
    {newState : PidState}
    {newParent : Option (Fin limits.maxProc)}
    (rings : before.RingsOf links state lists)
    (pstate : after.pstate = Function.update before.pstate proc newState)
    (parents : after.parent = Function.update before.parent proc newParent)
    (wasOutside : before.pstate proc ≠ state ∨ before.parent proc = none)
    (isOutside : newState ≠ state ∨ newParent = none) :
    after.RingsOf links state lists := by
  refine rings.congr ?_
  intro pid parent
  by_cases same : pid = proc
  · subst same
    simp only [IsChild, pstate, parents, Function.update_self]
    constructor
    · rintro ⟨inState, isParent⟩
      rcases isOutside with other | orphan
      · exact absurd inState other
      · rw [orphan] at isParent
        cases isParent
    · rintro ⟨inState, isParent⟩
      rcases wasOutside with other | orphan
      · exact absurd inState other
      · rw [orphan] at isParent
        cases isParent
  · simp [IsChild, pstate, parents, same]

/-- A process enters the state and the ring of its parent. -/
theorem of_insert
    {longer : List (Fin limits.maxProc)}
    {newLinks : Links (PcbNode limits)}
    (rings : before.RingsOf links state lists)
    (pstate : after.pstate = Function.update before.pstate proc state)
    (parents : after.parent =
      Function.update before.parent proc (some parent))
    (represents : (pcbLayout limits).Represents newLinks
      (Function.update lists parent longer) fun _ => True)
    (longerPerm : longer.Perm (proc :: lists parent))
    (unlisted : ∀ other, proc ∉ lists other) :
    after.RingsOf newLinks state (Function.update lists parent longer) where
  represents := represents
  mem := by
    intro pid other
    have before_iff : pid ∈ lists other ↔ before.IsChild state pid other :=
      rings.mem
    by_cases isProc : pid = proc
    · subst isProc
      simp only [IsChild, pstate, parents, Function.update_self, true_and,
        Option.some.injEq]
      by_cases isParent : other = parent
      · subst isParent
        simp [longerPerm.mem_iff]
      · rw [Function.update_of_ne isParent]
        simp [unlisted other, Ne.symm isParent]
    · simp only [IsChild, pstate, parents, ne_eq, isProc,
        not_false_eq_true, Function.update_of_ne]
      rw [← IsChild, ← before_iff]
      by_cases isParent : other = parent
      · subst isParent
        simp [longerPerm.mem_iff, isProc]
      · rw [Function.update_of_ne isParent]

/-- A process that is not in the state is in no ring. -/
theorem unlisted
    (rings : before.RingsOf links state lists)
    (outside : before.pstate proc ≠ state)
    (other : Fin limits.maxProc) :
    proc ∉ lists other :=
  fun member => outside (rings.mem.mp member).1

theorem push_front
    (rings : before.RingsOf links state lists)
    (outside : before.pstate proc ≠ state)
    (pstate : after.pstate = Function.update before.pstate proc state)
    (parents : after.parent =
      Function.update before.parent proc (some parent)) :
    after.RingsOf (links.splice (.list parent) (.node proc)) state
      (Function.update lists parent (proc :: lists parent)) :=
  rings.of_insert pstate parents
    (rings.represents.push_front trivial (rings.unlisted outside) parent)
    (List.Perm.refl _) (rings.unlisted outside)

theorem push_back
    (rings : before.RingsOf links state lists)
    (outside : before.pstate proc ≠ state)
    (pstate : after.pstate = Function.update before.pstate proc state)
    (parents : after.parent =
      Function.update before.parent proc (some parent)) :
    after.RingsOf (links.splice (links.prev (.list parent)) (.node proc))
      state (Function.update lists parent (lists parent ++ [proc])) :=
  rings.of_insert pstate parents
    (rings.represents.push_back trivial (rings.unlisted outside) parent)
    (List.perm_append_singleton _ _) (rings.unlisted outside)

/-- A process leaves the state and its ring, if it was in one. -/
theorem unlink
    {newState : PidState}
    (rings : before.RingsOf links state lists)
    (pstate : after.pstate = Function.update before.pstate proc newState)
    (parents : after.parent = before.parent)
    (outside : newState ≠ state) :
    after.RingsOf (links.splice (.node proc) (links.prev (.node proc))) state
      (fun other => (lists other).erase proc) where
  represents := rings.represents.unlink trivial
  mem := by
    intro pid other
    rw [(rings.represents.nodup other).mem_erase_iff, rings.mem]
    by_cases isProc : pid = proc
    · subst isProc
      simp [IsChild, pstate, outside]
    · simp [IsChild, pstate, parents, isProc]

/-- Removing the node of a process that is in no ring changes nothing. -/
theorem unlink_unlisted
    (rings : before.RingsOf links state lists)
    (unlisted : ∀ other, proc ∉ lists other) :
    links.splice (.node proc) (links.prev (.node proc)) = links :=
  rings.represents.remove_unlisted trivial unlisted

end RingsOf

/-! ## Living children -/

/-- `children_list` of every process holds its living children. -/
def ChildrenRings (kernel : Kernel limits) : Prop :=
  ∃ lists, kernel.RingsOf kernel.children.links .alive lists

theorem ChildrenRings.of_same
    {before after : Kernel limits}
    (rings : before.ChildrenRings)
    (same : SameProcs before after) :
    after.ChildrenRings := by
  obtain ⟨lists, rings⟩ := rings
  rw [ChildrenRings, same.children]
  exact ⟨lists, rings.of_same same⟩

theorem ProcCreated.wasFree
    {before after : Kernel limits}
    {newproc : Fin limits.maxProc}
    {state : PidState}
    (created : ProcCreated before after newproc state) :
    before.pstate newproc = .free := by
  simpa [Kernel.pstate] using firstIndex_test created.free

/-- A new process is in front of its parent's children, once. -/
theorem ChildrenRings.of_created_alive
    {before after : Kernel limits}
    {newproc : Fin limits.maxProc}
    (rings : before.ChildrenRings)
    (created : ProcCreated before after newproc .alive) :
    ∃ lists, after.RingsOf after.children.links .alive lists ∧
      ∀ parent, before.execParent newproc = some parent →
        newproc ∈ lists parent := by
  obtain ⟨lists, rings⟩ := rings
  have notAlive : before.pstate newproc ≠ .alive := by
    rw [created.wasFree]
    simp
  cases isParent : before.execParent newproc with
  | none =>
      rw [created.children, linkedChildren, isParent]
      exact ⟨lists, rings.of_update created.pstate created.parent
        (.inl notAlive) (.inr isParent), nofun⟩
  | some parent =>
      rw [created.children, linkedChildren, isParent,
        RlHeap.rlistPushFront_links]
      refine ⟨_, rings.push_front notAlive created.pstate
        (isParent ▸ created.parent), ?_⟩
      intro other same
      cases same
      simp

/-- A process that was given up before it was linked. -/
theorem ChildrenRings.of_created_free
    {before after : Kernel limits}
    {newproc : Fin limits.maxProc}
    (rings : before.ChildrenRings)
    (created : ProcCreated before after newproc .free)
    (noParent : before.execParent newproc = none) :
    after.ChildrenRings := by
  obtain ⟨lists, rings⟩ := rings
  have notAlive : before.pstate newproc ≠ .alive := by
    rw [created.wasFree]
    simp
  rw [ChildrenRings, created.children, linkedChildren, noParent]
  exact ⟨lists, rings.of_update created.pstate created.parent (.inl notAlive)
    (.inr noParent)⟩

theorem ChildrenRings.of_exited
    {before after : Kernel limits}
    {proc : Fin limits.maxProc}
    {exitval : Int}
    (rings : before.ChildrenRings)
    (exited : ProcExited before after proc exitval) :
    after.ChildrenRings := by
  obtain ⟨lists, rings⟩ := rings
  have unlinked := rings.unlink exited.pstate exited.parent (by simp)
  rw [ChildrenRings, exited.children, exitChildren]
  cases isParent : (before.pcb proc).parent with
  | none =>
      have unlisted : ∀ other, proc ∉ lists other := by
        intro other member
        have parent : before.parent proc = some other := (rings.mem.mp member).2
        rw [Kernel.parent, isParent] at parent
        cases parent
      rw [rings.unlink_unlisted unlisted] at unlinked
      exact ⟨_, unlinked⟩
  | some parent =>
      rw [RlHeap.rlistRemove_links]
      exact ⟨_, unlinked⟩

theorem ChildrenRings.of_reaped
    {before after : Kernel limits}
    {child : Fin limits.maxProc}
    (rings : before.ChildrenRings)
    (reaped : ProcReaped before after child) :
    after.ChildrenRings := by
  obtain ⟨lists, rings⟩ := rings
  rw [ChildrenRings, reaped.children, RlHeap.rlistRemove_links]
  exact ⟨_, rings.unlink reaped.pstate reaped.parent (by simp)⟩

/-! ## Exited children -/

/-- The process whose ring of exited children a node can be in. -/
def exitedLabel
    (kernel : Kernel limits) : PcbNode limits → Option (Fin limits.maxProc)
  | .null => none
  | .list pid => some pid
  | .node pid => kernel.parent pid

/-- What holds of the rings of exited children in every run: they never mix
processes of different parents, and a linked process is a zombie. -/
structure ExitedRings (kernel : Kernel limits) : Prop where
  inverse : kernel.exited.links.Inverse
  label : ∀ node, kernel.exitedLabel (kernel.exited.links.next node) =
    kernel.exitedLabel node
  key : ∀ pid, (kernel.exited (.node pid)).obj = some pid
  linked : ∀ pid, kernel.exited.links.next (.node pid) ≠ .node pid →
    kernel.pstate pid = .zombie

namespace ExitedRings

variable {before after : Kernel limits}

theorem of_same
    (rings : before.ExitedRings)
    (same : SameProcs before after) :
    after.ExitedRings := by
  have sameLabel : after.exitedLabel = before.exitedLabel := by
    funext node
    cases node <;> simp [exitedLabel, same.parent]
  constructor
  · rw [same.exited]
    exact rings.inverse
  · rw [same.exited, sameLabel]
    exact rings.label
  · rw [same.exited]
    exact rings.key
  · rw [same.exited, same.pstate]
    exact rings.linked

/-- A node that is not a zombie's is alone, so its process may change its
parent. -/
theorem of_created
    {newproc : Fin limits.maxProc}
    {state : PidState}
    (rings : before.ExitedRings)
    (created : ProcCreated before after newproc state) :
    after.ExitedRings := by
  have alone : before.exited.links.next (.node newproc) = .node newproc := by
    by_contra isLinked
    have zombie := rings.linked newproc isLinked
    rw [created.wasFree] at zombie
    cases zombie
  have otherLabel : ∀ node, node ≠ .node newproc →
      after.exitedLabel node = before.exitedLabel node := by
    intro node different
    cases node with
    | null => rfl
    | list pid => rfl
    | node pid =>
        have otherPid : pid ≠ newproc := fun same => different (same ▸ rfl)
        simp [exitedLabel, created.parent, otherPid]
  constructor
  · rw [created.exited]
    exact rings.inverse
  · intro node
    rw [created.exited]
    by_cases isNode : node = .node newproc
    · rw [isNode, alone]
    · have nextOther : before.exited.links.next node ≠ .node newproc := by
        intro same
        rw [← alone] at same
        exact isNode (rings.inverse.next_injective same)
      rw [otherLabel _ nextOther, otherLabel _ isNode, rings.label]
  · rw [created.exited]
    exact rings.key
  · intro pid isLinked
    rw [created.exited] at isLinked
    have different : pid ≠ newproc := by
      rintro rfl
      exact isLinked alone
    rw [created.pstate, Function.update_of_ne different]
    exact rings.linked pid isLinked

theorem of_exited
    {proc : Fin limits.maxProc}
    {exitval : Int}
    (rings : before.ExitedRings)
    (exited : ProcExited before after proc exitval) :
    after.ExitedRings := by
  have sameLabel : after.exitedLabel = before.exitedLabel := by
    funext node
    cases node <;> simp [exitedLabel, exited.parent]
  have zombie : ∀ pid, pid = proc ∨ before.pstate pid = .zombie →
      after.pstate pid = .zombie := by
    intro pid isZombie
    rw [exited.pstate]
    by_cases same : pid = proc
    · rw [same, Function.update_self]
    · rw [Function.update_of_ne same]
      exact isZombie.resolve_left same
  have exitedAfter := exited.exited
  rw [exitExited] at exitedAfter
  cases isParent : (before.pcb proc).parent with
  | none =>
      rw [isParent] at exitedAfter
      constructor
      · rw [exitedAfter]
        exact rings.inverse
      · rw [exitedAfter, sameLabel]
        exact rings.label
      · rw [exitedAfter]
        exact rings.key
      · intro pid isLinked
        rw [exitedAfter] at isLinked
        exact zombie pid (.inr (rings.linked pid isLinked))
  | some parent =>
      rw [isParent] at exitedAfter
      have linksAfter : after.exited.links = before.exited.links.splice
          (before.exited.links.prev (.list parent)) (.node proc) := by
        rw [exitedAfter, RlHeap.rlistPushBack_links]
      have lastLabel : before.exitedLabel
          (before.exited.links.prev (.list parent)) = some parent := by
        rw [← rings.label, rings.inverse.next_prev]
        rfl
      have procLabel : before.exitedLabel (.node proc) = some parent :=
        isParent
      constructor
      · rw [linksAfter]
        exact rings.inverse.splice _ _
      · intro node
        rw [linksAfter, sameLabel]
        exact Links.splice_label rings.label (lastLabel.trans procLabel.symm)
          node
      · rw [exitedAfter]
        simpa using rings.key
      · intro pid isLinked
        refine zombie pid ?_
        by_cases same : pid = proc
        · exact .inl same
        · have notProc : PcbNode.node pid ≠ .node proc := by
            simpa using same
          refine .inr (rings.linked pid fun alone => isLinked ?_)
          have notLast : PcbNode.node pid ≠
              before.exited.links.prev (.list parent) := by
            intro isLast
            rw [isLast, rings.inverse.next_prev] at alone
            rw [← alone] at isLast
            cases isLast
          rw [linksAfter, Links.splice_next_of_ne _ notLast notProc, alone]

theorem of_reaped
    {child : Fin limits.maxProc}
    (rings : before.ExitedRings)
    (reaped : ProcReaped before after child) :
    after.ExitedRings := by
  have sameLabel : after.exitedLabel = before.exitedLabel := by
    funext node
    cases node <;> simp [exitedLabel, reaped.parent]
  have linksAfter : after.exited.links = before.exited.links.splice
      (.node child) (before.exited.links.prev (.node child)) := by
    rw [reaped.exited, RlHeap.rlistRemove_links]
  constructor
  · rw [linksAfter]
    exact rings.inverse.splice _ _
  · intro node
    rw [linksAfter, sameLabel]
    refine Links.splice_label rings.label ?_ node
    rw [← rings.label (before.exited.links.prev _), rings.inverse.next_prev]
  · rw [reaped.exited]
    simpa using rings.key
  · intro pid isLinked
    rw [linksAfter] at isLinked
    have different : pid ≠ child := by
      rintro rfl
      exact isLinked (rings.inverse.next_removed _)
    rw [reaped.pstate, Function.update_of_ne different]
    refine rings.linked pid fun alone => isLinked ?_
    have notChild : PcbNode.node pid ≠ .node child := by
      simpa using different
    have notPrev : PcbNode.node pid ≠
        before.exited.links.prev (.node child) := by
      intro isPrev
      rw [isPrev, rings.inverse.next_prev] at alone
      exact notChild (isPrev.trans alone.symm)
    rw [Links.splice_next_of_ne _ notChild notPrev, alone]

/-- The front of a ring of exited children is a zombie of its head. -/
theorem front
    {kernel : Kernel limits}
    {parent : Fin limits.maxProc}
    (rings : kernel.ExitedRings)
    (nonempty : (kernel.exited (.list parent)).next ≠ .list parent) :
    ∃ child, (kernel.exited (.list parent)).next = .node child ∧
      (kernel.exited (kernel.exited (.list parent)).next).obj = some child ∧
      kernel.IsChild .zombie child parent := by
  have label := rings.label (.list parent)
  have back := rings.inverse.prev_next (.list parent)
  simp only [RlHeap.links_next, RlHeap.links_prev] at label back
  cases isFront : (kernel.exited (.list parent)).next with
  | null =>
      rw [isFront] at label
      cases label
  | list pid =>
      rw [isFront] at label
      have same : pid = parent := Option.some.inj label
      exact absurd isFront (same ▸ nonempty)
  | node child =>
      rw [isFront] at label back
      refine ⟨child, rfl, rings.key child, rings.linked child ?_, label⟩
      intro alone
      have loop := rings.inverse.prev_next (.node child)
      rw [alone] at loop
      rw [RlHeap.links_prev, back] at loop
      cases loop

/-- Reading the front of a nonempty ring of exited children. -/
theorem isChild_of_front
    {kernel : Kernel limits}
    {parent child : Fin limits.maxProc}
    (rings : kernel.ExitedRings)
    (nonempty : (kernel.exited (.list parent)).next ≠ .list parent)
    (front : (kernel.exited (kernel.exited (.list parent)).next).obj =
      some child) :
    kernel.IsChild .zombie child parent := by
  obtain ⟨found, -, key, isChild⟩ := rings.front nonempty
  rw [front] at key
  cases key
  exact isChild

end ExitedRings

/-! ## Any change to the process table -/

/-- What a system call can do to the process table. -/
inductive ProcChange (before after : Kernel limits) : Prop
  | same
      (procs : SameProcs before after)
  | created
      {newproc : Fin limits.maxProc}
      {state : PidState}
      (proc : ProcCreated before after newproc state)
  | exited
      {proc : Fin limits.maxProc}
      {exitval : Int}
      (procs : ProcExited before after proc exitval)
  | reaped
      {child : Fin limits.maxProc}
      (procs : ProcReaped before after child)

theorem ExitedRings.of_change
    {before after : Kernel limits}
    (rings : before.ExitedRings)
    (change : ProcChange before after) :
    after.ExitedRings := by
  cases change with
  | same procs => exact rings.of_same procs
  | created proc => exact rings.of_created proc
  | exited procs => exact rings.of_exited procs
  | reaped procs => exact rings.of_reaped procs

/-- The nodes of living children always lie on rings, if not on the right
ones. -/
theorem children_inverse_of_change
    {before after : Kernel limits}
    (inverse : before.children.links.Inverse)
    (change : ProcChange before after) :
    after.children.links.Inverse := by
  cases change with
  | same procs =>
      rw [procs.children]
      exact inverse
  | created proc =>
      rw [proc.children, linkedChildren]
      split
      · exact inverse
      · rw [RlHeap.rlistPushFront_links]
        exact inverse.splice _ _
  | exited procs =>
      rw [procs.children, exitChildren]
      split
      · exact inverse
      · rw [RlHeap.rlistRemove_links]
        exact inverse.splice _ _
  | reaped procs =>
      rw [procs.children, RlHeap.rlistRemove_links]
      exact inverse.splice _ _

end Kernel
end TinierOS
