import TinierOS.Old.ProcTable
import TinierOS.Proc.Rings
import TinierOS.Library.LinkedStack
import TinierOS.Library.Counting
import Mathlib.Logic.Relation

/-!
# The process tree of the old kernel

The rings of children and of exited children, the free list and the `parent`
fields describe one tree of processes, rooted at the initial process.  Creating,
ending and reaping a process keep it.
-/

namespace TinierOS

variable {limits : Limits}

namespace ProcTable

/-- A process in use and its parent. -/
def IsParent
    (table : ProcTable limits)
    (child parent : Fin limits.maxProc) : Prop :=
  table.pstate child ≠ .free ∧ table.parent child = some parent

/-- The rings hold the children and the exited children of each process, the free
list the free PCBs; parents are alive, and every process descends from the
initial one. -/
structure Tree
    (table : ProcTable limits)
    (children exited : Fin limits.maxProc → List (Fin limits.maxProc))
    (frees : List (Fin limits.maxProc)) : Prop where
  childRing : (pcbLayout limits).Represents table.children.links children
    fun _ => True
  exitedRing : (pcbLayout limits).Represents table.exited.links exited
    fun _ => True
  childKey : ∀ pid, (table.children (.node pid)).obj = some pid
  exitedKey : ∀ pid, (table.exited (.node pid)).obj = some pid
  mem_children : ∀ {child parent},
    child ∈ children parent ↔ table.IsParent child parent
  mem_exited : ∀ {child parent}, child ∈ exited parent ↔
    table.pstate child = .zombie ∧ table.parent child = some parent
  free : Linked table.parent table.freelist frees
  free_nodup : frees.Nodup
  mem_free : ∀ {pid}, pid ∈ frees ↔ table.pstate pid = .free
  parentAlive : ∀ {child parent}, table.IsParent child parent →
    table.pstate parent = .alive
  orphan : ∀ {pid}, table.pstate pid ≠ .free →
    (table.parent pid = none ↔ pid.val ≤ 1)
  rooted : ∀ {pid}, table.pstate pid ≠ .free → pid.val ≠ 0 →
    ∃ root, root.val = 1 ∧ Relation.ReflTransGen table.IsParent pid root
  count : table.processCount =
    countWhere (fun state => state ≠ .free) table.pstate

/-- The parts of the table that the tree consists of are the same. -/
structure SameTree (before after : ProcTable limits) : Prop where
  pstate : after.pstate = before.pstate
  parent : after.parent = before.parent
  freelist : after.freelist = before.freelist
  processCount : after.processCount = before.processCount
  children : after.children = before.children
  exited : after.exited = before.exited

/-- An assignment to fields that say nothing about the tree. -/
theorem sameTree_modifyPcb
    (table : ProcTable limits)
    (pid : Fin limits.maxProc)
    {change : OldPcb limits → OldPcb limits}
    (pstate : (change (table.pcb pid)).pstate = (table.pcb pid).pstate)
    (parent : (change (table.pcb pid)).parent = (table.pcb pid).parent) :
    SameTree table (table.modifyPcb pid change) where
  pstate := by
    funext other
    by_cases same : other = pid
    · subst same
      simpa [ProcTable.pstate, modifyPcb] using pstate
    · simp [ProcTable.pstate, modifyPcb, same]
  parent := by
    funext other
    by_cases same : other = pid
    · subst same
      simpa [ProcTable.parent, modifyPcb] using parent
    · simp [ProcTable.parent, modifyPcb, same]
  freelist := rfl
  processCount := rfl
  children := rfl
  exited := rfl

namespace Tree

variable {table after : ProcTable limits}
variable {children exited : Fin limits.maxProc → List (Fin limits.maxProc)}
variable {frees : List (Fin limits.maxProc)}
variable {pid child curproc : Fin limits.maxProc}

theorem of_same
    (tree : table.Tree children exited frees)
    (same : SameTree table after) :
    after.Tree children exited frees := by
  have isParent : after.IsParent = table.IsParent := by
    funext child parent
    rw [IsParent, IsParent, same.pstate, same.parent]
  constructor
  case childRing => exact same.children ▸ tree.childRing
  case exitedRing => exact same.exited ▸ tree.exitedRing
  case childKey => exact same.children ▸ tree.childKey
  case exitedKey => exact same.exited ▸ tree.exitedKey
  case mem_children =>
      rw [isParent]
      exact tree.mem_children
  case mem_exited =>
      rw [same.pstate, same.parent]
      exact tree.mem_exited
  case free =>
      rw [same.parent, same.freelist]
      exact tree.free
  case free_nodup => exact tree.free_nodup
  case mem_free =>
      rw [same.pstate]
      exact tree.mem_free
  case parentAlive =>
      rw [same.pstate, isParent]
      exact tree.parentAlive
  case orphan =>
      rw [same.pstate, same.parent]
      exact tree.orphan
  case rooted =>
      rw [same.pstate, isParent]
      exact tree.rooted
  case count =>
      rw [same.pstate, same.processCount]
      exact tree.count

/-- A process that descends from the initial one and is not it has a parent. -/
theorem exists_parent
    (tree : table.Tree children exited frees)
    (inUse : table.pstate pid ≠ .free)
    (isHigh : 1 < pid.val) :
    ∃ parent, table.IsParent pid parent := by
  cases isParent : table.parent pid with
  | none =>
      have := (tree.orphan inUse).mp isParent
      omega
  | some parent => exact ⟨parent, inUse, isParent⟩

/-- The initial process is alive as long as there are others. -/
theorem init_alive
    (tree : table.Tree children exited frees)
    (inUse : table.pstate pid ≠ .free)
    (isHigh : 1 < pid.val) :
    ∃ root, root.val = 1 ∧ table.pstate root = .alive := by
  obtain ⟨root, isRoot, path⟩ := tree.rooted inUse (by omega)
  cases path with
  | refl => omega
  | tail _ last => exact ⟨root, isRoot, tree.parentAlive last⟩

/-- No process is its own parent. -/
theorem parent_ne
    (tree : table.Tree children exited frees)
    (isParent : table.IsParent child pid) :
    pid ≠ child := by
  rintro rfl
  have high : ¬pid.val ≤ 1 := by
    intro low
    have none := (tree.orphan isParent.1).mpr low
    rw [isParent.2] at none
    cases none
  obtain ⟨root, isRoot, path⟩ := tree.rooted isParent.1 (by omega)
  have stays : ∀ {last}, Relation.ReflTransGen table.IsParent pid last →
      last = pid := by
    intro last path
    induction path with
    | refl => rfl
    | tail _ step inductionHypothesis =>
        subst inductionHypothesis
        exact Option.some.inj (step.2.symm.trans isParent.2)
  have := stays path
  omega

end Tree

/-! ## Creating a process -/

/-- The table after `sys_Exec` has taken a PCB. -/
def created
    (table : ProcTable limits)
    (newproc : Fin limits.maxProc)
    (parent : Option (Fin limits.maxProc))
    (call : Option Task)
    (argl : Int)
    (args : List UInt8) : ProcTable limits where
  pcb := Function.update table.pcb newproc
    { table.pcb newproc with
      pstate := .alive
      parent := parent
      mainTask := call
      argl := argl
      args := some args }
  freelist := table.parent newproc
  processCount := table.processCount + 1
  children := match parent with
    | none => table.children
    | some curproc =>
        table.children.rlistPushFront (.list curproc) (.node newproc)
  exited := table.exited

/-- `sys_Exec` takes the first free PCB, if there is one. -/
theorem exec_eq_ok
    {table after : ProcTable limits}
    {curproc result : Option (Fin limits.maxProc)}
    {call : Option Task}
    {argl : Int}
    {args : Option (Nat → UInt8)}
    (ran : table.exec curproc call argl args = .ok (result, after)) :
    (table.freelist = none ∧ result = none ∧ after = table) ∨
      ∃ newproc bytes, table.freelist = some newproc ∧ result = some newproc ∧
        (1 < newproc.val → curproc ≠ none) ∧ copyArg argl args = .ok bytes ∧
        after = table.created newproc (newParent newproc curproc) call argl
          bytes := by
  unfold exec acquirePCB at ran
  cases isFree : table.freelist with
  | none =>
      rw [isFree] at ran
      cases ran
      exact .inl ⟨rfl, rfl, rfl⟩
  | some newproc =>
      rw [isFree] at ran
      obtain ⟨linked, isLinked, copied⟩ := exists_of_bind_eq_ok ran
      obtain ⟨bytes, isCopy, set⟩ := exists_of_bind_eq_ok copied
      cases set
      refine .inr ⟨newproc, bytes, rfl, rfl, ?_, isCopy, ?_⟩
      · rintro high rfl
        rw [linkParent, if_neg (by omega)] at isLinked
        cases isLinked
      · unfold linkParent at isLinked
        split_ifs at isLinked with low
        · cases isLinked
          simp [created, newParent, low, setTask, modifyPcb, parent]
        · cases curproc with
          | none => cases isLinked
          | some curproc =>
              cases isLinked
              simp [created, newParent, low, setTask, modifyPcb, parent]

section Created

variable (table : ProcTable limits)
variable (newproc : Fin limits.maxProc)
variable (newParent : Option (Fin limits.maxProc))
variable (call : Option Task)
variable (argl : Int)
variable (args : List UInt8)

theorem created_pstate :
    (table.created newproc newParent call argl args).pstate =
      Function.update table.pstate newproc .alive := by
  funext pid
  by_cases same : pid = newproc
  · subst same
    simp [pstate, created]
  · simp [pstate, created, same]

theorem created_parent :
    (table.created newproc newParent call argl args).parent =
      Function.update table.parent newproc newParent := by
  funext pid
  by_cases same : pid = newproc
  · subst same
    simp [parent, created]
  · simp [parent, created, same]

end Created

/-- Processes other than `newproc` have the parent they had. -/
theorem created_isParent
    {table : ProcTable limits}
    {newproc child curproc : Fin limits.maxProc}
    {newParent : Option (Fin limits.maxProc)}
    {call : Option Task}
    {argl : Int}
    {args : List UInt8}
    (isFree : table.pstate newproc = .free) :
    (table.created newproc newParent call argl args).IsParent child curproc ↔
      (child = newproc ∧ newParent = some curproc) ∨
        table.IsParent child curproc := by
  rw [IsParent, IsParent, created_pstate, created_parent]
  by_cases same : child = newproc
  · subst same
    simp [isFree]
  · simp [same]

namespace Tree

variable {table after : ProcTable limits}
variable {children exited : Fin limits.maxProc → List (Fin limits.maxProc)}
variable {frees : List (Fin limits.maxProc)}
variable {newproc : Fin limits.maxProc}
variable {curproc : Option (Fin limits.maxProc)}

/-- The new process is in no ring. -/
theorem unlisted
    (tree : table.Tree children exited frees)
    (isFree : table.pstate newproc = .free)
    (other : Fin limits.maxProc) :
    newproc ∉ children other ∧ newproc ∉ exited other := by
  constructor
  · intro member
    exact (tree.mem_children.mp member).1 isFree
  · intro member
    have isZombie := (tree.mem_exited.mp member).1
    rw [isFree] at isZombie
    cases isZombie

/-- The free list names a free PCB. -/
theorem freelist_free
    (tree : table.Tree children exited frees)
    (isFree : table.freelist = some newproc) :
    table.pstate newproc = .free := by
  have linked := tree.free
  rw [isFree] at linked
  obtain ⟨rest, rfl, -⟩ := linked.of_some
  exact tree.mem_free.mp (List.mem_cons_self ..)

/-- The rings after a process has been created. -/
theorem created_ring
    (tree : table.Tree children exited frees)
    (isFree : table.pstate newproc = .free)
    (call : Option Task)
    (argl : Int)
    (args : List UInt8)
    (newParent : Option (Fin limits.maxProc)) :
    ∃ longer : Fin limits.maxProc → List (Fin limits.maxProc),
      (pcbLayout limits).Represents
        (table.created newproc newParent call argl args).children.links longer
          (fun _ => True) ∧
      ∀ {child other}, child ∈ longer other ↔
        (child = newproc ∧ newParent = some other) ∨
          child ∈ children other := by
  cases newParent with
  | none => exact ⟨children, tree.childRing, by simp⟩
  | some curproc =>
      refine ⟨Function.update children curproc (newproc :: children curproc),
        ?_, ?_⟩
      · show (pcbLayout limits).Represents (table.children.rlistPushFront
          (.list curproc) (.node newproc)).links _ _
        rw [RlHeap.rlistPushFront_links]
        exact tree.childRing.push_front trivial
          (fun other => (tree.unlisted isFree other).1) curproc
      · intro child other
        by_cases same : other = curproc
        · subst same
          simp
        · simp [same, Ne.symm same]

/-- A process that is created by a living one joins the tree. -/
theorem created
    (tree : table.Tree children exited frees)
    (isFree : table.freelist = some newproc)
    (call : Option Task)
    (argl : Int)
    (args : List UInt8)
    (hasParent : 1 < newproc.val → ∃ parent, curproc = some parent ∧
      table.pstate parent = .alive ∧ parent.val ≠ 0) :
    ∃ children frees, (table.created newproc (newParent newproc curproc) call
      argl args).Tree children exited frees := by
  have wasFree := tree.freelist_free isFree
  obtain ⟨longer, represents, mem_longer⟩ := tree.created_ring wasFree call argl
    args (newParent newproc curproc)
  have linked := tree.free
  rw [isFree] at linked
  obtain ⟨rest, rfl, below⟩ := linked.of_some
  obtain ⟨notRest, restNodup⟩ := List.nodup_cons.mp tree.free_nodup
  refine ⟨longer, rest, ?_⟩
  constructor
  case childRing => exact represents
  case exitedRing => exact tree.exitedRing
  case childKey =>
    intro pid
    cases newParent newproc curproc with
    | none => exact tree.childKey pid
    | some parent =>
        show (table.children.rlistPushFront (.list parent) (.node newproc)
          (.node pid)).obj = some pid
        rw [RlHeap.rlistPushFront_obj]
        exact tree.childKey pid
  case exitedKey => exact tree.exitedKey
  case mem_children =>
    intro child parent
    rw [mem_longer, created_isParent wasFree, tree.mem_children]
  case mem_exited =>
    intro child parent
    rw [created_pstate, created_parent]
    by_cases same : child = newproc
    · subst same
      simp [(tree.unlisted wasFree parent).2]
    · simp [same, tree.mem_exited]
  case free =>
    rw [created_parent]
    exact below.update notRest
  case free_nodup => exact restNodup
  case mem_free =>
    intro pid
    rw [created_pstate]
    by_cases same : pid = newproc
    · subst same
      simp [notRest]
    · have isFree_iff : pid ∈ newproc :: rest ↔ table.pstate pid = .free :=
        tree.mem_free
      simpa [same] using isFree_iff
  case parentAlive =>
    intro child parent isParent
    have parentAlive : table.pstate parent = .alive := by
      rcases (created_isParent wasFree).mp isParent with ⟨-, isNew⟩ | wasParent
      · unfold newParent at isNew
        split_ifs at isNew with low
        obtain ⟨found, isFound, alive, -⟩ := hasParent (by omega)
        rw [isFound] at isNew
        cases isNew
        exact alive
      · exact tree.parentAlive wasParent
    rw [created_pstate, Function.update_apply]
    split_ifs
    · rfl
    · exact parentAlive
  case orphan =>
    intro pid
    rw [created_pstate, created_parent]
    by_cases same : pid = newproc
    · subst same
      intro _
      rw [Function.update_self, newParent]
      split_ifs with low
      · simp [low]
      · obtain ⟨found, isFound, -⟩ := hasParent (by omega)
        simp [isFound, low]
    · simpa [same] using tree.orphan
  case rooted =>
    have kept : ∀ {pid root}, Relation.ReflTransGen table.IsParent pid root →
        Relation.ReflTransGen (table.created newproc (newParent newproc curproc)
          call argl args).IsParent pid root := by
      intro pid root
      apply Relation.ReflTransGen.mono
      intro child parent isParent
      exact (created_isParent wasFree).mpr (.inr isParent)
    intro pid inUse notSystem
    by_cases same : pid = newproc
    · subst same
      by_cases isInit : pid.val = 1
      · exact ⟨pid, isInit, .refl⟩
      · obtain ⟨parent, isFound, alive, parentNotSystem⟩ :=
          hasParent (by omega)
        obtain ⟨root, isRoot, path⟩ :=
          tree.rooted (by rw [alive]; decide) parentNotSystem
        refine ⟨root, isRoot, .head ?_ (kept path)⟩
        rw [created_isParent wasFree]
        refine .inl ⟨rfl, ?_⟩
        rw [newParent, if_neg (by omega), isFound]
    · have wasUsed : table.pstate pid ≠ .free := by
        rw [created_pstate, Function.update_of_ne same] at inUse
        exact inUse
      obtain ⟨root, isRoot, path⟩ := tree.rooted wasUsed notSystem
      exact ⟨root, isRoot, kept path⟩
  case count =>
    rw [created_pstate]
    have counted : countWhere (fun state : PidState => state ≠ .free)
        (Function.update table.pstate newproc .alive) =
          countWhere (fun state : PidState => state ≠ .free) table.pstate + 1 :=
      countWhere_insert (by simp [wasFree]) (by simp)
    rw [counted]
    show table.processCount + 1 = _
    rw [tree.count]
    rfl

end Tree

/-! ## Reaping a process -/

theorem cleanupZombie_pstate
    (table : ProcTable limits)
    (child : Fin limits.maxProc) :
    (table.cleanupZombie child).2.pstate =
      Function.update table.pstate child .free := by
  funext pid
  by_cases same : pid = child
  · subst same
    simp [pstate, cleanupZombie, releasePCB, modifyPcb]
  · simp [pstate, cleanupZombie, releasePCB, modifyPcb, same]

theorem cleanupZombie_parent
    (table : ProcTable limits)
    (child : Fin limits.maxProc) :
    (table.cleanupZombie child).2.parent =
      Function.update table.parent child table.freelist := by
  funext pid
  by_cases same : pid = child
  · subst same
    simp [parent, cleanupZombie, releasePCB, modifyPcb]
  · simp [parent, cleanupZombie, releasePCB, modifyPcb, same]

/-- Processes other than the reaped one keep their parent. -/
theorem cleanupZombie_isParent
    {table : ProcTable limits}
    {reaped child parent : Fin limits.maxProc} :
    (table.cleanupZombie reaped).2.IsParent child parent ↔
      child ≠ reaped ∧ table.IsParent child parent := by
  rw [IsParent, IsParent, cleanupZombie_pstate, cleanupZombie_parent]
  by_cases same : child = reaped
  · subst same
    simp
  · simp [same]

namespace Tree

variable {table after : ProcTable limits}
variable {children exited : Fin limits.maxProc → List (Fin limits.maxProc)}
variable {frees : List (Fin limits.maxProc)}
variable {reaped : Fin limits.maxProc}

/-- A path to the initial process leads through living processes. -/
theorem path_reaped
    {pid root : Fin limits.maxProc}
    (tree : table.Tree children exited frees)
    (isZombie : table.pstate reaped = .zombie)
    (path : Relation.ReflTransGen table.IsParent pid root)
    (different : pid ≠ reaped) :
    Relation.ReflTransGen (table.cleanupZombie reaped).2.IsParent pid root := by
  induction path using Relation.ReflTransGen.head_induction_on with
  | refl => exact .refl
  | head first _ inductionHypothesis =>
      apply Relation.ReflTransGen.head
      · exact cleanupZombie_isParent.mpr ⟨different, first⟩
      · apply inductionHypothesis
        rintro rfl
        have alive := tree.parentAlive first
        rw [isZombie] at alive
        cases alive

/-- A zombie that is reaped leaves the tree and becomes the first free PCB. -/
theorem reap
    (tree : table.Tree children exited frees)
    (isZombie : table.pstate reaped = .zombie) :
    (table.cleanupZombie reaped).2.Tree
      (fun parent => (children parent).erase reaped)
      (fun parent => (exited parent).erase reaped) (reaped :: frees) := by
  have notFree : reaped ∉ frees := by
    intro member
    have isFree := tree.mem_free.mp member
    rw [isZombie] at isFree
    cases isFree
  constructor
  case childRing =>
    show (pcbLayout limits).Represents
      (table.children.rlistRemove (.node reaped)).links _ _
    rw [RlHeap.rlistRemove_links]
    exact tree.childRing.unlink trivial
  case exitedRing =>
    show (pcbLayout limits).Represents
      (table.exited.rlistRemove (.node reaped)).links _ _
    rw [RlHeap.rlistRemove_links]
    exact tree.exitedRing.unlink trivial
  case childKey =>
    intro pid
    show (table.children.rlistRemove (.node reaped) (.node pid)).obj = some pid
    rw [RlHeap.rlistRemove_obj]
    exact tree.childKey pid
  case exitedKey =>
    intro pid
    show (table.exited.rlistRemove (.node reaped) (.node pid)).obj = some pid
    rw [RlHeap.rlistRemove_obj]
    exact tree.exitedKey pid
  case mem_children =>
    intro child parent
    rw [cleanupZombie_isParent,
      (tree.childRing.nodup parent).mem_erase_iff, tree.mem_children]
  case mem_exited =>
    intro child parent
    rw [(tree.exitedRing.nodup parent).mem_erase_iff, tree.mem_exited,
      cleanupZombie_pstate, cleanupZombie_parent]
    by_cases same : child = reaped
    · subst same
      simp
    · simp [same]
  case free =>
    rw [cleanupZombie_parent]
    exact tree.free.push notFree
  case free_nodup => exact List.nodup_cons.mpr ⟨notFree, tree.free_nodup⟩
  case mem_free =>
    intro pid
    rw [cleanupZombie_pstate, List.mem_cons, tree.mem_free]
    by_cases same : pid = reaped
    · subst same
      simp
    · simp [same]
  case parentAlive =>
    intro child parent isParent
    have alive := tree.parentAlive (cleanupZombie_isParent.mp isParent).2
    rw [cleanupZombie_pstate, Function.update_of_ne]
    · exact alive
    · rintro rfl
      rw [isZombie] at alive
      cases alive
  case orphan =>
    intro pid
    rw [cleanupZombie_pstate, cleanupZombie_parent]
    by_cases same : pid = reaped
    · subst same
      simp
    · simpa [same] using tree.orphan
  case rooted =>
    intro pid inUse notSystem
    have different : pid ≠ reaped := by
      rintro rfl
      simp [cleanupZombie_pstate] at inUse
    rw [cleanupZombie_pstate, Function.update_of_ne different] at inUse
    obtain ⟨root, isRoot, path⟩ := tree.rooted inUse notSystem
    exact ⟨root, isRoot, tree.path_reaped isZombie path different⟩
  case count =>
    rw [cleanupZombie_pstate]
    have counted : countWhere (fun state : PidState => state ≠ .free)
        (Function.update table.pstate reaped .free) + 1 =
          countWhere (fun state : PidState => state ≠ .free) table.pstate :=
      countWhere_remove (by simp [isZombie]) (by simp)
    show table.processCount - 1 = _
    rw [tree.count]
    omega

/-- What `wait_for_any_child` does before its next `kernel_wait`: it gives up
when there is no child, waits when none has exited, and else reaps the first one
that has. -/
theorem pollAny
    (tree : table.Tree children exited frees)
    (parent : Fin limits.maxProc) :
    (children parent = [] ∧ table.pollAny parent = .ok .noChild) ∨
    (children parent ≠ [] ∧ exited parent = [] ∧
      table.pollAny parent = .ok .waits) ∨
    ∃ child rest, exited parent = child :: rest ∧
      table.pollAny parent = .ok (.reaped child (table.pcb child).exitval
        (table.cleanupZombie child).2) := by
  have noChildren : table.children.isRlistEmpty (.list parent) = true ↔
      children parent = [] := RlHeap.isRlistEmpty_iff tree.childRing parent
  have noneExited : table.exited.isRlistEmpty (.list parent) = true ↔
      exited parent = [] := RlHeap.isRlistEmpty_iff tree.exitedRing parent
  unfold ProcTable.pollAny
  by_cases empty : children parent = []
  · exact .inl ⟨empty, by rw [if_pos (noChildren.mpr empty)]⟩
  rw [if_neg (noChildren.not.mpr empty)]
  cases isExited : exited parent with
  | nil =>
      exact .inr (.inl ⟨empty, rfl, by rw [if_pos (noneExited.mpr isExited)]⟩)
  | cons child rest =>
      refine .inr (.inr ⟨child, rest, rfl, ?_⟩)
      have front : (table.exited (.list parent)).next = .node child :=
        tree.exitedRing.next_sentinel_cons isExited
      have isZombie : table.pstate child = .zombie := by
        have member : child ∈ exited parent := by
          rw [isExited]
          exact List.mem_cons_self ..
        exact (tree.mem_exited.mp member).1
      rw [if_neg (noneExited.not.mpr (by simp [isExited])), front,
        tree.exitedKey child]
      simp only
      rw [if_neg (by simpa [pstate] using isZombie)]
      rfl

end Tree
end ProcTable
end TinierOS
