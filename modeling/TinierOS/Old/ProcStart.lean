import TinierOS.Old.ProcTree

/-!
# Starting the old process table

`initialize_processes` leaves a tree without processes whose free list holds the
PCBs in order.
-/

namespace TinierOS

variable {limits : Limits}

namespace ProcTable

/-- The rings of a PCB are empty and its nodes are in none. -/
structure RingsReady
    (table : ProcTable limits)
    (pid : Fin limits.maxProc) : Prop where
  childrenList : table.children.links.Follows (.list pid) (.list pid)
  childrenNode : table.children.links.Follows (.node pid) (.node pid)
  childKey : (table.children (.node pid)).obj = some pid
  exitedList : table.exited.links.Follows (.list pid) (.list pid)
  exitedNode : table.exited.links.Follows (.node pid) (.node pid)
  exitedKey : (table.exited (.node pid)).obj = some pid

theorem initializePCB_ready
    (table : ProcTable limits)
    (pid : Fin limits.maxProc) :
    (table.initializePCB pid).RingsReady pid := by
  constructor <;>
    simp [initializePCB, RlHeap.rlnodeInit, Links.Follows]

theorem RingsReady.initializePCB
    {table : ProcTable limits}
    {pid : Fin limits.maxProc}
    (ready : table.RingsReady pid)
    (other : Fin limits.maxProc) :
    (table.initializePCB other).RingsReady pid := by
  by_cases same : pid = other
  · subst same
    exact initializePCB_ready table pid
  · constructor
    · simpa [ProcTable.initializePCB, RlHeap.rlnodeInit, same, Links.Follows]
        using ready.childrenList
    · simpa [ProcTable.initializePCB, RlHeap.rlnodeInit, same, Links.Follows]
        using ready.childrenNode
    · simpa [ProcTable.initializePCB, RlHeap.rlnodeInit, same] using
        ready.childKey
    · simpa [ProcTable.initializePCB, RlHeap.rlnodeInit, same, Links.Follows]
        using ready.exitedList
    · simpa [ProcTable.initializePCB, RlHeap.rlnodeInit, same, Links.Follows]
        using ready.exitedNode
    · simpa [ProcTable.initializePCB, RlHeap.rlnodeInit, same] using
        ready.exitedKey

/-- The first loop of `initialize_processes` reaches every PCB. -/
theorem initializePCB_foldl_ready
    {pids : List (Fin limits.maxProc)}
    {pid : Fin limits.maxProc}
    (table : ProcTable limits)
    (ready : pid ∈ pids ∨ table.RingsReady pid) :
    (pids.foldl initializePCB table).RingsReady pid := by
  induction pids generalizing table with
  | nil => exact ready.resolve_left List.not_mem_nil
  | cons first rest inductionHypothesis =>
      apply inductionHypothesis
      rcases ready with member | ready
      · rcases List.mem_cons.mp member with rfl | later
        · exact .inr (initializePCB_ready table pid)
        · exact .inl later
      · exact .inr (ready.initializePCB first)

/-- `initialize_PCB` stores what static storage holds. -/
theorem initializePCB_foldl_pcb
    (pids : List (Fin limits.maxProc))
    {table : ProcTable limits}
    (cleared : table.pcb = (zero limits).pcb) :
    (pids.foldl initializePCB table).pcb = (zero limits).pcb := by
  induction pids generalizing table with
  | nil => exact cleared
  | cons first rest inductionHypothesis =>
      apply inductionHypothesis
      show Function.update table.pcb first _ = _
      rw [cleared]
      exact Function.update_eq_self first _

/-- What the second loop leaves: the free list, and the rest as it was. -/
structure Stacked
    (before after : ProcTable limits)
    (pids : List (Fin limits.maxProc)) : Prop where
  free : Linked after.parent after.freelist pids
  pcb : ∀ pid, after.pcb pid =
    { before.pcb pid with parent := after.parent pid }
  children : after.children = before.children
  exited : after.exited = before.exited

/-- The second loop of `initialize_processes`. -/
theorem pushFree_foldr_stacked
    {pids : List (Fin limits.maxProc)}
    {table : ProcTable limits}
    (nodup : pids.Nodup)
    (empty : table.freelist = none) :
    Stacked table (pids.foldr (fun pid table => pushFree table pid) table)
      pids := by
  induction pids with
  | nil => exact ⟨empty, fun pid => rfl, rfl, rfl⟩
  | cons first rest inductionHypothesis =>
      obtain ⟨unlisted, restNodup⟩ := List.nodup_cons.mp nodup
      have below := inductionHypothesis restNodup
      rw [List.foldr_cons]
      generalize rest.foldr (fun pid table => pushFree table pid) table =
        stacked at below ⊢
      have parent : (stacked.pushFree first).parent =
          Function.update stacked.parent first stacked.freelist := by
        funext pid
        by_cases same : pid = first
        · subst same
          simp [ProcTable.parent, pushFree, modifyPcb]
        · simp [ProcTable.parent, pushFree, modifyPcb, same]
      constructor
      case free =>
        rw [parent]
        exact below.free.push unlisted
      case pcb =>
        intro pid
        rw [parent]
        by_cases same : pid = first
        · subst same
          simp [pushFree, modifyPcb, below.pcb pid]
        · simp [pushFree, modifyPcb, same, below.pcb pid]
      case children => exact below.children
      case exited => exact below.exited

/-- The table before the first process is created. -/
structure Fresh (table : ProcTable limits) : Prop where
  tree : table.Tree (fun _ => []) (fun _ => []) (List.finRange limits.maxProc)
  unused : ∀ pid, table.pstate pid = .free
  count : ∀ pid, (table.pcb pid).threadCount = 0
  exitval : ∀ pid, (table.pcb pid).exitval = 0

theorem initializeProcesses_fresh :
    ((zero limits).initializeProcesses).Fresh := by
  have ready : ∀ pid, ((List.finRange limits.maxProc).foldl initializePCB
      (zero limits)).RingsReady pid := fun pid =>
    initializePCB_foldl_ready _ (.inl (List.mem_finRange pid))
  have cleared : ((List.finRange limits.maxProc).foldl initializePCB
      (zero limits)).pcb = (zero limits).pcb :=
    initializePCB_foldl_pcb _ rfl
  unfold initializeProcesses
  simp only [List.foldl_reverse]
  generalize (List.finRange limits.maxProc).foldl initializePCB (zero limits) =
    emptied at ready cleared ⊢
  have stacked : Stacked { emptied with freelist := none } _ _ :=
    pushFree_foldr_stacked (List.nodup_finRange limits.maxProc) rfl
  generalize (List.finRange limits.maxProc).foldr
    (fun pid table => pushFree table pid) { emptied with freelist := none } =
      table at stacked ⊢
  have unused : ∀ pid, table.pstate pid = .free := by
    intro pid
    rw [pstate, stacked.pcb]
    show (emptied.pcb pid).pstate = .free
    rw [cleared]
    rfl
  refine ⟨?_, unused, ?_, ?_⟩
  · have noneUsed : ∀ {pid}, ¬table.pstate pid ≠ .free :=
      fun {pid} inUse => inUse (unused pid)
    constructor
    case childRing =>
      show (pcbLayout limits).Represents table.children.links _ _
      rw [stacked.children]
      exact .of_singletons (fun pid => (ready pid).childrenList)
        fun pid _ => (ready pid).childrenNode
    case exitedRing =>
      show (pcbLayout limits).Represents table.exited.links _ _
      rw [stacked.exited]
      exact .of_singletons (fun pid => (ready pid).exitedList)
        fun pid _ => (ready pid).exitedNode
    case childKey =>
      intro pid
      show (table.children (.node pid)).obj = some pid
      rw [stacked.children]
      exact (ready pid).childKey
    case exitedKey =>
      intro pid
      show (table.exited (.node pid)).obj = some pid
      rw [stacked.exited]
      exact (ready pid).exitedKey
    case mem_children =>
      intro child parent
      exact iff_of_false List.not_mem_nil fun isParent => noneUsed isParent.1
    case mem_exited =>
      intro child parent
      refine iff_of_false List.not_mem_nil fun isZombie => ?_
      exact noneUsed (show table.pstate child ≠ .free from
        (show table.pstate child = .zombie from isZombie.1) ▸ by decide)
    case free => exact stacked.free
    case free_nodup => exact List.nodup_finRange limits.maxProc
    case mem_free =>
      intro pid
      exact iff_of_true (List.mem_finRange pid) (unused pid)
    case parentAlive =>
      intro child parent isParent
      exact absurd isParent.1 noneUsed
    case orphan =>
      intro pid inUse
      exact absurd inUse noneUsed
    case rooted =>
      intro pid inUse
      exact absurd inUse noneUsed
    case count =>
      have none : countWhere (fun state : PidState => state ≠ .free)
          table.pstate = 0 := by
        rw [countWhere_eq_zero_iff]
        intro pid
        simp [unused pid]
      show (0 : Int) = countWhere (fun state : PidState => state ≠ .free)
        table.pstate
      rw [none]
      rfl
  · intro pid
    show (table.pcb pid).threadCount = 0
    rw [stacked.pcb]
    show (emptied.pcb pid).threadCount = 0
    rw [cleared]
    rfl
  · intro pid
    show (table.pcb pid).exitval = 0
    rw [stacked.pcb]
    show (emptied.pcb pid).exitval = 0
    rw [cleared]
    rfl

end ProcTable
end TinierOS
