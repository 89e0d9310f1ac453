import TinierOS.System.Effect

/-!
# Starting the system

`main` initialises the tables, creates the first process and starts the
scheduler.  Runs are proved correct by induction from the state it leaves.
-/

namespace TinierOS

variable {limits : Limits}

namespace Kernel

/-! ## The initialised tables -/

/-- A node that `rlnode_init` has just initialised. -/
def singleton {α κ : Type} (node : α) (key : κ) : Rlnode α κ :=
  { obj := key, prev := node, next := node }

/-- A PCB as `initialize_PCB` leaves it. -/
structure PcbReady
    (kernel : Kernel limits)
    (pid : Fin limits.maxProc) : Prop where
  pstate : kernel.pstate pid = .free
  FIDT : ∀ fid, kernel.FIDT pid fid = none
  threadCount : kernel.threadCount pid = 0
  childrenList : kernel.children (.list pid) = singleton (.list pid) none
  childrenNode : kernel.children (.node pid) = singleton (.node pid) (some pid)
  exitedList : kernel.exited (.list pid) = singleton (.list pid) none
  exitedNode : kernel.exited (.node pid) = singleton (.node pid) (some pid)
  ptcbList : kernel.ptcbLists (.list pid) = singleton (.list pid) none

theorem initializePCB_ready
    (kernel : Kernel limits)
    (pid : Fin limits.maxProc) :
    (kernel.initializePCB pid).PcbReady pid := by
  constructor <;>
    simp [initializePCB, modifyPcb, RlHeap.rlnodeInit, singleton, pstate,
      FIDT, threadCount]

theorem PcbReady.initializePCB
    {kernel : Kernel limits}
    {pid : Fin limits.maxProc}
    (ready : kernel.PcbReady pid)
    (other : Fin limits.maxProc) :
    (kernel.initializePCB other).PcbReady pid := by
  by_cases same : pid = other
  · subst same
    exact initializePCB_ready kernel pid
  · constructor
    · simpa [Kernel.initializePCB, modifyPcb, same, Kernel.pstate] using
        ready.pstate
    · simpa [Kernel.initializePCB, modifyPcb, same, Kernel.FIDT] using
        ready.FIDT
    · simpa [Kernel.initializePCB, modifyPcb, same,
        Kernel.threadCount] using ready.threadCount
    · simpa [Kernel.initializePCB, RlHeap.rlnodeInit, same] using
        ready.childrenList
    · simpa [Kernel.initializePCB, RlHeap.rlnodeInit, same] using
        ready.childrenNode
    · simpa [Kernel.initializePCB, RlHeap.rlnodeInit, same] using
        ready.exitedList
    · simpa [Kernel.initializePCB, RlHeap.rlnodeInit, same] using
        ready.exitedNode
    · simpa [Kernel.initializePCB, RlHeap.rlnodeInit, same] using
        ready.ptcbList

/-- The loop of `initialize_processes` reaches every PCB. -/
theorem initializePCB_foldl_ready
    {pids : List (Fin limits.maxProc)}
    {pid : Fin limits.maxProc}
    (kernel : Kernel limits)
    (ready : pid ∈ pids ∨ kernel.PcbReady pid) :
    (pids.foldl initializePCB kernel).PcbReady pid := by
  induction pids generalizing kernel with
  | nil => exact ready.resolve_left List.not_mem_nil
  | cons first rest inductionHypothesis =>
      rw [List.foldl_cons]
      refine inductionHypothesis _ ?_
      rcases ready with member | ready
      · rcases List.mem_cons.mp member with rfl | later
        · exact .inr (initializePCB_ready kernel pid)
        · exact .inl later
      · exact .inr (ready.initializePCB first)

/-- What `initialize_PCB` does not touch. -/
structure SameBoot (before after : Kernel limits) : Prop where
  sched : after.sched = before.sched
  parent : after.parent = before.parent
  ptcbUsed : after.ptcbUsed = before.ptcbUsed
  fcb : after.fcb = before.fcb
  freelist : after.freelist = before.freelist
  childrenNull : after.children .null = before.children .null
  exitedNull : after.exited .null = before.exited .null

theorem initializePCB_foldl_same
    (pids : List (Fin limits.maxProc))
    (kernel : Kernel limits) :
    SameBoot kernel (pids.foldl initializePCB kernel) := by
  induction pids generalizing kernel with
  | nil => exact ⟨rfl, rfl, rfl, rfl, rfl, rfl, rfl⟩
  | cons first rest inductionHypothesis =>
      have later := inductionHypothesis (kernel.initializePCB first)
      have pcb : (kernel.initializePCB first).pcb =
          Function.update kernel.pcb first { kernel.pcb first with
            pstate := .free, argl := 0, args := .null, FIDT := fun _ => none
            threadCount := 0 } := rfl
      have sameParent : (kernel.initializePCB first).parent = kernel.parent :=
        same_column_of_pcb PCB.parent pcb rfl
      refine ⟨later.sched, later.parent.trans sameParent, later.ptcbUsed,
        later.fcb, later.freelist, later.childrenNull.trans ?_,
        later.exitedNull.trans ?_⟩
      · simp [initializePCB, RlHeap.rlnodeInit]
      · simp [initializePCB, RlHeap.rlnodeInit]

/-- The kernel before the first process is created. -/
def initial (limits : Limits) : Kernel limits :=
  ({ Kernel.zero limits with
      sched := (Sched.zero limits).initializeScheduler } :
    Kernel limits).initializeProcesses.initializeFiles

/-- The process table, threads and PTCBs of that kernel. -/
structure Fresh (kernel : Kernel limits) : Prop where
  resting : kernel.Resting
  notStarted : kernel.sched.currentThread = none
  unused : ∀ slot, kernel.threadUsed slot = false
  pstate : ∀ pid, kernel.pstate pid = if pid.val = 0 then .alive else .free
  parent : ∀ pid, kernel.parent pid = none
  FIDT : ∀ pid fid, kernel.FIDT pid fid = none
  threadCount : ∀ pid, kernel.threadCount pid = 0
  childrenList : ∀ pid,
    kernel.children (.list pid) = singleton (.list pid) none
  childrenNode : ∀ pid,
    kernel.children (.node pid) = singleton (.node pid) (some pid)
  exitedList : ∀ pid, kernel.exited (.list pid) = singleton (.list pid) none
  exitedNode : ∀ pid,
    kernel.exited (.node pid) = singleton (.node pid) (some pid)
  childrenNull : kernel.children .null = singleton .null none
  exitedNull : kernel.exited .null = singleton .null none
  ptcbList : ∀ pid,
    kernel.ptcbLists (.list pid) = singleton (.list pid) none
  ptcbUsed : ∀ ptcb, kernel.ptcbUsed ptcb = false

/-- `initialize_processes` -/
theorem initializeProcesses_fresh
    {kernel : Kernel limits}
    (resting : kernel.Resting)
    (notStarted : kernel.sched.currentThread = none)
    (unused : ∀ slot, kernel.threadUsed slot = false)
    (parent : ∀ pid, kernel.parent pid = none)
    (childrenNull : kernel.children .null = singleton .null none)
    (exitedNull : kernel.exited .null = singleton .null none)
    (ptcbUsed : ∀ ptcb, kernel.ptcbUsed ptcb = false) :
    kernel.initializeProcesses.Fresh := by
  have ready : ∀ pid, ((List.finRange limits.maxProc).foldl initializePCB
      kernel).PcbReady pid := fun pid =>
    initializePCB_foldl_ready kernel (.inl (List.mem_finRange pid))
  have same := initializePCB_foldl_same (List.finRange limits.maxProc) kernel
  unfold initializeProcesses
  generalize (List.finRange limits.maxProc).foldl initializePCB kernel = cleared
    at ready same ⊢
  simp only
  split_ifs with exists0
  · have pcb : (cleared.modifyPcb ⟨0, exists0⟩ fun block =>
        { block with pstate := .alive, parent := none }).pcb =
      Function.update cleared.pcb ⟨0, exists0⟩
        { cleared.pcb ⟨0, exists0⟩ with
          pstate := .alive, parent := none } := rfl
    have columnFIDT := same_column_of_pcb PCB.FIDT pcb rfl
    have columnCount := same_column_of_pcb PCB.threadCount pcb rfl
    have columnState := column_of_pcb PCB.pstate pcb
    have columnParent := column_of_pcb PCB.parent pcb
    refine
      { resting := by
          rw [Resting] at resting ⊢
          exact same.sched ▸ resting
        notStarted := same.sched ▸ notStarted
        unused := fun slot => (congrFun (congrArg Sched.threadUsed
          same.sched) slot).trans (unused slot)
        pstate := ?_
        parent := ?_
        FIDT := fun pid fid =>
          (congrFun (congrFun columnFIDT pid) fid).trans ((ready pid).FIDT fid)
        threadCount := fun pid =>
          (congrFun columnCount pid).trans (ready pid).threadCount
        childrenList := fun pid => (ready pid).childrenList
        childrenNode := fun pid => (ready pid).childrenNode
        exitedList := fun pid => (ready pid).exitedList
        exitedNode := fun pid => (ready pid).exitedNode
        childrenNull := same.childrenNull.trans childrenNull
        exitedNull := same.exitedNull.trans exitedNull
        ptcbList := fun pid => (ready pid).ptcbList
        ptcbUsed := fun ptcb =>
          (congrFun same.ptcbUsed ptcb).trans (ptcbUsed ptcb) }
    · intro pid
      refine (congrFun columnState pid).trans ?_
      by_cases isZero : pid.val = 0
      · obtain rfl : pid = ⟨0, exists0⟩ := Fin.ext isZero
        simp
      · have different : pid ≠ ⟨0, exists0⟩ := by
          rintro rfl
          exact isZero rfl
        rw [Function.update_of_ne different, if_neg isZero]
        exact (ready pid).pstate
    · intro pid
      refine (congrFun columnParent pid).trans ?_
      by_cases isZero : pid = ⟨0, exists0⟩
      · rw [isZero, Function.update_self]
      · rw [Function.update_of_ne isZero]
        exact (congrFun same.parent pid).trans (parent pid)
  · exact
      { resting := by
          rw [Resting] at resting ⊢
          exact same.sched ▸ resting
        notStarted := same.sched ▸ notStarted
        unused := fun slot => (congrFun (congrArg Sched.threadUsed
          same.sched) slot).trans (unused slot)
        pstate := fun pid => absurd (Nat.zero_lt_of_lt pid.isLt) exists0
        parent := fun pid => (congrFun same.parent pid).trans (parent pid)
        FIDT := fun pid => (ready pid).FIDT
        threadCount := fun pid => (ready pid).threadCount
        childrenList := fun pid => (ready pid).childrenList
        childrenNode := fun pid => (ready pid).childrenNode
        exitedList := fun pid => (ready pid).exitedList
        exitedNode := fun pid => (ready pid).exitedNode
        childrenNull := same.childrenNull.trans childrenNull
        exitedNull := same.exitedNull.trans exitedNull
        ptcbList := fun pid => (ready pid).ptcbList
        ptcbUsed := fun ptcb =>
          (congrFun same.ptcbUsed ptcb).trans (ptcbUsed ptcb) }

/-- `initialize_files` touches only the file table and its free list. -/
theorem initializeFiles_only
    (kernel : Kernel limits) :
    OnlyFiles kernel kernel.initializeFiles ∧
      kernel.initializeFiles.FIDT = kernel.FIDT := by
  unfold initializeFiles
  generalize List.finRange limits.maxFiles = files
  have start : OnlyFiles kernel { kernel with
      freelist := kernel.freelist.rlnodeInit .freelist none } ∧
      ({ kernel with freelist :=
        kernel.freelist.rlnodeInit .freelist none } :
          Kernel limits).FIDT = kernel.FIDT :=
    ⟨⟨rfl, ⟨rfl, rfl, rfl, rfl, rfl⟩, rfl, ⟨rfl, rfl⟩⟩, rfl⟩
  generalize ({ kernel with freelist :=
    kernel.freelist.rlnodeInit .freelist none } : Kernel limits) = first
    at start ⊢
  induction files generalizing first with
  | nil => exact start
  | cons fcb rest inductionHypothesis =>
      rw [List.foldl_cons]
      refine inductionHypothesis _ ⟨start.1.trans ?_, start.2⟩
      exact ⟨rfl, ⟨rfl, rfl, rfl, rfl, rfl⟩, rfl, ⟨rfl, rfl⟩⟩

theorem Fresh.of_onlyFiles
    {before after : Kernel limits}
    (fresh : before.Fresh)
    (only : OnlyFiles before after)
    (sameFIDT : after.FIDT = before.FIDT) :
    after.Fresh where
  resting := by
    rw [Resting, only.sched]
    exact fresh.resting
  notStarted := only.sched ▸ fresh.notStarted
  unused := fun slot =>
    (congrFun only.sameThreads.used slot).trans (fresh.unused slot)
  pstate := fun pid =>
    (congrFun only.procs.pstate pid).trans (fresh.pstate pid)
  parent := fun pid =>
    (congrFun only.procs.parent pid).trans (fresh.parent pid)
  FIDT := fun pid fid =>
    (congrFun (congrFun sameFIDT pid) fid).trans (fresh.FIDT pid fid)
  threadCount := fun pid =>
    (congrFun only.threadCount pid).trans (fresh.threadCount pid)
  childrenList := fun pid => only.procs.children ▸ fresh.childrenList pid
  childrenNode := fun pid => only.procs.children ▸ fresh.childrenNode pid
  exitedList := fun pid => only.procs.exited ▸ fresh.exitedList pid
  exitedNode := fun pid => only.procs.exited ▸ fresh.exitedNode pid
  childrenNull := only.procs.children ▸ fresh.childrenNull
  exitedNull := only.procs.exited ▸ fresh.exitedNull
  ptcbList := fun pid => only.ptcbs.ptcbLists ▸ fresh.ptcbList pid
  ptcbUsed := fun ptcb =>
    (congrFun only.ptcbs.ptcbUsed ptcb).trans (fresh.ptcbUsed ptcb)

theorem initial_fresh : (initial limits).Fresh := by
  have processes : ({ Kernel.zero limits with
      sched := (Sched.zero limits).initializeScheduler } :
        Kernel limits).initializeProcesses.Fresh :=
    initializeProcesses_fresh ⟨_, Sched.resting_initializeScheduler⟩ rfl
      (fun _ => rfl) (fun _ => rfl) rfl rfl (fun _ => rfl)
  obtain ⟨only, sameFIDT⟩ := initializeFiles_only
    ({ Kernel.zero limits with
        sched := (Sched.zero limits).initializeScheduler } :
      Kernel limits).initializeProcesses
  exact processes.of_onlyFiles only sameFIDT

/-- Before the scheduler runs no process is current. -/
theorem Fresh.execParent
    {kernel : Kernel limits}
    (fresh : kernel.Fresh)
    (newproc : Fin limits.maxProc) :
    kernel.execParent newproc = none := by
  simp [Kernel.execParent, currentProc, fresh.notStarted]

end Kernel

namespace System

open Kernel

/-- The state in which the scheduler starts: the initial kernel, with the first
process created if there is room for it. -/
structure Booted (start : System limits) : Prop where
  sound : start.Sound
  tables : ∃ pid kernel, ExecEffect (initial limits) (some testProcess) pid
      kernel ∧
    SameProcs kernel start.kernel ∧ SameFiles kernel start.kernel ∧
    SameThreads kernel start.kernel ∧ SamePtcbs kernel start.kernel
  control : ∀ slot, start.control slot = .fresh
  reply : start.reply = .none

/-- Owners after the first `Exec`. -/
theorem owned_of_execEffect
    {kernel : Kernel limits}
    {call : Option Task}
    {pid : Option (Fin limits.maxProc)}
    (effect : ExecEffect (initial limits) call pid kernel)
    (slot : Fin limits.maxThreads)
    (usedSlot : kernel.threadUsed slot = true) :
    ∃ proc, kernel.owner slot = some proc := by
  have unused := (initial_fresh : (initial limits).Fresh).unused
  cases effect with
  | full noPcb => simp [unused] at usedSlot
  | threadless newproc noCall proc files threads ptcbs sched =>
      rw [threads.used] at usedSlot
      simp [unused] at usedSlot
  | failed newproc isCall noSlot proc files threads ptcbs sched =>
      rw [threads.used] at usedSlot
      simp [unused] at usedSlot
  | started newproc new isCall proc files thread ptcbs current =>
      by_cases same : slot = new
      · exact ⟨newproc, by rw [thread.owner, same, Function.update_self]⟩
      · rw [thread.used, Function.update_of_ne same] at usedSlot
        simp [unused] at usedSlot

/-- Starting the system succeeds. -/
theorem boot_spec : ∃ start, boot limits = .ok start ∧ start.Booted := by
  have fresh : (initial limits).Fresh := initial_fresh
  obtain ⟨pid, kernel, executed, ⟨lists, inv⟩, effect⟩ := sysExec_effect
    fresh.resting (some testProcess) 0 .null fun _ => 0
  have notStarted : kernel.sched.currentThread = none :=
    effect.current.trans fresh.notStarted
  have running := inv.runScheduler notStarted (kernel.getPcb 0)
  have threads : SameThreads kernel { kernel with
      sched := kernel.sched.runScheduler (kernel.getPcb 0) } := by
    refine ⟨rfl, ?_, rfl⟩
    funext slot
    simp only [owner, Sched.runScheduler_tcb_slot]
  have booted : boot limits = .ok
      { kernel := { kernel with
          sched := kernel.sched.runScheduler (kernel.getPcb 0) }
        control := fun _ => .fresh
        reply := .none } := by
    have initialized : Kernel.initialize limits = .ok kernel := by
      unfold Kernel.initialize
      simp only [initial] at executed
      simp only [Kernel.zero] at executed ⊢
      simp only [executed, bind, Except.bind, pure, Except.pure]
    simp only [boot, initialized, bind, Except.bind, pure, Except.pure]
  refine ⟨_, booted, ⟨⟨lists, running⟩, by simp [Sched.runScheduler], ?_⟩,
    ⟨pid, kernel, effect, ⟨rfl, rfl, rfl, rfl, rfl⟩, ⟨rfl, rfl, rfl⟩,
      threads, ⟨rfl, rfl⟩⟩, fun _ => rfl, rfl⟩
  intro slot usedSlot
  rw [threads.used] at usedSlot
  rw [threads.owner]
  exact owned_of_execEffect effect slot usedSlot

theorem booted_of_boot
    {start : System limits}
    (isBoot : boot limits = .ok start) :
    start.Booted := by
  obtain ⟨start', isBoot', begins⟩ :
    ∃ start, boot limits = .ok start ∧ start.Booted := boot_spec
  rw [isBoot] at isBoot'
  cases isBoot'
  exact begins

/-- What holds when the scheduler starts and is kept by every allowed step
holds in every reached state. -/
theorem Reached.invariant
    {allowed : System limits → Action limits → Prop}
    {motive : System limits → Prop}
    {system : System limits}
    (reached : Reached allowed system)
    (booted : ∀ {start}, Booted start → motive start)
    (preserved : ∀ {before action after}, before.Sound → motive before →
      before.Enabled action → allowed before action →
        Effect before action after → motive after) :
    system.Sound ∧ motive system := by
  obtain ⟨start, isBoot, reachable⟩ := reached
  have begins := booted_of_boot isBoot
  refine reachable.invariant
    (motive := fun system => system.Sound ∧ motive system)
    ⟨begins.sound, booted begins⟩ ?_
  rintro before after action ⟨sound, holds⟩ ⟨enabled, isAllowed⟩ stepped
  obtain ⟨soundAfter, effect⟩ := sound.step enabled stepped
  exact ⟨soundAfter, preserved sound holds enabled isAllowed effect⟩

theorem Reached.sound
    {allowed : System limits → Action limits → Prop}
    {system : System limits}
    (reached : Reached allowed system) :
    system.Sound :=
  (reached.invariant (motive := fun _ => True) (fun _ => trivial)
    fun _ _ _ _ _ => trivial).1

end System
end TinierOS
