import TinierOS.Proc.Tasks

/-!
# What a system call changes

Each system call is described by what it does to the process table, to the
descriptor tables, to the threads and to the PTCBs.  Invariants are proved from
these descriptions, never from the bodies of the calls.
-/

namespace TinierOS

variable {limits : Limits}

namespace Kernel

/-! ## `sys_Exec` -/

/-- The outcomes of `sys_Exec`. -/
inductive ExecEffect
    (before : Kernel limits)
    (call : Option Task) :
    Option (Fin limits.maxProc) → Kernel limits → Prop
  /-- No PCB is free. -/
  | full
      (noPcb : before.freePcb = none) :
      ExecEffect before call none before
  /-- A process without a thread. -/
  | threadless
      {after : Kernel limits}
      (newproc : Fin limits.maxProc)
      (noCall : call = none)
      (proc : ProcCreated before after newproc .alive)
      (files : FilesInherited before after newproc)
      (threads : SameThreads before after)
      (ptcbs : SamePtcbs before after)
      (sched : after.sched = before.sched) :
      ExecEffect before call (some newproc) after
  /-- No thread is free: the PCB is released again. -/
  | failed
      {after : Kernel limits}
      (newproc : Fin limits.maxProc)
      (isCall : call ≠ none)
      (noSlot : before.sched.freeSlot = none)
      (proc : ProcCreated before after newproc .free)
      (files : FilesInherited before after newproc)
      (threads : SameThreads before after)
      (ptcbs : SamePtcbs before after)
      (sched : after.sched = before.sched) :
      ExecEffect before call none after
  /-- The main thread is ready. -/
  | started
      {after : Kernel limits}
      (newproc : Fin limits.maxProc)
      (slot : Fin limits.maxThreads)
      (isCall : call ≠ none)
      (proc : ProcCreated before after newproc .alive)
      (files : FilesInherited before after newproc)
      (thread : NewThread before after slot newproc)
      (ptcbs : PtcbsGrown before after newproc)
      (current : after.sched.currentThread = before.sched.currentThread) :
      ExecEffect before call (some newproc) after

/-- `sys_Exec` does not yield. -/
theorem ExecEffect.current
    {before after : Kernel limits}
    {call : Option Task}
    {pid : Option (Fin limits.maxProc)}
    (effect : ExecEffect before call pid after) :
    after.sched.currentThread = before.sched.currentThread := by
  cases effect with
  | full noPcb => rfl
  | threadless newproc noCall proc files threads ptcbs sched => rw [sched]
  | failed newproc isCall noSlot proc files threads ptcbs sched => rw [sched]
  | started newproc slot isCall proc files thread ptcbs current => exact current

/-- The tables after `sys_Exec` has linked a new process: what follows changes
only the state of the process and fields no table keeps. -/
theorem procCreated_of_pcb
    {before after : Kernel limits}
    {newproc : Fin limits.maxProc}
    {state : PidState}
    {block : PCB limits}
    (free : before.freePcb = some newproc)
    (pcb : after.pcb = Function.update before.pcb newproc block)
    (pstate : block.pstate = state)
    (parent : block.parent = before.execParent newproc)
    (exitval : block.exitval = (before.pcb newproc).exitval)
    (children : after.children = before.linkedChildren newproc)
    (exited : after.exited = before.exited) :
    ProcCreated before after newproc state where
  free := free
  others := by
    intro pid different
    simp [pcb, different]
  pstate := pstate ▸ column_of_pcb PCB.pstate pcb
  parent := parent ▸ column_of_pcb PCB.parent pcb
  exitval := same_column_of_pcb PCB.exitval pcb exitval
  children := children
  exited := exited

theorem filesInherited_of_pcb
    {before after : Kernel limits}
    {newproc : Fin limits.maxProc}
    {block : PCB limits}
    (pcb : after.pcb = Function.update before.pcb newproc block)
    (inherited : block.FIDT = before.inheritedFIDT newproc)
    (fcb : after.fcb = before.fcb)
    (freelist : after.freelist = before.freelist) :
    FilesInherited before after newproc where
  FIDT := inherited ▸ column_of_pcb PCB.FIDT pcb
  fcb := fcb
  freelist := freelist

theorem sameThreads_of_sched
    {before after : Kernel limits}
    (sched : after.sched = before.sched)
    (threadCount : after.threadCount = before.threadCount) :
    SameThreads before after where
  used := congrArg Sched.threadUsed sched
  owner := by
    funext slot
    simp only [owner, sched]
  threadCount := threadCount

/-- After its first part `sys_Exec` writes only the new PCB and threads. -/
theorem tables_of_prepared
    {kernel after : Kernel limits}
    {newproc : Fin limits.maxProc}
    {call : Option Task}
    {argl : Int}
    {args : ArgPtr limits}
    {memory : Nat → UInt8}
    {state : PidState}
    {block : PCB limits}
    (free : kernel.freePcb = some newproc)
    (pcb : after.pcb = Function.update kernel.pcb newproc block)
    (pstate : block.pstate = state)
    (parent : block.parent = kernel.execParent newproc)
    (exitval : block.exitval = (kernel.pcb newproc).exitval)
    (inherited : block.FIDT = kernel.inheritedFIDT newproc)
    (children : after.children =
      (kernel.prepared newproc call argl args memory).children)
    (exited : after.exited =
      (kernel.prepared newproc call argl args memory).exited)
    (fcb : after.fcb = (kernel.prepared newproc call argl args memory).fcb)
    (freelist : after.freelist =
      (kernel.prepared newproc call argl args memory).freelist) :
    ProcCreated kernel after newproc state ∧
      FilesInherited kernel after newproc := by
  have rest := kernel.prepared_rest newproc call argl args memory
  exact ⟨procCreated_of_pcb free pcb pstate parent exitval
      (children.trans (kernel.prepared_children newproc call argl args memory))
      (exited.trans rest.1),
    filesInherited_of_pcb pcb inherited (fcb.trans rest.2.1)
      (freelist.trans rest.2.2.1)⟩

theorem ExecOutcome.effect
    {kernel after : Kernel limits}
    {call : Option Task}
    {argl : Int}
    {args : ArgPtr limits}
    {memory : Nat → UInt8}
    {pid : Option (Fin limits.maxProc)}
    (outcome : ExecOutcome kernel call argl args memory pid after)
    (resting : kernel.Resting) :
    after.Resting ∧ ExecEffect kernel call pid after := by
  have prepared : ∀ newproc,
      (kernel.prepared newproc call argl args memory).Resting ∧
      SamePtcbs kernel (kernel.prepared newproc call argl args memory) := by
    intro newproc
    obtain ⟨-, -, -, ptcbUsed, ptcbLists, -⟩ :=
      kernel.prepared_rest newproc call argl args memory
    refine ⟨?_, ptcbUsed, ptcbLists⟩
    rw [Resting, prepared_sched]
    exact resting
  cases outcome with
  | full noPcb => exact ⟨resting, .full noPcb⟩
  | threadless newproc free noCall =>
      have pcb := kernel.prepared_pcb newproc call argl args memory
      have sched := kernel.prepared_sched newproc call argl args memory
      obtain ⟨proc, files⟩ := tables_of_prepared free pcb rfl rfl rfl rfl
        rfl rfl rfl rfl
      obtain ⟨preparedResting, ptcbs⟩ := prepared newproc
      exact ⟨preparedResting, .threadless newproc noCall proc files
        (sameThreads_of_sched sched
          (same_column_of_pcb PCB.threadCount pcb rfl)) ptcbs sched⟩
  | failed newproc free isCall noSlot =>
      have pcb := modifyPcb_of_pcb (modifyPcb_of_pcb
        (kernel.prepared_pcb newproc call argl args memory)
        fun block => { block with mainThread := none })
        fun block => { block with pstate := .free }
      have sched := kernel.prepared_sched newproc call argl args memory
      obtain ⟨proc, files⟩ := tables_of_prepared free pcb rfl rfl rfl rfl
        rfl rfl rfl rfl
      obtain ⟨preparedResting, ptcbs⟩ := prepared newproc
      exact ⟨preparedResting, .failed newproc isCall noSlot proc files
        (sameThreads_of_sched sched
          (same_column_of_pcb PCB.threadCount pcb rfl))
        ⟨ptcbs.ptcbUsed, ptcbs.ptcbLists⟩ sched⟩
  | started newproc slot free isCall started frame =>
      have marked := modifyPcb_of_pcb
        (kernel.prepared_pcb newproc call argl args memory)
        fun block => { block with mainThread := some slot }
      have sched := kernel.prepared_sched newproc call argl args memory
      have pcb := started.pcb
      rw [marked, Function.update_idem, Function.update_self] at pcb
      obtain ⟨proc, files⟩ := tables_of_prepared free pcb rfl rfl rfl rfl
        started.children started.exited started.fcb started.freelist
      have ptcbs := (prepared newproc).2
      refine ⟨started.resting, .started newproc slot isCall proc files
        (started.thread.of_same (sameThreads_of_sched sched
          (same_column_of_pcb PCB.threadCount marked rfl)) sched)
        (started.ptcbs.of_same ⟨ptcbs.ptcbUsed, ptcbs.ptcbLists⟩) ?_⟩
      rw [started.current, ← sched]
      rfl

/-- `sys_Exec` returns, with one of the effects above. -/
theorem sysExec_effect
    {kernel : Kernel limits}
    (resting : kernel.Resting)
    (call : Option Task)
    (argl : Int)
    (args : ArgPtr limits)
    (memory : Nat → UInt8) :
    ∃ pid after, kernel.sysExec call argl args memory = .ok (pid, after) ∧
      after.Resting ∧ ExecEffect kernel call pid after := by
  obtain ⟨pid, after, executed, outcome⟩ :=
    sysExec_returns resting call argl args memory
  exact ⟨pid, after, executed, outcome.effect resting⟩

/-! ## The other calls -/

theorem currentProc_of_slot
    {kernel : Kernel limits}
    {slot : Fin limits.maxThreads}
    (isCurrent : kernel.sched.currentThread = some (.slot slot)) :
    kernel.currentProc = kernel.owner slot := by
  simp [currentProc, isCurrent, owner]

/-- `sys_ThreadExit` marks the thread and gives up the core. -/
theorem sysThreadExit_eq
    {kernel : Kernel limits}
    {slot : Fin limits.maxThreads}
    {proc : Fin limits.maxProc}
    (resting : kernel.Resting)
    (isCurrent : kernel.sched.currentThread = some (.slot slot))
    (owned : kernel.owner slot = some proc)
    (exitval : Int)
    (remaining curtime : TimerDuration) :
    ∃ next sched,
      kernel.sysThreadExit exitval remaining curtime = .ok
        { kernel.markThreadExit (.slot slot) proc exitval with
          sched := sched } ∧
      (∃ lists, sched.Resting lists) ∧ sched.currentThread = some next ∧
      Sched.SameOwners kernel.sched sched ∧
      sched.threadUsed =
        Function.update kernel.sched.threadUsed slot false := by
  obtain ⟨lists, inv⟩ := resting
  have owns : (kernel.sched.tcb (.slot slot)).ownerPcb = some proc := owned
  have noDeadline : ThreadState.exited = .stopped → noTimeout ≠ noTimeout →
      (0 : TimerDuration) + noTimeout ≠ noTimeout := nofun
  obtain ⟨next, sched, lists', slept, nextCurrent, restingAfter, owners,
    used, -⟩ := inv.sleepReleasing isCurrent (.inr rfl) noDeadline .user
      remaining curtime
  refine ⟨next, sched, ?_, ⟨lists', restingAfter⟩, nextCurrent, owners, used⟩
  simp only [sysThreadExit, isCurrent, owns]
  have slept' : (kernel.markThreadExit (.slot slot) proc
      exitval).sched.sleepReleasing .exited .user noTimeout 0 remaining
        curtime = .ok sched := slept
  rw [slept']
  rfl

/-- `sys_ThreadExit` by a thread of the pool. -/
theorem sysThreadExit_effect
    {kernel : Kernel limits}
    {slot : Fin limits.maxThreads}
    {proc : Fin limits.maxProc}
    (resting : kernel.Resting)
    (isCurrent : kernel.sched.currentThread = some (.slot slot))
    (owned : kernel.owner slot = some proc)
    (exitval : Int)
    (remaining curtime : TimerDuration) :
    ∃ after, kernel.sysThreadExit exitval remaining curtime = .ok after ∧
      after.Resting ∧ after.sched.currentThread ≠ none ∧
      SameProcs kernel after ∧ SameFiles kernel after ∧
      ThreadLeft kernel after slot proc ∧ SamePtcbs kernel after := by
  obtain ⟨next, sched, left, restingAfter, nextCurrent, owners, used⟩ :=
    sysThreadExit_eq resting isCurrent owned exitval remaining curtime
  have pcb : (kernel.markThreadExit (.slot slot) proc exitval).pcb =
      Function.update kernel.pcb proc { kernel.pcb proc with
        threadCount := (kernel.pcb proc).threadCount - 1 } := rfl
  refine ⟨{ kernel.markThreadExit (.slot slot) proc exitval with
      sched := sched }, left, restingAfter, ?_,
    ⟨same_column_of_pcb PCB.pstate pcb rfl,
      same_column_of_pcb PCB.parent pcb rfl,
      same_column_of_pcb PCB.exitval pcb rfl, rfl, rfl⟩,
    ⟨same_column_of_pcb PCB.FIDT pcb rfl, rfl, rfl⟩,
    ⟨used, ?_, column_of_pcb PCB.threadCount pcb⟩, ⟨rfl, rfl⟩⟩
  · show sched.currentThread ≠ none
    rw [nextCurrent]
    simp
  · funext other
    exact owners.ownerPcb _

/-- `sys_Exit` by a thread of the pool. -/
theorem sysExit_effect
    {kernel : Kernel limits}
    {slot : Fin limits.maxThreads}
    {proc : Fin limits.maxProc}
    (resting : kernel.Resting)
    (isCurrent : kernel.sched.currentThread = some (.slot slot))
    (owned : kernel.owner slot = some proc)
    (exitval : Int)
    (remaining curtime : TimerDuration) :
    ∃ after, kernel.sysExit exitval remaining curtime = .ok after ∧
      after.Resting ∧ after.sched.currentThread ≠ none ∧
      ProcExited kernel after proc exitval ∧ SameFiles kernel after ∧
      ThreadLeft kernel after slot proc ∧ SamePtcbs kernel after := by
  have pcb : (kernel.markExit proc exitval).pcb =
      Function.update kernel.pcb proc { kernel.pcb proc with
        exitval := exitval, pstate := .zombie } := rfl
  obtain ⟨after, exited, restingAfter, current, procs, files, left, ptcbs⟩ :=
    sysThreadExit_effect (show (kernel.markExit proc exitval).Resting from
      resting) isCurrent owned exitval remaining curtime
  have sameCount : (kernel.markExit proc exitval).threadCount =
      kernel.threadCount := same_column_of_pcb PCB.threadCount pcb rfl
  have sameFIDT : (kernel.markExit proc exitval).FIDT = kernel.FIDT :=
    same_column_of_pcb PCB.FIDT pcb rfl
  refine ⟨after, ?_, restingAfter, current, ?_,
    ⟨files.FIDT.trans sameFIDT, files.fcb, files.freelist⟩,
    ⟨left.used, left.owner, sameCount ▸ left.threadCount⟩,
    ⟨ptcbs.ptcbUsed, ptcbs.ptcbLists⟩⟩
  · rw [sysExit, currentProc_of_slot isCurrent, owned]
    exact exited
  · exact
      { pstate := procs.pstate.trans (column_of_pcb PCB.pstate pcb)
        parent := procs.parent.trans (same_column_of_pcb PCB.parent pcb rfl)
        exitval := procs.exitval.trans (column_of_pcb PCB.exitval pcb)
        children := procs.children
        exited := procs.exited }

/-- `cleanup_zombie` releases one slot and its two nodes. -/
theorem cleanupZombie_effect
    (kernel : Kernel limits)
    (child : Fin limits.maxProc) :
    ProcReaped kernel (kernel.cleanupZombie child).2 child ∧
      SameFiles kernel (kernel.cleanupZombie child).2 ∧
      SameThreads kernel (kernel.cleanupZombie child).2 ∧
      SamePtcbs kernel (kernel.cleanupZombie child).2 := by
  have pcb : (kernel.cleanupZombie child).2.pcb =
      Function.update kernel.pcb child
        { kernel.pcb child with pstate := .free } := rfl
  exact ⟨⟨column_of_pcb PCB.pstate pcb, same_column_of_pcb PCB.parent pcb rfl,
      same_column_of_pcb PCB.exitval pcb rfl, rfl, rfl⟩,
    ⟨same_column_of_pcb PCB.FIDT pcb rfl, rfl, rfl⟩,
    sameThreads_of_sched rfl (same_column_of_pcb PCB.threadCount pcb rfl),
    ⟨rfl, rfl⟩⟩

/-- The outcomes of `sys_CreateThread`: nothing happens without a task or a
free slot, else a thread of the caller's process is started. -/
theorem sysCreateThread_effect
    {kernel : Kernel limits}
    {current : Fin limits.maxThreads}
    {proc : Fin limits.maxProc}
    (resting : kernel.Resting)
    (isCurrent : kernel.sched.currentThread = some (.slot current))
    (owned : kernel.owner current = some proc)
    (task : Option Task)
    (argl : Int)
    (args : ArgPtr limits) :
    (task = none ∨ kernel.sched.freeSlot = none) ∧
        kernel.sysCreateThread task argl args = .ok (none, kernel) ∨
      ∃ slot after, task ≠ none ∧
        kernel.sysCreateThread task argl args =
          .ok (kernel.freePtcb, after) ∧
        ThreadStarted kernel after slot proc task argl args := by
  obtain ⟨tid, after, created, outcome⟩ :=
    sysCreateThread_returns resting isCurrent owned task argl args
  cases outcome with
  | refused reason => exact .inl ⟨reason, created⟩
  | started slot isTask started frame =>
      exact .inr ⟨slot, after, isTask, created, started⟩

end Kernel
end TinierOS
