import TinierOS.Streams.Defs
import TinierOS.Sched.Entry

/-!
# The tables of processes and threads

The process table, the descriptor tables, the threads and the PTCBs as columns,
and the ways in which system calls change them.
-/

namespace TinierOS

variable {limits : Limits}

namespace Kernel

/-! ## Columns of the tables -/

def pstate (kernel : Kernel limits) (pid : Fin limits.maxProc) : PidState :=
  (kernel.pcb pid).pstate

def parent
    (kernel : Kernel limits)
    (pid : Fin limits.maxProc) : Option (Fin limits.maxProc) :=
  (kernel.pcb pid).parent

def exitval (kernel : Kernel limits) (pid : Fin limits.maxProc) : Int :=
  (kernel.pcb pid).exitval

def FIDT
    (kernel : Kernel limits)
    (pid : Fin limits.maxProc)
    (fid : Fin limits.maxFileid) : Option (Fin limits.maxFiles) :=
  (kernel.pcb pid).FIDT fid

def threadCount (kernel : Kernel limits) (pid : Fin limits.maxProc) : Int :=
  (kernel.pcb pid).threadCount

/-- The thread slots in use. -/
def threadUsed
    (kernel : Kernel limits) : Fin limits.maxThreads → Bool :=
  kernel.sched.threadUsed

/-- The owner of a thread. -/
def owner
    (kernel : Kernel limits)
    (slot : Fin limits.maxThreads) : Option (Fin limits.maxProc) :=
  (kernel.sched.tcb (.slot slot)).ownerPcb

/-! ## Changes to the process table -/

/-- States, parents, exit values and both families of rings are as before. -/
structure SameProcs (before after : Kernel limits) : Prop where
  pstate : after.pstate = before.pstate
  parent : after.parent = before.parent
  exitval : after.exitval = before.exitval
  children : after.children = before.children
  exited : after.exited = before.exited

/-- The first free PCB was linked to its parent and left in a given state. -/
structure ProcCreated
    (before after : Kernel limits)
    (newproc : Fin limits.maxProc)
    (state : PidState) : Prop where
  free : before.freePcb = some newproc
  others : ∀ pid, pid ≠ newproc → after.pcb pid = before.pcb pid
  pstate : after.pstate = Function.update before.pstate newproc state
  parent : after.parent =
    Function.update before.parent newproc (before.execParent newproc)
  exitval : after.exitval = before.exitval
  children : after.children = before.linkedChildren newproc
  exited : after.exited = before.exited

/-- A process became a zombie. -/
structure ProcExited
    (before after : Kernel limits)
    (proc : Fin limits.maxProc)
    (exitval : Int) : Prop where
  pstate : after.pstate = Function.update before.pstate proc .zombie
  parent : after.parent = before.parent
  exitval : after.exitval = Function.update before.exitval proc exitval
  children : after.children = before.exitChildren proc
  exited : after.exited = before.exitExited proc

/-- A process was cleaned up and its slot released. -/
structure ProcReaped
    (before after : Kernel limits)
    (child : Fin limits.maxProc) : Prop where
  pstate : after.pstate = Function.update before.pstate child .free
  parent : after.parent = before.parent
  exitval : after.exitval = before.exitval
  children : after.children = before.children.rlistRemove (.node child)
  exited : after.exited = before.exited.rlistRemove (.node child)

/-! ## Changes to files, threads and PTCBs -/

/-- Descriptors, file table and free list are as before. -/
structure SameFiles (before after : Kernel limits) : Prop where
  FIDT : after.FIDT = before.FIDT
  fcb : after.fcb = before.fcb
  freelist : after.freelist = before.freelist

/-- A new process got the descriptors of its parent. -/
structure FilesInherited
    (before after : Kernel limits)
    (newproc : Fin limits.maxProc) : Prop where
  FIDT : after.FIDT =
    Function.update before.FIDT newproc (before.inheritedFIDT newproc)
  fcb : after.fcb = before.fcb
  freelist : after.freelist = before.freelist

/-- The same threads exist, with the same owners. -/
structure SameThreads (before after : Kernel limits) : Prop where
  used : after.threadUsed = before.threadUsed
  owner : after.owner = before.owner
  threadCount : after.threadCount = before.threadCount

/-- The current thread left the pool. -/
structure ThreadLeft
    (before after : Kernel limits)
    (slot : Fin limits.maxThreads)
    (proc : Fin limits.maxProc) : Prop where
  used : after.threadUsed = Function.update before.threadUsed slot false
  owner : after.owner = before.owner
  threadCount : after.threadCount =
    Function.update before.threadCount proc (before.threadCount proc - 1)

/-- A thread of `proc` was added to the pool. -/
structure NewThread
    (before after : Kernel limits)
    (slot : Fin limits.maxThreads)
    (proc : Fin limits.maxProc) : Prop where
  free : before.sched.freeSlot = some slot
  used : after.threadUsed = Function.update before.threadUsed slot true
  owner : after.owner = Function.update before.owner slot (some proc)
  threadCount : after.threadCount =
    Function.update before.threadCount proc (before.threadCount proc + 1)

/-- The PTCB pool and the rings of PTCBs are as before. -/
structure SamePtcbs (before after : Kernel limits) : Prop where
  ptcbUsed : after.ptcbUsed = before.ptcbUsed
  ptcbLists : after.ptcbLists = before.ptcbLists

/-- The first free PTCB was added to the ring of `proc`. -/
structure NewPtcb
    (before after : Kernel limits)
    (ptcb : Fin limits.maxThreads)
    (proc : Fin limits.maxProc) : Prop where
  free : before.freePtcb = some ptcb
  ptcbUsed : after.ptcbUsed = Function.update before.ptcbUsed ptcb true
  ptcbLists : after.ptcbLists =
    (before.ptcbLists.rlnodeInit (.node ptcb) (some ptcb)).rlistPushBack
      (.list proc) (.node ptcb)

/-- What `create_ptcb` does: nothing when the pool is used up. -/
def PtcbsGrown
    (before after : Kernel limits)
    (proc : Fin limits.maxProc) : Prop :=
  before.freePtcb = none ∧ SamePtcbs before after ∨
    ∃ ptcb, NewPtcb before after ptcb proc

/-- A new thread, seen from an earlier state with the same threads. -/
theorem NewThread.of_same
    {first before after : Kernel limits}
    {slot : Fin limits.maxThreads}
    {proc : Fin limits.maxProc}
    (thread : NewThread before after slot proc)
    (same : SameThreads first before)
    (sched : before.sched = first.sched) :
    NewThread first after slot proc where
  free := sched ▸ thread.free
  used := same.used ▸ thread.used
  owner := same.owner ▸ thread.owner
  threadCount := same.threadCount ▸ thread.threadCount

/-- A new PTCB, seen from an earlier state with the same PTCBs. -/
theorem PtcbsGrown.of_same
    {first before after : Kernel limits}
    {proc : Fin limits.maxProc}
    (grown : PtcbsGrown before after proc)
    (same : SamePtcbs first before) :
    PtcbsGrown first after proc := by
  have sameFree : before.freePtcb = first.freePtcb := by
    simp only [freePtcb, same.ptcbUsed]
  rcases grown with ⟨full, kept⟩ | ⟨ptcb, new⟩
  · exact .inl ⟨sameFree ▸ full, kept.ptcbUsed.trans same.ptcbUsed,
      kept.ptcbLists.trans same.ptcbLists⟩
  · refine .inr ⟨ptcb, sameFree ▸ new.free, ?_, ?_⟩
    · rw [new.ptcbUsed, same.ptcbUsed]
    · rw [new.ptcbLists, same.ptcbLists]

/-- One column of the process table after an assignment to one PCB. -/
theorem column_of_pcb
    {κ : Type}
    {before after : Kernel limits}
    {proc : Fin limits.maxProc}
    {block : PCB limits}
    (column : PCB limits → κ)
    (pcb : after.pcb = Function.update before.pcb proc block) :
    (fun pid => column (after.pcb pid)) =
      Function.update (fun pid => column (before.pcb pid)) proc
        (column block) := by
  funext pid
  by_cases same : pid = proc
  · subst same
    simp [pcb]
  · simp [pcb, same]

/-- A column that keeps its value in the assigned PCB does not change. -/
theorem same_column_of_pcb
    {κ : Type}
    {before after : Kernel limits}
    {proc : Fin limits.maxProc}
    {block : PCB limits}
    (column : PCB limits → κ)
    (pcb : after.pcb = Function.update before.pcb proc block)
    (same : column block = column (before.pcb proc)) :
    (fun pid => column (after.pcb pid)) =
      fun pid => column (before.pcb pid) := by
  rw [column_of_pcb column pcb, same]
  exact Function.update_eq_self proc fun pid => column (before.pcb pid)

/-- A second assignment to the same PCB. -/
theorem modifyPcb_of_pcb
    {before after : Kernel limits}
    {proc : Fin limits.maxProc}
    {block : PCB limits}
    (pcb : after.pcb = Function.update before.pcb proc block)
    (change : PCB limits → PCB limits) :
    (after.modifyPcb proc change).pcb =
      Function.update before.pcb proc (change block) := by
  simp [modifyPcb, pcb]

/-! ## The first part of `sys_Exec` -/

/-- `sys_Exec` before it asks for a thread: the PCB is taken, linked and
given its task. -/
def prepared
    (kernel : Kernel limits)
    (newproc : Fin limits.maxProc)
    (call : Option Task)
    (argl : Int)
    (args : ArgPtr limits)
    (memory : Nat → UInt8) : Kernel limits :=
  ((kernel.modifyPcb newproc fun block =>
    { block with pstate := .alive }).linkChild newproc).setTask newproc call
      argl args memory

theorem sysExec_of_full
    {kernel : Kernel limits}
    (full : kernel.freePcb = none)
    (call : Option Task)
    (argl : Int)
    (args : ArgPtr limits)
    (memory : Nat → UInt8) :
    kernel.sysExec call argl args memory = .ok (none, kernel) := by
  simp [sysExec, acquirePCB, full]

theorem sysExec_of_free
    {kernel : Kernel limits}
    {newproc : Fin limits.maxProc}
    (found : kernel.freePcb = some newproc)
    (call : Option Task)
    (argl : Int)
    (args : ArgPtr limits)
    (memory : Nat → UInt8) :
    kernel.sysExec call argl args memory =
      if call = none then
        .ok (some newproc,
          kernel.prepared newproc call argl args memory)
      else (kernel.prepared newproc call argl args memory).spawnMain newproc
        call argl := by
  cases call <;> simp [sysExec, acquirePCB, found, prepared]

/-! The tables after the first part of `sys_Exec`. -/

section Prepared

variable (kernel : Kernel limits)
variable (newproc : Fin limits.maxProc)
variable (call : Option Task)
variable (argl : Int)
variable (args : ArgPtr limits)
variable (memory : Nat → UInt8)

/-- The PCB of the new process. -/
theorem prepared_pcb :
    (kernel.prepared newproc call argl args memory).pcb =
      Function.update kernel.pcb newproc
        { kernel.pcb newproc with
          pstate := .alive
          parent := kernel.execParent newproc
          FIDT := kernel.inheritedFIDT newproc
          mainTask := call
          argl := argl
          args := if 0 < argl ∧ args ≠ .null then .row newproc
            else .null } := by
  have sameParent : (kernel.modifyPcb newproc fun block =>
      { block with pstate := .alive }).execParent newproc =
        kernel.execParent newproc := rfl
  have sameFIDT : ∀ pid, ((kernel.modifyPcb newproc fun block =>
      { block with pstate := .alive }).pcb pid).FIDT =
        (kernel.pcb pid).FIDT := by
    intro pid
    by_cases same : pid = newproc
    · subst same
      simp [modifyPcb]
    · simp [modifyPcb, same]
  have inherited : (kernel.modifyPcb newproc fun block =>
      { block with pstate := .alive }).inheritedFIDT newproc =
        kernel.inheritedFIDT newproc := by
    unfold inheritedFIDT
    rw [sameParent]
    cases kernel.execParent newproc with
    | none => exact sameFIDT newproc
    | some curproc => exact sameFIDT curproc
  unfold prepared setTask linkChild
  simp only [sameParent, inherited]
  split_ifs <;> simp [modifyPcb]

theorem prepared_sched :
    (kernel.prepared newproc call argl args memory).sched =
      kernel.sched := by
  unfold prepared setTask
  split_ifs <;> rfl

theorem prepared_children :
    (kernel.prepared newproc call argl args memory).children =
      kernel.linkedChildren newproc := by
  unfold prepared setTask
  split_ifs <;> rfl

/-- Everything but the process table, the ring of children and the arguments is
as before. -/
theorem prepared_rest :
    (kernel.prepared newproc call argl args memory).exited = kernel.exited ∧
      (kernel.prepared newproc call argl args memory).fcb = kernel.fcb ∧
      (kernel.prepared newproc call argl args memory).freelist =
        kernel.freelist ∧
      (kernel.prepared newproc call argl args memory).ptcbUsed =
        kernel.ptcbUsed ∧
      (kernel.prepared newproc call argl args memory).ptcbLists =
        kernel.ptcbLists ∧
      (kernel.prepared newproc call argl args memory).ptcb =
        kernel.ptcb := by
  unfold prepared setTask
  split_ifs <;> exact ⟨rfl, rfl, rfl, rfl, rfl, rfl⟩

theorem prepared_procArgs :
    (kernel.prepared newproc call argl args memory).procArgs =
      if 0 < argl ∧ args ≠ .null then
        Function.update kernel.procArgs newproc fun offset =>
          if (offset : Int) < argl then kernel.argByte memory args offset
          else kernel.procArgs newproc offset
      else kernel.procArgs := by
  unfold prepared setTask
  split_ifs <;> rfl

end Prepared

/-! ## New threads -/

/-- The scheduler between two calls. -/
def Resting (kernel : Kernel limits) : Prop :=
  ∃ lists, kernel.sched.Resting lists

/-- Everything but the threads and the PTCBs is as before. -/
structure SameTables (before after : Kernel limits) : Prop where
  pcb : after.pcb = before.pcb
  children : after.children = before.children
  exited : after.exited = before.exited
  fcb : after.fcb = before.fcb
  freelist : after.freelist = before.freelist

/-- `create_ptcb` for a thread of `proc`. -/
theorem createPtcb_spec
    {kernel : Kernel limits}
    {slot : Fin limits.maxThreads}
    {proc : Fin limits.maxProc}
    (resting : kernel.Resting)
    (owned : kernel.owner slot = some proc)
    (task : Option Task)
    (argl : Int)
    (args : ArgPtr limits) :
    ∃ after, kernel.createPtcb slot task argl args = .ok after ∧
      after.Resting ∧ SameTables kernel after ∧ PtcbsGrown kernel after proc ∧
      after.threadUsed = kernel.threadUsed ∧ after.owner = kernel.owner ∧
      after.sched.currentThread = kernel.sched.currentThread ∧
      (after = kernel ∧ kernel.freePtcb = none ∨
        ∃ ptcb, kernel.freePtcb = some ptcb ∧
          after = kernel.linkPtcb ptcb slot proc task argl args) := by
  obtain ⟨lists, inv⟩ := resting
  unfold createPtcb
  cases found : kernel.freePtcb with
  | none =>
      exact ⟨kernel, rfl, ⟨lists, inv⟩, ⟨rfl, rfl, rfl, rfl, rfl⟩,
        .inl ⟨found, rfl, rfl⟩, rfl, rfl, rfl, .inl ⟨rfl, rfl⟩⟩
  | some ptcb =>
      have owns : (kernel.sched.tcb (.slot slot)).ownerPcb = some proc := owned
      simp only [owns]
      refine ⟨_, rfl, ⟨lists, ?_⟩, ⟨rfl, rfl, rfl, rfl, rfl⟩,
        .inr ⟨ptcb, found, rfl, rfl⟩, rfl, ?_, rfl, .inr ⟨ptcb, rfl, rfl⟩⟩
      · have kept : SchedInv (kernel.sched.modifyTcb (.slot slot)
            fun block => { block with ptcb := some ptcb }) lists _ _ _ :=
          inv.modifyTcb_unobserved rfl rfl rfl rfl rfl
        exact kept
      · funext other
        by_cases same : other = slot
        · subst same
          simp [owner, linkPtcb]
        · simp [owner, linkPtcb, Sched.modifyTcb, same]

/-- The calls that follow `create_ptcb` cannot fail. -/
theorem startThread_of_created
    {kernel created : Kernel limits}
    {slot : Fin limits.maxThreads}
    {task : Option Task}
    {argl : Int}
    {args : ArgPtr limits}
    (createdEq : kernel.createPtcb slot task argl args = .ok created)
    (resting : created.Resting)
    (usedSlot : created.threadUsed slot = true)
    (proc : Fin limits.maxProc) :
    ∃ sched,
      kernel.startThread proc slot task argl args = .ok
        { created.modifyPcb proc fun block =>
            { block with threadCount := block.threadCount + 1 } with
          sched := sched } ∧
      (∃ lists, sched.Resting lists) ∧
      Sched.Frame created.sched sched := by
  obtain ⟨lists, inv⟩ := resting
  obtain ⟨sched, lists', woken, woke, restingAfter, frame⟩ :=
    inv.wakeup usedSlot
  have woke' : (created.modifyPcb proc fun block =>
      { block with threadCount := block.threadCount + 1 }).sched.wakeup
        (.slot slot) = .ok (sched, woken) := woke
  refine ⟨sched, ?_, ⟨lists', restingAfter⟩, frame.toFrame⟩
  simp only [startThread, createdEq, bind, Except.bind, woke']
  rfl

/-- A thread of `proc` was spawned in `slot` and made ready. -/
structure ThreadStarted
    (before after : Kernel limits)
    (slot : Fin limits.maxThreads)
    (proc : Fin limits.maxProc)
    (task : Option Task)
    (argl : Int)
    (args : ArgPtr limits) : Prop where
  resting : after.Resting
  current : after.sched.currentThread = before.sched.currentThread
  pcb : after.pcb = Function.update before.pcb proc
    { before.pcb proc with threadCount := (before.pcb proc).threadCount + 1 }
  children : after.children = before.children
  exited : after.exited = before.exited
  fcb : after.fcb = before.fcb
  freelist : after.freelist = before.freelist
  thread : NewThread before after slot proc
  ptcbs : PtcbsGrown before after proc
  ptcb : (after.sched.tcb (.slot slot)).ptcb = before.freePtcb
  block : ∀ ptcb, before.freePtcb = some ptcb → after.ptcb ptcb =
    { thread := some slot, task := task, argl := argl, args := args
      exitval := 0, exited := false, detached := false, refcount := 0 }

theorem startThread_initThread
    {kernel : Kernel limits}
    {slot : Fin limits.maxThreads}
    (resting : kernel.Resting)
    (found : kernel.sched.freeSlot = some slot)
    (proc : Fin limits.maxProc)
    (func : ThreadFunc)
    (task : Option Task)
    (argl : Int)
    (args : ArgPtr limits) :
    ∃ after,
      ({ kernel with
          sched := kernel.sched.initThread slot (some proc) func } :
        Kernel limits).startThread proc slot task argl args = .ok after ∧
      ThreadStarted kernel after slot proc task argl args := by
  obtain ⟨lists, inv⟩ := resting
  have spawned := inv.initThread (Sched.freeSlot_eq_some found) (some proc) func
  have usedSlot : (kernel.sched.initThread slot (some proc) func).threadUsed
      slot = true := (Sched.initThread_used_iff ..).mpr (.inl rfl)
  have owned : ((kernel.sched.initThread slot (some proc) func).tcb
      (.slot slot)).ownerPcb = some proc := by
    simp [Sched.spawnedTCB]
  have owners : (fun other => ((kernel.sched.initThread slot (some proc)
      func).tcb (.slot other)).ownerPcb) =
        Function.update kernel.owner slot (some proc) := by
    funext other
    by_cases same : other = slot
    · subst same
      simpa using owned
    · rw [Sched.initThread_tcb_of_ne _ _ _ _ (by simpa using same)]
      simp [owner, same]
  have spawnedResting : ({ kernel with
      sched := kernel.sched.initThread slot (some proc) func } :
        Kernel limits).Resting := ⟨lists, spawned⟩
  obtain ⟨created, createdEq, restingCreated, tables, grown, used, owner,
    current, linked⟩ := createPtcb_spec spawnedResting owned task argl args
  have createdUsed : created.threadUsed =
      Function.update kernel.threadUsed slot true := used
  have createdOwner : created.owner =
      Function.update kernel.owner slot (some proc) := owner.trans owners
  obtain ⟨sched, startedEq, restingAfter, frame⟩ :=
    startThread_of_created createdEq restingCreated
      (by rw [createdUsed]; simp) proc
  have pcbAfter : (created.modifyPcb proc fun block =>
      { block with threadCount := block.threadCount + 1 }).pcb =
        Function.update kernel.pcb proc { kernel.pcb proc with
          threadCount := (kernel.pcb proc).threadCount + 1 } := by
    simp only [modifyPcb, tables.pcb]
  refine ⟨_, startedEq, ?_⟩
  refine
    { resting := restingAfter
      current := frame.currentThread.trans current
      pcb := ?_
      children := tables.children
      exited := tables.exited
      fcb := tables.fcb
      freelist := tables.freelist
      thread := ⟨found, frame.threadUsed.trans createdUsed, ?_, ?_⟩
      ptcbs := ?_
      ptcb := ?_
      block := ?_ }
  · exact pcbAfter
  · rw [← createdOwner]
    funext other
    exact frame.ownerPcb _
  · funext pid
    simp only [threadCount, pcbAfter]
    by_cases same : pid = proc
    · subst same
      simp
    · simp [threadCount, same]
  · rcases grown with ⟨full, same⟩ | ⟨ptcb, new⟩
    · exact .inl ⟨full, same.ptcbUsed, same.ptcbLists⟩
    · exact .inr ⟨ptcb, new.free, new.ptcbUsed, new.ptcbLists⟩
  · rw [frame.ptcb]
    rcases linked with ⟨same, full⟩ | ⟨ptcb, free, same⟩
    · have none : kernel.freePtcb = none := full
      simp [same, none, Sched.spawnedTCB]
    · have some : kernel.freePtcb = some ptcb := free
      simp [same, some, linkPtcb]
  · intro ptcb free
    rcases linked with ⟨-, full⟩ | ⟨other, free', same⟩
    · have none : kernel.freePtcb = none := full
      rw [free] at none
      cases none
    · have some : kernel.freePtcb = some other := free'
      rw [free] at some
      cases some
      simp [same, linkPtcb, modifyPcb]

end Kernel
end TinierOS
