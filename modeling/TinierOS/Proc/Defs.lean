import TinierOS.Sched.Defs

/-!
# Processes and threads

`include/kernel/kernel_proc.h`, `src/kernel/kernel_proc.c` and the PTCB pool of
`src/kernel/kernel_sched.c`: the process table, its rings of children and of
exited children, and the bodies of the process and thread system calls.

A system call runs with interrupts off, so each function is one piece of code
between two yield points; the polling loops of `sys_WaitChild` and
`sys_ThreadJoin` appear as functions that test the loop condition once.
-/

namespace TinierOS

/-- `pid_state` -/
inductive PidState
  | free
  | alive
  | zombie
  deriving DecidableEq

/-- The code address of a task. -/
abbrev Task := Nat

/-- `MAX_ARG_SIZE` -/
abbrev maxArgSize : Nat := 32

/-- A `void *` argument: null, a row of `proc_args`, or an address of the
caller's own memory. -/
inductive ArgPtr (limits : Limits)
  | null
  | row (pid : Fin limits.maxProc)
  | user (address : Nat)
  deriving DecidableEq

/-- Address of a list head of a PCB or of the node it keeps for such a list.
`children_list` and `children_node` are one family of such nodes, `exited_list`
and `exited_node` another. -/
inductive PcbNode (limits : Limits)
  | null
  | list (pid : Fin limits.maxProc)
  | node (pid : Fin limits.maxProc)
  deriving DecidableEq

/-- Address of a `ptcb_list` or of a `ptcb_node_list`. -/
inductive PtcbNode (limits : Limits)
  | null
  | list (pid : Fin limits.maxProc)
  | node (ptcb : Fin limits.maxThreads)
  deriving DecidableEq

/-- Address of `FCB_freelist` or of a `freelist_node`. -/
inductive FcbNode (limits : Limits)
  | null
  | freelist
  | node (fcb : Fin limits.maxFiles)
  deriving DecidableEq

/-- The process control block.  Its list heads and nodes are kept in the
kernel's heaps. -/
structure PCB (limits : Limits) where
  pstate : PidState
  parent : Option (Fin limits.maxProc)
  exitval : Int
  mainThread : Option (Fin limits.maxThreads)
  mainTask : Option Task
  argl : Int
  args : ArgPtr limits
  FIDT : Fin limits.maxFileid → Option (Fin limits.maxFiles)
  threadCount : Int

/-- The process thread control block. -/
structure PTCB (limits : Limits) where
  thread : Option (Fin limits.maxThreads)
  task : Option Task
  argl : Int
  args : ArgPtr limits
  exitval : Int
  exited : Bool
  detached : Bool
  refcount : Int

/-- `Device_type`, without the count `DEV_MAX`. -/
inductive DeviceType
  | null
  | serial
  deriving DecidableEq

/-- `MAX_TERMINALS` -/
abbrev maxTerminals : Nat := 1

/-- The file control block: the stream object is null or one of
`serial_dcbs`, the stream functions are those of a device. -/
structure FCB where
  streamobj : Option (Fin maxTerminals)
  streamfunc : Option DeviceType
  refcount : Int

/-- The kernel's variables. -/
structure Kernel (limits : Limits) where
  sched : Sched limits
  pcb : Fin limits.maxProc → PCB limits
  children : RlHeap (PcbNode limits) (Option (Fin limits.maxProc))
  exited : RlHeap (PcbNode limits) (Option (Fin limits.maxProc))
  ptcbLists : RlHeap (PtcbNode limits) (Option (Fin limits.maxThreads))
  ptcb : Fin limits.maxThreads → PTCB limits
  ptcbUsed : Fin limits.maxThreads → Bool
  procArgs : Fin limits.maxProc → Fin maxArgSize → UInt8
  fcb : Fin limits.maxFiles → FCB
  freelist : RlHeap (FcbNode limits) (Option (Fin limits.maxFiles))

namespace Kernel

variable {limits : Limits}

/-- Static storage before `main`. -/
def zero (limits : Limits) : Kernel limits where
  sched := Sched.zero limits
  pcb := fun _ =>
    { pstate := .free, parent := none, exitval := 0, mainThread := none
      mainTask := none, argl := 0, args := .null, FIDT := fun _ => none
      threadCount := 0 }
  children := fun _ => { obj := none, prev := .null, next := .null }
  exited := fun _ => { obj := none, prev := .null, next := .null }
  ptcbLists := fun _ => { obj := none, prev := .null, next := .null }
  ptcb := fun _ =>
    { thread := none, task := none, argl := 0, args := .null, exitval := 0
      exited := false, detached := false, refcount := 0 }
  ptcbUsed := fun _ => false
  procArgs := fun _ _ => 0
  fcb := fun _ => { streamobj := none, streamfunc := none, refcount := 0 }
  freelist := fun _ => { obj := none, prev := .null, next := .null }

/-- Assign to some fields of one PCB. -/
def modifyPcb
    (kernel : Kernel limits)
    (pcb : Fin limits.maxProc)
    (change : PCB limits → PCB limits) : Kernel limits :=
  { kernel with pcb := Function.update kernel.pcb pcb (change (kernel.pcb pcb)) }

/-- `cur_thread()->owner_pcb`, null also when there is no current thread. -/
def currentProc (kernel : Kernel limits) : Option (Fin limits.maxProc) :=
  kernel.sched.currentThread.bind fun tcb => (kernel.sched.tcb tcb).ownerPcb

/-! ## The process table -/

/-- `get_pcb` -/
def getPcb (kernel : Kernel limits) (pid : Int) : Option (Fin limits.maxProc) :=
  if inRange : 0 ≤ pid ∧ pid.toNat < limits.maxProc then
    if (kernel.pcb ⟨pid.toNat, inRange.2⟩).pstate = .free then none
    else some ⟨pid.toNat, inRange.2⟩
  else none

/-- `initialize_PCB` -/
def initializePCB
    (kernel : Kernel limits)
    (pcb : Fin limits.maxProc) : Kernel limits :=
  { kernel.modifyPcb pcb fun block =>
      { block with
        pstate := .free
        argl := 0
        args := .null
        FIDT := fun _ => none
        threadCount := 0 } with
    children := (kernel.children.rlnodeInit (.list pcb) none).rlnodeInit
      (.node pcb) (some pcb)
    exited := (kernel.exited.rlnodeInit (.list pcb) none).rlnodeInit
      (.node pcb) (some pcb)
    ptcbLists := kernel.ptcbLists.rlnodeInit (.list pcb) none }

/-- `initialize_processes`; pid 0 is reserved for the system. -/
def initializeProcesses (kernel : Kernel limits) : Kernel limits :=
  let kernel := (List.finRange limits.maxProc).foldl initializePCB kernel
  if exists0 : 0 < limits.maxProc then
    kernel.modifyPcb ⟨0, exists0⟩ fun block =>
      { block with pstate := .alive, parent := none }
  else kernel

/-- The slot `acquire_PCB` will take. -/
def freePcb (kernel : Kernel limits) : Option (Fin limits.maxProc) :=
  firstIndex fun pcb => (kernel.pcb pcb).pstate = .free

/-- `acquire_PCB` -/
def acquirePCB
    (kernel : Kernel limits) : Option (Fin limits.maxProc) × Kernel limits :=
  match kernel.freePcb with
  | none => (none, kernel)
  | some pcb =>
      (some pcb, kernel.modifyPcb pcb fun block =>
        { block with pstate := .alive })

/-- `release_PCB` -/
def releasePCB
    (kernel : Kernel limits)
    (pcb : Fin limits.maxProc) : Kernel limits :=
  kernel.modifyPcb pcb fun block => { block with pstate := .free }

/-! ## The PTCB pool -/

/-- The slot `create_ptcb` will take. -/
def freePtcb (kernel : Kernel limits) : Option (Fin limits.maxThreads) :=
  firstIndex fun ptcb => !kernel.ptcbUsed ptcb

/-- `create_ptcb` once it has found a free slot. -/
def linkPtcb
    (kernel : Kernel limits)
    (ptcb tcb : Fin limits.maxThreads)
    (owner : Fin limits.maxProc)
    (task : Option Task)
    (argl : Int)
    (args : ArgPtr limits) : Kernel limits :=
  { kernel with
    ptcbUsed := Function.update kernel.ptcbUsed ptcb true
    ptcb := Function.update kernel.ptcb ptcb
      { thread := some tcb, task := task, argl := argl, args := args
        exitval := 0, exited := false, detached := false, refcount := 0 }
    sched := kernel.sched.modifyTcb (.slot tcb) fun block =>
      { block with ptcb := some ptcb }
    ptcbLists := (kernel.ptcbLists.rlnodeInit (.node ptcb)
      (some ptcb)).rlistPushBack (.list owner) (.node ptcb) }

/-- `create_ptcb`, which returns silently when the pool is used up. -/
def createPtcb
    (kernel : Kernel limits)
    (tcb : Fin limits.maxThreads)
    (task : Option Task)
    (argl : Int)
    (args : ArgPtr limits) : Except Fault (Kernel limits) :=
  match kernel.freePtcb with
  | none => .ok kernel
  | some ptcb =>
      match (kernel.sched.tcb (.slot tcb)).ownerPcb with
      | none => .error .nullPointer
      | some owner => .ok (kernel.linkPtcb ptcb tcb owner task argl args)

/-- `create_ptcb`, `thread_count++` and `wakeup`, which follow every successful
`spawn_thread`. -/
def startThread
    (kernel : Kernel limits)
    (pcb : Fin limits.maxProc)
    (tcb : Fin limits.maxThreads)
    (task : Option Task)
    (argl : Int)
    (args : ArgPtr limits) : Except Fault (Kernel limits) := do
  let kernel ← kernel.createPtcb tcb task argl args
  let kernel := kernel.modifyPcb pcb fun block =>
    { block with threadCount := block.threadCount + 1 }
  let woken ← kernel.sched.wakeup (.slot tcb)
  return { kernel with sched := woken.1 }

/-! ## System calls for processes -/

/-- `sys_Exec`: the parent of the new process is null for the first two pids
and when there is no current process. -/
def execParent
    (kernel : Kernel limits)
    (newproc : Fin limits.maxProc) : Option (Fin limits.maxProc) :=
  if newproc.val ≤ 1 then none else kernel.currentProc

/-- `sys_Exec`: the new process inherits the descriptors of its parent. -/
def inheritedFIDT
    (kernel : Kernel limits)
    (newproc : Fin limits.maxProc) :
    Fin limits.maxFileid → Option (Fin limits.maxFiles) :=
  match kernel.execParent newproc with
  | none => (kernel.pcb newproc).FIDT
  | some curproc => (kernel.pcb curproc).FIDT

/-- `sys_Exec`: the new process is put in front of its parent's children. -/
def linkedChildren
    (kernel : Kernel limits)
    (newproc : Fin limits.maxProc) :
    RlHeap (PcbNode limits) (Option (Fin limits.maxProc)) :=
  match kernel.execParent newproc with
  | none => kernel.children
  | some curproc =>
      kernel.children.rlistPushFront (.list curproc) (.node newproc)

/-- `sys_Exec`: link the new process to its parent. -/
def linkChild
    (kernel : Kernel limits)
    (newproc : Fin limits.maxProc) : Kernel limits :=
  { kernel.modifyPcb newproc fun block =>
      { block with
        parent := kernel.execParent newproc
        FIDT := kernel.inheritedFIDT newproc } with
    children := kernel.linkedChildren newproc }

/-- The byte at `args + offset`; `memory` is the caller's own memory. -/
def argByte
    (kernel : Kernel limits)
    (memory : Nat → UInt8)
    (args : ArgPtr limits)
    (offset : Fin maxArgSize) : UInt8 :=
  match args with
  | .null => 0
  | .row pid => kernel.procArgs pid offset
  | .user address => memory (address + offset)

/-- `sys_Exec`: the task and the copy of its argument. -/
def setTask
    (kernel : Kernel limits)
    (newproc : Fin limits.maxProc)
    (call : Option Task)
    (argl : Int)
    (args : ArgPtr limits)
    (memory : Nat → UInt8) : Kernel limits :=
  if 0 < argl ∧ args ≠ .null then
    { kernel.modifyPcb newproc fun block =>
        { block with mainTask := call, argl := argl, args := .row newproc } with
      procArgs := Function.update kernel.procArgs newproc fun offset =>
        if (offset : Int) < argl then kernel.argByte memory args offset
        else kernel.procArgs newproc offset }
  else
    kernel.modifyPcb newproc fun block =>
      { block with mainTask := call, argl := argl, args := .null }

/-- `sys_Exec`: the main thread of the new process. -/
def spawnMain
    (kernel : Kernel limits)
    (newproc : Fin limits.maxProc)
    (call : Option Task)
    (argl : Int) :
    Except Fault (Option (Fin limits.maxProc) × Kernel limits) :=
  match kernel.sched.spawnThread (some newproc) .startMainThread with
  | (none, sched) =>
      let kernel := { kernel with sched := sched }.modifyPcb newproc
        fun block => { block with mainThread := none }
      .ok (none, kernel.releasePCB newproc)
  | (some tcb, sched) => do
      let kernel := { kernel with sched := sched }.modifyPcb newproc
        fun block => { block with mainThread := some tcb }
      let kernel ← kernel.startThread newproc tcb call argl
        (kernel.pcb newproc).args
      return (some newproc, kernel)

/-- `sys_Exec`, with `none` for `NOPROC`. -/
def sysExec
    (kernel : Kernel limits)
    (call : Option Task)
    (argl : Int)
    (args : ArgPtr limits)
    (memory : Nat → UInt8) :
    Except Fault (Option (Fin limits.maxProc) × Kernel limits) :=
  match kernel.acquirePCB with
  | (none, kernel) => .ok (none, kernel)
  | (some newproc, kernel) =>
      let kernel := (kernel.linkChild newproc).setTask newproc call argl args
        memory
      match call with
      | none => .ok (some newproc, kernel)
      | some _ => kernel.spawnMain newproc call argl

/-- `cleanup_zombie`: the value stored in `*status` and the kernel. -/
def cleanupZombie
    (kernel : Kernel limits)
    (pcb : Fin limits.maxProc) : Int × Kernel limits :=
  ((kernel.pcb pcb).exitval,
    { kernel with
      children := kernel.children.rlistRemove (.node pcb)
      exited := kernel.exited.rlistRemove (.node pcb) }.releasePCB pcb)

/-- `sys_WaitChild` for one child, at its loop condition: `none` when the child
is alive and the caller must yield. -/
def pollChild
    (kernel : Kernel limits)
    (child : Fin limits.maxProc) : Option (Int × Kernel limits) :=
  if (kernel.pcb child).pstate = .alive then none
  else some (kernel.cleanupZombie child)

/-- `sys_WaitChild` for any child, at its second loop condition: `none` when
`exited_list` is empty and the caller must yield. -/
def pollAny
    (kernel : Kernel limits)
    (parent : Fin limits.maxProc) :
    Except Fault (Option (Fin limits.maxProc × Int × Kernel limits)) :=
  if kernel.exited.isRlistEmpty (.list parent) then .ok none
  else match (kernel.exited (kernel.exited (.list parent)).next).obj with
    | none => .error .nullPointer
    | some child => .ok (some (child, kernel.cleanupZombie child))

/-- `sys_ThreadExit` up to the call of `sleep_releasing`. -/
def markThreadExit
    (kernel : Kernel limits)
    (tcb : TcbPtr limits)
    (owner : Fin limits.maxProc)
    (exitval : Int) : Kernel limits :=
  { kernel.modifyPcb owner fun block =>
      { block with threadCount := block.threadCount - 1 } with
    ptcb := match (kernel.sched.tcb tcb).ptcb with
      | none => kernel.ptcb
      | some ptcb => Function.update kernel.ptcb ptcb
          { kernel.ptcb ptcb with exitval := exitval, exited := true } }

/-- `sys_ThreadExit`; the last two values are read from the timer. -/
def sysThreadExit
    (kernel : Kernel limits)
    (exitval : Int)
    (remaining curtime : TimerDuration) : Except Fault (Kernel limits) :=
  match kernel.sched.currentThread with
  | none => .error .nullPointer
  | some tcb =>
      match (kernel.sched.tcb tcb).ownerPcb with
      | none => .error .nullPointer
      | some owner => do
          let kernel := kernel.markThreadExit tcb owner exitval
          let sched ← kernel.sched.sleepReleasing .exited .user noTimeout 0
            remaining curtime
          return { kernel with sched := sched }

/-- `sys_Exit`: a process with a parent leaves the ring of its children. -/
def exitChildren
    (kernel : Kernel limits)
    (curproc : Fin limits.maxProc) :
    RlHeap (PcbNode limits) (Option (Fin limits.maxProc)) :=
  match (kernel.pcb curproc).parent with
  | none => kernel.children
  | some _ => kernel.children.rlistRemove (.node curproc)

/-- `sys_Exit`: a process with a parent joins the ring of its exited
children. -/
def exitExited
    (kernel : Kernel limits)
    (curproc : Fin limits.maxProc) :
    RlHeap (PcbNode limits) (Option (Fin limits.maxProc)) :=
  match (kernel.pcb curproc).parent with
  | none => kernel.exited
  | some parent =>
      kernel.exited.rlistPushBack (.list parent) (.node curproc)

/-- `sys_Exit` up to the call of `sys_ThreadExit`. -/
def markExit
    (kernel : Kernel limits)
    (curproc : Fin limits.maxProc)
    (exitval : Int) : Kernel limits :=
  { kernel.modifyPcb curproc fun block =>
      { block with exitval := exitval, pstate := .zombie } with
    children := kernel.exitChildren curproc
    exited := kernel.exitExited curproc }

/-- `sys_Exit` -/
def sysExit
    (kernel : Kernel limits)
    (exitval : Int)
    (remaining curtime : TimerDuration) : Except Fault (Kernel limits) :=
  match kernel.currentProc with
  | none => .error .nullPointer
  | some curproc =>
      (kernel.markExit curproc exitval).sysThreadExit exitval remaining curtime

/-- `sys_GetPPid`, with `none` for `NOPROC`. -/
def sysGetPPid
    (kernel : Kernel limits) : Except Fault (Option (Fin limits.maxProc)) :=
  match kernel.currentProc with
  | none => .error .nullPointer
  | some curproc => .ok (kernel.pcb curproc).parent

/-! ## System calls for threads -/

/-- `sys_CreateThread`, with `none` for `NOTHREAD`. -/
def sysCreateThread
    (kernel : Kernel limits)
    (task : Option Task)
    (argl : Int)
    (args : ArgPtr limits) :
    Except Fault (Option (Fin limits.maxThreads) × Kernel limits) :=
  if task = none then .ok (none, kernel)
  else match kernel.sched.currentThread with
    | none => .error .nullPointer
    | some current =>
        match kernel.sched.spawnThread (kernel.sched.tcb current).ownerPcb
            .startMainPthread with
        | (none, sched) => .ok (none, { kernel with sched := sched })
        | (some tcb, sched) =>
            match (kernel.sched.tcb current).ownerPcb with
            | none => .error .nullPointer
            | some owner => do
                let kernel ← { kernel with sched := sched }.startThread owner
                  tcb task argl args
                return ((kernel.sched.tcb (.slot tcb)).ptcb, kernel)

/-- `sys_ThreadSelf`, with `none` for `NOTHREAD`. -/
def sysThreadSelf (kernel : Kernel limits) : Option (Fin limits.maxThreads) :=
  kernel.sched.currentThread.bind fun tcb => (kernel.sched.tcb tcb).ptcb

/-- `sys_ThreadDetach` -/
def sysThreadDetach
    (kernel : Kernel limits)
    (tid : Option (Fin limits.maxThreads)) : Int × Kernel limits :=
  match tid with
  | none => (-1, kernel)
  | some ptcb =>
      (0, { kernel with
        ptcb := Function.update kernel.ptcb ptcb
          { kernel.ptcb ptcb with detached := true } })

end Kernel
end TinierOS
