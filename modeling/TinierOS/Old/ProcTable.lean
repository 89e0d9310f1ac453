import TinierOS.Proc.Defs

/-!
# The process table of the old kernel

`old/kernel_proc.c` and the part of `sys_ThreadExit` in `old/kernel_threads.c`
that ends a process: the process table with its free list, the rings of children
and of exited children, and the bodies of the process calls.

The kernel is locked during a call, so each function is one piece of code between
two calls of `kernel_wait`.  The free list is kept in the `parent` fields of the
free PCBs.
-/

namespace TinierOS

variable {limits : Limits}

/-- Why the old kernel stops. -/
inductive OldFault
  | nullPointer
  | outOfBounds
  /-- A failed `assert`. -/
  | assertion
  /-- A loop that does not end. -/
  | endless
  /-- An access to memory that has been freed. -/
  | freedMemory
  /-- `FATAL`, which `xmalloc` also calls. -/
  | fatal
  deriving DecidableEq

/-- The process control block, without its descriptors, its list heads and its
nodes; `args` are the bytes that `args` points to. -/
structure OldPcb (limits : Limits) where
  pstate : PidState
  parent : Option (Fin limits.maxProc)
  exitval : Int
  mainTask : Option Task
  argl : Int
  args : Option (List UInt8)
  threadCount : Int

/-- `PT`, `pcb_freelist`, `process_count` and the rings of the PCBs. -/
structure ProcTable (limits : Limits) where
  pcb : Fin limits.maxProc → OldPcb limits
  freelist : Option (Fin limits.maxProc)
  processCount : Int
  children : RlHeap (PcbNode limits) (Option (Fin limits.maxProc))
  exited : RlHeap (PcbNode limits) (Option (Fin limits.maxProc))

namespace ProcTable

/-- Static storage before `boot`. -/
def zero (limits : Limits) : ProcTable limits where
  pcb := fun _ =>
    { pstate := .free, parent := none, exitval := 0, mainTask := none, argl := 0
      args := none, threadCount := 0 }
  freelist := none
  processCount := 0
  children := fun _ => { obj := none, prev := .null, next := .null }
  exited := fun _ => { obj := none, prev := .null, next := .null }

/-- Assign to some fields of one PCB. -/
def modifyPcb
    (table : ProcTable limits)
    (pcb : Fin limits.maxProc)
    (change : OldPcb limits → OldPcb limits) : ProcTable limits :=
  { table with pcb := Function.update table.pcb pcb (change (table.pcb pcb)) }

def pstate (table : ProcTable limits) (pid : Fin limits.maxProc) : PidState :=
  (table.pcb pid).pstate

def parent
    (table : ProcTable limits)
    (pid : Fin limits.maxProc) : Option (Fin limits.maxProc) :=
  (table.pcb pid).parent

/-- The bound of a process identifier. -/
theorem pid_lt
    {pid : Int}
    (inRange : 0 ≤ pid ∧ pid.toNat < limits.maxProc) :
    pid.toNat < limits.maxProc := inRange.2

/-- `get_pcb`, which does not check the bounds of the table. -/
def getPcb
    (table : ProcTable limits)
    (pid : Int) : Except OldFault (Option (Fin limits.maxProc)) :=
  if inRange : 0 ≤ pid ∧ pid.toNat < limits.maxProc then
    if (table.pcb ⟨pid.toNat, pid_lt inRange⟩).pstate = .free then .ok none
    else .ok (some ⟨pid.toNat, pid_lt inRange⟩)
  else .error .outOfBounds

/-! ## The free list -/

/-- `initialize_PCB` -/
def initializePCB
    (table : ProcTable limits)
    (pcb : Fin limits.maxProc) : ProcTable limits :=
  { table.modifyPcb pcb fun block =>
      { block with pstate := .free, argl := 0, args := none, threadCount := 0 } with
    children := (table.children.rlnodeInit (.list pcb) none).rlnodeInit
      (.node pcb) (some pcb)
    exited := (table.exited.rlnodeInit (.list pcb) none).rlnodeInit
      (.node pcb) (some pcb) }

/-- The body of the loop of `initialize_processes` that builds the free list. -/
def pushFree
    (table : ProcTable limits)
    (pcb : Fin limits.maxProc) : ProcTable limits :=
  { table.modifyPcb pcb fun block => { block with parent := table.freelist } with
    freelist := some pcb }

/-- `initialize_processes` up to the call of `Exec`; the free list is built from
the last PCB to the first. -/
def initializeProcesses (table : ProcTable limits) : ProcTable limits :=
  let table := (List.finRange limits.maxProc).foldl initializePCB table
  let table := { table with freelist := none }
  let table := (List.finRange limits.maxProc).reverse.foldl pushFree table
  { table with processCount := 0 }

/-- `acquire_PCB` -/
def acquirePCB
    (table : ProcTable limits) :
    Option (Fin limits.maxProc × ProcTable limits) :=
  match table.freelist with
  | none => none
  | some pcb => some (pcb,
      { table.modifyPcb pcb fun block => { block with pstate := .alive } with
        freelist := (table.pcb pcb).parent
        processCount := table.processCount + 1 })

/-- `release_PCB` -/
def releasePCB
    (table : ProcTable limits)
    (pcb : Fin limits.maxProc) : ProcTable limits :=
  { table.modifyPcb pcb fun block =>
      { block with pstate := .free, parent := table.freelist } with
    freelist := some pcb
    processCount := table.processCount - 1 }

/-! ## Creating a process -/

/-- `sys_Exec`: the first two processes have no parent, the others have
`CURPROC`. -/
def newParent
    (newproc : Fin limits.maxProc)
    (curproc : Option (Fin limits.maxProc)) : Option (Fin limits.maxProc) :=
  if newproc.val ≤ 1 then none else curproc

/-- `sys_Exec`: the new process is put in front of its parent's
children. -/
def linkParent
    (table : ProcTable limits)
    (newproc : Fin limits.maxProc)
    (curproc : Option (Fin limits.maxProc)) :
    Except OldFault (ProcTable limits) :=
  if newproc.val ≤ 1 then
    .ok (table.modifyPcb newproc fun block => { block with parent := none })
  else match curproc with
    | none => .error .nullPointer
    | some curproc => .ok
        { table.modifyPcb newproc fun block =>
            { block with parent := some curproc } with
          children :=
            table.children.rlistPushFront (.list curproc) (.node newproc) }

/-- `sys_Exec`: the task and the copy of its argument. -/
def setTask
    (table : ProcTable limits)
    (newproc : Fin limits.maxProc)
    (call : Option Task)
    (argl : Int)
    (args : List UInt8) : ProcTable limits :=
  table.modifyPcb newproc fun block =>
    { block with mainTask := call, argl := argl, args := some args }

/-- `sys_Exec`: the copy of the argument, in new memory.  `xmalloc` ends the
program when `argl` is negative, and `memcpy` reads a null pointer unless `argl`
is zero. -/
def copyArg
    (argl : Int) : Option (Nat → UInt8) → Except OldFault (List UInt8)
  | none =>
      if argl < 0 then .error .fatal
      else if argl = 0 then .ok []
      else .error .nullPointer
  | some memory =>
      if argl < 0 then .error .fatal
      else .ok ((List.range argl.toNat).map memory)

/-- `sys_Exec` without the descriptors and the main thread; `curproc` is
`CURPROC`, and `args` is the memory from the argument on, unless the pointer is
null. -/
def exec
    (table : ProcTable limits)
    (curproc : Option (Fin limits.maxProc))
    (call : Option Task)
    (argl : Int)
    (args : Option (Nat → UInt8)) :
    Except OldFault (Option (Fin limits.maxProc) × ProcTable limits) :=
  match table.acquirePCB with
  | none => .ok (none, table)
  | some (newproc, table) => do
      let table ← table.linkParent newproc curproc
      let bytes ← copyArg argl args
      return (some newproc, table.setTask newproc call argl bytes)

/-! ## Waiting for children -/

/-- `cleanup_zombie`: the value stored in `*status` and the table. -/
def cleanupZombie
    (table : ProcTable limits)
    (pcb : Fin limits.maxProc) : Int × ProcTable limits :=
  ((table.pcb pcb).exitval,
    { table with
      children := table.children.rlistRemove (.node pcb)
      exited := table.exited.rlistRemove (.node pcb) }.releasePCB pcb)

/-- What happens in `sys_WaitChild` before the next `kernel_wait`. -/
inductive WaitOutcome (limits : Limits)
  /-- The call returns `NOPROC`. -/
  | noChild
  /-- The call waits for a child to exit. -/
  | waits
  /-- The call returns a child, whose exit value it may store. -/
  | reaped
      (child : Fin limits.maxProc)
      (exitval : Int)
      (table : ProcTable limits)

/-- The loop of `wait_for_specific_child`, and what follows it. -/
def pollChild
    (table : ProcTable limits)
    (child : Fin limits.maxProc) : WaitOutcome limits :=
  if (table.pcb child).pstate = .alive then .waits
  else .reaped child (table.cleanupZombie child).1 (table.cleanupZombie child).2

/-- `wait_for_specific_child` up to its loop: the child, when `cpid` is legal. -/
def legalChild
    (table : ProcTable limits)
    (parent : Fin limits.maxProc)
    (cpid : Int) : Except OldFault (Option (Fin limits.maxProc)) :=
  if cpid < 0 ∨ limits.maxProc ≤ cpid then .ok none
  else do
    match ← table.getPcb cpid with
    | none => return none
    | some child =>
        if (table.pcb child).parent ≠ some parent then return none
        else return some child

/-- The loop of `wait_for_any_child`, and what follows it. -/
def pollAny
    (table : ProcTable limits)
    (parent : Fin limits.maxProc) : Except OldFault (WaitOutcome limits) :=
  if table.children.isRlistEmpty (.list parent) then .ok .noChild
  else if table.exited.isRlistEmpty (.list parent) then .ok .waits
  else match (table.exited (table.exited (.list parent)).next).obj with
    | none => .error .nullPointer
    | some child =>
        if (table.pcb child).pstate ≠ .zombie then .error .assertion
        else .ok (.reaped child (table.cleanupZombie child).1
          (table.cleanupZombie child).2)

/-- The loop of `sys_Exit` for the initial process: whether it has ended, and the
table.  The bound is for the children that have exited. -/
def reapAll
    (parent : Fin limits.maxProc) :
    Nat → ProcTable limits → Except OldFault (Bool × ProcTable limits)
  | 0, _ => .error .endless
  | fuel + 1, table => do
      match ← table.pollAny parent with
      | .noChild => return (true, table)
      | .waits => return (false, table)
      | .reaped _ _ table => table.reapAll parent fuel

/-! ## Ending a process -/

/-- `sys_ThreadExit`: the first child becomes a child of the initial task. -/
def adoptChild
    (table : ProcTable limits)
    (curproc : Fin limits.maxProc) : Except OldFault (ProcTable limits) := do
  let popped := table.children.rlistPopFront (.list curproc)
  match ← table.getPcb 1, (popped.2 popped.1).obj with
  | some initpcb, some child =>
      let table := table.modifyPcb child fun block =>
        { block with parent := some initpcb }
      return { table with
        children := popped.2.rlistPushFront (.list initpcb) popped.1 }
  | _, _ => .error .nullPointer

/-- `sys_ThreadExit`: the loop over the children.  The bound is for their
number. -/
def adoptLoop
    (curproc : Fin limits.maxProc) :
    Nat → ProcTable limits → Except OldFault (ProcTable limits)
  | 0, table =>
      if table.children.isRlistEmpty (.list curproc) then .ok table
      else .error .endless
  | fuel + 1, table =>
      if table.children.isRlistEmpty (.list curproc) then .ok table
      else do
        let table ← table.adoptChild curproc
        adoptLoop curproc fuel table

/-- `sys_ThreadExit`: the exited children go to the initial task. -/
def adoptExited
    (table : ProcTable limits)
    (curproc : Fin limits.maxProc) : Except OldFault (ProcTable limits) :=
  if table.exited.isRlistEmpty (.list curproc) then .ok table
  else do
    match ← table.getPcb 1 with
    | none => .error .nullPointer
    | some initpcb => return { table with
        exited := table.exited.rlistAppend (.list initpcb) (.list curproc) }

/-- `sys_ThreadExit`: the process joins its parent's exited children. -/
def joinExited
    (table : ProcTable limits)
    (curproc : Fin limits.maxProc) : Except OldFault (ProcTable limits) :=
  match (table.pcb curproc).parent with
  | none => .error .nullPointer
  | some parent => .ok { table with
      exited := table.exited.rlistPushFront (.list parent) (.node curproc) }

/-- `sys_ThreadExit`: what every process but the initial one leaves behind. -/
def handOver
    (table : ProcTable limits)
    (curproc : Fin limits.maxProc) : Except OldFault (ProcTable limits) :=
  if curproc.val = 1 then .ok table
  else do
    let table ← adoptLoop curproc limits.maxProc table
    let table ← table.adoptExited curproc
    table.joinExited curproc

/-- `sys_ThreadExit` for the last thread of a process, without its PTCBs and its
descriptors. -/
def endProcess
    (table : ProcTable limits)
    (curproc : Fin limits.maxProc) : Except OldFault (ProcTable limits) := do
  let table ← table.handOver curproc
  if table.children.isRlistEmpty (.list curproc) ∧
      table.exited.isRlistEmpty (.list curproc) then
    return table.modifyPcb curproc fun block =>
      { block with args := none, pstate := .zombie }
  else .error .assertion

end ProcTable
end TinierOS
