import TinierOS.Old.FileTable
import TinierOS.Util.Find
import TinierOS.Library.Transition

/-!
# The old kernel

The process, thread and stream calls of `old/kernel_proc.c`,
`old/kernel_threads.c` and `old/kernel_streams.c` by any number of threads.  The
kernel is locked during a call and unlocked in `kernel_wait`, so a step is a call
up to its first `kernel_wait`, or the rest of a waiting call up to its next one.
A waiting call may be woken up at any time.

Memory allocation succeeds; a new PTCB may have any address that is not in use.
Threads are numbered in the order in which they are created.
-/

namespace TinierOS

variable {limits : Limits}

/-- Address of a `ptcb_list` or of a `ptcb_node_list`. -/
inductive OldPtcbNode (limits : Limits) (π : Type)
  | null
  | list (pid : Fin limits.maxProc)
  | node (ptcb : π)
  deriving DecidableEq

/-- The process thread control block, with the number of its thread. -/
structure OldPtcb where
  thread : Nat
  task : Option Task
  argl : Int
  args : Nat
  exitval : Int
  exited : Bool
  detached : Bool
  refcount : Int

/-- Where a thread is in the calls. -/
inductive OldCall (limits : Limits) (π : Type)
  /-- In its own code. -/
  | own
  /-- In the loop of `wait_for_specific_child`. -/
  | waitsFor (child : Fin limits.maxProc)
  /-- In the loop of `wait_for_any_child`. -/
  | waitsAny
  /-- In the loop of `sys_Exit`. -/
  | exiting (exitval : Int)
  /-- In the loop of `sys_ThreadJoin`; `target` is the thread the PTCB had when
  the call was made. -/
  | joining (ptcb : π) (target : Nat)
  /-- In the `Read` or `Write` function of a stream. -/
  | streaming (fcb : Fin limits.maxFiles)
  /-- Past `kernel_sleep(EXITED, SCHED_USER)`; `exitval` was passed to
  `sys_ThreadExit`. -/
  | exited (exitval : Int)
  deriving DecidableEq

/-- Whether the thread is in a call in which it waits. -/
def OldCall.isWaiting {π : Type} : OldCall limits π → Bool
  | .own | .exited _ => false
  | _ => true

/-- Whether the thread has ended. -/
def OldCall.isExited {π : Type} : OldCall limits π → Bool
  | .exited _ => true
  | _ => false

/-- `owner_pcb` and `ptcb` of a TCB, and where its thread is. -/
structure OldThread (limits : Limits) (π : Type) where
  owner : Fin limits.maxProc
  ptcb : π
  call : OldCall limits π
  deriving DecidableEq

/-- What the last step returned to its thread. -/
inductive OldReply (limits : Limits) (π : Type)
  | none
  | exec (pid : Option (Fin limits.maxProc))
  | waitChild (child : Option (Fin limits.maxProc × Int))
  | createThread (tid : Option π)
  | threadJoin (target : Option (Nat × Int))
  | threadDetach (result : Int)
  | openStreams (fids : Option (List (Fin limits.maxFileid)))
  | dup2 (result : Int)
  | startTransfer (found : Bool)
  deriving DecidableEq

/-- What the threads do. -/
inductive OldAction (π : Type)
  | exec
      (t : Nat)
      (call : Option Task)
      (argl : Int)
      (args : Nat)
      (memory : Nat → UInt8)
      (ptcb : π)
  | exit (t : Nat) (exitval : Int)
  | waitChild (t : Nat) (cpid : Int)
  | createThread
      (t : Nat)
      (task : Option Task)
      (argl : Int)
      (args : Nat)
      (ptcb : π)
  | threadExit (t : Nat) (exitval : Int)
  | threadJoin (t : Nat) (tid : Option π)
  | threadDetach (t : Nat) (tid : Option π)
  | openNull (t : Nat)
  | openTerminal (t termno : Nat)
  | openInfo (t : Nat)
  | pipe (t : Nat)
  | close (t : Nat) (fd : Int)
  | dup2 (t : Nat) (oldfd newfd : Int)
  /-- `Read` or `Write` -/
  | startTransfer (t : Nat) (fd : Int)
  /-- A waiting call goes on. -/
  | resume (t : Nat)

/-- The thread that takes the step. -/
def OldAction.thread {π : Type} : OldAction π → Nat
  | .exec t _ _ _ _ _ | .exit t _ | .waitChild t _ | .createThread t _ _ _ _
  | .threadExit t _ | .threadJoin t _ | .threadDetach t _ | .openNull t
  | .openTerminal t _ | .openInfo t | .pipe t | .close t _ | .dup2 t _ _
  | .startTransfer t _ | .resume t => t

/-- The tables of the kernel; `live` are the PTCBs that have been allocated and
not freed. -/
structure OldKernel (limits : Limits) (π : Type) where
  procs : ProcTable limits
  files : FileTable limits
  threads : List (OldThread limits π)
  ptcb : π → OldPtcb
  live : π → Bool
  ptcbLists : RlHeap (OldPtcbNode limits π) (Option π)
  ports : Nat
  reply : OldReply limits π

namespace OldKernel

variable {π : Type} [DecidableEq π]

/-- The thread goes on at another point. -/
def goto
    (kernel : OldKernel limits π)
    (t : Nat)
    (call : OldCall limits π) : OldKernel limits π :=
  { kernel with
    threads := kernel.threads.modify t fun thread => { thread with call := call }
    reply := .none }

/-- The call returns to the thread's own code. -/
def returning
    (kernel : OldKernel limits π)
    (t : Nat)
    (reply : OldReply limits π) : OldKernel limits π :=
  { kernel.goto t .own with reply := reply }

/-- Assign to some fields of one PTCB. -/
def modifyPtcb
    (kernel : OldKernel limits π)
    (ptcb : π)
    (change : OldPtcb → OldPtcb) : OldKernel limits π :=
  { kernel with
    ptcb := Function.update kernel.ptcb ptcb (change (kernel.ptcb ptcb)) }

/-! ## Creating threads and processes -/

/-- `spawn_thread`, `create_ptcb`, `thread_count++` and `wakeup`. -/
def startThread
    (kernel : OldKernel limits π)
    (owner : Fin limits.maxProc)
    (task : Option Task)
    (argl : Int)
    (args : Nat)
    (ptcb : π) : OldKernel limits π :=
  { kernel with
    procs := kernel.procs.modifyPcb owner fun block =>
      { block with threadCount := block.threadCount + 1 }
    threads := kernel.threads ++ [⟨owner, ptcb, .own⟩]
    ptcb := Function.update kernel.ptcb ptcb
      { thread := kernel.threads.length, task := task, argl := argl
        args := args, exitval := 0, exited := false, detached := false
        refcount := 0 }
    live := Function.update kernel.live ptcb true
    ptcbLists := (kernel.ptcbLists.rlnodeInit (.node ptcb)
      (some ptcb)).rlistPushBack (.list owner) (.node ptcb) }

/-- `sys_Exec` by a thread of process `curproc`, with the process it creates; the
memory at `args` can be read unless `args` is null. -/
def sysExec
    (kernel : OldKernel limits π)
    (curproc : Option (Fin limits.maxProc))
    (call : Option Task)
    (argl : Int)
    (args : Nat)
    (memory : Nat → UInt8)
    (ptcb : π) :
    Except OldFault (Option (Fin limits.maxProc) × OldKernel limits π) := do
  let (newproc, procs) ← kernel.procs.exec curproc call argl
    (if args = 0 then none else some fun offset => memory (args + offset))
  match newproc with
  | none => return (none, { kernel with procs := procs })
  | some newproc =>
      let files := kernel.files.newFiles newproc
        (ProcTable.newParent newproc curproc)
      let kernel := { kernel with procs := procs, files := files }
      match call with
      | none => return (some newproc, kernel)
      | some _ => return (some newproc,
          kernel.startThread newproc call argl args ptcb)

/-- `sys_CreateThread` -/
def sysCreateThread
    (kernel : OldKernel limits π)
    (curproc : Fin limits.maxProc)
    (task : Option Task)
    (argl : Int)
    (args : Nat)
    (ptcb : π) : Option π × OldKernel limits π :=
  match task with
  | none => (none, kernel)
  | some _ => (some ptcb, kernel.startThread curproc task argl args ptcb)

/-! ## Ending threads and processes -/

/-- `sys_ThreadExit` for the last thread of a process.  The loop that is to free
the PTCBs tests the list the wrong way round: it is skipped when there are PTCBs
and does not end when there are none. -/
def endProcess
    (kernel : OldKernel limits π)
    (curproc : Fin limits.maxProc) : Except OldFault (OldKernel limits π) := do
  let procs ← kernel.procs.endProcess curproc
  if kernel.ptcbLists.isRlistEmpty (.list curproc) then .error .endless
  else return { kernel with
    procs := procs
    files := FileTable.closeFiles curproc (List.finRange limits.maxFileid)
      kernel.files }

/-- `sys_ThreadExit`: the PTCB is marked and the thread is no longer counted. -/
def markExited
    (kernel : OldKernel limits π)
    (curproc : Fin limits.maxProc)
    (ptcb : π)
    (exitval : Int) : OldKernel limits π :=
  { kernel.modifyPtcb ptcb fun block =>
      { block with exitval := exitval, exited := true } with
    procs := kernel.procs.modifyPcb curproc fun block =>
      { block with threadCount := block.threadCount - 1 } }

/-- `sys_ThreadExit`: the process ends with its last thread. -/
def endIfLast
    (kernel : OldKernel limits π)
    (curproc : Fin limits.maxProc) : Except OldFault (OldKernel limits π) :=
  if (kernel.procs.pcb curproc).threadCount = 0 then kernel.endProcess curproc
  else .ok kernel

/-- `sys_ThreadExit` by a thread of process `curproc` with the given PTCB. -/
def sysThreadExit
    (kernel : OldKernel limits π)
    (t : Nat)
    (curproc : Fin limits.maxProc)
    (ptcb : π)
    (exitval : Int) : Except OldFault (OldKernel limits π) :=
  if kernel.live ptcb = false then .error .freedMemory
  else do
    let kernel ← (kernel.markExited curproc ptcb exitval).endIfLast curproc
    return kernel.goto t (.exited exitval)

/-- The loop of `sys_Exit` for the initial process, and what follows it. -/
def exitLoop
    (kernel : OldKernel limits π)
    (t : Nat)
    (curproc : Fin limits.maxProc)
    (ptcb : π)
    (exitval : Int) : Except OldFault (OldKernel limits π) := do
  let (ended, procs) ←
    ProcTable.reapAll curproc (limits.maxProc + 1) kernel.procs
  let kernel := { kernel with procs := procs }
  if ended then kernel.sysThreadExit t curproc ptcb exitval
  else return kernel.goto t (.exiting exitval)

/-- `sys_Exit` -/
def sysExit
    (kernel : OldKernel limits π)
    (t : Nat)
    (curproc : Fin limits.maxProc)
    (ptcb : π)
    (exitval : Int) : Except OldFault (OldKernel limits π) :=
  let kernel := { kernel with
    procs := kernel.procs.modifyPcb curproc fun block =>
      { block with exitval := exitval } }
  if curproc.val = 1 then kernel.exitLoop t curproc ptcb exitval
  else kernel.sysThreadExit t curproc ptcb exitval

/-! ## Waiting -/

/-- What a call of `sys_WaitChild` does before its next `kernel_wait`; `call` is
where it waits. -/
def waitOutcome
    (kernel : OldKernel limits π)
    (t : Nat)
    (call : OldCall limits π) : ProcTable.WaitOutcome limits →
      OldKernel limits π
  | .noChild => kernel.returning t (.waitChild none)
  | .waits => kernel.goto t call
  | .reaped child exitval procs =>
      { kernel with procs := procs }.returning t
        (.waitChild (some (child, exitval)))

/-- The loop of `wait_for_any_child`, and what follows it. -/
def waitAnyLoop
    (kernel : OldKernel limits π)
    (t : Nat)
    (curproc : Fin limits.maxProc) : Except OldFault (OldKernel limits π) := do
  let outcome ← kernel.procs.pollAny curproc
  return kernel.waitOutcome t .waitsAny outcome

/-- The loop of `wait_for_specific_child`, and what follows it. -/
def waitChildLoop
    (kernel : OldKernel limits π)
    (t : Nat)
    (child : Fin limits.maxProc) : OldKernel limits π :=
  kernel.waitOutcome t (.waitsFor child) (kernel.procs.pollChild child)

/-- `sys_WaitChild` -/
def sysWaitChild
    (kernel : OldKernel limits π)
    (t : Nat)
    (curproc : Fin limits.maxProc)
    (cpid : Int) : Except OldFault (OldKernel limits π) :=
  if cpid ≠ -1 then do
    match ← kernel.procs.legalChild curproc cpid with
    | none => return kernel.returning t (.waitChild none)
    | some child => return kernel.waitChildLoop t child
  else kernel.waitAnyLoop t curproc

/-! ## Joining and detaching -/

/-- `rlist_find(&CURPROC->ptcb_list, (PTCB *)tid, NULL)` -/
def findPtcb
    (kernel : OldKernel limits π)
    (curproc : Fin limits.maxProc)
    (tid : Option π) : Except OldFault (Option π) :=
  match kernel.ptcbLists.rlistFind (kernel.threads.length + 1) (.list curproc)
      tid none with
  | none => .error .endless
  | some none => .ok none
  | some (some node) => .ok (kernel.ptcbLists node).obj

/-- The loop of `sys_ThreadJoin`, and what follows it. -/
def joinLoop
    (kernel : OldKernel limits π)
    (t : Nat)
    (ptcb : π)
    (target : Nat) : Except OldFault (OldKernel limits π) :=
  if kernel.live ptcb = false then .error .freedMemory
  else if (kernel.ptcb ptcb).detached then
    .ok (kernel.returning t (.threadJoin none))
  else if (kernel.ptcb ptcb).exited then
    let kernel := kernel.modifyPtcb ptcb fun block =>
      { block with refcount := block.refcount - 1 }
    let reply := .threadJoin (some (target, (kernel.ptcb ptcb).exitval))
    if (kernel.ptcb ptcb).refcount = 0 then
      .ok ({ kernel with
        ptcbLists := kernel.ptcbLists.rlistRemove (.node ptcb)
        live := Function.update kernel.live ptcb false }.returning t reply)
    else .ok (kernel.returning t reply)
  else .ok (kernel.goto t (.joining ptcb target))

/-- `sys_ThreadJoin` by a thread of process `curproc` with PTCB `self`. -/
def sysThreadJoin
    (kernel : OldKernel limits π)
    (t : Nat)
    (curproc : Fin limits.maxProc)
    (self : π)
    (tid : Option π) : Except OldFault (OldKernel limits π) :=
  if some self = tid then .ok (kernel.returning t (.threadJoin none))
  else do
    match ← kernel.findPtcb curproc tid with
    | none => return kernel.returning t (.threadJoin none)
    | some ptcb =>
        if kernel.live ptcb = false then .error .freedMemory
        else if (kernel.ptcb ptcb).detached then
          return kernel.returning t (.threadJoin none)
        else
          let kernel := kernel.modifyPtcb ptcb fun block =>
            { block with refcount := block.refcount + 1 }
          kernel.joinLoop t ptcb (kernel.ptcb ptcb).thread

/-- `sys_ThreadDetach` -/
def sysThreadDetach
    (kernel : OldKernel limits π)
    (t : Nat)
    (curproc : Fin limits.maxProc)
    (tid : Option π) : Except OldFault (OldKernel limits π) := do
  match ← kernel.findPtcb curproc tid with
  | none => return kernel.returning t (.threadDetach (-1))
  | some ptcb =>
      if kernel.live ptcb = false then .error .freedMemory
      else if (kernel.ptcb ptcb).exited then
        return kernel.returning t (.threadDetach (-1))
      else return (kernel.modifyPtcb ptcb fun block =>
        { block with detached := true }).returning t (.threadDetach 0)

/-! ## Streams -/

/-- `sys_Read` or `sys_Write` up to the call of the stream, with what was found. -/
def beginTransfer
    (kernel : OldKernel limits π)
    (t : Nat) : Option (Fin limits.maxFiles) × FileTable limits →
      OldKernel limits π
  | (none, _) => kernel.returning t (.startTransfer false)
  | (some fcb, files) =>
      { { kernel with files := files }.goto t (.streaming fcb) with
        reply := .startTransfer true }

/-- The rest of `sys_Read` or `sys_Write`. -/
def endTransfer
    (kernel : OldKernel limits π)
    (t : Nat)
    (fcb : Fin limits.maxFiles) : OldKernel limits π :=
  { kernel with files := kernel.files.FCBDecref fcb }.goto t .own

/-- The call has opened streams, or not. -/
def returnOpened
    (kernel : OldKernel limits π)
    (t : Nat)
    (opened : Except OldFault
      (Option (List (Fin limits.maxFileid)) × FileTable limits)) :
    Except OldFault (OldKernel limits π) := do
  let (fids, files) ← opened
  return { kernel with files := files }.returning t (.openStreams fids)

/-! ## Steps -/

/-- One step of thread `t`, which has the given TCB. -/
def threadStep
    (kernel : OldKernel limits π)
    (t : Nat)
    (thread : OldThread limits π) :
    OldAction π → Except OldFault (OldKernel limits π)
  | .exec _ call argl args memory ptcb => do
      let (newproc, kernel) ← kernel.sysExec (some thread.owner) call argl args
        memory ptcb
      return kernel.returning t (.exec newproc)
  | .exit _ exitval => kernel.sysExit t thread.owner thread.ptcb exitval
  | .waitChild _ cpid => kernel.sysWaitChild t thread.owner cpid
  | .createThread _ task argl args ptcb =>
      let (tid, kernel) := kernel.sysCreateThread thread.owner task argl args
        ptcb
      .ok (kernel.returning t (.createThread tid))
  | .threadExit _ exitval =>
      kernel.sysThreadExit t thread.owner thread.ptcb exitval
  | .threadJoin _ tid =>
      kernel.sysThreadJoin t thread.owner thread.ptcb tid
  | .threadDetach _ tid => kernel.sysThreadDetach t thread.owner tid
  | .openNull _ => kernel.returnOpened t (kernel.files.sysOpenNull thread.owner)
  | .openTerminal _ termno => kernel.returnOpened t
      (kernel.files.sysOpenTerminal thread.owner kernel.ports termno)
  | .openInfo _ => kernel.returnOpened t (kernel.files.sysOpenInfo thread.owner)
  | .pipe _ => kernel.returnOpened t (kernel.files.sysPipe thread.owner)
  | .close _ fd => .ok ({ kernel with
      files := kernel.files.sysClose thread.owner fd }.returning t .none)
  | .dup2 _ oldfd newfd =>
      let (result, files) := kernel.files.sysDup2 thread.owner oldfd newfd
      .ok ({ kernel with files := files }.returning t (.dup2 result))
  | .startTransfer _ fd =>
      .ok (kernel.beginTransfer t (kernel.files.startTransfer thread.owner fd))
  | .resume _ =>
      match thread.call with
      | .waitsFor child => .ok (kernel.waitChildLoop t child)
      | .waitsAny => kernel.waitAnyLoop t thread.owner
      | .exiting exitval =>
          kernel.exitLoop t thread.owner thread.ptcb exitval
      | .joining ptcb target => kernel.joinLoop t ptcb target
      | .streaming fcb => .ok (kernel.endTransfer t fcb)
      | .own | .exited _ => .ok kernel

/-- One step. -/
def step
    (kernel : OldKernel limits π)
    (action : OldAction π) : Except OldFault (OldKernel limits π) :=
  match kernel.threads[action.thread]? with
  | none => .ok kernel
  | some thread => kernel.threadStep action.thread thread action

/-- A thread makes calls from its own code, and goes on with a call in which it
waits; a new PTCB is not in use. -/
def Takes
    (kernel : OldKernel limits π)
    (thread : OldThread limits π) : OldAction π → Prop
  | .resume _ => thread.call.isWaiting = true
  | .exec _ _ _ _ _ ptcb | .createThread _ _ _ _ ptcb =>
      thread.call = .own ∧ kernel.live ptcb = false
  | _ => thread.call = .own

/-- The thread exists and may take the step. -/
def Enabled (kernel : OldKernel limits π) (action : OldAction π) : Prop :=
  match kernel.threads[action.thread]? with
  | none => False
  | some thread => kernel.Takes thread action

instance
    (kernel : OldKernel limits π)
    (thread : OldThread limits π)
    (action : OldAction π) :
    Decidable (kernel.Takes thread action) :=
  match action with
  | .resume _ => inferInstanceAs (Decidable (_ = _))
  | .exec _ _ _ _ _ _ | .createThread _ _ _ _ _ =>
      inferInstanceAs (Decidable (_ ∧ _))
  | .exit _ _ | .waitChild _ _ | .threadExit _ _ | .threadJoin _ _
  | .threadDetach _ _ | .openNull _ | .openTerminal _ _ | .openInfo _ | .pipe _
  | .close _ _ | .dup2 _ _ _ | .startTransfer _ _ => inferInstanceAs (Decidable (_ = _))

instance (kernel : OldKernel limits π) (action : OldAction π) :
    Decidable (kernel.Enabled action) := by
  unfold Enabled
  cases kernel.threads[action.thread]? with
  | none => exact instDecidableFalse
  | some thread => exact inferInstanceAs (Decidable (kernel.Takes thread action))

/-! ## Start-up -/

/-- The tables before the first process is created. -/
def initial (limits : Limits) (π : Type) [DecidableEq π] (ports : Nat) :
    OldKernel limits π where
  procs := (ProcTable.zero limits).initializeProcesses
  files := FileTable.zero limits
  threads := []
  ptcb := fun _ =>
    { thread := 0, task := none, argl := 0, args := 0, exitval := 0
      exited := false, detached := false, refcount := 0 }
  live := fun _ => false
  ptcbLists := (List.finRange limits.maxProc).foldl
    (fun heap pid => heap.rlnodeInit (.list pid) none)
    fun _ => { obj := none, prev := .null, next := .null }
  ports := ports
  reply := .none

/-- `boot_tinyos_kernel` up to `run_scheduler`: the process of the scheduler has
no task, and the initial process runs the given one. -/
def boot
    (limits : Limits)
    (ports : Nat)
    (task : Task)
    (argl : Int)
    (args : Nat)
    (memory : Nat → UInt8)
    (ptcb : π) : Except OldFault (OldKernel limits π) := do
  let (scheduler, kernel) ← (initial limits π ports).sysExec none none 0 0 memory
    ptcb
  if scheduler.map Fin.val ≠ some 0 then .error .fatal
  else do
    let kernel := { kernel with files := kernel.files.initializeFiles }
    let (init, kernel) ← kernel.sysExec none (some task) argl args memory ptcb
    if init.map Fin.val ≠ some 1 then .error .fatal
    else return kernel

/-- The states of all runs. -/
def Occurs (kernel : OldKernel limits π) : Prop :=
  ∃ ports task argl args memory ptcb start,
    boot limits ports task argl args memory ptcb = .ok start ∧
      Reachable step Enabled start kernel

/-- Nobody waits for a process that has been reaped. -/
def NoneStranded (kernel : OldKernel limits π) : Prop :=
  ∀ thread ∈ kernel.threads, ∀ child, thread.call = .waitsFor child →
    kernel.procs.pstate child ≠ .free

/-- A step that leaves nobody waiting for a process that has been reaped.  One
that does not, a call of `WaitChild` for a child that another thread waits for by
its pid, lets that thread release the PCB for a second time. -/
def Allowed (kernel : OldKernel limits π) (action : OldAction π) : Prop :=
  kernel.Enabled action ∧
    ∀ after, kernel.step action = .ok after → after.NoneStranded

instance (kernel : OldKernel limits π) : Decidable kernel.NoneStranded :=
  inferInstanceAs (Decidable (∀ thread ∈ kernel.threads, _))

instance (kernel : OldKernel limits π) (action : OldAction π) :
    Decidable (kernel.Allowed action) :=
  match stepped : kernel.step action with
  | .error fault => decidable_of_iff (kernel.Enabled action)
      ⟨fun enabled => ⟨enabled, by simp [stepped]⟩, And.left⟩
  | .ok after => decidable_of_iff (kernel.Enabled action ∧ after.NoneStranded)
      (by simp [Allowed, stepped])

/-- The states of those runs in which no call of `WaitChild` reaps a process that
another thread waits for by its pid. -/
def Reached (kernel : OldKernel limits π) : Prop :=
  ∃ ports task argl args memory ptcb start,
    boot limits ports task argl args memory ptcb = .ok start ∧
      Reachable step Allowed start kernel

theorem Reached.occurs
    {kernel : OldKernel limits π}
    (reached : Reached kernel) :
    Occurs kernel := by
  obtain ⟨ports, task, argl, args, memory, ptcb, start, booted, reachable⟩ :=
    reached
  exact ⟨ports, task, argl, args, memory, ptcb, start, booted,
    reachable.of_steps fun _ allowed => allowed.1⟩

end OldKernel
end TinierOS
