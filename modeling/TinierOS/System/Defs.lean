import TinierOS.Streams.Defs
import TinierOS.Library.Transition

/-!
# The running system

Threads run their own code until they make a system call or are interrupted by
`ALARM`.  A system call is atomic up to its yield points: the polling loops of
`sys_WaitChild` and `sys_ThreadJoin` yield and test their condition again when
the thread gets the core back, so the system remembers for each thread the loop
it is suspended in.  The scheduler alone decides which thread is current.
-/

namespace TinierOS

variable {limits : Limits}

/-- Where a thread continues when it gets the core. -/
inductive Control (limits : Limits)
  /-- At the beginning of `thread_func`. -/
  | fresh
  /-- In its own code. -/
  | user
  /-- In the loop of `sys_WaitChild(child, status)`. -/
  | waitChild (child : Fin limits.maxProc) (status : Bool)
  /-- In the second loop of `sys_WaitChild(NOPROC, status)`. -/
  | waitAny (parent : Fin limits.maxProc) (status : Bool)
  /-- In the loop of `sys_ThreadJoin(ptcb, exitval)`. -/
  | join (ptcb : Fin limits.maxThreads) (exitval : Bool)
  deriving DecidableEq

/-- What the last step returned to its caller. -/
inductive Reply (limits : Limits)
  | none
  | exec (pid : Option (Fin limits.maxProc))
  | waitChild (pid : Option (Fin limits.maxProc)) (status : Option Int)
  | createThread (tid : Option (Fin limits.maxThreads))
  | threadJoin (result : Int) (exitval : Option Int)
  | threadDetach (result : Int)
  | openStream (fid : Option (Fin limits.maxFileid))
  | close (result : Int)
  deriving DecidableEq

/-- The values one `yield` reads: what `bios_cancel_timer` and `bios_clock`
return. -/
structure Clock where
  remaining : TimerDuration
  curtime : TimerDuration

/-- A clock that has not advanced. -/
def Clock.zero : Clock := ⟨0, 0⟩

/-- The steps of the system: what the current thread does, with the answers of
the timer. -/
inductive Action (limits : Limits)
  /-- The loop of `idle_thread`. -/
  | idle (clock : Clock)
  /-- `start_main_thread` or `start_main_pthread` calls its task. -/
  | start
  /-- `yield`, from the interrupt handler or from a device. -/
  | yield (cause : SchedCause) (clock : Clock)
  | wakeup (slot : Fin limits.maxThreads)
  | exec
      (call : Option Task)
      (argl : Int)
      (args : ArgPtr limits)
      (memory : Nat → UInt8)
  | exit (exitval : Int) (clock : Clock)
  | waitChild (cpid : Int) (status : Bool) (clock : Clock)
  | createThread (task : Option Task) (argl : Int) (args : ArgPtr limits)
  | threadExit (exitval : Int) (clock : Clock)
  | threadJoin
      (tid : Option (Fin limits.maxThreads))
      (exitval : Bool)
      (clock : Clock)
  | threadDetach (tid : Option (Fin limits.maxThreads))
  | openNull
  | openTerminal (termno : Nat)
  | close (fd : Int)
  /-- The thread is back from the `yield` of its polling loop. -/
  | resume (clock : Clock)

/-- The kernel, the place where each thread of the pool is suspended, and the
last reply. -/
structure System (limits : Limits) where
  kernel : Kernel limits
  control : Fin limits.maxThreads → Control limits
  reply : Reply limits

namespace System

/-- The current thread, when it is one of the pool. -/
def currentSlot (system : System limits) : Option (Fin limits.maxThreads) :=
  match system.kernel.sched.currentThread with
  | some (.slot slot) => some slot
  | _ => none

/-- The place where the current thread continues. -/
def currentControl (system : System limits) : Option (Control limits) :=
  system.currentSlot.map system.control

/-- A step that returns to the thread's own code. -/
def returning
    (system : System limits)
    (slot : Fin limits.maxThreads)
    (kernel : Kernel limits)
    (reply : Reply limits) : System limits where
  kernel := kernel
  control := Function.update system.control slot .user
  reply := reply

/-- A call of `yield` by the current thread, suspended at `control`. -/
def suspend
    (system : System limits)
    (slot : Fin limits.maxThreads)
    (control : Control limits)
    (cause : SchedCause)
    (clock : Clock) : Except Fault (System limits) := do
  let sched ← system.kernel.sched.yield cause clock.remaining clock.curtime
  return {
    kernel := { system.kernel with sched := sched }
    control := Function.update system.control slot control
    reply := .none }

/-- The loop of `sys_WaitChild` for a specific child. -/
def waitChildLoop
    (system : System limits)
    (slot : Fin limits.maxThreads)
    (child : Fin limits.maxProc)
    (status : Bool)
    (clock : Clock) : Except Fault (System limits) :=
  match system.kernel.pollChild child with
  | none => system.suspend slot (.waitChild child status) .user clock
  | some (exitval, kernel) => .ok (system.returning slot kernel
      (.waitChild (some child) (if status then some exitval else none)))

/-- The loop of `sys_WaitChild` for any child. -/
def waitAnyLoop
    (system : System limits)
    (slot : Fin limits.maxThreads)
    (parent : Fin limits.maxProc)
    (status : Bool)
    (clock : Clock) : Except Fault (System limits) :=
  match system.kernel.pollAny parent with
  | .error fault => .error fault
  | .ok none => system.suspend slot (.waitAny parent status) .user clock
  | .ok (some (child, exitval, kernel)) => .ok (system.returning slot kernel
      (.waitChild (some child) (if status then some exitval else none)))

/-- `sys_WaitChild` -/
def sysWaitChild
    (system : System limits)
    (slot : Fin limits.maxThreads)
    (cpid : Int)
    (status : Bool)
    (clock : Clock) : Except Fault (System limits) :=
  let parent := (system.kernel.sched.tcb (.slot slot)).ownerPcb
  if cpid ≠ -1 then
    match system.kernel.getPcb cpid with
    | none => .ok (system.returning slot system.kernel (.waitChild none none))
    | some child =>
        if (system.kernel.pcb child).parent ≠ parent then
          .ok (system.returning slot system.kernel (.waitChild none none))
        else system.waitChildLoop slot child status clock
  else match parent with
    | none => .error .nullPointer
    | some parent =>
        if system.kernel.children.isRlistEmpty (.list parent) then
          .ok (system.returning slot system.kernel (.waitChild none none))
        else system.waitAnyLoop slot parent status clock

/-- The loop of `sys_ThreadJoin`. -/
def joinLoop
    (system : System limits)
    (slot ptcb : Fin limits.maxThreads)
    (exitval : Bool)
    (clock : Clock) : Except Fault (System limits) :=
  if (system.kernel.ptcb ptcb).exited then
    .ok (system.returning slot system.kernel (.threadJoin 0
      (if exitval then some (system.kernel.ptcb ptcb).exitval else none)))
  else system.suspend slot (.join ptcb exitval) .user clock

/-- `sys_ThreadJoin` -/
def sysThreadJoin
    (system : System limits)
    (slot : Fin limits.maxThreads)
    (tid : Option (Fin limits.maxThreads))
    (exitval : Bool)
    (clock : Clock) : Except Fault (System limits) :=
  match tid with
  | none => .ok (system.returning slot system.kernel (.threadJoin (-1) none))
  | some ptcb => system.joinLoop slot ptcb exitval clock

/-- A new thread starts at the beginning of its function. -/
def withNewThread
    (system before : System limits) : System limits :=
  { system with
    control := fun slot =>
      if before.kernel.sched.threadUsed slot then system.control slot
      else .fresh }

/-- A fresh thread calls its task: `start_main_thread` reads it from the PCB,
`start_main_pthread` from the PTCB. -/
def startTask
    (system : System limits)
    (slot : Fin limits.maxThreads) : Except Fault (System limits) :=
  let block := system.kernel.sched.tcb (.slot slot)
  match block.threadFunc, block.ownerPcb, block.ptcb with
  | some .startMainThread, some _, _ =>
      .ok (system.returning slot system.kernel .none)
  | some .startMainPthread, _, some _ =>
      .ok (system.returning slot system.kernel .none)
  | _, _, _ => .error .nullPointer

/-- One step of the current thread of the pool. -/
def threadStep
    (system : System limits)
    (slot : Fin limits.maxThreads) :
    Action limits → Except Fault (System limits)
  | .idle _ => .ok system
  | .start => system.startTask slot
  | .yield cause clock =>
      system.suspend slot (system.control slot) cause clock
  | .wakeup other => do
      let woken ← system.kernel.sched.wakeup (.slot other)
      return system.returning slot { system.kernel with sched := woken.1 } .none
  | .exec call argl args memory => do
      let result ← system.kernel.sysExec call argl args memory
      return (system.returning slot result.2 (.exec result.1)).withNewThread
        system
  | .exit exitval clock => do
      let kernel ← system.kernel.sysExit exitval clock.remaining clock.curtime
      return system.returning slot kernel .none
  | .waitChild cpid status clock =>
      system.sysWaitChild slot cpid status clock
  | .createThread task argl args => do
      let result ← system.kernel.sysCreateThread task argl args
      return (system.returning slot result.2
        (.createThread result.1)).withNewThread system
  | .threadExit exitval clock => do
      let kernel ← system.kernel.sysThreadExit exitval clock.remaining
        clock.curtime
      return system.returning slot kernel .none
  | .threadJoin tid exitval clock =>
      system.sysThreadJoin slot tid exitval clock
  | .threadDetach tid =>
      let result := system.kernel.sysThreadDetach tid
      .ok (system.returning slot result.2 (.threadDetach result.1))
  | .openNull => do
      let result ← system.kernel.openStream .null 0
      return system.returning slot result.2 (.openStream result.1)
  | .openTerminal termno => do
      let result ← system.kernel.openStream .serial termno
      return system.returning slot result.2 (.openStream result.1)
  | .close fd => do
      let result ← system.kernel.sysClose fd
      return system.returning slot result.2 (.close result.1)
  | .resume clock =>
      match system.control slot with
      | .waitChild child status =>
          system.waitChildLoop slot child status clock
      | .waitAny parent status => system.waitAnyLoop slot parent status clock
      | .join ptcb exitval => system.joinLoop slot ptcb exitval clock
      | _ => .ok system

/-- One turn of the loop of `idle_thread`, which ends when no thread is left. -/
def idleStep
    (system : System limits)
    (clock : Clock) : Except Fault (System limits) :=
  if 0 < system.kernel.sched.activeThreads then do
    let sched ← system.kernel.sched.yield .idle clock.remaining clock.curtime
    return { system with
      kernel := { system.kernel with sched := sched }, reply := .none }
  else return { system with reply := .none }

/-- One step of the current thread. -/
def step
    (system : System limits)
    (action : Action limits) : Except Fault (System limits) :=
  match system.currentSlot, action with
  | some slot, action => system.threadStep slot action
  | none, .idle clock => system.idleStep clock
  | none, _ => .ok system

/-- The steps a thread can take at the place where it is: the idle thread runs
its loop, a fresh thread starts, a thread in its own code makes system calls, a
suspended one goes on with its loop.  Only code that runs with interrupts
enabled is preempted. -/
def Enabled (system : System limits) : Action limits → Prop
  | .idle _ => system.currentSlot = none
  | .start => system.currentControl = some .fresh
  | .yield _ _ =>
      system.currentControl = some .fresh ∨ system.currentControl = some .user
  | .wakeup slot => system.currentControl = some .user ∧
      system.kernel.sched.threadUsed slot = true
  | .resume _ => system.currentControl ≠ none ∧
      system.currentControl ≠ some .fresh ∧
      system.currentControl ≠ some .user
  | _ => system.currentControl = some .user

instance (system : System limits) (action : Action limits) :
    Decidable (system.Enabled action) :=
  match action with
  | .idle _ => inferInstanceAs (Decidable (_ = _))
  | .yield _ _ => inferInstanceAs (Decidable (_ ∨ _))
  | .wakeup _ => inferInstanceAs (Decidable (_ ∧ _))
  | .resume _ => inferInstanceAs (Decidable (_ ∧ _ ∧ _))
  | .start | .exec _ _ _ _ | .exit _ _ | .waitChild _ _ _
  | .createThread _ _ _ | .threadExit _ _ | .threadJoin _ _ _
  | .threadDetach _ | .openNull | .openTerminal _ | .close _ =>
      inferInstanceAs (Decidable (system.currentControl = some _))

end System

/-- The task of the first process. -/
abbrev testProcess : Task := 0

/-- `main` up to `run_scheduler`: the kernel is initialised and the first
process created. -/
def Kernel.initialize (limits : Limits) : Except Fault (Kernel limits) := do
  let kernel := Kernel.zero limits
  let kernel := { kernel with sched := kernel.sched.initializeScheduler }
  let kernel := kernel.initializeProcesses.initializeFiles
  let result ← kernel.sysExec (some testProcess) 0 .null fun _ => 0
  return result.2

/-- The system when `idle_thread` starts. -/
def System.boot (limits : Limits) : Except Fault (System limits) := do
  let kernel ← Kernel.initialize limits
  return {
    kernel := { kernel with
      sched := kernel.sched.runScheduler (kernel.getPcb 0) }
    control := fun _ => .fresh
    reply := .none }

/-- The states of all runs whose steps are allowed. -/
def System.Reached
    (allowed : System limits → Action limits → Prop)
    (system : System limits) : Prop :=
  ∃ start, System.boot limits = .ok start ∧
    Reachable System.step
      (fun system action => system.Enabled action ∧ allowed system action)
      start system

/-- Steps that are allowed in the states of a run may be allowed for another
reason. -/
theorem System.Reached.of_steps
    {allowed other : System limits → Action limits → Prop}
    {system : System limits}
    (reached : System.Reached allowed system)
    (implies : ∀ {before action}, System.Reached allowed before →
      allowed before action → other before action) :
    System.Reached other system := by
  obtain ⟨start, booted, reachable⟩ := reached
  refine ⟨start, booted, reachable.of_steps fun earlier enabled => ?_⟩
  exact ⟨enabled.1, implies ⟨start, booted, earlier⟩ enabled.2⟩

/-- Allowing more steps reaches more states. -/
theorem System.Reached.mono
    {allowed wider : System limits → Action limits → Prop}
    {system : System limits}
    (reached : System.Reached allowed system)
    (implies : ∀ {before action}, allowed before action →
      wider before action) :
    System.Reached wider system :=
  reached.of_steps fun _ => implies

/-- Start the system and take the given steps, as long as each is possible and
allowed. -/
def System.run
    (allowed : System limits → Action limits → Prop)
    [∀ system action, Decidable (allowed system action)]
    (actions : List (Action limits)) : Option (System limits) :=
  match System.boot limits with
  | .error _ => none
  | .ok start => runActions System.step
      (fun system action => system.Enabled action ∧ allowed system action)
      actions start

/-- A run whose last state passes a test exhibits a reached state. -/
theorem System.exists_reached_of_any
    {allowed : System limits → Action limits → Prop}
    [∀ system action, Decidable (allowed system action)]
    {test : System limits → Bool}
    (actions : List (Action limits))
    (ran : (System.run allowed actions).any test = true) :
    ∃ system, System.Reached allowed system ∧ test system = true := by
  unfold System.run at ran
  cases booted : System.boot limits with
  | error fault =>
      rw [booted] at ran
      cases ran
  | ok start =>
      rw [booted] at ran
      obtain ⟨system, reached, passed⟩ := exists_reachable_of_any actions ran
      exact ⟨system, ⟨start, booted, reached⟩, passed⟩

end TinierOS
