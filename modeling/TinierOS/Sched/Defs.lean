import TinierOS.Util.Rlist
import TinierOS.Library.FirstIndex

/-!
# The scheduler

`include/kernel/kernel_sched.h` and `src/kernel/kernel_sched.c`: the thread
pool, the ten scheduler queues, the timeout list and the functions that move
threads between them.

Every function is one non-preemptive piece of code.  A failed `assert` (which
never returns: `abort` loops), an array access out of bounds, a null pointer
dereference and a loop that runs past every thread of the pool are faults.
`Mutex_Lock`, `Mutex_Unlock` and `cpu_core_restart_one` have empty bodies on
this machine and leave no trace here.
-/

namespace TinierOS

/-- The compile-time limits: `MAX_PROC`, `MAX_THREADS`, `MAX_FILEID` and
`MAX_FILES`. -/
structure Limits where
  maxProc : Nat
  maxThreads : Nat
  maxFileid : Nat
  maxFiles : Nat
  deriving DecidableEq

/-- The limits the sources are built with. -/
abbrev Limits.tinier : Limits := ⟨2, 2, 4, 4⟩

/-- `SCHED_QUEUES` -/
abbrev schedQueues : Nat := 10

theorem schedQueues_ne_zero : schedQueues ≠ 0 := by decide

instance : @NeZero Nat .ofOfNat0 schedQueues := ⟨schedQueues_ne_zero⟩

/-- `YIELD_RUNS` -/
abbrev yieldRuns : Nat := 1800

/-- `TimerDuration` is `uint32_t`. -/
abbrev TimerDuration := UInt32

/-- `NO_TIMEOUT`, that is `(TimerDuration) - 1`. -/
abbrev noTimeout : TimerDuration := 0xFFFFFFFF

/-- `QUANTUM` -/
abbrev quantum : TimerDuration := 10000

/-- `Thread_state` -/
inductive ThreadState
  | init
  | ready
  | running
  | stopped
  | exited
  deriving DecidableEq

/-- `Thread_phase` -/
inductive ThreadPhase
  | ctxClean
  | ctxDirty
  deriving DecidableEq

/-- `Thread_type` -/
inductive ThreadType
  | idleThread
  | normalThread
  deriving DecidableEq

/-- `enum SCHED_CAUSE` -/
inductive SchedCause
  | quantum
  | io
  | mutex
  | pipe
  | poll
  | idle
  | user
  deriving DecidableEq

/-- The functions passed to `spawn_thread`. -/
inductive ThreadFunc
  | startMainThread
  | startMainPthread
  deriving DecidableEq

/-- Address of a TCB: the core's idle thread or a slot of `thread_pool`. -/
inductive TcbPtr (limits : Limits)
  | idle
  | slot (index : Fin limits.maxThreads)
  deriving DecidableEq

/-- Address of a `sched_node` or of one of the list heads it may be linked to. -/
inductive SchedNode (limits : Limits)
  | null
  | queue (level : Fin schedQueues)
  | timeoutList
  | schedNode (tcb : TcbPtr limits)
  deriving DecidableEq

/-- The thread control block.  The `sched_node` is kept in the scheduler's heap;
the saved context belongs to the model of context switching. -/
structure TCB (limits : Limits) where
  ownerPcb : Option (Fin limits.maxProc)
  ptcb : Option (Fin limits.maxThreads)
  priority : Int
  type : ThreadType
  state : ThreadState
  phase : ThreadPhase
  threadFunc : Option ThreadFunc
  wakeupTime : TimerDuration
  its : TimerDuration
  rts : TimerDuration
  currCause : SchedCause
  lastCause : SchedCause
  deriving DecidableEq

/-- A TCB in zeroed static storage. -/
def TCB.zero (limits : Limits) : TCB limits where
  ownerPcb := none
  ptcb := none
  priority := 0
  type := .idleThread
  state := .init
  phase := .ctxClean
  threadFunc := none
  wakeupTime := 0
  its := 0
  rts := 0
  currCause := .quantum
  lastCause := .quantum

/-- The ways a kernel function can fail to return. -/
inductive Fault
  | assertMakeReadyState
  | assertMakeReadyLinked
  | assertSleepState
  | assertYieldNext
  | assertGainPrevious
  | outOfBounds
  | nullPointer
  | loopBound
  deriving DecidableEq

/-- The scheduler's variables: `thread_pool` with `cctx[0].idle_thread`,
`thread_used`, `active_threads`, the nodes of `SCHED`, `TIMEOUT_LIST` and the
TCBs, `yield_count`, and the two thread pointers of the core. -/
structure Sched (limits : Limits) where
  tcb : TcbPtr limits → TCB limits
  threadUsed : Fin limits.maxThreads → Bool
  activeThreads : Int
  heap : RlHeap (SchedNode limits) (Option (TcbPtr limits))
  yieldCount : Nat
  currentThread : Option (TcbPtr limits)
  previousThread : Option (TcbPtr limits)

namespace Sched

variable {limits : Limits}

/-- Static storage before `main`. -/
def zero (limits : Limits) : Sched limits where
  tcb := fun _ => TCB.zero limits
  threadUsed := fun _ => false
  activeThreads := 0
  heap := fun _ => { obj := none, prev := .null, next := .null }
  yieldCount := 0
  currentThread := none
  previousThread := none

/-- Assign to some fields of one TCB. -/
def modifyTcb
    (sched : Sched limits)
    (tcb : TcbPtr limits)
    (change : TCB limits → TCB limits) : Sched limits :=
  { sched with tcb := Function.update sched.tcb tcb (change (sched.tcb tcb)) }

/-! ## The thread pool -/

/-- The first free slot of `thread_pool`. -/
def freeSlot (sched : Sched limits) : Option (Fin limits.maxThreads) :=
  firstIndex fun slot => !sched.threadUsed slot

/-- `free_thread`: only slots of the pool are ever freed. -/
def freeThread (sched : Sched limits) : TcbPtr limits → Sched limits
  | .idle => sched
  | .slot index =>
      { sched with threadUsed := Function.update sched.threadUsed index false }

/-- `release_TCB` -/
def releaseTCB (sched : Sched limits) (tcb : TcbPtr limits) : Sched limits :=
  let sched := sched.freeThread tcb
  { sched with activeThreads := sched.activeThreads - 1 }

/-- The fields `spawn_thread` assigns: all of them. -/
def spawnedTCB
    (pcb : Option (Fin limits.maxProc))
    (func : ThreadFunc) : TCB limits where
  ownerPcb := pcb
  ptcb := none
  type := .normalThread
  state := .init
  phase := .ctxClean
  threadFunc := some func
  wakeupTime := noTimeout
  priority := 0
  its := quantum
  rts := quantum
  lastCause := .idle
  currCause := .idle

/-- `spawn_thread` once it has found a free slot. -/
def initThread
    (sched : Sched limits)
    (slot : Fin limits.maxThreads)
    (pcb : Option (Fin limits.maxProc))
    (func : ThreadFunc) : Sched limits :=
  { sched with
    threadUsed := Function.update sched.threadUsed slot true
    tcb := Function.update sched.tcb (.slot slot) (spawnedTCB pcb func)
    heap := sched.heap.rlnodeInit (.schedNode (.slot slot)) (some (.slot slot))
    activeThreads := sched.activeThreads + 1 }

/-- `spawn_thread`, with `none` for a `NULL` result. -/
def spawnThread
    (sched : Sched limits)
    (pcb : Option (Fin limits.maxProc))
    (func : ThreadFunc) : Option (Fin limits.maxThreads) × Sched limits :=
  match sched.freeSlot with
  | none => (none, sched)
  | some slot => (some slot, sched.initThread slot pcb func)

/-! ## Queues and timeouts -/

/-- The index expression of `SCHED[priority]`. -/
def queueIndex (priority : Int) : Option (Fin schedQueues) :=
  if inRange : 0 ≤ priority ∧ priority.toNat < schedQueues then
    some ⟨priority.toNat, inRange.2⟩
  else none

/-- `sched_queue_add` -/
def schedQueueAdd
    (sched : Sched limits)
    (tcb : TcbPtr limits) : Except Fault (Sched limits) :=
  match queueIndex (sched.tcb tcb).priority with
  | none => .error .outOfBounds
  | some level => .ok
      { sched with
        heap := sched.heap.rlistPushBack (.queue level) (.schedNode tcb) }

/-- The loop of `sched_register_timeout`: the first node from `node` on whose
thread wakes up later, or the list head. -/
def timeoutPosition
    (sched : Sched limits)
    (wakeupTime : TimerDuration) :
    Nat → SchedNode limits → Except Fault (SchedNode limits)
  | 0, _ => .error .loopBound
  | fuel + 1, node =>
      if node = .timeoutList then .ok node
      else match (sched.heap node).obj with
        | none => .error .nullPointer
        | some other =>
            if wakeupTime < (sched.tcb other).wakeupTime then .ok node
            else timeoutPosition sched wakeupTime fuel (sched.heap node).next

/-- `sched_register_timeout`; `curtime` is what `bios_clock` returns. -/
def schedRegisterTimeout
    (sched : Sched limits)
    (tcb : TcbPtr limits)
    (timeout curtime : TimerDuration) : Except Fault (Sched limits) :=
  if timeout = noTimeout then .ok sched
  else do
    let sched := sched.modifyTcb tcb fun block =>
      { block with wakeupTime := curtime + timeout }
    let node ← timeoutPosition sched (sched.tcb tcb).wakeupTime
      (limits.maxThreads + 1) (sched.heap .timeoutList).next
    return { sched with
      heap := sched.heap.rlSplice (sched.heap node).prev (.schedNode tcb) }

/-- The first half of `sched_make_ready`: take the thread out of
`TIMEOUT_LIST` if its `wakeup_time` says it is there. -/
def cancelTimeout
    (sched : Sched limits)
    (tcb : TcbPtr limits) : Except Fault (Sched limits) :=
  if (sched.tcb tcb).wakeupTime = noTimeout then .ok sched
  else if (sched.heap (.schedNode tcb)).next ≠ .schedNode tcb ∧
      (sched.tcb tcb).state = .stopped then
    .ok ({ sched with
        heap := sched.heap.rlistRemove (.schedNode tcb) }.modifyTcb tcb
      fun block => { block with wakeupTime := noTimeout })
  else .error .assertMakeReadyLinked

/-- `sched_make_ready` -/
def schedMakeReady
    (sched : Sched limits)
    (tcb : TcbPtr limits) : Except Fault (Sched limits) :=
  if (sched.tcb tcb).state = .stopped ∨ (sched.tcb tcb).state = .init then do
    let sched ← sched.cancelTimeout tcb
    let sched := sched.modifyTcb tcb fun block => { block with state := .ready }
    if (sched.tcb tcb).phase = .ctxClean then sched.schedQueueAdd tcb
    else return sched
  else .error .assertMakeReadyState

/-- The loop of `sched_wakeup_expired_timeouts`. -/
def wakeupExpiredLoop
    (curtime : TimerDuration) :
    Nat → Sched limits → Except Fault (Sched limits)
  | 0, _ => .error .loopBound
  | fuel + 1, sched =>
      if sched.heap.isRlistEmpty .timeoutList then .ok sched
      else match (sched.heap (sched.heap .timeoutList).next).obj with
        | none => .error .nullPointer
        | some tcb =>
            if curtime < (sched.tcb tcb).wakeupTime then .ok sched
            else do
              let sched ← sched.schedMakeReady tcb
              wakeupExpiredLoop curtime fuel sched

/-- `sched_wakeup_expired_timeouts`; `curtime` is what `bios_clock` returns. -/
def schedWakeupExpiredTimeouts
    (sched : Sched limits)
    (curtime : TimerDuration) : Except Fault (Sched limits) :=
  wakeupExpiredLoop curtime (limits.maxThreads + 1) sched

/-- The loop of `sched_queue_select`: the first non-empty level, or level 0. -/
def highestPriority (sched : Sched limits) : Fin schedQueues :=
  (firstIndex fun level =>
    !sched.heap.isRlistEmpty (.queue level)).getD 0

/-- `sched_queue_select`: the returned pointer and the scheduler afterwards.
Popping an empty list gives its head, whose key is null. -/
def schedQueueSelect
    (sched : Sched limits)
    (current : TcbPtr limits) : Option (TcbPtr limits) × Sched limits :=
  let popped := sched.heap.rlistPopFront (.queue sched.highestPriority)
  let sched := { sched with heap := popped.2 }
  let nextThread := (sched.heap popped.1).obj.orElse fun _ =>
    some (if (sched.tcb current).state = .ready then current else .idle)
  (nextThread, match nextThread with
    | none => sched
    | some tcb => sched.modifyTcb tcb fun block =>
        { block with its := quantum })

/-- The inner loop of `sched_boost_priority`: move the threads of one level to
the end of the level above it. -/
def boostLoop
    (level above : Fin schedQueues) :
    Nat → Sched limits → Except Fault (Sched limits)
  | 0, _ => .error .loopBound
  | fuel + 1, sched =>
      if sched.heap.isRlistEmpty (.queue level) then .ok sched
      else
        let popped := sched.heap.rlistPopFront (.queue level)
        let sched := { sched with
          heap := popped.2.rlistPushBack (.queue above) popped.1 }
        match (sched.heap popped.1).obj with
        | none => .error .nullPointer
        | some tcb =>
            boostLoop level above fuel (sched.modifyTcb tcb fun block =>
              { block with priority := block.priority - 1 })

/-- `sched_boost_priority`: levels 1 to 9, in this order. -/
def schedBoostPriority (sched : Sched limits) : Except Fault (Sched limits) :=
  (List.finRange 9).foldlM
    (fun sched above =>
      boostLoop above.succ above.castSucc (limits.maxThreads + 1) sched)
    sched

/-! ## Scheduler entry points -/

/-- `wakeup`: the scheduler afterwards and whether the thread was woken. -/
def wakeup
    (sched : Sched limits)
    (tcb : TcbPtr limits) : Except Fault (Sched limits × Bool) :=
  if (sched.tcb tcb).state = .stopped ∨ (sched.tcb tcb).state = .init then do
    let sched ← sched.schedMakeReady tcb
    return (sched, true)
  else return (sched, false)

/-- The `switch (cause)` of `yield`. -/
def adjustPriority (block : TCB limits) : SchedCause → Int
  | .io => if block.priority > 0 then block.priority - 1 else block.priority
  | .quantum =>
      if block.priority < (schedQueues : Int) - 1 then block.priority + 1
      else block.priority
  | .mutex =>
      if block.currCause = block.lastCause ∧
          block.priority < (schedQueues : Int) - 1 then
        block.priority + 1
      else block.priority
  | _ => block.priority

/-- What `yield` does to the TCB of the yielding thread. -/
def yieldTCB
    (cause : SchedCause)
    (remaining : TimerDuration)
    (block : TCB limits) : TCB limits :=
  let block := { block with
    state := if block.state = ThreadState.running then .ready else block.state
    rts := remaining
    lastCause := block.currCause
    currCause := cause }
  { block with priority := adjustPriority block cause }

/-- The yield counter and the boost it triggers. -/
def countYield (sched : Sched limits) : Except Fault (Sched limits) :=
  let sched := { sched with yieldCount := sched.yieldCount + 1 }
  if sched.yieldCount = yieldRuns then do
    let sched ← sched.schedBoostPriority
    return { sched with yieldCount := 0 }
  else return sched

/-- `yield` up to the context switch.  `remaining` and `curtime` are what
`bios_cancel_timer` and `bios_clock` return. -/
def yieldSwitch
    (sched : Sched limits)
    (cause : SchedCause)
    (remaining curtime : TimerDuration) : Except Fault (Sched limits) :=
  match sched.currentThread with
  | none => .error .nullPointer
  | some current => do
      let sched ← sched.countYield
      let sched := sched.modifyTcb current (yieldTCB cause remaining)
      let sched ← sched.schedWakeupExpiredTimeouts curtime
      match sched.schedQueueSelect current with
      | (none, _) => throw .assertYieldNext
      | (some next, sched) => return { sched with
          previousThread := some current
          currentThread := some next }

/-- `gain`, first part: mark the thread that got the core. -/
def gainCurrent
    (sched : Sched limits)
    (current : TcbPtr limits) : Sched limits :=
  sched.modifyTcb current fun block =>
    { block with state := .running, phase := .ctxDirty, rts := block.its }

/-- `gain`, second part: take care of the thread that left the core. -/
def gainPrevious
    (sched : Sched limits)
    (previous : TcbPtr limits) : Except Fault (Sched limits) :=
  let sched := sched.modifyTcb previous fun block =>
    { block with phase := .ctxClean }
  match (sched.tcb previous).state with
  | .ready =>
      if (sched.tcb previous).type = .idleThread then .ok sched
      else sched.schedQueueAdd previous
  | .exited => .ok (sched.releaseTCB previous)
  | .stopped => .ok sched
  | .init => .error .assertGainPrevious
  | .running => .error .assertGainPrevious

/-- `gain`, without the preemption flag and the timer. -/
def gain (sched : Sched limits) : Except Fault (Sched limits) :=
  match sched.currentThread, sched.previousThread with
  | some current, some previous =>
      let sched := sched.gainCurrent current
      if current = previous then .ok sched else sched.gainPrevious previous
  | _, _ => .error .nullPointer

/-- `yield`, followed by the `gain` of the thread that gets the core. -/
def yield
    (sched : Sched limits)
    (cause : SchedCause)
    (remaining curtime : TimerDuration) : Except Fault (Sched limits) := do
  let sched ← sched.yieldSwitch cause remaining curtime
  sched.gain

/-- What `sleep_releasing` does before it calls `yield`; `curtime` is what
`bios_clock` returns when the timeout is registered. -/
def sleepMark
    (sched : Sched limits)
    (state : ThreadState)
    (timeout curtime : TimerDuration) : Except Fault (Sched limits) :=
  if state = .stopped ∨ state = .exited then
    match sched.currentThread with
    | none => .error .nullPointer
    | some tcb =>
        let sched := sched.modifyTcb tcb fun block =>
          { block with state := state }
        if state = .exited then .ok sched
        else sched.schedRegisterTimeout tcb timeout curtime
  else .error .assertSleepState

/-- `sleep_releasing`, with the three values it reads from the timer. -/
def sleepReleasing
    (sched : Sched limits)
    (state : ThreadState)
    (cause : SchedCause)
    (timeout regtime remaining curtime : TimerDuration) :
    Except Fault (Sched limits) := do
  let sched ← sched.sleepMark state timeout regtime
  sched.yield cause remaining curtime

/-- `initialize_scheduler` -/
def initializeScheduler (sched : Sched limits) : Sched limits :=
  { sched with
    heap := ((List.finRange schedQueues).foldl
      (fun heap level => heap.rlnodeInit (.queue level) none)
      sched.heap).rlnodeInit .timeoutList none }

/-- `run_scheduler` up to the call of `idle_thread`; `pcb` is `get_pcb(0)`. -/
def runScheduler
    (sched : Sched limits)
    (pcb : Option (Fin limits.maxProc)) : Sched limits :=
  let sched := sched.modifyTcb .idle fun block =>
    { block with
      ownerPcb := pcb
      type := .idleThread
      state := .running
      phase := .ctxDirty
      wakeupTime := noTimeout
      its := quantum
      rts := quantum
      currCause := .idle
      lastCause := .idle }
  { sched with
    currentThread := some .idle
    heap := sched.heap.rlnodeInit (.schedNode .idle) (some .idle) }

end Sched
end TinierOS
