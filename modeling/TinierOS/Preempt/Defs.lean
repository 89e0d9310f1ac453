import TinierOS.Sched.Run

/-!
# The core with its interrupt flag

The functions of `src/kernel/kernel_sched.c` that touch the flag `SREG.I`, as
lists of the statements between which the `ALARM` interrupt may be taken, and the
core that executes them.  Every thread has a stack of calls in progress; below it
is the thread's own code, which is either inside a wrapper of
`src/kernel/kernel_sys.c`, between `kernel_lock` and `kernel_unlock`, or outside
the kernel.  A run decides freely what own code does next and when an interrupt
is taken.  A stretch of code during which the flag is off is one statement; so is
the `switch` of `gain`, which only the first `gain` of a thread executes with the
flag on.
-/

namespace TinierOS

variable {limits : Limits}

/-! ## The code -/

/-- The statements that matter for the flag and the scheduler. -/
inductive Stmt (limits : Limits)
  /-- Code that touches neither: timers, assertions, empty mutexes, locals. -/
  | other
  /-- `int enabled = (SREG & 0x80) != 0;` -/
  | readEnabled
  /-- `cli();` -/
  | cli
  /-- `if (preempt) preempt_on;` -/
  | preemptOn
  /-- `cur_thread()` -/
  | curThread
  /-- What `wakeup` does with the flag off. -/
  | makeReady (slot : Fin limits.maxThreads)
  /-- What `sleep_releasing` does before it calls `yield`. -/
  | markSleep (state : ThreadState) (timeout : TimerDuration)
  /-- `yield(cause)` -/
  | yield (cause : SchedCause)
  /-- `yield` from `yield_count++` to the context switch. -/
  | switch (cause : SchedCause)
  /-- `gain(preempt)` -/
  | gain
  /-- `current->state = RUNNING;` -/
  | markRunning
  /-- `current->phase = CTX_DIRTY;` -/
  | markDirty
  /-- `current->rts = current->its;` -/
  | setRts
  /-- `TCB *prev = CURCORE.previous_thread;` -/
  | readPrevious
  /-- `prev->phase = CTX_CLEAN;` -/
  | cleanPrevious
  /-- `switch (prev->state)` -/
  | handlePrevious
  /-- The end of an interrupt handler. -/
  | reti
  deriving DecidableEq

namespace Code

/-- `cur_thread` -/
def curThread : List (Stmt limits) := [.readEnabled, .cli, .other, .preemptOn]

/-- `wakeup` -/
def wakeup (slot : Fin limits.maxThreads) : List (Stmt limits) :=
  [.readEnabled, .cli, .makeReady slot, .preemptOn]

/-- `yield` -/
def yield (cause : SchedCause) : List (Stmt limits) :=
  [.other, .readEnabled, .cli, .switch cause, .gain]

/-- `sleep_releasing` -/
def sleepReleasing
    (state : ThreadState)
    (cause : SchedCause)
    (timeout : TimerDuration) : List (Stmt limits) :=
  [.other, .readEnabled, .cli, .markSleep state timeout, .yield cause,
    .preemptOn]

/-- `gain` -/
def gain : List (Stmt limits) :=
  [.markRunning, .markDirty, .setRts, .readPrevious, .cleanPrevious,
    .handlePrevious, .preemptOn, .other]

/-- `thread_start`, up to the call of `thread_func`. -/
def threadStart : List (Stmt limits) := [.gain, .curThread]

/-- `TIMER1_COMPA_vect` with `yield_handler` -/
def alarm : List (Stmt limits) := [.yield .quantum, .reti]

end Code

/-- The functions that own code calls. -/
inductive KernelCall (limits : Limits)
  | curThread
  | wakeup (slot : Fin limits.maxThreads)
  | yield (cause : SchedCause)
  | sleepReleasing
      (state : ThreadState)
      (cause : SchedCause)
      (timeout : TimerDuration)

/-- Their code. -/
def KernelCall.code : KernelCall limits → List (Stmt limits)
  | .curThread => Code.curThread
  | .wakeup slot => Code.wakeup slot
  | .yield cause => Code.yield cause
  | .sleepReleasing state cause timeout =>
      Code.sleepReleasing state cause timeout

/-! ## The core -/

/-- A call in progress: what is left of it, and its locals `preempt` and
`prev`.  The parameter of `gain` is its `preempt`. -/
structure CallFrame (limits : Limits) where
  rest : List (Stmt limits)
  preempt : Bool
  prev : Option (TcbPtr limits)

/-- A call that starts. -/
def CallFrame.call (code : List (Stmt limits)) (preempt : Bool) : CallFrame limits :=
  ⟨code, preempt, none⟩

/-- Where a thread is: its calls, innermost first, whether its own code is
between `kernel_lock` and `kernel_unlock`, and the flag in its saved `SREG`. -/
structure Activity (limits : Limits) where
  calls : List (CallFrame limits)
  locked : Bool
  sreg : Bool

/-- A thread as `cpu_initialize_context` prepares it: `thread_start` calls
`gain(1)`, and the flag is set. -/
def Activity.fresh (limits : Limits) : Activity limits :=
  ⟨[CallFrame.call Code.threadStart true], false, true⟩

/-- The scheduler, the flag `SREG.I` and the threads. -/
structure Core (limits : Limits) where
  sched : Sched limits
  interrupts : Bool
  control : TcbPtr limits → Activity limits

/-- What happens next: the interrupt is taken, the innermost call goes on, or
own code does something.  Statements that read the timer get its values. -/
inductive Event (limits : Limits)
  | alarm
  | next (regtime remaining curtime : TimerDuration)
  | call (target : KernelCall limits)
  | kernelLock
  | kernelUnlock
  | setInterrupts (on : Bool)
  | spawnThread (pcb : Option (Fin limits.maxProc)) (func : ThreadFunc)

namespace Sched

/-- The `switch (prev->state)` of `gain`. -/
def handlePrevious
    (sched : Sched limits)
    (previous : TcbPtr limits) : Except Fault (Sched limits) :=
  match (sched.tcb previous).state with
  | .ready =>
      if (sched.tcb previous).type = .idleThread then .ok sched
      else sched.schedQueueAdd previous
  | .exited => .ok (sched.releaseTCB previous)
  | .stopped => .ok sched
  | .init => .error .assertGainPrevious
  | .running => .error .assertGainPrevious

/-- What a statement of the thread `current` does to the scheduler; `prev` is
the local variable of `gain`. -/
def effect
    (sched : Sched limits)
    (current : TcbPtr limits)
    (prev : Option (TcbPtr limits))
    (regtime remaining curtime : TimerDuration) :
    Stmt limits → Except Fault (Sched limits)
  | .makeReady slot => (sched.wakeup (.slot slot)).map Prod.fst
  | .markSleep state timeout => sched.sleepMark state timeout regtime
  | .switch cause => sched.yieldSwitch cause remaining curtime
  | .markRunning => .ok
      (sched.modifyTcb current fun block => { block with state := .running })
  | .markDirty => .ok
      (sched.modifyTcb current fun block => { block with phase := .ctxDirty })
  | .setRts => .ok
      (sched.modifyTcb current fun block => { block with rts := block.its })
  | .cleanPrevious =>
      match prev with
      | none => .error .nullPointer
      | some previous =>
          if current = previous then .ok sched
          else .ok (sched.modifyTcb previous fun block =>
            { block with phase := .ctxClean })
  | .handlePrevious =>
      match prev with
      | none => .error .nullPointer
      | some previous =>
          if current = previous then .ok sched
          else sched.handlePrevious previous
  | _ => .ok sched

end Sched

namespace Stmt

/-- The innermost calls after a statement, where `frame` is what is left of the
call it belongs to. -/
def calls
    (interrupts : Bool)
    (previousThread : Option (TcbPtr limits))
    (frame : CallFrame limits) : Stmt limits → List (CallFrame limits)
  | .readEnabled => [{ frame with preempt := interrupts }]
  | .curThread => [CallFrame.call Code.curThread false, frame]
  | .yield cause => [CallFrame.call (Code.yield cause) false, frame]
  | .gain => [CallFrame.call Code.gain frame.preempt, frame]
  | .readPrevious => [{ frame with prev := previousThread }]
  | _ => [frame]

/-- The flag after a statement. -/
def flag (interrupts preempt : Bool) : Stmt limits → Bool
  | .cli => false
  | .preemptOn => interrupts || preempt
  | .reti => true
  | _ => interrupts

end Stmt

namespace Core

/-- Change where a thread is. -/
def setControl
    (core : Core limits)
    (tcb : TcbPtr limits)
    (control : Activity limits) : Core limits :=
  { core with control := Function.update core.control tcb control }

/-- Replace the calls of a thread. -/
def setCalls
    (core : Core limits)
    (tcb : TcbPtr limits)
    (calls : List (CallFrame limits)) : Core limits :=
  core.setControl tcb { core.control tcb with calls := calls }

/-- The end of `yield`'s first half: `next` gets the core, with the flag of its
saved `SREG`, unless it has the core already. -/
def switchTo
    (core : Core limits)
    (current next : TcbPtr limits) : Core limits :=
  if current = next then core
  else { core.setControl current
      { core.control current with sreg := core.interrupts } with
    interrupts := (core.control next).sreg }

/-- The core after a statement that left the scheduler in the given state;
`frame` is what is left of the innermost call, `below` are the calls it was made
from. -/
def executed
    (core : Core limits)
    (current : TcbPtr limits)
    (frame : CallFrame limits)
    (below : List (CallFrame limits))
    (stmt : Stmt limits)
    (sched : Sched limits) : Core limits :=
  { core.setCalls current
      (stmt.calls core.interrupts core.sched.previousThread frame ++ below) with
    sched := sched
    interrupts := stmt.flag core.interrupts frame.preempt }

/-- The innermost call goes on by one statement, or returns. -/
def advance
    (core : Core limits)
    (current : TcbPtr limits)
    (regtime remaining curtime : TimerDuration) :
    Except Fault (Core limits) :=
  match (core.control current).calls with
  | [] => .error .nullPointer
  | frame :: below =>
      match frame.rest with
      | [] => .ok (core.setCalls current below)
      | stmt :: rest =>
          match core.sched.effect current frame.prev regtime remaining curtime
            stmt with
          | .error fault => .error fault
          | .ok sched =>
              match sched.currentThread with
              | none => .error .nullPointer
              | some next => .ok
                  ((core.executed current { frame with rest := rest } below
                    stmt sched).switchTo current next)

/-- A new thread gets a fresh context. -/
def spawnThread
    (core : Core limits)
    (pcb : Option (Fin limits.maxProc))
    (func : ThreadFunc) : Core limits :=
  match core.sched.spawnThread pcb func with
  | (none, _) => core
  | (some slot, sched) =>
      { core.setControl (.slot slot) (Activity.fresh limits) with
        sched := sched }

/-- One event. -/
def step
    (core : Core limits)
    (event : Event limits) : Except Fault (Core limits) :=
  match core.sched.currentThread with
  | none => .error .nullPointer
  | some current =>
      let control := core.control current
      match event with
      | .alarm => .ok
          { core.setCalls current
              (CallFrame.call Code.alarm false :: control.calls) with
            interrupts := false }
      | .next regtime remaining curtime =>
          core.advance current regtime remaining curtime
      | .call target => .ok
          (core.setCalls current (CallFrame.call target.code false :: control.calls))
      | .kernelLock => .ok
          { core.setControl current { control with locked := true } with
            interrupts := false }
      | .kernelUnlock => .ok
          { core.setControl current { control with locked := false } with
            interrupts := true }
      | .setInterrupts on => .ok { core with interrupts := on }
      | .spawnThread pcb func => .ok (core.spawnThread pcb func)

/-- The statement that the innermost call of the current thread is at. -/
def nextStmt (core : Core limits) : Option (Stmt limits) := do
  let current ← core.sched.currentThread
  let frame ← (core.control current).calls.head?
  frame.rest.head?

/-- When the current thread has no call in progress: whether its own code is
inside the kernel. -/
def ownCode (core : Core limits) : Option Bool := do
  let current ← core.sched.currentThread
  if (core.control current).calls.isEmpty then
    some (core.control current).locked
  else none

/-- When an event is possible: an interrupt when the flag is set, the next
statement of a call in progress, and otherwise anything own code does.  Own code
changes the flag by itself only outside the kernel, threads are spawned inside
it, `wakeup` is used on allocated threads, and the idle thread does not sleep. -/
def Enabled (core : Core limits) : Event limits → Prop
  | .alarm => core.interrupts = true
  | .next _ _ _ =>
      ∀ slot, core.nextStmt = some (.makeReady slot) →
        core.sched.threadUsed slot = true
  | .call (.sleepReleasing state _ _) =>
      core.ownCode ≠ none ∧ core.sched.currentThread ≠ some .idle ∧
        (state = .stopped ∨ state = .exited)
  | .call _ => core.ownCode ≠ none
  | .kernelLock => core.ownCode = some false
  | .kernelUnlock => core.ownCode = some true
  | .setInterrupts _ => core.ownCode = some false
  | .spawnThread _ _ => core.ownCode = some true

instance (core : Core limits) (event : Event limits) :
    Decidable (core.Enabled event) :=
  match event with
  | .alarm => inferInstanceAs (Decidable (_ = _))
  | .next _ _ _ => inferInstanceAs (Decidable (∀ _, _ = _ → _ = _))
  | .call (.sleepReleasing _ _ _) =>
      inferInstanceAs (Decidable (_ ≠ _ ∧ _ ≠ _ ∧ (_ ∨ _)))
  | .call (.curThread) => inferInstanceAs (Decidable (_ ≠ _))
  | .call (.wakeup _) => inferInstanceAs (Decidable (_ ≠ _))
  | .call (.yield _) => inferInstanceAs (Decidable (_ ≠ _))
  | .kernelLock => inferInstanceAs (Decidable (_ = _))
  | .kernelUnlock => inferInstanceAs (Decidable (_ = _))
  | .setInterrupts _ => inferInstanceAs (Decidable (_ = _))
  | .spawnThread _ _ => inferInstanceAs (Decidable (_ = _))

/-- The core when `run_scheduler` calls `idle_thread`, with the flag still
off. -/
def boot
    (sched : Sched limits)
    (pcb : Option (Fin limits.maxProc)) : Core limits where
  sched := sched.runScheduler pcb
  interrupts := false
  control
    | .idle => ⟨[], false, false⟩
    | .slot _ => Activity.fresh limits

/-- Threads may have been spawned and woken before `run_scheduler`. -/
def Booted (core : Core limits) : Prop :=
  ∃ sched pcb, Sched.Reached sched ∧ sched.currentThread = none ∧
    core = boot sched pcb

/-- The states of all runs that take only allowed events. -/
def Reached
    (allowed : Core limits → Event limits → Prop)
    (core : Core limits) : Prop :=
  ∃ start, Booted start ∧
    Reachable step (fun core event => core.Enabled event ∧ allowed core event)
      start core

/-- A run whose last state passes a test, after some calls before
`run_scheduler`. -/
theorem exists_reached_of_any
    {allowed : Core limits → Event limits → Prop}
    [∀ core event, Decidable (allowed core event)]
    {test : Core limits → Bool}
    (ops : List (SchedOp limits))
    (events : List (Event limits))
    (ran : (runActions Sched.step Sched.Enabled ops
      (Sched.zero limits).initializeScheduler).any (fun sched =>
        decide (sched.currentThread = none) &&
          (runActions step (fun core event =>
            core.Enabled event ∧ allowed core event) events
              (boot sched none)).any test) = true) :
    ∃ core, core.Reached allowed ∧ test core = true := by
  obtain ⟨sched, reached, passes⟩ := exists_reachable_of_any ops ran
  rw [Bool.and_eq_true, decide_eq_true_eq] at passes
  obtain ⟨core, run, passed⟩ := exists_reachable_of_any events passes.2
  exact ⟨core, ⟨_, ⟨sched, none, reached, passes.1, rfl⟩, run⟩, passed⟩

/-- The call in progress goes on by several statements. -/
def nexts (count : Nat) : List (Event limits) :=
  List.replicate count (.next 0 0 0)

/-- The start of a run: thread 0 gets the core, spawns and wakes thread 1 inside
the kernel, and yields to it. -/
def yieldToNew : List (Event Limits.tinier) :=
  List.flatten
    [[.setInterrupts true, .call (.yield .idle)], nexts 21,
      [.kernelLock, .spawnThread none .startMainThread, .call (.wakeup 1)],
      nexts 5, [.call (.yield .user)], nexts 4]

end Core
end TinierOS
