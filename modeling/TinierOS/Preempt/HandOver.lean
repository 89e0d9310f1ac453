import TinierOS.Preempt.Atomic
import Mathlib.Tactic.IntervalCases

/-!
# The hand-over of the previous thread

`yield` leaves the thread that gives up the core in `CURCORE.previous_thread`,
and the `gain` of the next thread puts it back into the queues.  No thread is
lost as long as no interrupt falls between the two.  On the way through `yield`
the flag is off; but a new thread starts with the flag set, before its first
`gain`.
-/

namespace TinierOS

variable {limits : Limits}

/-! ## The property -/

/-- A call that is about to take over the core, or in the part of `gain` that
takes care of the previous thread. -/
def CallFrame.Gaining (frame : CallFrame limits) : Prop :=
  frame.rest.head? = some .gain ∨ .handlePrevious ∈ frame.rest

instance (frame : CallFrame limits) : Decidable frame.Gaining :=
  inferInstanceAs (Decidable (_ ∨ _))

/-- The thread has taken care of the previous one. -/
def Activity.PastGain (control : Activity limits) : Prop :=
  ∀ frame ∈ control.calls, ¬frame.Gaining

instance (control : Activity limits) : Decidable control.PastGain :=
  inferInstanceAs (Decidable (∀ frame ∈ _, ¬_))

/-- The thread is in its first `gain`: inside `thread_start`, which is the only
caller of `cur_thread` besides own code. -/
def Activity.Starting (control : Activity limits) : Prop :=
  ¬control.PastGain ∧ ∃ frame ∈ control.calls, .curThread ∈ frame.rest

instance (control : Activity limits) : Decidable control.Starting :=
  inferInstanceAs (Decidable (¬_ ∧ ∃ frame ∈ _, _))

namespace Core

/-- Every ready thread of the pool other than the current one is in a scheduler
queue. -/
def NoneLost (core : Core limits) : Prop :=
  ∀ slot, core.sched.currentThread ≠ some (.slot slot) →
    core.sched.threadUsed slot = true →
    (core.sched.tcb (.slot slot)).type = .normalThread →
    (core.sched.tcb (.slot slot)).state = .ready →
      ∃ lists level, core.sched.Walks lists ∧ slot ∈ lists (.queue level)

/-- The deadline that `sleep_releasing` registers is not `NO_TIMEOUT`. -/
def DeadlineSet (regtime : TimerDuration) : Stmt limits → Prop
  | .markSleep state timeout => state = .stopped → timeout ≠ noTimeout →
      regtime + timeout ≠ noTimeout
  | _ => True

instance (regtime : TimerDuration) (stmt : Stmt limits) :
    Decidable (DeadlineSet regtime stmt) :=
  match stmt with
  | .markSleep _ _ => inferInstanceAs (Decidable (_ → _ → _))
  | .other | .readEnabled | .cli | .preemptOn | .curThread | .makeReady _
  | .yield _ | .switch _ | .gain | .markRunning | .markDirty | .setRts
  | .readPrevious | .cleanPrevious | .handlePrevious | .reti =>
      inferInstanceAs (Decidable True)

/-- No interrupt in the first `gain` of a thread, and no deadline equal to
`NO_TIMEOUT`. -/
def Undisturbed (core : Core limits) : Event limits → Prop
  | .alarm => ∀ current ∈ core.sched.currentThread,
      ¬(core.control current).Starting
  | .next regtime _ _ => ∀ stmt ∈ core.nextStmt, DeadlineSet regtime stmt
  | _ => True

instance (core : Core limits) (event : Event limits) :
    Decidable (core.Undisturbed event) :=
  match event with
  | .alarm => inferInstanceAs (Decidable (∀ current ∈ _, ¬_))
  | .next _ _ _ => inferInstanceAs (Decidable (∀ stmt ∈ _, _))
  | .call _ | .kernelLock | .kernelUnlock | .setInterrupts _
  | .spawnThread _ _ => inferInstanceAs (Decidable True)

/-- The interrupt falls between the switch to thread 1 and its first `gain`: the
nested `yield` overwrites `previous_thread`, and thread 0, which had yielded
inside the kernel, is ready and in no list. -/
theorem hand_over_interrupted :
    ∃ core : Core Limits.tinier, (core.Reached fun _ _ => True) ∧
      (∀ current ∈ core.sched.currentThread,
        (core.control current).PastGain) ∧
      ¬core.NoneLost := by
  have ran : ∃ core : Core Limits.tinier, (core.Reached fun _ _ => True) ∧
      decide ((core.sched.currentThread = some (.slot 1) ∧
        (core.control (.slot 1)).PastGain) ∧
        core.sched.threadUsed 0 = true ∧
        (core.sched.tcb (.slot 0)).type = .normalThread ∧
        (core.sched.tcb (.slot 0)).state = .ready ∧
        (core.sched.heap (.schedNode (.slot 0))).next =
          .schedNode (.slot 0)) = true :=
    exists_reached_of_any [.spawnThread none .startMainThread, .wakeup 0]
      (List.flatten [yieldToNew, [.alarm], nexts 34])
      (by decide +kernel)
  obtain ⟨core, reached, test⟩ := ran
  obtain ⟨⟨isCurrent, past⟩, used, normal, ready, alone⟩ :=
    of_decide_eq_true test
  refine ⟨core, reached, ?_, ?_⟩
  · intro current isSome
    rw [isCurrent, Option.mem_some_iff] at isSome
    exact isSome ▸ past
  · intro noneLost
    obtain ⟨lists, level, walks, member⟩ :=
      noneLost 0 (by rw [isCurrent]; decide) used normal ready
    exact (walks (.queue level)).next_ne_of_mem (List.mem_map_of_mem member)
      alone

end Core

/-! ## What is left of a call -/

/-- Statements that may be executed when the scheduler is at rest and leave it
so. -/
def Stmt.Plain : Stmt limits → Prop
  | .other | .readEnabled | .cli | .preemptOn | .curThread | .makeReady _
  | .yield _ | .reti => True
  | _ => False

/-- What may be left of a call of `tcb` when the scheduler is at rest.  The
switch and the marking of a sleeper come right after the flag is cleared. -/
inductive Settled (tcb : TcbPtr limits) : List (Stmt limits) → Prop
  | done : Settled tcb []
  | plain
      {stmt : Stmt limits}
      {rest : List (Stmt limits)}
      (isPlain : stmt.Plain)
      (settled : Settled tcb rest) :
      Settled tcb (stmt :: rest)
  | switching (cause : SchedCause) :
      Settled tcb [.cli, .switch cause, .gain]
  | sleeping
      {state : ThreadState}
      {timeout : TimerDuration}
      {cause : SchedCause}
      (notIdle : tcb ≠ .idle)
      (sleeps : state = .stopped ∨ state = .exited) :
      Settled tcb
        [.cli, .markSleep state timeout, .yield cause, .preemptOn]

/-- The way through `yield` to the switch. -/
inductive Approach (cause : SchedCause) : List (Stmt limits) → Prop
  | enter : Approach cause (Code.yield cause)
  | read : Approach cause [.readEnabled, .cli, .switch cause, .gain]
  | clear : Approach cause [.cli, .switch cause, .gain]
  | switch : Approach cause [.switch cause, .gain]

theorem settled_curThread (tcb : TcbPtr limits) :
    Settled tcb Code.curThread :=
  .plain trivial (.plain trivial (.plain trivial (.plain trivial .done)))

theorem settled_yield
    (tcb : TcbPtr limits)
    (cause : SchedCause) :
    Settled tcb (Code.yield cause) :=
  .plain trivial (.plain trivial (.switching cause))

theorem settled_alarm (tcb : TcbPtr limits) : Settled tcb Code.alarm :=
  .plain trivial (.plain trivial .done)

/-- Calls that own code may make leave the scheduler at rest. -/
theorem settled_code
    {core : Core limits}
    {current : TcbPtr limits}
    {target : KernelCall limits}
    (isCurrent : core.sched.currentThread = some current)
    (enabled : core.Enabled (.call target)) :
    Settled current target.code := by
  cases target with
  | curThread => exact settled_curThread current
  | wakeup slot =>
      exact .plain trivial (.plain trivial (.plain trivial
        (.plain trivial .done)))
  | yield cause => exact settled_yield current cause
  | sleepReleasing state cause timeout =>
      obtain ⟨-, notIdle, sleeps⟩ := enabled
      rw [isCurrent, Ne, Option.some.injEq] at notIdle
      exact .plain trivial (.plain trivial (.sleeping notIdle sleeps))

theorem own_of_call
    {core : Core limits}
    {current : TcbPtr limits}
    {target : KernelCall limits}
    (isCurrent : core.sched.currentThread = some current)
    (enabled : core.Enabled (.call target)) :
    (core.control current).calls = [] := by
  have own : core.ownCode ≠ none := by
    cases target with
    | curThread | wakeup | yield => exact enabled
    | sleepReleasing => exact enabled.1
  obtain ⟨locked, isOwn⟩ := Option.ne_none_iff_exists'.mp own
  exact ((Core.ownCode_eq_some isCurrent).mp isOwn).1

/-! ## What is left of `gain` -/

/-- The statements of `gain` that take over the core. -/
def Stmt.TakesOver : Stmt limits → Prop
  | .markRunning | .markDirty | .setRts | .readPrevious | .cleanPrevious
  | .handlePrevious => True
  | _ => False

/-- The first six statements of `gain` take over the core; the last of them is
the one that takes care of the previous thread. -/
theorem gain_position
    (limits : Limits)
    {executed : Nat}
    (before : executed ≤ 5) :
    ∃ stmt : Stmt limits,
      Code.gain.drop executed = stmt :: Code.gain.drop (executed + 1) ∧
      stmt.TakesOver ∧
      .handlePrevious ∈ stmt :: Code.gain.drop (executed + 1) ∧
      (executed = 5 → stmt = .handlePrevious) := by
  interval_cases executed <;>
    exact ⟨_, rfl, trivial, by simp [Code.gain], by simp⟩

namespace Stmt.TakesOver

variable {stmt : Stmt limits}

theorem effect_eq
    (takesOver : stmt.TakesOver)
    (sched : Sched limits)
    (current : TcbPtr limits)
    (prev : Option (TcbPtr limits))
    (regtime remaining curtime : TimerDuration) :
    sched.effect current prev regtime remaining curtime stmt =
      sched.effect current prev 0 0 0 stmt := by
  cases stmt <;> first | rfl | cases takesOver

theorem flag_eq
    (takesOver : stmt.TakesOver)
    (interrupts preempt : Bool) :
    stmt.flag interrupts preempt = interrupts := by
  cases stmt <;> first | rfl | cases takesOver

theorem calls_eq
    (takesOver : stmt.TakesOver)
    (interrupts : Bool)
    (previousThread : Option (TcbPtr limits))
    (frame : CallFrame limits) :
    stmt.calls interrupts previousThread frame =
      [{ frame with prev :=
          if stmt = .readPrevious then previousThread else frame.prev }] := by
  cases stmt <;> first | rfl | cases takesOver

end Stmt.TakesOver

namespace Sched

variable {sched : Sched limits}
variable {current : TcbPtr limits}

/-- Execute the statements of `gain` that are left; `prev` is its local
variable. -/
def finish
    (current : TcbPtr limits) :
    Option (TcbPtr limits) → List (Stmt limits) → Sched limits →
      Except Fault (Sched limits)
  | _, [], sched => .ok sched
  | prev, stmt :: rest, sched => do
      let after ← sched.effect current prev 0 0 0 stmt
      finish current
        (if stmt = .readPrevious then sched.previousThread else prev) rest after

/-- The statements of `gain` make up what the scheduler does as a whole. -/
theorem finish_gain
    {previous : TcbPtr limits}
    (isCurrent : sched.currentThread = some current)
    (isPrevious : sched.previousThread = some previous) :
    sched.finish current none Code.gain = sched.gain := by
  have marked : ((sched.modifyTcb current fun block =>
        { block with state := .running }).modifyTcb current fun block =>
        { block with phase := .ctxDirty }).modifyTcb current (fun block =>
        { block with rts := block.its }) = sched.gainCurrent current := by
    simp [modifyTcb, gainCurrent]
  have previousKept : (sched.gainCurrent current).previousThread =
      some previous := isPrevious
  simp only [Code.gain, finish, effect, bind, Except.bind, reduceCtorEq,
    if_false, if_true, marked, previousKept, Sched.gain, isCurrent, isPrevious]
  by_cases same : current = previous
  · simp only [if_pos same]
  · have split : (sched.gainCurrent current).gainPrevious previous =
        ((sched.gainCurrent current).modifyTcb previous fun block =>
          { block with phase := .ctxClean }).handlePrevious previous := rfl
    simp only [if_neg same, split]
    cases ((sched.gainCurrent current).modifyTcb previous fun block =>
      { block with phase := .ctxClean }).handlePrevious previous <;> rfl

/-- The yielding thread has switched to `current`, whose `gain` is to come. -/
def Switched (sched : Sched limits) (current : TcbPtr limits) : Prop :=
  ∃ lists previous,
    SchedInv sched lists (fun _ => False) (fun tcb => tcb = previous)
      (fun tcb => tcb = current) ∧
    sched.currentThread = some current ∧
    sched.previousThread = some previous ∧
    (∀ slot, current = .slot slot →
      sched.threadUsed slot = true ∧ (sched.tcb current).state = .ready) ∧
    (sched.tcb previous).state ≠ .init ∧
    ((sched.tcb previous).state = .exited →
      previous ≠ .idle ∧ previous ≠ current)

/-- The thread `current` may give up the core. -/
def Leaving (sched : Sched limits) (current : TcbPtr limits) : Prop :=
  ∃ lists running,
    SchedInv sched lists running (fun tcb => tcb = current)
      (fun _ => False) ∧
    (∀ tcb, running tcb → tcb = current) ∧
    (sched.tcb current).state ≠ .init ∧
    ((sched.tcb current).state = .exited → current ≠ .idle)

theorem Resting.leaving
    {lists : SchedList → List (Fin limits.maxThreads)}
    (resting : sched.Resting lists)
    (isCurrent : sched.currentThread = some current) :
    sched.Leaving current := by
  have inv := (resting_iff isCurrent).mp resting
  have isRunning := (inv.isRunning current).mpr rfl
  refine ⟨lists, _, inv, fun _ running => running, ?_, ?_⟩
  · rw [isRunning]
    decide
  · rw [isRunning]
    simp

/-- `yield` up to the switch. -/
theorem Leaving.switched
    {after : Sched limits}
    {cause : SchedCause}
    {remaining curtime : TimerDuration}
    (leaving : sched.Leaving current)
    (isCurrent : sched.currentThread = some current)
    (yielded : sched.yieldSwitch cause remaining curtime = .ok after) :
    ∃ next, after.currentThread = some next ∧ after.Switched next := by
  obtain ⟨lists, running, inv, onlyCurrent, notInit, exitedSlot⟩ := leaving
  obtain ⟨next, after', lists', yielded', afterInv, isNext, isPrevious, -,
    threadUsed, nextReady, stillNotInit, stillExited, -⟩ :=
      inv.yieldSwitch cause remaining curtime isCurrent onlyCurrent notInit
  rw [yielded] at yielded'
  cases yielded'
  refine ⟨next, isNext, lists', current, afterInv, isNext, isPrevious, ?_,
    stillNotInit, ?_⟩
  · rw [threadUsed]
    exact nextReady
  · intro isExited
    have notIdle := exitedSlot (stillExited.mp isExited)
    exact ⟨notIdle, SchedInv.exited_apart
      (fun slot isSlot => (nextReady slot isSlot).2) notIdle isExited⟩

/-- The whole `gain` brings the scheduler to rest. -/
theorem Switched.finish
    (switched : sched.Switched current) :
    ∃ after lists, sched.finish current none Code.gain = .ok after ∧
      after.Resting lists := by
  obtain ⟨lists, previous, inv, isCurrent, isPrevious, nextReady, notInit,
    exitedSlot⟩ := switched
  obtain ⟨after, lists', gained, -, resting, -⟩ :=
    inv.gain isCurrent isPrevious nextReady notInit exitedSlot
  rw [finish_gain isCurrent isPrevious]
  exact ⟨after, lists', gained, resting⟩

end Sched

/-! ## The invariant -/

/-- Where the current thread can be, and what the scheduler and the flag are
like there. -/
inductive Phase
    (sched : Sched limits)
    (interrupts : Bool)
    (current : TcbPtr limits) : List (CallFrame limits) → Prop
  /-- Anywhere while the scheduler is at rest. -/
  | settled
      {calls : List (CallFrame limits)}
      {lists : SchedList → List (Fin limits.maxThreads)}
      (resting : sched.Resting lists)
      (calm : ∀ frame ∈ calls, Settled current frame.rest) :
      Phase sched interrupts current calls
  /-- About to be marked as a sleeper. -/
  | marking
      {frame : CallFrame limits}
      {below : List (CallFrame limits)}
      {lists : SchedList → List (Fin limits.maxThreads)}
      {state : ThreadState}
      {timeout : TimerDuration}
      {cause : SchedCause}
      (off : interrupts = false)
      (resting : sched.Resting lists)
      (begins : frame.rest =
        [.markSleep state timeout, .yield cause, .preemptOn])
      (notIdle : current ≠ .idle)
      (sleeps : state = .stopped ∨ state = .exited)
      (calm : ∀ frame ∈ below, Settled current frame.rest) :
      Phase sched interrupts current (frame :: below)
  /-- Marked as a sleeper. -/
  | marked
      {frame : CallFrame limits}
      {below : List (CallFrame limits)}
      {cause : SchedCause}
      (off : interrupts = false)
      (leaving : sched.Leaving current)
      (begins : frame.rest = [.yield cause, .preemptOn])
      (calm : ∀ frame ∈ below, Settled current frame.rest) :
      Phase sched interrupts current (frame :: below)
  /-- On the way to the switch with the flag off. -/
  | leaving
      {frame : CallFrame limits}
      {below : List (CallFrame limits)}
      {cause : SchedCause}
      (off : interrupts = false)
      (leaving : sched.Leaving current)
      (approach : Approach cause frame.rest)
      (calm : ∀ frame ∈ below, Settled current frame.rest) :
      Phase sched interrupts current (frame :: below)
  /-- Switched to, before `gain`. -/
  | switched
      {frame : CallFrame limits}
      {below : List (CallFrame limits)}
      {rest : List (Stmt limits)}
      (off : interrupts = false ∨ .curThread ∈ rest)
      (switched : sched.Switched current)
      (begins : frame.rest = .gain :: rest)
      (calmRest : Settled current rest)
      (calm : ∀ frame ∈ below, Settled current frame.rest) :
      Phase sched interrupts current (frame :: below)
  /-- In `gain`, which is going to bring the scheduler to rest. -/
  | gaining
      {frame caller : CallFrame limits}
      {below : List (CallFrame limits)}
      {after : Sched limits}
      {lists : SchedList → List (Fin limits.maxThreads)}
      {executed : Nat}
      (off : interrupts = false ∨ .curThread ∈ caller.rest)
      (position : frame.rest = Code.gain.drop executed)
      (before : executed ≤ 5)
      (finishes : sched.finish current frame.prev frame.rest = .ok after)
      (resting : after.Resting lists)
      (calmCaller : Settled current caller.rest)
      (calm : ∀ frame ∈ below, Settled current frame.rest) :
      Phase sched interrupts current (frame :: caller :: below)

/-- A thread that does not have the core is new, or has called `yield` and comes
back with the flag off. -/
inductive Suspended (tcb : TcbPtr limits) : Activity limits → Prop
  | fresh : Suspended tcb (Activity.fresh limits)
  | yielded
      {control : Activity limits}
      {frame : CallFrame limits}
      {below : List (CallFrame limits)}
      (calls : control.calls = frame :: below)
      (begins : frame.rest = [.gain])
      (calm : ∀ frame ∈ below, Settled tcb frame.rest)
      (off : control.sreg = false) :
      Suspended tcb control

/-- The invariant of undisturbed runs. -/
structure HandsOver
    (core : Core limits)
    (current : TcbPtr limits) : Prop where
  isCurrent : core.sched.currentThread = some current
  phase : Phase core.sched core.interrupts current
    (core.control current).calls
  others : ∀ tcb, tcb ≠ current → Suspended tcb (core.control tcb)

/-- When the current thread is the only one with a dirty context and no thread
is in transit, no ready thread is lost. -/
theorem Sched.Leaving.noneLost
    {core : Core limits}
    {current : TcbPtr limits}
    (leaving : core.sched.Leaving current)
    (isCurrent : core.sched.currentThread = some current) :
    core.NoneLost := by
  obtain ⟨lists, running, inv, -⟩ := leaving
  intro slot notCurrent used _ isReady
  have clean : (core.sched.tcb (.slot slot)).phase = .ctxClean := by
    cases phase : (core.sched.tcb (.slot slot)).phase with
    | ctxClean => rfl
    | ctxDirty =>
        have isSlot := (inv.isDirty (.slot slot)).mp phase
        rw [isCurrent, ← isSlot] at notCurrent
        exact absurd rfl notCurrent
  obtain ⟨level, member⟩ :=
    (inv.queued slot used).mpr ⟨isReady, clean, id⟩
  exact ⟨lists, level, inv.represents.ring, member⟩

theorem CallFrame.gaining_of_begins
    {frame : CallFrame limits}
    {rest : List (Stmt limits)}
    (begins : frame.rest = .gain :: rest) :
    frame.Gaining :=
  .inl (by rw [begins]; rfl)

theorem CallFrame.gaining_of_position
    {frame : CallFrame limits}
    {executed : Nat}
    (position : frame.rest = Code.gain.drop executed)
    (before : executed ≤ 5) :
    frame.Gaining := by
  obtain ⟨stmt, split, -, member, -⟩ := gain_position limits before
  rw [← split, ← position] at member
  exact .inr member

namespace Phase

variable {sched : Sched limits}
variable {interrupts : Bool}
variable {current : TcbPtr limits}
variable {frame : CallFrame limits}
variable {below : List (CallFrame limits)}

/-- A thread that is past its `gain` may give up the core. -/
theorem leaving_of_pastGain
    {calls : List (CallFrame limits)}
    (phase : Phase sched interrupts current calls)
    (isCurrent : sched.currentThread = some current)
    (past : ∀ frame ∈ calls, ¬frame.Gaining) :
    sched.Leaving current := by
  cases phase with
  | settled resting => exact resting.leaving isCurrent
  | marking _ resting => exact resting.leaving isCurrent
  | marked _ leaving => exact leaving
  | leaving _ leaving => exact leaving
  | switched _ _ begins =>
      exact absurd (CallFrame.gaining_of_begins begins)
        (past _ (List.mem_cons_self ..))
  | gaining _ position before =>
      exact absurd (CallFrame.gaining_of_position position before)
        (past _ (List.mem_cons_self ..))

/-- An interrupt outside the first `gain` of a thread finds the scheduler at
rest. -/
theorem interrupted
    {calls : List (CallFrame limits)}
    (phase : Phase sched true current calls)
    (notStarting : (∃ frame ∈ calls, .curThread ∈ frame.rest) →
      ∀ frame ∈ calls, ¬frame.Gaining) :
    ∃ lists, sched.Resting lists ∧
      ∀ frame ∈ calls, Settled current frame.rest := by
  cases phase with
  | settled resting calm => exact ⟨_, resting, calm⟩
  | marking off => cases off
  | marked off => cases off
  | leaving off => cases off
  | switched off _ begins =>
      have inStart := off.resolve_left (by decide)
      refine absurd (CallFrame.gaining_of_begins begins)
        (notStarting ⟨_, List.mem_cons_self .., ?_⟩ _ (List.mem_cons_self ..))
      rw [begins]
      exact List.mem_cons_of_mem _ inStart
  | gaining off position before =>
      have inStart := off.resolve_left (by decide)
      exact absurd (CallFrame.gaining_of_position position before)
        (notStarting
          ⟨_, List.mem_cons_of_mem _ (List.mem_cons_self ..), inStart⟩ _
          (List.mem_cons_self ..))

/-- A call returns only when the scheduler is at rest. -/
theorem returns
    (phase : Phase sched interrupts current (frame :: below))
    (ended : frame.rest = []) :
    Phase sched interrupts current below := by
  cases phase with
  | settled resting calm => exact .settled resting (List.forall_mem_cons.mp calm).2
  | marking _ _ begins =>
      rw [ended] at begins
      cases begins
  | marked _ _ begins =>
      rw [ended] at begins
      cases begins
  | leaving _ _ approach =>
      rw [ended] at approach
      cases approach
  | switched _ _ begins =>
      rw [ended] at begins
      cases begins
  | gaining _ position before =>
      obtain ⟨stmt, split, -⟩ := gain_position limits before
      rw [ended, split] at position
      cases position

/-- The switch comes with the flag off. -/
theorem switches
    {cause : SchedCause}
    {rest : List (Stmt limits)}
    (phase : Phase sched interrupts current (frame :: below))
    (begins : frame.rest = .switch cause :: rest) :
    interrupts = false ∧ sched.Leaving current ∧ rest = [.gain] ∧
      ∀ frame ∈ below, Settled current frame.rest := by
  cases phase with
  | settled _ calm =>
      have settled := (List.forall_mem_cons.mp calm).1
      rw [begins] at settled
      cases settled with
      | plain isPlain => cases isPlain
  | marking _ _ begins' =>
      rw [begins] at begins'
      cases begins'
  | marked _ _ begins' =>
      rw [begins] at begins'
      cases begins'
  | leaving off leaving approach calm =>
      rw [begins] at approach
      cases approach
      exact ⟨off, leaving, rfl, calm⟩
  | switched _ _ begins' =>
      rw [begins] at begins'
      cases begins'
  | gaining _ position before =>
      obtain ⟨stmt, split, takesOver, -⟩ := gain_position limits before
      rw [begins, split] at position
      cases position
      cases takesOver

/-- From a scheduler at rest: a plain statement keeps it so, and the other calls
clear the flag first. -/
theorem step_settled
    {lists : SchedList → List (Fin limits.maxThreads)}
    {after : Sched limits}
    {stmt : Stmt limits}
    {rest : List (Stmt limits)}
    {regtime remaining curtime : TimerDuration}
    (resting : sched.Resting lists)
    (isCurrent : sched.currentThread = some current)
    (calm : ∀ frame ∈ below, Settled current frame.rest)
    (settled : Settled current (stmt :: rest))
    (used : ∀ slot, stmt = .makeReady slot → sched.threadUsed slot = true)
    (executed : sched.effect current frame.prev regtime remaining curtime
      stmt = .ok after) :
    Phase after (stmt.flag interrupts frame.preempt) current
      (stmt.calls interrupts sched.previousThread
        { frame with rest := rest } ++ below) := by
  cases settled with
  | switching cause =>
      cases executed
      exact .leaving rfl (resting.leaving isCurrent)
        (Approach.switch : Approach cause _) calm
  | sleeping notIdle sleeps =>
      cases executed
      exact .marking rfl resting rfl notIdle sleeps calm
  | plain isPlain settled =>
      cases stmt with
      | makeReady slot =>
          obtain ⟨woken, lists', result, woke, wokenResting, -⟩ :=
            resting.wakeup (used slot rfl)
          simp only [Sched.effect, woke, Except.map] at executed
          cases executed
          refine .settled wokenResting ?_
          simpa [Stmt.calls] using ⟨settled, calm⟩
      | curThread =>
          cases executed
          refine .settled resting ?_
          simpa [Stmt.calls] using
            ⟨settled_curThread current, settled, calm⟩
      | yield cause =>
          cases executed
          refine .settled resting ?_
          simpa [Stmt.calls] using
            ⟨settled_yield current cause, settled, calm⟩
      | other | readEnabled | cli | preemptOn | reti =>
          cases executed
          refine .settled resting ?_
          simpa [Stmt.calls] using ⟨settled, calm⟩
      | markSleep | switch | gain | markRunning | markDirty | setRts |
        readPrevious | cleanPrevious | handlePrevious => cases isPlain

/-- From `gain`: another statement of it, or the end of its part with the
previous thread, where the scheduler is at rest. -/
theorem step_gaining
    {caller : CallFrame limits}
    {after result : Sched limits}
    {lists : SchedList → List (Fin limits.maxThreads)}
    {stmt : Stmt limits}
    {rest : List (Stmt limits)}
    {executed : Nat}
    {regtime remaining curtime : TimerDuration}
    (off : interrupts = false ∨ .curThread ∈ caller.rest)
    (position : frame.rest = Code.gain.drop executed)
    (before : executed ≤ 5)
    (finishes : sched.finish current frame.prev frame.rest = .ok result)
    (resting : result.Resting lists)
    (calmCaller : Settled current caller.rest)
    (calm : ∀ frame ∈ below, Settled current frame.rest)
    (begins : frame.rest = stmt :: rest)
    (effect : sched.effect current frame.prev regtime remaining curtime
      stmt = .ok after) :
    Phase after (stmt.flag interrupts frame.preempt) current
      (stmt.calls interrupts sched.previousThread
        { frame with rest := rest } ++ caller :: below) := by
  obtain ⟨stmt', split, takesOver, -, last⟩ := gain_position limits before
  rw [begins, split] at position
  cases position
  rw [takesOver.effect_eq] at effect
  rw [begins] at finishes
  simp only [Sched.finish, effect, bind, Except.bind] at finishes
  rw [takesOver.flag_eq, takesOver.calls_eq]
  by_cases isLast : executed = 5
  · subst isLast
    cases finishes
    refine .settled resting ?_
    simp only [List.cons_append, List.nil_append, List.forall_mem_cons]
    exact ⟨.plain trivial (.plain trivial .done), calmCaller, calm⟩
  · exact .gaining off rfl (by omega) finishes resting calmCaller calm

/-- One statement of a call in progress, the switch apart. -/
theorem step
    {after : Sched limits}
    {stmt : Stmt limits}
    {rest : List (Stmt limits)}
    {regtime remaining curtime : TimerDuration}
    (phase : Phase sched interrupts current (frame :: below))
    (isCurrent : sched.currentThread = some current)
    (begins : frame.rest = stmt :: rest)
    (stays : ∀ cause, stmt ≠ .switch cause)
    (used : ∀ slot, stmt = .makeReady slot → sched.threadUsed slot = true)
    (deadline : Core.DeadlineSet regtime stmt)
    (effect : sched.effect current frame.prev regtime remaining curtime
      stmt = .ok after) :
    Phase after (stmt.flag interrupts frame.preempt) current
      (stmt.calls interrupts sched.previousThread
        { frame with rest := rest } ++ below) := by
  cases phase with
  | settled resting calm =>
      rw [List.forall_mem_cons, begins] at calm
      exact step_settled resting isCurrent calm.2 calm.1 used effect
  | marking off resting begins' notIdle sleeps calm =>
      rw [begins] at begins'
      cases begins'
      cases current with
      | idle => exact absurd rfl notIdle
      | slot slot =>
          obtain ⟨marked, lists', marks, inv, mark⟩ :=
            resting.sleepMark isCurrent sleeps deadline
          rw [Sched.effect, marks] at effect
          cases effect
          have state := mark.stateMark
          refine .marked off ⟨lists', _, inv, fun _ => False.elim, ?_, ?_⟩ rfl
            calm
          · rw [state]
            rcases sleeps with rfl | rfl <;> decide
          · exact fun _ => notIdle
  | marked off leaving begins' calm =>
      rw [begins] at begins'
      cases begins'
      cases effect
      exact .leaving off leaving .enter
        (List.forall_mem_cons.mpr ⟨.plain trivial .done, calm⟩)
  | leaving off leaving approach calm =>
      rw [begins] at approach
      cases approach with
      | enter =>
          cases effect
          exact .leaving off leaving .read calm
      | read =>
          cases effect
          exact .leaving off leaving .clear calm
      | clear =>
          cases effect
          exact .leaving rfl leaving .switch calm
      | switch => exact absurd rfl (stays _)
  | switched off switched begins' calmRest calm =>
      rw [begins] at begins'
      cases begins'
      cases effect
      obtain ⟨result, lists, finishes, resting⟩ := switched.finish
      have position : (Code.gain : List (Stmt limits)) = Code.gain.drop 0 := rfl
      exact .gaining off position (by omega) finishes resting calmRest calm
  | gaining off position before finishes resting calmCaller calm =>
      exact step_gaining off position before finishes resting calmCaller calm
        begins effect

end Phase

namespace HandsOver

variable {core after : Core limits}
variable {current : TcbPtr limits}

/-- When only the current thread moves, its phase is all there is to show. -/
theorem of_current
    (handsOver : HandsOver core current)
    (isCurrent : after.sched.currentThread = some current)
    (others : ∀ tcb, tcb ≠ current → after.control tcb = core.control tcb)
    (phase : Phase after.sched after.interrupts current
      (after.control current).calls) :
    HandsOver after current where
  isCurrent := isCurrent
  phase := phase
  others := by
    intro tcb different
    rw [others tcb different]
    exact handsOver.others tcb different

/-- A suspended thread is switched to. -/
theorem phase_of_suspended
    {sched : Sched limits}
    {tcb : TcbPtr limits}
    {control : Activity limits}
    (suspended : Suspended tcb control)
    (switched : sched.Switched tcb) :
    Phase sched control.sreg tcb control.calls := by
  cases suspended with
  | fresh =>
      exact .switched (.inr (List.mem_cons_self ..)) switched rfl
        (.plain trivial .done) (by simp)
  | yielded calls begins calm off =>
      rw [calls]
      exact .switched (.inl off) switched begins .done calm

/-- The switch to the next thread. -/
theorem switch
    {frame : CallFrame limits}
    {below : List (CallFrame limits)}
    {cause : SchedCause}
    {rest : List (Stmt limits)}
    {sched : Sched limits}
    {next : TcbPtr limits}
    {remaining curtime : TimerDuration}
    (handsOver : HandsOver core current)
    (calls : (core.control current).calls = frame :: below)
    (begins : frame.rest = .switch cause :: rest)
    (yielded : core.sched.yieldSwitch cause remaining curtime = .ok sched)
    (isNext : sched.currentThread = some next) :
    HandsOver ((core.executed current { frame with rest := rest } below
      (.switch cause) sched).switchTo current next) next := by
  have phase := handsOver.phase
  rw [calls] at phase
  obtain ⟨off, leaving, rfl, calm⟩ := phase.switches begins
  obtain ⟨next', isNext', switched⟩ :=
    leaving.switched handsOver.isCurrent yielded
  rw [isNext, Option.some.injEq] at isNext'
  subst isNext'
  unfold Core.switchTo
  split_ifs with same
  · subst same
    refine handsOver.of_current isNext
      (fun tcb different => Core.setCalls_of_ne different) ?_
    simp only [Core.executed, Core.setCalls_self]
    exact .switched (.inl off) switched rfl .done calm
  · have nextControl : (core.executed current
          { frame with rest := [.gain] } below (.switch cause)
            sched).control next = core.control next :=
      Core.setCalls_of_ne (Ne.symm same)
    refine ⟨isNext, ?_, ?_⟩
    · simp only [Core.setControl_of_ne (Ne.symm same), nextControl]
      exact phase_of_suspended (handsOver.others next (Ne.symm same)) switched
    · intro tcb different
      by_cases isCurrent : tcb = current
      · subst isCurrent
        simp only [Core.setControl_self]
        have left : ((core.executed tcb { frame with rest := [.gain] } below
            (.switch cause) sched).control tcb).calls =
              { frame with rest := [.gain] } :: below := by
          simp [Core.executed, Stmt.calls]
        refine .yielded left rfl calm ?_
        simpa [Core.executed, Stmt.flag] using off
      · simp only [Core.setControl_of_ne isCurrent, Core.executed,
          Core.setCalls_of_ne isCurrent]
        exact handsOver.others tcb isCurrent

/-- A call in progress goes on. -/
theorem advance
    {regtime remaining curtime : TimerDuration}
    (handsOver : HandsOver core current)
    (used : ∀ slot, core.nextStmt = some (.makeReady slot) →
      core.sched.threadUsed slot = true)
    (deadline : ∀ stmt ∈ core.nextStmt, Core.DeadlineSet regtime stmt)
    (advanced : core.advance current regtime remaining curtime = .ok after) :
    ∃ next, HandsOver after next := by
  obtain ⟨frame, below, calls, returns | executes⟩ :=
    Core.advance_cases advanced
  · obtain ⟨ended, rfl⟩ := returns
    refine ⟨current, handsOver.of_current handsOver.isCurrent
      (fun tcb different => Core.setCalls_of_ne different) ?_⟩
    have phase := handsOver.phase
    rw [calls] at phase
    rw [Core.setCalls_self]
    exact phase.returns ended
  · obtain ⟨stmt, rest, sched, next, begins, effect, isNext, rfl⟩ := executes
    have isStmt : core.nextStmt = some stmt := by
      simp [Core.nextStmt, handsOver.isCurrent, calls, begins]
    by_cases switches : ∃ cause, stmt = .switch cause
    · obtain ⟨cause, rfl⟩ := switches
      exact ⟨next, handsOver.switch calls begins effect isNext⟩
    · have stays : ∀ cause, stmt ≠ .switch cause :=
        fun cause isSwitch => switches ⟨cause, isSwitch⟩
      have stayed := Sched.effect_currentThread stays effect
      rw [isNext, handsOver.isCurrent, Option.some.injEq] at stayed
      subst stayed
      refine ⟨next, ?_⟩
      rw [Core.switchTo, if_pos rfl]
      refine handsOver.of_current isNext
        (fun tcb different => Core.setCalls_of_ne different) ?_
      have phase := handsOver.phase
      rw [calls] at phase
      simp only [Core.executed, Core.setCalls_self]
      refine phase.step handsOver.isCurrent begins stays ?_
        (deadline stmt isStmt) effect
      rintro slot rfl
      exact used slot isStmt

/-- Own code runs only when the scheduler is at rest. -/
theorem resting_of_own
    (handsOver : HandsOver core current)
    (own : (core.control current).calls = []) :
    ∃ lists, core.sched.Resting lists := by
  have phase := handsOver.phase
  rw [own] at phase
  cases phase with
  | settled resting => exact ⟨_, resting⟩

/-- Own code changes the flag or the lock. -/
theorem of_own
    (handsOver : HandsOver core current)
    (own : (core.control current).calls = [])
    (sched : after.sched = core.sched)
    (others : ∀ tcb, tcb ≠ current → after.control tcb = core.control tcb)
    (stillOwn : (after.control current).calls = []) :
    HandsOver after current := by
  obtain ⟨lists, resting⟩ := handsOver.resting_of_own own
  refine handsOver.of_current ?_ others ?_
  · rw [sched]
    exact handsOver.isCurrent
  · rw [sched, stillOwn]
    exact .settled resting (by simp)

/-- A new thread is suspended in a slot that was free. -/
theorem spawnThread
    (handsOver : HandsOver core current)
    (own : (core.control current).calls = [])
    (pcb : Option (Fin limits.maxProc))
    (func : ThreadFunc) :
    HandsOver (core.spawnThread pcb func) current := by
  obtain ⟨lists, resting⟩ := handsOver.resting_of_own own
  rcases core.spawnThread_cases pcb func with same | ⟨slot, found, same⟩
  · rw [same]
    exact handsOver
  · rw [same]
    have free := Sched.freeSlot_eq_some found
    have apart : current ≠ .slot slot := by
      rintro rfl
      have used := resting.dirtyUsed slot handsOver.isCurrent
      rw [free] at used
      cases used
    refine ⟨by simpa using handsOver.isCurrent, ?_, ?_⟩
    · simp only [Core.setControl_of_ne apart, own]
      exact .settled (resting.initThread free pcb func) (by simp)
    · intro tcb different
      by_cases isSlot : tcb = .slot slot
      · subst isSlot
        simp only [Core.setControl_self]
        exact .fresh
      · simp only [Core.setControl_of_ne isSlot]
        exact handsOver.others tcb different

/-- Every event of an undisturbed run keeps the invariant. -/
theorem step
    {event : Event limits}
    (handsOver : HandsOver core current)
    (enabled : core.Enabled event)
    (undisturbed : core.Undisturbed event)
    (stepped : core.step event = .ok after) :
    ∃ next, HandsOver after next := by
  have isCurrent := handsOver.isCurrent
  simp only [Core.step, isCurrent] at stepped
  cases event with
  | alarm =>
      cases stepped
      refine ⟨current, handsOver.of_current isCurrent
        (fun tcb different => Core.setCalls_of_ne different) ?_⟩
      have phase := handsOver.phase
      rw [enabled] at phase
      have notStarting := undisturbed current isCurrent
      obtain ⟨lists, resting, calm⟩ := phase.interrupted
        fun inStart => by_contra fun gaining => notStarting ⟨gaining, inStart⟩
      rw [Core.setCalls_self]
      exact .settled resting
        (List.forall_mem_cons.mpr ⟨settled_alarm current, calm⟩)
  | next regtime remaining curtime =>
      exact handsOver.advance enabled undisturbed stepped
  | call target =>
      cases stepped
      refine ⟨current, handsOver.of_current isCurrent
        (fun tcb different => Core.setCalls_of_ne different) ?_⟩
      have own := own_of_call isCurrent enabled
      obtain ⟨lists, resting⟩ := handsOver.resting_of_own own
      rw [Core.setCalls_self, own]
      exact .settled resting (List.forall_mem_cons.mpr
        ⟨settled_code isCurrent enabled, by simp⟩)
  | kernelLock =>
      cases stepped
      have own := ((Core.ownCode_eq_some isCurrent).mp enabled).1
      refine ⟨current, handsOver.of_own own rfl
        (fun tcb different => Core.setControl_of_ne different) ?_⟩
      simpa using own
  | kernelUnlock =>
      cases stepped
      have own := ((Core.ownCode_eq_some isCurrent).mp enabled).1
      refine ⟨current, handsOver.of_own own rfl
        (fun tcb different => Core.setControl_of_ne different) ?_⟩
      simpa using own
  | setInterrupts on =>
      cases stepped
      have own := ((Core.ownCode_eq_some isCurrent).mp enabled).1
      exact ⟨current, handsOver.of_own own rfl (fun _ _ => rfl) own⟩
  | spawnThread pcb func =>
      cases stepped
      have own := ((Core.ownCode_eq_some isCurrent).mp enabled).1
      exact ⟨current, handsOver.spawnThread own pcb func⟩

end HandsOver

namespace Core

variable {core : Core limits}

theorem Booted.handsOver (booted : core.Booted) :
    ∃ current, HandsOver core current := by
  obtain ⟨sched, pcb, reached, notStarted, rfl⟩ := booted
  obtain ⟨lists, resting⟩ := reached.resting
  refine ⟨.idle, rfl, .settled (resting.runScheduler notStarted pcb) ?_, ?_⟩
  · intro frame member
    cases member
  · intro tcb different
    cases tcb with
    | idle => exact absurd rfl different
    | slot slot => exact .fresh

theorem Reached.handsOver (reached : core.Reached Undisturbed) :
    ∃ current, HandsOver core current := by
  obtain ⟨start, booted, run⟩ := reached
  refine run.invariant
    (motive := fun core => ∃ current, HandsOver core current)
    booted.handsOver ?_
  rintro before after event ⟨current, handsOver⟩ ⟨enabled, undisturbed⟩
    stepped
  exact handsOver.step enabled undisturbed stepped

/-- In every run without an interrupt in the first `gain` of a thread, and
without a deadline equal to `NO_TIMEOUT`, no thread is lost: whenever the
current thread is past its `gain`, every other ready thread is in a queue. -/
theorem no_thread_lost
    (reached : core.Reached Undisturbed)
    (past : ∀ current ∈ core.sched.currentThread,
      (core.control current).PastGain) :
    core.NoneLost := by
  obtain ⟨current, handsOver⟩ := reached.handsOver
  have isCurrent := handsOver.isCurrent
  have leaving := handsOver.phase.leaving_of_pastGain isCurrent
    (past current isCurrent)
  exact leaving.noneLost isCurrent

/-- Thread 0 yields to the new thread 1 inside the kernel; the interrupt comes
after the first `gain` of thread 1, where thread 0 is ready. -/
theorem no_thread_lost_two_threads :
    ∃ core : Core Limits.tinier, (core.Reached Undisturbed ∧
      (∀ current ∈ core.sched.currentThread,
        (core.control current).PastGain) ∧
      core.sched.currentThread = some (.slot 1) ∧
      (core.sched.tcb (.slot 0)).state = .ready) ∧ core.NoneLost := by
  have ran : ∃ core : Core Limits.tinier, core.Reached Undisturbed ∧
      decide ((∀ current ∈ core.sched.currentThread,
        (core.control current).PastGain) ∧
        core.sched.currentThread = some (.slot 1) ∧
        (core.sched.tcb (.slot 0)).state = .ready) = true :=
    exists_reached_of_any [.spawnThread none .startMainThread, .wakeup 0]
      (List.flatten [yieldToNew, nexts 17, [.alarm]])
      (by decide +kernel)
  obtain ⟨core, reached, test⟩ := ran
  obtain ⟨past, isCurrent, ready⟩ := of_decide_eq_true test
  exact ⟨core, ⟨reached, past, isCurrent, ready⟩,
    no_thread_lost reached past⟩

end Core
end TinierOS
