import TinierOS.Preempt.Defs

/-!
# Kernel calls are not interrupted

Between `kernel_lock` and `kernel_unlock` the flag is off whenever the thread
runs.  The invariant speaks of all threads: a thread inside the kernel has the
flag off, in `SREG` or in its saved context, and none of its calls in progress
is going to set it.  Nothing is assumed of the scheduler but that only `yield`
moves `current_thread`.
-/

namespace TinierOS

variable {limits : Limits}

/-! ## The current thread -/

namespace Sched

variable {sched after : Sched limits}
variable {tcb : TcbPtr limits}

theorem schedQueueAdd_currentThread
    (added : sched.schedQueueAdd tcb = .ok after) :
    after.currentThread = sched.currentThread := by
  unfold schedQueueAdd at added
  split at added
  · cases added
  · cases added
    rfl

theorem cancelTimeout_currentThread
    (cancelled : sched.cancelTimeout tcb = .ok after) :
    after.currentThread = sched.currentThread := by
  unfold cancelTimeout at cancelled
  split_ifs at cancelled
  all_goals
    cases cancelled
    rfl

theorem schedMakeReady_currentThread
    (ready : sched.schedMakeReady tcb = .ok after) :
    after.currentThread = sched.currentThread := by
  unfold schedMakeReady at ready
  split_ifs at ready
  cases cancelled : sched.cancelTimeout tcb with
  | error fault =>
      rw [cancelled] at ready
      cases ready
  | ok middle =>
      rw [cancelled] at ready
      have kept := cancelTimeout_currentThread cancelled
      simp only [bind, Except.bind] at ready
      split_ifs at ready
      · exact (schedQueueAdd_currentThread ready).trans kept
      · cases ready
        exact kept

theorem wakeup_currentThread
    {woken : Bool}
    (woke : sched.wakeup tcb = .ok (after, woken)) :
    after.currentThread = sched.currentThread := by
  unfold Sched.wakeup at woke
  split_ifs at woke
  · cases ready : sched.schedMakeReady tcb with
    | error fault =>
        rw [ready] at woke
        cases woke
    | ok middle =>
        rw [ready] at woke
        cases woke
        exact schedMakeReady_currentThread ready
  · cases woke
    rfl

theorem schedRegisterTimeout_currentThread
    {timeout curtime : TimerDuration}
    (registered : sched.schedRegisterTimeout tcb timeout curtime =
      .ok after) :
    after.currentThread = sched.currentThread := by
  unfold schedRegisterTimeout at registered
  split_ifs at registered
  · cases registered
    rfl
  · simp only [bind, Except.bind] at registered
    split at registered
    · cases registered
    · cases registered
      rfl

theorem sleepMark_currentThread
    {state : ThreadState}
    {timeout curtime : TimerDuration}
    (marked : sched.sleepMark state timeout curtime = .ok after) :
    after.currentThread = sched.currentThread := by
  by_cases sleeps : state = .stopped ∨ state = .exited
  · cases isCurrent : sched.currentThread with
    | none =>
        rw [Sched.sleepMark, if_pos sleeps, isCurrent] at marked
        cases marked
    | some current =>
        simp only [Sched.sleepMark, if_pos sleeps, isCurrent] at marked
        split_ifs at marked
        · cases marked
          exact isCurrent
        · exact (schedRegisterTimeout_currentThread marked).trans isCurrent
  · rw [Sched.sleepMark, if_neg sleeps] at marked
    cases marked

theorem handlePrevious_currentThread
    (handled : sched.handlePrevious tcb = .ok after) :
    after.currentThread = sched.currentThread := by
  unfold Sched.handlePrevious at handled
  cases state : (sched.tcb tcb).state with
  | init =>
      rw [state] at handled
      cases handled
  | running =>
      rw [state] at handled
      cases handled
  | stopped =>
      rw [state] at handled
      cases handled
      rfl
  | exited =>
      rw [state] at handled
      cases handled
      cases tcb <;> rfl
  | ready =>
      simp only [state] at handled
      split_ifs at handled
      · cases handled
        rfl
      · exact schedQueueAdd_currentThread handled

/-- Only `yield` moves `current_thread`. -/
theorem effect_currentThread
    {current : TcbPtr limits}
    {prev : Option (TcbPtr limits)}
    {regtime remaining curtime : TimerDuration}
    {stmt : Stmt limits}
    (stays : ∀ cause, stmt ≠ .switch cause)
    (executed : sched.effect current prev regtime remaining curtime stmt =
      .ok after) :
    after.currentThread = sched.currentThread := by
  cases stmt with
  | switch cause => exact absurd rfl (stays cause)
  | makeReady slot =>
      simp only [effect] at executed
      cases woke : sched.wakeup (.slot slot) with
      | error fault =>
          rw [woke] at executed
          cases executed
      | ok result =>
          rw [woke] at executed
          cases executed
          exact wakeup_currentThread woke
  | markSleep state timeout => exact sleepMark_currentThread executed
  | cleanPrevious =>
      cases prev with
      | none => cases executed
      | some previous =>
          simp only [effect] at executed
          split_ifs at executed
          all_goals
            cases executed
            rfl
  | handlePrevious =>
      cases prev with
      | none => cases executed
      | some previous =>
          simp only [effect] at executed
          split_ifs at executed
          · cases executed
            rfl
          · exact handlePrevious_currentThread executed
  | other | readEnabled | cli | preemptOn | curThread | yield | gain |
    markRunning | markDirty | setRts | readPrevious | reti =>
      cases executed
      rfl

end Sched

/-! ## Steps of a call in progress -/

namespace Core

variable {core after : Core limits}
variable {current : TcbPtr limits}

@[simp] theorem setControl_self
    (core : Core limits)
    (tcb : TcbPtr limits)
    (control : Activity limits) :
    (core.setControl tcb control).control tcb = control :=
  Function.update_self ..

theorem setControl_of_ne
    {tcb other : TcbPtr limits}
    {control : Activity limits}
    (different : other ≠ tcb) :
    (core.setControl tcb control).control other = core.control other :=
  Function.update_of_ne different ..

@[simp] theorem setCalls_self
    (core : Core limits)
    (tcb : TcbPtr limits)
    (calls : List (CallFrame limits)) :
    (core.setCalls tcb calls).control tcb =
      { core.control tcb with calls := calls } :=
  setControl_self ..

theorem setCalls_of_ne
    {tcb other : TcbPtr limits}
    {calls : List (CallFrame limits)}
    (different : other ≠ tcb) :
    (core.setCalls tcb calls).control other = core.control other :=
  setControl_of_ne different

/-- Own code runs when there is no call in progress. -/
theorem ownCode_eq_some
    {locked : Bool}
    (isCurrent : core.sched.currentThread = some current) :
    core.ownCode = some locked ↔ (core.control current).calls = [] ∧
      (core.control current).locked = locked := by
  simp [ownCode, isCurrent]

/-- A new thread is one of a free slot. -/
theorem spawnThread_cases
    (core : Core limits)
    (pcb : Option (Fin limits.maxProc))
    (func : ThreadFunc) :
    core.spawnThread pcb func = core ∨
      ∃ slot, core.sched.freeSlot = some slot ∧
        core.spawnThread pcb func =
          { core.setControl (.slot slot) (Activity.fresh limits) with
            sched := core.sched.initThread slot pcb func } := by
  unfold Core.spawnThread
  cases found : core.sched.freeSlot with
  | none =>
      rw [Sched.spawnThread_of_full found]
      exact .inl rfl
  | some slot =>
      rw [Sched.spawnThread_of_free found]
      exact .inr ⟨slot, rfl, rfl⟩

/-- A call in progress returns or executes its next statement. -/
theorem advance_cases
    {regtime remaining curtime : TimerDuration}
    (advanced : core.advance current regtime remaining curtime = .ok after) :
    ∃ frame below, (core.control current).calls = frame :: below ∧
      ((frame.rest = [] ∧ after = core.setCalls current below) ∨
        ∃ stmt rest sched next, frame.rest = stmt :: rest ∧
          core.sched.effect current frame.prev regtime remaining curtime
            stmt = .ok sched ∧
          sched.currentThread = some next ∧
          after = (core.executed current { frame with rest := rest } below stmt
            sched).switchTo current next) := by
  unfold advance at advanced
  split at advanced
  · cases advanced
  · rename_i frame below calls
    refine ⟨frame, below, calls, ?_⟩
    split at advanced
    · rename_i ended
      cases advanced
      exact .inl ⟨ended, rfl⟩
    · rename_i stmt rest begins
      split at advanced
      · cases advanced
      · rename_i sched executed
        split at advanced
        · cases advanced
        · rename_i next isNext
          cases advanced
          exact .inr ⟨stmt, rest, sched, next, begins, executed, isNext, rfl⟩

end Core

/-! ## Calls that leave the flag off -/

/-- Executed with the flag off, these statements do not set it. -/
def Stmt.Quiet : Bool → List (Stmt limits) → Prop
  | _, [] => True
  | _, .readEnabled :: rest => Quiet false rest
  | preempt, .preemptOn :: rest => preempt = false ∧ Quiet preempt rest
  | preempt, .gain :: rest => preempt = false ∧ Quiet preempt rest
  | _, .reti :: _ => False
  | preempt, _ :: rest => Quiet preempt rest

/-- A call that leaves the flag off. -/
def CallFrame.Quiet (frame : CallFrame limits) : Prop :=
  Stmt.Quiet frame.preempt frame.rest

theorem KernelCall.quiet_code (target : KernelCall limits) :
    (CallFrame.call target.code false).Quiet := by
  cases target <;> simp [CallFrame.Quiet, CallFrame.call, KernelCall.code,
    Code.curThread, Code.wakeup, Code.yield, Code.sleepReleasing, Stmt.Quiet]

theorem Code.quiet_gain :
    (CallFrame.call (Code.gain : List (Stmt limits)) false).Quiet := by
  simp [CallFrame.Quiet, CallFrame.call, Code.gain, Stmt.Quiet]

/-- No handler of an interrupt is among quiet statements. -/
theorem Stmt.Quiet.no_reti
    {preempt : Bool}
    {code : List (Stmt limits)}
    (quiet : Stmt.Quiet preempt code) :
    .reti ∉ code := by
  induction code generalizing preempt with
  | nil => simp
  | cons stmt rest inductionHypothesis =>
      cases stmt <;> simp only [Stmt.Quiet] at quiet <;>
        simp only [List.mem_cons, reduceCtorEq, false_or]
      all_goals
        first
        | exact inductionHypothesis quiet
        | exact inductionHypothesis quiet.2

/-- A statement of a quiet call leaves the flag off, and so do the calls that
are in progress after it. -/
theorem CallFrame.Quiet.stmt
    {frame : CallFrame limits}
    {stmt : Stmt limits}
    {rest : List (Stmt limits)}
    (quiet : frame.Quiet)
    (begins : frame.rest = stmt :: rest)
    (previous : Option (TcbPtr limits)) :
    stmt.flag false frame.preempt = false ∧
      ∀ call ∈ stmt.calls false previous { frame with rest := rest },
        call.Quiet := by
  unfold CallFrame.Quiet at quiet
  rw [begins] at quiet
  cases stmt with
  | curThread =>
      refine ⟨rfl, ?_⟩
      simp only [Stmt.calls, List.forall_mem_cons]
      exact ⟨KernelCall.quiet_code .curThread, quiet, by simp⟩
  | yield cause =>
      refine ⟨rfl, ?_⟩
      simp only [Stmt.calls, List.forall_mem_cons]
      exact ⟨KernelCall.quiet_code (.yield cause), quiet, by simp⟩
  | gain =>
      refine ⟨rfl, ?_⟩
      simp only [Stmt.calls, List.forall_mem_cons, quiet.1]
      exact ⟨Code.quiet_gain, quiet.1 ▸ quiet.2, by simp⟩
  | preemptOn =>
      refine ⟨by simpa [Stmt.flag] using quiet.1, ?_⟩
      simpa [Stmt.calls, CallFrame.Quiet] using quiet.2
  | reti => exact quiet.elim
  | other | readEnabled | cli | makeReady | markSleep | switch | markRunning |
    markDirty | setRts | readPrevious | cleanPrevious | handlePrevious =>
      exact ⟨rfl, by simpa [Stmt.calls, CallFrame.Quiet, Stmt.Quiet] using quiet⟩

/-! ## The invariant -/

namespace Core

/-- Threads inside the kernel have the flag off, and their calls leave it
so. -/
def Atomic (core : Core limits) (current : TcbPtr limits) : Prop :=
  ∀ tcb, (core.control tcb).locked = true →
    (if tcb = current then core.interrupts else (core.control tcb).sreg) =
      false ∧
    ∀ frame ∈ (core.control tcb).calls, frame.Quiet

variable {core after : Core limits}
variable {current : TcbPtr limits}

/-- It is enough to look at the current thread when nothing else changes. -/
theorem Atomic.of_current
    (atomic : core.Atomic current)
    (others : ∀ tcb, tcb ≠ current → after.control tcb = core.control tcb)
    (self : (after.control current).locked = true →
      after.interrupts = false ∧
        ∀ frame ∈ (after.control current).calls, frame.Quiet) :
    after.Atomic current := by
  intro tcb locked
  by_cases isCurrent : tcb = current
  · subst isCurrent
    rw [if_pos rfl]
    exact self locked
  · rw [others tcb isCurrent] at locked ⊢
    have before := atomic tcb locked
    rw [if_neg isCurrent] at before ⊢
    exact before

theorem Atomic.off
    (atomic : core.Atomic current)
    (locked : (core.control current).locked = true) :
    core.interrupts = false := by
  have before := (atomic current locked).1
  rwa [if_pos rfl] at before

theorem Atomic.executed
    {frame : CallFrame limits}
    {below : List (CallFrame limits)}
    {stmt : Stmt limits}
    {rest : List (Stmt limits)}
    (atomic : core.Atomic current)
    (calls : (core.control current).calls = frame :: below)
    (begins : frame.rest = stmt :: rest)
    (sched : Sched limits) :
    (core.executed current { frame with rest := rest } below stmt
      sched).Atomic current := by
  refine atomic.of_current (fun tcb different => setCalls_of_ne different) ?_
  intro locked
  have lockedBefore : (core.control current).locked = true := by
    simpa [Core.executed] using locked
  have off := atomic.off lockedBefore
  have quiet := (atomic current lockedBefore).2
  rw [calls, List.forall_mem_cons] at quiet
  obtain ⟨flag, callsQuiet⟩ :=
    quiet.1.stmt begins core.sched.previousThread
  refine ⟨by simpa [Core.executed, off] using flag, ?_⟩
  simp only [Core.executed, setCalls_self, off, List.forall_mem_append]
  exact ⟨callsQuiet, quiet.2⟩

/-- A switch saves the flag of the old thread and restores that of the new
one. -/
theorem Atomic.switchTo
    (atomic : core.Atomic current)
    (next : TcbPtr limits) :
    (core.switchTo current next).Atomic next := by
  unfold Core.switchTo
  split_ifs with same
  · exact same ▸ atomic
  · intro tcb locked
    by_cases isCurrent : tcb = current
    · subst isCurrent
      rw [if_neg same]
      simp only [setControl_self] at locked ⊢
      exact ⟨atomic.off locked, (atomic tcb locked).2⟩
    · simp only [setControl_of_ne isCurrent] at locked ⊢
      have before := atomic tcb locked
      rw [if_neg isCurrent] at before
      split_ifs with isNext
      · exact isNext ▸ before
      · exact before

theorem Atomic.advance
    {regtime remaining curtime : TimerDuration}
    (atomic : core.Atomic current)
    (advanced : core.advance current regtime remaining curtime = .ok after)
    (isCurrent : core.sched.currentThread = some current) :
    ∃ next, after.sched.currentThread = some next ∧ after.Atomic next := by
  obtain ⟨frame, below, calls, returns | executes⟩ := advance_cases advanced
  · obtain ⟨-, rfl⟩ := returns
    refine ⟨current, isCurrent, ?_⟩
    refine atomic.of_current (fun tcb different => setCalls_of_ne different) ?_
    simp only [setCalls_self]
    intro locked
    have quiet := (atomic current locked).2
    rw [calls, List.forall_mem_cons] at quiet
    exact ⟨atomic.off locked, quiet.2⟩
  · obtain ⟨stmt, rest, sched, next, begins, -, isNext, rfl⟩ := executes
    refine ⟨next, ?_, (atomic.executed calls begins sched).switchTo next⟩
    unfold Core.switchTo
    split_ifs <;> exact isNext

theorem Atomic.spawnThread
    (atomic : core.Atomic current)
    (pcb : Option (Fin limits.maxProc))
    (func : ThreadFunc) :
    (core.spawnThread pcb func).Atomic current := by
  rcases core.spawnThread_cases pcb func with same | ⟨slot, -, same⟩
  · rw [same]
    exact atomic
  · rw [same]
    intro tcb locked
    by_cases isSlot : tcb = .slot slot
    · subst isSlot
      simp [Activity.fresh] at locked
    · simp only [setControl_of_ne isSlot] at locked ⊢
      exact atomic tcb locked

theorem Atomic.step
    {event : Event limits}
    (atomic : core.Atomic current)
    (isCurrent : core.sched.currentThread = some current)
    (enabled : core.Enabled event)
    (stepped : core.step event = .ok after) :
    ∃ next, after.sched.currentThread = some next ∧ after.Atomic next := by
  simp only [Core.step, isCurrent] at stepped
  cases event with
  | alarm =>
      cases stepped
      refine ⟨current, isCurrent, atomic.of_current
        (fun tcb different => setCalls_of_ne different) ?_⟩
      simp only [setCalls_self]
      intro locked
      have off := atomic.off locked
      rw [enabled] at off
      cases off
  | next regtime remaining curtime => exact atomic.advance stepped isCurrent
  | call target =>
      cases stepped
      refine ⟨current, isCurrent, atomic.of_current
        (fun tcb different => setCalls_of_ne different) ?_⟩
      simp only [setCalls_self, List.forall_mem_cons]
      intro locked
      exact ⟨atomic.off locked, target.quiet_code, (atomic current locked).2⟩
  | kernelLock =>
      cases stepped
      refine ⟨current, isCurrent, atomic.of_current
        (fun tcb different => setControl_of_ne different) ?_⟩
      simp [((ownCode_eq_some isCurrent).mp enabled).1]
  | kernelUnlock =>
      cases stepped
      refine ⟨current, isCurrent, atomic.of_current
        (fun tcb different => setControl_of_ne different) ?_⟩
      simp
  | setInterrupts on =>
      cases stepped
      refine ⟨current, isCurrent, atomic.of_current (fun _ _ => rfl) ?_⟩
      simp [((ownCode_eq_some isCurrent).mp enabled).2]
  | spawnThread pcb func =>
      cases stepped
      refine ⟨current, ?_, atomic.spawnThread pcb func⟩
      rcases core.spawnThread_cases pcb func with same | ⟨slot, -, same⟩
      · rw [same]
        exact isCurrent
      · rw [same]
        simpa using isCurrent

theorem Booted.atomic (booted : core.Booted) :
    ∃ current, core.sched.currentThread = some current ∧
      core.Atomic current := by
  obtain ⟨sched, pcb, -, -, rfl⟩ := booted
  refine ⟨.idle, rfl, ?_⟩
  intro tcb locked
  cases tcb <;> cases locked

theorem Reached.atomic
    {allowed : Core limits → Event limits → Prop}
    (reached : core.Reached allowed) :
    ∃ current, core.sched.currentThread = some current ∧
      core.Atomic current := by
  obtain ⟨start, booted, run⟩ := reached
  refine run.invariant
    (motive := fun core => ∃ current,
      core.sched.currentThread = some current ∧ core.Atomic current)
    booted.atomic ?_
  rintro before after event ⟨current, isCurrent, atomic⟩ ⟨enabled, -⟩ stepped
  exact atomic.step isCurrent enabled stepped

/-- In every run a thread between `kernel_lock` and `kernel_unlock` has the flag
off whenever it has the core, so that no interrupt is taken there; and no thread
that is inside the kernel, wherever it has been switched out, is inside an
interrupt handler. -/
theorem kernel_calls_atomic
    {tcb : TcbPtr limits}
    (reached : core.Reached fun _ _ => True)
    (locked : (core.control tcb).locked = true) :
    (core.sched.currentThread = some tcb →
      core.interrupts = false ∧ ¬core.Enabled .alarm) ∧
    (core.sched.currentThread ≠ some tcb →
      (core.control tcb).sreg = false) ∧
    ∀ frame ∈ (core.control tcb).calls, .reti ∉ frame.rest := by
  obtain ⟨current, isCurrent, atomic⟩ := reached.atomic
  obtain ⟨off, quiet⟩ := atomic tcb locked
  refine ⟨?_, ?_, fun frame member => (quiet frame member).no_reti⟩
  · intro isTcb
    rw [isCurrent, Option.some.injEq] at isTcb
    rw [if_pos isTcb.symm] at off
    exact ⟨off, by simp [Core.Enabled, off]⟩
  · intro notTcb
    rw [isCurrent, Ne, Option.some.injEq] at notTcb
    rwa [if_neg (Ne.symm notTcb)] at off

/-- Thread 0 yields inside a kernel call, and gets the core back when thread 1
is interrupted. -/
theorem kernel_calls_atomic_resumed :
    ∃ core : Core Limits.tinier, (core.Reached fun _ _ => True) ∧
      (core.control (.slot 0)).locked = true ∧
      core.sched.currentThread = some (.slot 0) ∧
      core.interrupts = false ∧ ¬core.Enabled .alarm := by
  have ran : ∃ core : Core Limits.tinier, (core.Reached fun _ _ => True) ∧
      decide ((core.control (.slot 0)).locked = true ∧
        core.sched.currentThread = some (.slot 0)) = true :=
    exists_reached_of_any [.spawnThread none .startMainThread, .wakeup 0]
      (List.flatten [yieldToNew, nexts 17, [.alarm], nexts 5])
      (by decide +kernel)
  obtain ⟨core, reached, test⟩ := ran
  obtain ⟨locked, isCurrent⟩ := of_decide_eq_true test
  exact ⟨core, reached, locked, isCurrent,
    (kernel_calls_atomic reached locked).1 isCurrent⟩

end Core
end TinierOS
