import TinierOS.System.ThreadLog

/-!
# Joining and detaching threads

`ThreadJoin` polls the PTCB that its tid points to, and nothing else: it does not
ask whose thread it is, nor whether it is detached.  PTCBs are never taken again,
so that a join returns the exit value of the right thread; but the calls that the
interface describes as errors are not rejected.
-/

namespace TinierOS

variable {limits : Limits}

namespace System

open Kernel

variable {before after : System limits}
variable {action : Action limits}
variable {slot tid : Fin limits.maxThreads}
variable {exitval : Bool}

/-- A test of the loop of `sys_ThreadJoin` returns the exit value, or the thread
is suspended once more. -/
theorem JoinLoop.outcome
    (loop : JoinLoop before action slot tid exitval)
    (isCurrent : before.currentSlot = some slot)
    (stepped : before.step action = .ok after) :
    (before.kernel.ptcb tid).exited = true ∧
        after.reply = .threadJoin 0
          (if exitval then some (before.kernel.ptcb tid).exitval else none) ∨
      (before.kernel.ptcb tid).exited = false ∧ after.reply = .none := by
  have looped : ∃ clock, before.joinLoop slot tid exitval clock = .ok after := by
    rw [step_of_slot isCurrent] at stepped
    cases loop with
    | call isCall =>
        subst isCall
        exact ⟨_, stepped⟩
    | resume resumes suspended =>
        subst resumes
        simp only [threadStep, suspended] at stepped
        exact ⟨_, stepped⟩
  obtain ⟨clock, looped⟩ := looped
  unfold System.joinLoop at looped
  by_cases exited : (before.kernel.ptcb tid).exited = true
  · rw [if_pos exited] at looped
    cases looped
    exact .inl ⟨exited, rfl⟩
  · rw [if_neg exited] at looped
    obtain ⟨sched, -, suspended⟩ := exists_of_bind_eq_ok looped
    cases suspended
    exact .inr ⟨by simpa using exited, rfl⟩

/-- The loop is never left with an error. -/
theorem JoinLoop.not_refused
    {value : Option Int}
    (loop : JoinLoop before action slot tid exitval)
    (isCurrent : before.currentSlot = some slot)
    (stepped : before.step action = .ok after) :
    after.reply ≠ .threadJoin (-1) value := by
  intro refused
  rcases loop.outcome isCurrent stepped with ⟨-, returns⟩ | ⟨-, returns⟩
  · rw [returns] at refused
    injection refused with result
    cases result
  · rw [returns] at refused
    cases refused

theorem JoinLoop.exited_of_returns
    {value : Option Int}
    (loop : JoinLoop before action slot tid exitval)
    (isCurrent : before.currentSlot = some slot)
    (stepped : before.step action = .ok after)
    (returns : after.reply = .threadJoin 0 value) :
    (before.kernel.ptcb tid).exited = true ∧
      value = if exitval then some (before.kernel.ptcb tid).exitval
        else none := by
  rcases loop.outcome isCurrent stepped with ⟨exited, reply⟩ | ⟨-, reply⟩
  · rw [returns] at reply
    injection reply with _ isValue
    exact ⟨exited, isValue⟩
  · rw [returns] at reply
    cases reply

end System

namespace ThreadLog

open TinierOS.System TinierOS.Kernel

variable {log : ThreadLog limits}
variable {after : System limits}
variable {action : Action limits}
variable {tid : Fin limits.maxThreads}

/-- The tid has been returned by `CreateThread` or `ThreadSelf`. -/
def Known (log : ThreadLog limits) (tid : Fin limits.maxThreads) : Prop :=
  ∃ thread, (thread, tid) ∈ log.tids

/-- The thread with the tid has exited. -/
def Exited (log : ThreadLog limits) (tid : Fin limits.maxThreads) : Prop :=
  ∃ thread exitval, (thread, tid) ∈ log.tids ∧ (thread, exitval) ∈ log.exits

/-- A PTCB whose tid is known is marked with the exit value of its thread. -/
theorem Consistent.exitval
    {thread : Thread limits}
    (consistent : log.Consistent)
    (known : (thread, tid) ∈ log.tids)
    (exited : (log.system.kernel.ptcb tid).exited = true) :
    (thread, (log.system.kernel.ptcb tid).exitval) ∈ log.exits := by
  rcases (consistent.known known).2 with
    ⟨⟨usedThread, -⟩, had⟩ | ⟨exitval, wasExit, -, isValue⟩
  · rw [(consistent.tidsDistinct.live usedThread had).2] at exited
    cases exited
  · rwa [isValue]

/-- The PTCB of a tid knows whether its thread has exited. -/
theorem Consistent.exited_iff
    (consistent : log.Consistent)
    (known : log.Known tid) :
    log.Exited tid ↔ (log.system.kernel.ptcb tid).exited = true := by
  obtain ⟨thread, isTid⟩ := known
  constructor
  · rintro ⟨other, exitval, otherTid, wasExit⟩
    rcases (consistent.known otherTid).2 with ⟨alive, -⟩ | ⟨-, -, exited, -⟩
    · exact absurd alive (consistent.past wasExit).2
    · exact exited
  · intro exited
    exact ⟨thread, _, isTid, consistent.exitval isTid exited⟩

/-- A `ThreadJoin` that returns 0 delivers the value that the thread with its tid
has passed to `Exit` or `ThreadExit`; there is just one such thread, and one such
value. -/
theorem join_delivers
    {slot : Fin limits.maxThreads}
    {exitval : Bool}
    {thread : Thread limits}
    {value : Option Int}
    (reached : log.Reached)
    (stepped : log.system.step action = .ok after)
    (isCurrent : log.system.currentSlot = some slot)
    (loop : JoinLoop log.system action slot tid exitval)
    (known : (thread, tid) ∈ log.tids)
    (returns : after.reply = .threadJoin 0 value) :
    ∃ left, (thread, left) ∈ log.exits ∧
      (∀ other, (thread, other) ∈ log.exits → other = left) ∧
      (∀ other, (other, tid) ∈ log.tids → other = thread) ∧
      value = if exitval then some left else none := by
  have consistent := reached.consistent
  obtain ⟨exited, isValue⟩ := loop.exited_of_returns isCurrent stepped returns
  have wasExit := consistent.exitval known exited
  exact ⟨_, wasExit, fun other isOther => consistent.once isOther wasExit,
    fun other isOther => consistent.unique isOther known, isValue⟩

/-- A reached log in which a call can be made, with what the call does. -/
theorem exists_step_of_any
    {test : ThreadLog limits → System limits → Bool}
    (actions : List (Action limits))
    (ran : (runBooted (System.boot limits) start step
        (fun log action => log.system.Enabled action) actions).any (fun log =>
      decide (log.system.Enabled action) &&
        (log.system.step action).toOption.any (test log)) = true) :
    ∃ (log : ThreadLog limits) (after : System limits), log.Reached ∧
      log.system.Enabled action ∧ log.system.step action = .ok after ∧
      test log after = true := by
  obtain ⟨system, log, booted, reachable, passed⟩ :=
    exists_reachable_of_booted actions ran
  obtain ⟨enabled, steps⟩ := Bool.and_eq_true_iff.mp passed
  obtain ⟨after, stepped, tested⟩ := exists_of_toOption_any steps
  exact ⟨log, after, ⟨system, booted, reachable⟩, of_decide_eq_true enabled,
    stepped, tested⟩

/-- The first process joins a thread whose slot another thread has taken. -/
theorem join_delivers_after_reuse :
    ∃ (log : ThreadLog ⟨3, 3, 1, 1⟩) (after : System ⟨3, 3, 1, 1⟩),
      (log.Reached ∧ log.Alive (1, 2) ∧ ((1, 1), 1) ∈ log.tids ∧
        log.system.step (.threadJoin (some 1) true .zero) = .ok after ∧
        after.reply = .threadJoin 0 (some 7)) ∧
      ∃ left, ((1, 1), left) ∈ log.exits ∧
        (∀ other, ((1, 1), other) ∈ log.exits → other = left) ∧
        (∀ other, (other, 1) ∈ log.tids → other = (1, 1)) ∧
        some 7 = if true then some left else none := by
  have ran : ∃ (log : ThreadLog ⟨3, 3, 1, 1⟩) (after : System ⟨3, 3, 1, 1⟩),
      log.Reached ∧ log.system.Enabled (.threadJoin (some 1) true .zero) ∧
      log.system.step (.threadJoin (some 1) true .zero) = .ok after ∧
      decide (log.system.currentSlot = some 0 ∧ ((1, 1), 1) ∈ log.tids ∧
        log.Alive (1, 2) ∧ after.reply = .threadJoin 0 (some 7)) = true :=
    exists_step_of_any [.idle .zero, .start, .createThread (some 1) 0 .null,
      .yield .user .zero, .start, .threadExit 7 .zero,
      .createThread (some 1) 0 .null] (by decide +kernel)
  obtain ⟨log, after, reached, -, stepped, test⟩ := ran
  obtain ⟨isCurrent, known, taken, returns⟩ := of_decide_eq_true test
  exact ⟨log, after, ⟨reached, taken, known, stepped, returns⟩,
    join_delivers reached stepped isCurrent (.call rfl) known returns⟩

/-! ## Documented errors -/

/-- The tid is that of the caller. -/
def IsOwn (log : ThreadLog limits) (tid : Fin limits.maxThreads) : Prop :=
  ∃ thread, log.current = some thread ∧ (thread, tid) ∈ log.tids

/-- The tid is that of a thread of the caller's process. -/
def InProcess (log : ThreadLog limits) (tid : Fin limits.maxThreads) : Prop :=
  ∃ thread caller, (thread, tid) ∈ log.tids ∧ log.current = some caller ∧
    log.process thread = log.process caller

/-- The kernel could tell: as long as the thread has not exited, its PCB is that
of the caller. -/
theorem owner_of_inProcess
    (reached : log.Reached)
    (inProcess : log.InProcess tid)
    (notExited : ¬log.Exited tid) :
    ∃ slot, log.system.kernel.threadUsed slot = true ∧
      log.system.kernel.tidOf slot = some tid ∧
      log.system.kernel.owner slot = log.system.kernel.currentProc := by
  obtain ⟨thread, caller, isTid, isCaller, same⟩ := inProcess
  obtain ⟨slot, isCurrent, rfl⟩ := Option.map_eq_some_iff.mp isCaller
  have callerAlive : log.Alive (log.threadIn slot) :=
    ⟨reached.system.sound.current_used isCurrent, rfl⟩
  rcases (reached.consistent.known isTid).2 with
    ⟨alive, had⟩ | ⟨exitval, wasExit, -⟩
  · refine ⟨thread.1, alive.1, had, ?_⟩
    rw [currentProc_of_slot (currentSlot_eq_some.mp isCurrent)]
    exact reached.grouped.owner alive callerAlive same
  · exact absurd ⟨thread, exitval, isTid, wasExit⟩ notExited

/-- The detached flag of the thread with the tid is set. -/
def Detached (log : ThreadLog limits) (tid : Fin limits.maxThreads) : Prop :=
  (log.system.kernel.ptcb tid).detached = true

/-- A step treats as errors what the interface describes as errors of
`ThreadJoin` and `ThreadDetach`, and no `ThreadJoin` returns the exit value of a
detached thread. -/
structure RejectsErrors
    (log : ThreadLog limits)
    (action : Action limits)
    (after : System limits) : Prop where
  join : ∀ {tid exitval clock}, action = .threadJoin (some tid) exitval clock →
    log.Known tid → log.IsOwn tid ∨ ¬log.InProcess tid ∨ log.Detached tid →
      after.reply = .threadJoin (-1) none ∧
        after.kernel = log.system.kernel
  joined : ∀ {slot tid exitval value}, log.system.currentSlot = some slot →
    JoinLoop log.system action slot tid exitval → log.Known tid →
      after.reply = .threadJoin 0 value → ¬log.Detached tid
  detach : ∀ {tid}, action = .threadDetach (some tid) → log.Known tid →
    ¬log.InProcess tid ∨ log.Exited tid →
      after.reply = .threadDetach (-1) ∧ after.kernel = log.system.kernel
  detaches : ∀ {tid}, action = .threadDetach (some tid) → log.Known tid →
    log.InProcess tid → ¬log.Exited tid →
      after.reply = .threadDetach 0 ∧
        ∀ other, (after.kernel.ptcb other).detached = true ↔
          other = tid ∨ log.Detached other

/-- The step makes none of these errors: it joins other threads of its process
that are not detached, also when it gets the core back and finds the thread
exited, and it detaches threads of its process that have not exited. -/
structure NoError
    (log : ThreadLog limits)
    (action : Action limits) : Prop where
  join : ∀ {tid exitval clock}, action = .threadJoin (some tid) exitval clock →
    log.Known tid →
      ¬log.IsOwn tid ∧ log.InProcess tid ∧ ¬log.Detached tid
  joined : ∀ {slot tid exitval}, log.system.currentSlot = some slot →
    JoinLoop log.system action slot tid exitval → log.Known tid →
      log.Exited tid → ¬log.Detached tid
  detach : ∀ {tid}, action = .threadDetach (some tid) → log.Known tid →
    log.InProcess tid ∧ ¬log.Exited tid

/-- `ThreadDetach` sets the flag of the PTCB that its tid points to, whatever
thread that is. -/
theorem step_threadDetach
    {slot : Fin limits.maxThreads}
    (isCurrent : log.system.currentSlot = some slot)
    (stepped : log.system.step (.threadDetach (some tid)) = .ok after) :
    after.reply = .threadDetach 0 ∧
      ∀ other, (after.kernel.ptcb other).detached = true ↔
        other = tid ∨ log.Detached other := by
  rw [step_of_slot isCurrent] at stepped
  cases stepped
  refine ⟨rfl, fun other => ?_⟩
  by_cases same : other = tid
  · simp [returning, sysThreadDetach, same]
  · simp [returning, sysThreadDetach, same, Detached]

/-- No error is answered as one, so a step that should answer so makes none. -/
theorem NoError.of_rejects
    (consistent : log.Consistent)
    (enabled : log.system.Enabled action)
    (stepped : log.system.step action = .ok after)
    (rejects : log.RejectsErrors action after) :
    log.NoError action := by
  refine ⟨?_, ?_, ?_⟩
  · intro tid exitval clock isJoin known
    subst isJoin
    obtain ⟨slot, isCurrent⟩ := exists_currentSlot enabled
    have noError : ¬(log.IsOwn tid ∨ ¬log.InProcess tid ∨ log.Detached tid) :=
      fun error => (JoinLoop.call rfl).not_refused isCurrent stepped
        (rejects.join rfl known error).1
    simpa only [not_or, not_not] using noError
  · intro slot tid exitval isCurrent loop known hasExited
    rcases loop.outcome isCurrent stepped with ⟨-, returns⟩ | ⟨notExited, -⟩
    · exact rejects.joined isCurrent loop known returns
    · have isExited := (consistent.exited_iff known).mp hasExited
      rw [notExited] at isExited
      cases isExited
  · intro tid isDetach known
    subst isDetach
    obtain ⟨slot, isCurrent⟩ := exists_currentSlot enabled
    have noError : ¬(¬log.InProcess tid ∨ log.Exited tid) := by
      intro error
      have reply := (rejects.detach rfl known error).1
      rw [(step_threadDetach isCurrent stepped).1] at reply
      injection reply with result
      cases result
    simpa only [not_or, not_not] using noError

theorem RejectsErrors.of_noError
    (consistent : log.Consistent)
    (enabled : log.system.Enabled action)
    (stepped : log.system.step action = .ok after)
    (noError : log.NoError action) :
    log.RejectsErrors action after := by
  refine ⟨?_, ?_, ?_, ?_⟩
  · intro tid exitval clock isJoin known error
    obtain ⟨notOwn, inProcess, notDetached⟩ := noError.join isJoin known
    exact absurd error (by simp [notOwn, inProcess, notDetached])
  · intro slot tid exitval value isCurrent loop known returns
    have isExited := (loop.exited_of_returns isCurrent stepped returns).1
    exact noError.joined isCurrent loop known
      ((consistent.exited_iff known).mpr isExited)
  · intro tid isDetach known error
    obtain ⟨inProcess, notExited⟩ := noError.detach isDetach known
    exact absurd error (by simp [inProcess, notExited])
  · intro tid isDetach known inProcess notExited
    subst isDetach
    obtain ⟨slot, isCurrent⟩ := exists_currentSlot enabled
    exact step_threadDetach isCurrent stepped

/-- `ThreadJoin` and `ThreadDetach` treat the documented errors as errors only
where none is made. -/
theorem rejectsErrors_iff_noError
    (reached : log.Reached)
    (enabled : log.system.Enabled action)
    (stepped : log.system.step action = .ok after) :
    log.RejectsErrors action after ↔ log.NoError action :=
  ⟨.of_rejects reached.consistent enabled stepped,
    .of_noError reached.consistent enabled stepped⟩

/-- The first process detaches a thread that it has created. -/
theorem rejectsErrors_iff_noError_own_thread :
    ∃ (log : ThreadLog ⟨3, 3, 1, 1⟩) (after : System ⟨3, 3, 1, 1⟩),
      (log.Reached ∧ log.Known 1 ∧
        log.system.Enabled (.threadDetach (some 1)) ∧
        log.system.step (.threadDetach (some 1)) = .ok after ∧
        after.reply = .threadDetach 0) ∧
      (log.RejectsErrors (.threadDetach (some 1)) after ↔
        log.NoError (.threadDetach (some 1))) := by
  have ran : ∃ (log : ThreadLog ⟨3, 3, 1, 1⟩) (after : System ⟨3, 3, 1, 1⟩),
      log.Reached ∧ log.system.Enabled (.threadDetach (some 1)) ∧
      log.system.step (.threadDetach (some 1)) = .ok after ∧
      decide (((1, 1), 1) ∈ log.tids ∧ after.reply = .threadDetach 0) = true :=
    exists_step_of_any [.idle .zero, .start, .createThread (some 1) 0 .null]
      (by decide +kernel)
  obtain ⟨log, after, reached, enabled, stepped, test⟩ := ran
  obtain ⟨known, reply⟩ := of_decide_eq_true test
  exact ⟨log, after, ⟨reached, ⟨_, known⟩, enabled, stepped, reply⟩,
    rejectsErrors_iff_noError reached enabled stepped⟩

/-- A thread that joins itself is not sent back: it waits for its own exit. -/
theorem join_self_waits :
    ∃ (log : ThreadLog ⟨3, 3, 1, 1⟩) (after : System ⟨3, 3, 1, 1⟩),
      log.Reached ∧ log.IsOwn 0 ∧
      log.system.Enabled (.threadJoin (some 0) true .zero) ∧
      log.system.step (.threadJoin (some 0) true .zero) = .ok after ∧
      after.reply = .none ∧ after.control 0 = .join 0 true ∧
      ¬log.RejectsErrors (.threadJoin (some 0) true .zero) after := by
  have ran : ∃ (log : ThreadLog ⟨3, 3, 1, 1⟩) (after : System ⟨3, 3, 1, 1⟩),
      log.Reached ∧ log.system.Enabled (.threadJoin (some 0) true .zero) ∧
      log.system.step (.threadJoin (some 0) true .zero) = .ok after ∧
      decide (log.current = some (0, 0) ∧ ((0, 0), 0) ∈ log.tids ∧
        after.reply = .none ∧ after.control 0 = .join 0 true) = true :=
    exists_step_of_any [.idle .zero, .start] (by decide +kernel)
  obtain ⟨log, after, reached, enabled, stepped, test⟩ := ran
  obtain ⟨current, known, suspended, waits⟩ := of_decide_eq_true test
  refine ⟨log, after, reached, ⟨_, current, known⟩, enabled, stepped,
    suspended, waits, fun rejects => ?_⟩
  have reply := (rejects.join rfl ⟨_, known⟩ (.inl ⟨_, current, known⟩)).1
  rw [suspended] at reply
  cases reply

end ThreadLog
end TinierOS
