import TinierOS.Sched.Entry
import TinierOS.Library.Transition

/-!
# Runs of the scheduler

The scheduler as a transition system: a run starts in the state that
`initialize_scheduler` leaves and takes any sequence of calls, each carried out
up to the end of the `gain` that follows it.
-/

namespace TinierOS

variable {limits : Limits}

/-- The calls of the scheduler, with the values they read from the timer. -/
inductive SchedOp (limits : Limits)
  | runScheduler (pcb : Option (Fin limits.maxProc))
  | spawnThread (pcb : Option (Fin limits.maxProc)) (func : ThreadFunc)
  | wakeup (slot : Fin limits.maxThreads)
  | yield (cause : SchedCause) (remaining curtime : TimerDuration)
  | sleepReleasing
      (state : ThreadState)
      (cause : SchedCause)
      (timeout regtime remaining curtime : TimerDuration)

namespace Sched

/-- One call. -/
def step (sched : Sched limits) : SchedOp limits → Except Fault (Sched limits)
  | .runScheduler pcb => .ok (sched.runScheduler pcb)
  | .spawnThread pcb func => .ok (sched.spawnThread pcb func).2
  | .wakeup slot => do
      let woken ← sched.wakeup (.slot slot)
      return woken.1
  | .yield cause remaining curtime => sched.yield cause remaining curtime
  | .sleepReleasing state cause timeout regtime remaining curtime =>
      sched.sleepReleasing state cause timeout regtime remaining curtime

/-- When a call may be made: `run_scheduler` once, `wakeup` of an allocated
thread, `yield` by a current thread, and `sleep_releasing` by a current thread
of the pool whose deadline, if it has one, is not `NO_TIMEOUT`. -/
def Enabled (sched : Sched limits) : SchedOp limits → Prop
  | .runScheduler _ => sched.currentThread = none
  | .spawnThread _ _ => True
  | .wakeup slot => sched.threadUsed slot = true
  | .yield _ _ _ => sched.currentThread ≠ none
  | .sleepReleasing state _ timeout regtime _ _ =>
      sched.currentThread ≠ none ∧ sched.currentThread ≠ some .idle ∧
        (state = .stopped ∨ state = .exited) ∧
        (state = .stopped → timeout ≠ noTimeout →
          regtime + timeout ≠ noTimeout)

instance (sched : Sched limits) (op : SchedOp limits) :
    Decidable (sched.Enabled op) :=
  match op with
  | .runScheduler _ => inferInstanceAs (Decidable (_ = _))
  | .spawnThread _ _ => inferInstanceAs (Decidable True)
  | .wakeup _ => inferInstanceAs (Decidable (_ = _))
  | .yield _ _ _ => inferInstanceAs (Decidable (_ ≠ _))
  | .sleepReleasing _ _ _ _ _ _ =>
      inferInstanceAs (Decidable (_ ∧ _ ∧ (_ ∨ _) ∧ (_ → _ → _)))

/-- The states of all runs. -/
abbrev Reached (sched : Sched limits) : Prop :=
  Reachable step Enabled (zero limits).initializeScheduler sched

/-- Every call keeps the scheduler resting and none fails. -/
theorem Resting.step
    {sched : Sched limits}
    {lists : SchedList → List (Fin limits.maxThreads)}
    {op : SchedOp limits}
    (resting : sched.Resting lists)
    (enabled : sched.Enabled op) :
    ∃ after lists', sched.step op = .ok after ∧ after.Resting lists' := by
  cases op with
  | runScheduler pcb =>
      exact ⟨_, lists, rfl, resting.runScheduler enabled pcb⟩
  | spawnThread pcb func =>
      cases found : sched.freeSlot with
      | none =>
          refine ⟨_, lists, rfl, ?_⟩
          rw [spawnThread_of_full found]
          exact resting
      | some slot =>
          refine ⟨_, lists, rfl, ?_⟩
          rw [spawnThread_of_free found]
          exact resting.initThread (freeSlot_eq_some found) pcb func
  | wakeup slot =>
      obtain ⟨after, lists', woken, woke, afterResting, -⟩ :=
        resting.wakeup enabled
      refine ⟨after, lists', ?_, afterResting⟩
      simp only [Sched.step, woke]
      rfl
  | yield cause remaining curtime =>
      obtain ⟨current, isCurrent⟩ := Option.ne_none_iff_exists'.mp enabled
      obtain ⟨-, after, lists', yielded, -, afterResting, -⟩ :=
        resting.yield isCurrent cause remaining curtime
      exact ⟨after, lists', yielded, afterResting⟩
  | sleepReleasing state cause timeout regtime remaining curtime =>
      obtain ⟨started, notIdle, sleeps, deadline⟩ := enabled
      obtain ⟨current, isCurrent⟩ := Option.ne_none_iff_exists'.mp started
      cases current with
      | idle => exact absurd isCurrent notIdle
      | slot slot =>
          obtain ⟨-, after, lists', slept, -, afterResting, -⟩ :=
            resting.sleepReleasing isCurrent sleeps deadline cause remaining
              curtime
          exact ⟨after, lists', slept, afterResting⟩

theorem Reached.resting
    {sched : Sched limits}
    (reached : sched.Reached) :
    ∃ lists, sched.Resting lists := by
  refine reached.invariant
    (motive := fun sched => ∃ lists, sched.Resting lists)
    ⟨_, resting_initializeScheduler⟩ ?_
  rintro before after op ⟨lists, resting⟩ enabled stepped
  obtain ⟨after', lists', stepped', afterResting⟩ := resting.step enabled
  rw [stepped] at stepped'
  cases stepped'
  exact ⟨lists', afterResting⟩

/-- Walking `SCHED` and `TIMEOUT_LIST` gives these threads. -/
def Walks
    (sched : Sched limits)
    (lists : SchedList → List (Fin limits.maxThreads)) : Prop :=
  ∀ list, sched.heap.links.IsRing ((schedLayout limits).sentinel list)
    ((lists list).map (schedLayout limits).cell)

theorem Walks.unique
    {sched : Sched limits}
    {lists lists' : SchedList → List (Fin limits.maxThreads)}
    (walks : sched.Walks lists)
    (again : sched.Walks lists') :
    lists = lists' := by
  funext list
  exact List.map_injective_iff.mpr (schedLayout limits).cell_injective
    ((walks list).unique (again list))

/-- The state in which a call enters `yield`: `sleep_releasing` has marked the
thread before. -/
def EntersYield
    (sched : Sched limits) : SchedOp limits → Sched limits → Prop
  | .yield _ _ _, entry => entry = sched
  | .sleepReleasing state _ timeout regtime _ _, entry =>
      sched.sleepMark state timeout regtime = .ok entry
  | _, _ => False

/-- Where `yield` is entered only the yielding thread can be marked running, and
only its context is dirty; the idle thread never exits. -/
theorem Resting.entersYield
    {sched entry : Sched limits}
    {lists : SchedList → List (Fin limits.maxThreads)}
    {op : SchedOp limits}
    (resting : sched.Resting lists)
    (enabled : sched.Enabled op)
    (enters : sched.EntersYield op entry) :
    ∃ current entryLists running, entry.currentThread = some current ∧
      (∀ tcb, running tcb → tcb = current) ∧
      SchedInv entry entryLists running (fun tcb => tcb = current)
        (fun _ => False) ∧
      (entry.tcb current).state ≠ .init ∧
      ((entry.tcb current).state = .exited → current ≠ .idle) := by
  cases op with
  | runScheduler pcb => exact enters.elim
  | spawnThread pcb func => exact enters.elim
  | wakeup slot => exact enters.elim
  | yield cause remaining curtime =>
      cases enters
      obtain ⟨current, isCurrent⟩ := Option.ne_none_iff_exists'.mp enabled
      have isRunning := (resting.isRunning current).mpr isCurrent
      refine ⟨current, lists, _, isCurrent, fun _ isSame => isSame,
        (resting_iff isCurrent).mp resting, ?_, ?_⟩
      · rw [isRunning]
        decide
      · rw [isRunning]
        exact fun isExited => by cases isExited
  | sleepReleasing state cause timeout regtime remaining curtime =>
      obtain ⟨started, notIdle, sleeps, deadline⟩ := enabled
      obtain ⟨current, isCurrent⟩ := Option.ne_none_iff_exists'.mp started
      cases current with
      | idle => exact absurd isCurrent notIdle
      | slot slot =>
          obtain ⟨entry', lists', marks, inv, mark⟩ :=
            resting.sleepMark isCurrent sleeps deadline
          rw [enters] at marks
          cases marks
          refine ⟨.slot slot, lists', _, mark.currentThread.trans isCurrent,
            fun _ never => never.elim, inv, ?_, by simp⟩
          rw [mark.stateMark]
          rcases sleeps with rfl | rfl <;> decide

/-- The documented invariant of the scheduler's lists, between calls. -/
structure QueuesConsistent (sched : Sched limits)
    (lists : SchedList → List (Fin limits.maxThreads)) : Prop where
  /-- Walking each of the eleven rings gives these threads of the pool. -/
  ring : ∀ list, sched.heap.links.IsRing ((schedLayout limits).sentinel list)
    ((lists list).map (schedLayout limits).cell)
  /-- A normal thread is queued if and only if it is ready and clean. -/
  queued : ∀ slot, sched.threadUsed slot = true →
    (sched.tcb (.slot slot)).type = .normalThread →
      ((∃ level, slot ∈ lists (.queue level)) ↔
        (sched.tcb (.slot slot)).state = .ready ∧
          (sched.tcb (.slot slot)).phase = .ctxClean)
  once : ∀ list, (lists list).Nodup
  oneList : ∀ slot first second, slot ∈ lists first → slot ∈ lists second →
    first = second
  allocated : ∀ slot list, slot ∈ lists list →
    sched.threadUsed slot = true
  running : ∀ tcb, (sched.tcb tcb).state = .running ↔
    sched.currentThread = some tcb
  dirty : ∀ tcb, (sched.tcb tcb).phase = .ctxDirty ↔
    sched.currentThread = some tcb

theorem Resting.queuesConsistent
    {sched : Sched limits}
    {lists : SchedList → List (Fin limits.maxThreads)}
    (resting : sched.Resting lists) :
    sched.QueuesConsistent lists where
  ring := resting.represents.ring
  queued := by
    intro slot usedSlot _
    simpa using resting.queued slot usedSlot
  once := resting.represents.nodup
  oneList := fun _ _ _ inFirst inSecond =>
    resting.represents.unique inFirst inSecond
  allocated := fun _ _ member => resting.used_of_mem member
  running := resting.isRunning
  dirty := resting.isDirty

/-- In every reachable state the queue invariant holds, and every call that may
be made returns: no assertion on the way fails. -/
theorem queue_invariant
    {sched : Sched limits}
    (reached : sched.Reached) :
    (∃ lists, sched.QueuesConsistent lists) ∧
      ∀ op, sched.Enabled op → ∃ after, sched.step op = .ok after := by
  obtain ⟨lists, resting⟩ := reached.resting
  refine ⟨⟨lists, resting.queuesConsistent⟩, ?_⟩
  intro op enabled
  obtain ⟨after, -, stepped, -⟩ := resting.step enabled
  exact ⟨after, stepped⟩

/-- Two threads, one of which sleeps until its timeout expires. -/
theorem queue_invariant_two_threads :
    ∃ sched : Sched Limits.tinier,
      (sched.Reached ∧ (sched.tcb (.slot 0)).state = .stopped) ∧
      (∃ lists, sched.QueuesConsistent lists) ∧
      ∀ op, sched.Enabled op → ∃ after, sched.step op = .ok after := by
  have ran : ∃ sched : Sched Limits.tinier, sched.Reached ∧
      decide ((sched.tcb (.slot 0)).state = .stopped) = true :=
    exists_reachable_of_any
      [.spawnThread none .startMainThread, .wakeup 0, .runScheduler none,
        .spawnThread none .startMainThread, .wakeup 1, .yield .idle 0 0,
        .sleepReleasing .stopped .user 50 5 0 10] (by decide +kernel)
  obtain ⟨sched, reached, test⟩ := ran
  exact ⟨sched, ⟨reached, of_decide_eq_true test⟩, queue_invariant reached⟩

end Sched
end TinierOS
