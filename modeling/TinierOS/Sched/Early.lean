import Mathlib.Algebra.Group.Nat.Defs
import TinierOS.Sched.Sleepers

/-!
# Timeouts and the clock

A sleeping thread keeps its deadline whatever the other threads do, and
`sched_wakeup_expired_timeouts` makes only those threads ready whose deadline has
been reached.  Neither needs the lists to be in order, so both hold in any state.
The deadline itself is a 32-bit sum, and past the end of the clock it is smaller
than the time at which it was computed.
-/

namespace TinierOS

variable {limits : Limits}

namespace Sched

/-! ## What keeps a deadline -/

/-- If the thread is stopped afterwards, it has been stopped before with the same
deadline. -/
def SleptOn (before after : Sched limits) (tcb : TcbPtr limits) : Prop :=
  (after.tcb tcb).state = .stopped →
    (before.tcb tcb).state = .stopped ∧
      (after.tcb tcb).wakeupTime = (before.tcb tcb).wakeupTime

namespace SleptOn

variable {tcb : TcbPtr limits}

theorem of_tcb_eq
    {before after : Sched limits}
    (same : after.tcb tcb = before.tcb tcb) :
    SleptOn before after tcb := by
  intro isStopped
  rw [same] at isStopped ⊢
  exact ⟨isStopped, rfl⟩

theorem trans
    {first second third : Sched limits}
    (before : SleptOn first second tcb)
    (after : SleptOn second third tcb) :
    SleptOn first third tcb := by
  intro isStopped
  obtain ⟨wasStopped, sameTime⟩ := after isStopped
  obtain ⟨wasStoppedBefore, sameTimeBefore⟩ := before wasStopped
  exact ⟨wasStoppedBefore, sameTime.trans sameTimeBefore⟩

/-- Assigning to a TCB without stopping the thread or moving its deadline. -/
theorem modifyTcb
    (sched : Sched limits)
    (other : TcbPtr limits)
    {change : TCB limits → TCB limits}
    (keeps : ∀ block, (change block).state = .stopped →
      block.state = .stopped ∧
        (change block).wakeupTime = block.wakeupTime) :
    SleptOn sched (sched.modifyTcb other change) tcb := by
  by_cases same : tcb = other
  · subst same
    intro isStopped
    rw [modifyTcb_self] at isStopped ⊢
    exact keeps _ isStopped
  · exact of_tcb_eq (modifyTcb_of_ne same)

end SleptOn

theorem SameButPriority.sleptOn
    {before after : Sched limits}
    (same : SameButPriority before after)
    (tcb : TcbPtr limits) :
    SleptOn before after tcb := by
  intro isStopped
  rw [same tcb] at isStopped ⊢
  exact ⟨isStopped, rfl⟩

theorem sameButPriority_of_boostLoop
    {level above : Fin schedQueues}
    {fuel : Nat}
    {before after : Sched limits}
    (ran : boostLoop level above fuel before = .ok after) :
    SameButPriority before after := by
  induction fuel generalizing before with
  | zero => cases ran
  | succ fuel inductionHypothesis =>
      simp only [boostLoop] at ran
      split_ifs at ran with empty
      · cases ran
        exact fun _ => rfl
      · split at ran
        · cases ran
        · refine SameButPriority.trans ?_ (inductionHypothesis ran)
          rename_i tcb _
          intro other
          by_cases same : other = tcb
          · subst same
            simp
          · rw [modifyTcb_of_ne same]

theorem sameButPriority_of_countYield
    {before after : Sched limits}
    (ran : before.countYield = .ok after) :
    SameButPriority before after := by
  have boost : ∀ {levels : List (Fin 9)} {first second : Sched limits},
      levels.foldlM (fun sched above => boostLoop above.succ above.castSucc
        (limits.maxThreads + 1) sched) first = .ok second →
          SameButPriority first second := by
    intro levels
    induction levels with
    | nil =>
        intro first second folded
        cases folded
        exact fun _ => rfl
    | cons above rest inductionHypothesis =>
        intro first second folded
        rw [List.foldlM_cons] at folded
        obtain ⟨middle, looped, rested⟩ := exists_of_bind_eq_ok folded
        exact (sameButPriority_of_boostLoop looped).trans
          (inductionHypothesis rested)
  simp only [countYield] at ran
  split_ifs at ran with due
  · obtain ⟨boosted, boosting, returned⟩ := exists_of_bind_eq_ok ran
    cases returned
    have same := boost boosting
    exact fun tcb => same tcb
  · cases ran
    exact fun _ => rfl

/-- `sched_wakeup_expired_timeouts` makes threads ready that are due, and no
others. -/
theorem wakeupExpiredLoop_tcb
    {curtime : TimerDuration}
    {fuel : Nat}
    {before after : Sched limits}
    (ran : wakeupExpiredLoop curtime fuel before = .ok after)
    (tcb : TcbPtr limits) :
    after.tcb tcb = before.tcb tcb ∨
      ((before.tcb tcb).wakeupTime ≤ curtime ∧
        (after.tcb tcb).state = .ready) := by
  induction fuel generalizing before with
  | zero => cases ran
  | succ fuel inductionHypothesis =>
      simp only [wakeupExpiredLoop] at ran
      split_ifs at ran with empty
      · cases ran
        exact .inl rfl
      · split at ran
        · cases ran
        · rename_i first _
          split_ifs at ran with later
          · cases ran
            exact .inl rfl
          · obtain ⟨middle, made, rested⟩ := exists_of_bind_eq_ok ran
            obtain ⟨-, tcbs⟩ := schedMakeReady_tcb made
            have rest := inductionHypothesis rested
            by_cases isFirst : tcb = first
            · subst isFirst
              refine .inr ⟨UInt32.not_lt.mp later, ?_⟩
              rcases rest with same | ⟨-, isReady⟩
              · rw [same, tcbs, Function.update_self]
              · exact isReady
            · rwa [tcbs, Function.update_of_ne isFirst] at rest

/-! ## One call -/

theorem sleptOn_wakeupExpired
    {curtime : TimerDuration}
    {before after : Sched limits}
    (ran : before.schedWakeupExpiredTimeouts curtime = .ok after)
    (tcb : TcbPtr limits) :
    SleptOn before after tcb := by
  rcases wakeupExpiredLoop_tcb ran tcb with same | ⟨-, isReady⟩
  · exact .of_tcb_eq same
  · intro isStopped
    rw [isReady] at isStopped
    cases isStopped

theorem YieldWakes.sleptOn
    {entry woken : Sched limits}
    {cause : SchedCause}
    {remaining curtime : TimerDuration}
    (wakes : entry.YieldWakes cause remaining curtime woken)
    (tcb : TcbPtr limits) :
    SleptOn entry woken tcb := by
  obtain ⟨current, counted, -, countedEq, wokenEq⟩ := wakes
  have countedSlept :=
    (sameButPriority_of_countYield countedEq).sleptOn tcb
  refine countedSlept.trans (SleptOn.trans ?_ (sleptOn_wakeupExpired wokenEq tcb))
  refine SleptOn.modifyTcb _ _ fun block isStopped => ?_
  rw [yieldTCB_state] at isStopped
  split_ifs at isStopped
  exact ⟨isStopped, rfl⟩

/-- A thread whose deadline is later than the clock is not woken. -/
theorem YieldWakes.asleep
    {entry woken : Sched limits}
    {cause : SchedCause}
    {remaining curtime : TimerDuration}
    {tcb : TcbPtr limits}
    (wakes : entry.YieldWakes cause remaining curtime woken)
    (isStopped : (entry.tcb tcb).state = .stopped)
    (later : curtime < (entry.tcb tcb).wakeupTime) :
    (woken.tcb tcb).state = .stopped := by
  obtain ⟨current, counted, -, countedEq, wokenEq⟩ := wakes
  have same := sameButPriority_of_countYield countedEq
  have marked : ((counted.modifyTcb current
        (yieldTCB cause remaining)).tcb tcb).state = .stopped := by
    have countedStopped : (counted.tcb tcb).state = .stopped := by
      rw [same tcb]
      exact isStopped
    by_cases isCurrent : tcb = current
    · subst isCurrent
      rw [modifyTcb_self, yieldTCB_state, countedStopped]
      rfl
    · rwa [modifyTcb_of_ne isCurrent]
  rcases wakeupExpiredLoop_tcb wokenEq tcb with unchanged | ⟨isDue, -⟩
  · rw [unchanged]
    exact marked
  · rw [same.markedTime] at isDue
    exact absurd later (UInt32.not_lt.mpr isDue)

theorem sleptOn_schedQueueSelect
    (sched : Sched limits)
    (current tcb : TcbPtr limits) :
    SleptOn sched (sched.schedQueueSelect current).2 tcb := by
  simp only [schedQueueSelect]
  split
  · exact .of_tcb_eq rfl
  · exact SleptOn.modifyTcb { sched with heap := _ } _
      fun _ isStopped => ⟨isStopped, rfl⟩

/-- `yield` wakes the sleepers that are due before it selects a thread. -/
theorem exists_yieldWakes_of_yieldSwitch
    {before after : Sched limits}
    {cause : SchedCause}
    {remaining curtime : TimerDuration}
    (ran : before.yieldSwitch cause remaining curtime = .ok after) :
    ∃ woken, before.YieldWakes cause remaining curtime woken ∧
      ∀ tcb, SleptOn woken after tcb := by
  simp only [yieldSwitch] at ran
  split at ran
  · cases ran
  · rename_i current isCurrent
    obtain ⟨counted, countedEq, rested⟩ := exists_of_bind_eq_ok ran
    obtain ⟨woken, wokenEq, selects⟩ := exists_of_bind_eq_ok rested
    refine ⟨woken, ⟨current, counted, isCurrent, countedEq, wokenEq⟩, ?_⟩
    intro tcb
    have selectSlept := woken.sleptOn_schedQueueSelect current tcb
    split at selects
    · cases selects
    · rename_i next selected selectEq
      rw [selectEq] at selectSlept
      cases selects
      exact selectSlept.trans (.of_tcb_eq rfl)

/-- The current thread, if there is one, is not stopped. -/
def CurrentAwake (sched : Sched limits) : Prop :=
  ∀ tcb, sched.currentThread = some tcb →
    (sched.tcb tcb).state ≠ .stopped

/-- `gain` stops no thread, and the thread it returns to is running. -/
theorem gain_sleptOn
    {before after : Sched limits}
    (ran : before.gain = .ok after) :
    after.CurrentAwake ∧ ∀ tcb, SleptOn before after tcb := by
  simp only [gain] at ran
  split at ran
  · rename_i current previous isCurrent isPrevious
    have marked : ∀ tcb, SleptOn before (before.gainCurrent current) tcb :=
      fun tcb => SleptOn.modifyTcb _ _ fun _ isStopped => by cases isStopped
    have running : ((before.gainCurrent current).tcb current).state =
        .running := by simp [gainCurrent]
    split_ifs at ran with same
    · cases ran
      refine ⟨?_, marked⟩
      intro tcb isTcb isStopped
      cases isCurrent.symm.trans isTcb
      rw [running] at isStopped
      cases isStopped
    · obtain ⟨sameThread, tcbs⟩ := gainPrevious_tcb ran
      constructor
      · intro tcb isTcb isStopped
        cases (sameThread.trans isCurrent).symm.trans isTcb
        rw [tcbs, modifyTcb_of_ne same, running] at isStopped
        cases isStopped
      · intro tcb
        have cleaned : SleptOn (before.gainCurrent current)
            ((before.gainCurrent current).modifyTcb previous fun block =>
              { block with phase := .ctxClean }) tcb :=
          SleptOn.modifyTcb _ _ fun _ isStopped => ⟨isStopped, rfl⟩
        refine (marked tcb).trans (cleaned.trans (.of_tcb_eq ?_))
        rw [tcbs]
  · cases ran

theorem yield_sleptOn
    {before after : Sched limits}
    {cause : SchedCause}
    {remaining curtime : TimerDuration}
    (ran : before.yield cause remaining curtime = .ok after) :
    after.CurrentAwake ∧ ∀ tcb, SleptOn before after tcb := by
  obtain ⟨switched, switchedEq, gained⟩ := exists_of_bind_eq_ok ran
  obtain ⟨woken, wakes, selected⟩ :=
    exists_yieldWakes_of_yieldSwitch switchedEq
  obtain ⟨awake, marked⟩ := gain_sleptOn gained
  exact ⟨awake, fun tcb =>
    (wakes.sleptOn tcb).trans ((selected tcb).trans (marked tcb))⟩

/-- The first half of `sleep_releasing` touches the current thread only; a
timeout sets its deadline. -/
theorem sleepMark_tcb
    {before after : Sched limits}
    {state : ThreadState}
    {timeout regtime : TimerDuration}
    (ran : before.sleepMark state timeout regtime = .ok after) :
    ∃ current, before.currentThread = some current ∧
      (∀ tcb ≠ current, after.tcb tcb = before.tcb tcb) ∧
      (after.tcb current).state = state ∧
      (state = .stopped → timeout ≠ noTimeout →
        (after.tcb current).wakeupTime = regtime + timeout) := by
  simp only [sleepMark] at ran
  cases isCurrent : before.currentThread with
  | none =>
      simp only [isCurrent] at ran
      split_ifs at ran
  | some current =>
      simp only [isCurrent] at ran
      refine ⟨current, rfl, ?_⟩
      split_ifs at ran with sleeps isExited
      · cases ran
        refine ⟨fun _ different => modifyTcb_of_ne different, by simp, ?_⟩
        rintro rfl
        cases isExited
      · simp only [schedRegisterTimeout] at ran
        split_ifs at ran with untimed
        · cases ran
          exact ⟨fun _ different => modifyTcb_of_ne different, by simp,
            fun _ timed => absurd untimed timed⟩
        · obtain ⟨node, found, registered⟩ := exists_of_bind_eq_ok ran
          cases registered
          refine ⟨fun tcb different => ?_, by simp, fun _ _ => by simp⟩
          simp [modifyTcb, different]

/-! ## Later calls -/

/-- When a call may be made, whatever deadline it registers. -/
def Callable (sched : Sched limits) : SchedOp limits → Prop
  | .runScheduler _ => sched.currentThread = none
  | .spawnThread _ _ => True
  | .wakeup slot => sched.threadUsed slot = true
  | .yield _ _ _ => sched.currentThread ≠ none
  | .sleepReleasing state _ _ _ _ _ =>
      sched.currentThread ≠ none ∧ sched.currentThread ≠ some .idle ∧
        (state = .stopped ∨ state = .exited)

theorem Enabled.callable
    {sched : Sched limits}
    {op : SchedOp limits}
    (enabled : sched.Enabled op) :
    sched.Callable op := by
  cases op with
  | runScheduler pcb => exact enabled
  | spawnThread pcb func => exact enabled
  | wakeup slot => exact enabled
  | yield cause remaining curtime => exact enabled
  | sleepReleasing state cause timeout regtime remaining curtime =>
      exact ⟨enabled.1, enabled.2.1, enabled.2.2.1⟩

/-- The calls that leave a sleeping thread asleep: not `wakeup` of the thread,
and none once it is no longer stopped. -/
def Undisturbed
    (slot : Fin limits.maxThreads)
    (sched : Sched limits)
    (op : SchedOp limits) : Prop :=
  sched.Callable op ∧ op ≠ .wakeup slot ∧
    (sched.tcb (.slot slot)).state = .stopped

/-- A call leaves the current thread awake and moves no sleeper's deadline. -/
theorem step_sleptOn
    {before after : Sched limits}
    {op : SchedOp limits}
    {slot : Fin limits.maxThreads}
    (awake : before.CurrentAwake)
    (undisturbed : Undisturbed slot before op)
    (ran : before.step op = .ok after) :
    after.CurrentAwake ∧ SleptOn before after (.slot slot) := by
  obtain ⟨callable, -, isStopped⟩ := undisturbed
  cases op with
  | runScheduler pcb =>
      cases ran
      refine ⟨?_, .of_tcb_eq (runScheduler_tcb_slot ..)⟩
      intro tcb isTcb
      cases isTcb
      simp [Sched.runScheduler]
  | spawnThread pcb func =>
      cases ran
      cases found : before.freeSlot with
      | none =>
          rw [spawnThread_of_full found]
          exact ⟨awake, .of_tcb_eq rfl⟩
      | some free =>
          rw [spawnThread_of_free found]
          have fresh : ((before.initThread free pcb func).tcb
              (.slot free)).state = .init := by simp [spawnedTCB]
          constructor
          · intro tcb isTcb isStopped
            by_cases same : tcb = .slot free
            · subst same
              rw [fresh] at isStopped
              cases isStopped
            · rw [initThread_tcb_of_ne _ _ _ _ same] at isStopped
              exact awake tcb isTcb isStopped
          · intro stillStopped
            by_cases same : TcbPtr.slot slot = .slot free
            · rw [same, fresh] at stillStopped
              cases stillStopped
            · exact SleptOn.of_tcb_eq
                (initThread_tcb_of_ne _ _ _ _ same) stillStopped
  | wakeup other =>
      obtain ⟨woken, wokenEq, returned⟩ := exists_of_bind_eq_ok ran
      cases returned
      simp only [Sched.wakeup] at wokenEq
      split_ifs at wokenEq with waiting
      · obtain ⟨ready, readyEq, returned⟩ := exists_of_bind_eq_ok wokenEq
        cases returned
        obtain ⟨sameThread, tcbs⟩ := schedMakeReady_tcb readyEq
        have others : ∀ tcb, (ready.tcb tcb).state = .stopped →
            ready.tcb tcb = before.tcb tcb := by
          intro tcb isStopped
          rw [tcbs] at isStopped ⊢
          by_cases same : tcb = .slot other
          · subst same
            rw [Function.update_self] at isStopped
            cases isStopped
          · rw [Function.update_of_ne same]
        constructor
        · intro tcb isTcb isStopped
          refine awake tcb (sameThread.symm.trans isTcb) ?_
          rwa [others tcb isStopped] at isStopped
        · intro stillStopped
          exact SleptOn.of_tcb_eq (others _ stillStopped) stillStopped
      · cases wokenEq
        exact ⟨awake, .of_tcb_eq rfl⟩
  | yield cause remaining curtime =>
      obtain ⟨afterAwake, slept⟩ := yield_sleptOn ran
      exact ⟨afterAwake, slept _⟩
  | sleepReleasing state cause timeout regtime remaining curtime =>
      obtain ⟨marked, markedEq, yielded⟩ := exists_of_bind_eq_ok ran
      obtain ⟨current, isCurrent, others, -⟩ := sleepMark_tcb markedEq
      obtain ⟨afterAwake, slept⟩ := yield_sleptOn yielded
      have different : TcbPtr.slot slot ≠ current := by
        rintro rfl
        exact awake _ isCurrent isStopped
      exact ⟨afterAwake,
        (SleptOn.of_tcb_eq (others _ different)).trans (slept _)⟩

/-- Whatever calls follow, a sleeper that is still stopped has its deadline. -/
theorem later_sleptOn
    {start later : Sched limits}
    {slot : Fin limits.maxThreads}
    (awake : start.CurrentAwake)
    (continues : Reachable step (Undisturbed slot) start later) :
    later.CurrentAwake ∧ SleptOn start later (.slot slot) := by
  refine continues.invariant
    (motive := fun later =>
      later.CurrentAwake ∧ SleptOn start later (.slot slot))
    ⟨awake, .of_tcb_eq rfl⟩ ?_
  rintro before after op ⟨beforeAwake, slept⟩ undisturbed ran
  obtain ⟨afterAwake, stepSlept⟩ := step_sleptOn beforeAwake undisturbed ran
  exact ⟨afterAwake, slept.trans stepSlept⟩

/-! ## Waking too early -/

/-- The states in which `yield` is entered during one sleep: by the sleeping
thread itself, and by others as long as it has not been woken. -/
inductive EntersAsleep
    (sched : Sched limits)
    (slot : Fin limits.maxThreads)
    (timeout regtime : TimerDuration) : Sched limits → Prop
  | own
      {entry : Sched limits}
      (marks : sched.sleepMark .stopped timeout regtime = .ok entry) :
      EntersAsleep sched slot timeout regtime entry
  | later
      {entry after later laterEntry : Sched limits}
      {cause : SchedCause}
      {remaining curtime : TimerDuration}
      {op : SchedOp limits}
      (marks : sched.sleepMark .stopped timeout regtime = .ok entry)
      (yielded : entry.yield cause remaining curtime = .ok after)
      (continues : Reachable step (Undisturbed slot) after later)
      (undisturbed : Undisturbed slot later op)
      (enters : later.EntersYield op laterEntry) :
      EntersAsleep sched slot timeout regtime laterEntry

/-- The clock stands less than `timeout` after the registration. -/
def Early (regtime timeout curtime : TimerDuration) : Prop :=
  regtime ≤ curtime ∧ curtime - regtime < timeout

/-- During the sleep no `yield` makes the thread ready before its timeout has
passed. -/
def NeverEarly
    (sched : Sched limits)
    (slot : Fin limits.maxThreads)
    (timeout regtime : TimerDuration) : Prop :=
  ∀ entry, sched.EntersAsleep slot timeout regtime entry →
    ∀ cause remaining curtime woken, Early regtime timeout curtime →
      entry.YieldWakes cause remaining curtime woken →
        (woken.tcb (.slot slot)).state ≠ .ready

/-- At each of these moments the thread has the deadline it registered. -/
theorem EntersAsleep.deadline
    {sched entry : Sched limits}
    {slot : Fin limits.maxThreads}
    {timeout regtime : TimerDuration}
    (entersAsleep : sched.EntersAsleep slot timeout regtime entry)
    (isCurrent : sched.currentThread = some (.slot slot))
    (timed : timeout ≠ noTimeout) :
    (entry.tcb (.slot slot)).state = .stopped ∧
      (entry.tcb (.slot slot)).wakeupTime = regtime + timeout := by
  have marked : ∀ {entry : Sched limits},
      sched.sleepMark .stopped timeout regtime = .ok entry →
        (entry.tcb (.slot slot)).state = .stopped ∧
          (entry.tcb (.slot slot)).wakeupTime = regtime + timeout := by
    intro entry marks
    obtain ⟨current, isThread, -, state, deadline⟩ := sleepMark_tcb marks
    cases isCurrent.symm.trans isThread
    exact ⟨state, deadline rfl timed⟩
  cases entersAsleep with
  | own marks => exact marked marks
  | @later slept after later _ cause remaining curtime op marks yielded
      continues undisturbed enters =>
      obtain ⟨awake, yieldSlept⟩ := yield_sleptOn yielded
      obtain ⟨laterAwake, laterSlept⟩ := later_sleptOn awake continues
      obtain ⟨callable, -, isStopped⟩ := undisturbed
      obtain ⟨-, sameTime⟩ :=
        ((yieldSlept (.slot slot)).trans laterSlept) isStopped
      have deadline := sameTime.trans (marked marks).2
      cases op with
      | runScheduler pcb => exact enters.elim
      | spawnThread pcb func => exact enters.elim
      | wakeup other => exact enters.elim
      | yield cause remaining curtime =>
          cases enters
          exact ⟨isStopped, deadline⟩
      | sleepReleasing state cause timeout regtime remaining curtime =>
          obtain ⟨current, isThread, others, -⟩ := sleepMark_tcb enters
          have different : TcbPtr.slot slot ≠ current := by
            rintro rfl
            exact laterAwake _ isThread isStopped
          rw [others _ different]
          exact ⟨isStopped, deadline⟩

/-- A deadline that does not pass the end of the clock is never early. -/
theorem lt_deadline_of_early
    {regtime timeout curtime : TimerDuration}
    (inRange : regtime.toNat + timeout.toNat < 2 ^ 32)
    (early : Early regtime timeout curtime) :
    curtime < regtime + timeout := by
  obtain ⟨started, soon⟩ := early
  rw [UInt32.lt_iff_toNat_lt, UInt32.toNat_sub_of_le _ _ started] at soon
  rw [UInt32.le_iff_toNat_le] at started
  rw [UInt32.lt_iff_toNat_lt, UInt32.toNat_add, Nat.mod_eq_of_lt inRange]
  omega

/-- Past the end of the clock the deadline has passed when it is registered. -/
theorem deadline_le_of_overflow
    {regtime timeout : TimerDuration}
    (overflow : 2 ^ 32 ≤ regtime.toNat + timeout.toNat) :
    regtime + timeout ≤ regtime := by
  have bound := timeout.toNat_lt
  rw [UInt32.le_iff_toNat_le, UInt32.toNat_add]
  omega

/-- The sleeping thread is woken by its own `yield` if the deadline passes the
end of the clock. -/
theorem Resting.wakes_of_overflow
    {sched : Sched limits}
    {lists : SchedList → List (Fin limits.maxThreads)}
    {slot : Fin limits.maxThreads}
    {timeout regtime : TimerDuration}
    (resting : sched.Resting lists)
    (isCurrent : sched.currentThread = some (.slot slot))
    (timed : timeout ≠ noTimeout)
    (overflow : 2 ^ 32 ≤ regtime.toNat + timeout.toNat)
    (cause : SchedCause)
    (remaining : TimerDuration) :
    ∃ entry woken, sched.sleepMark .stopped timeout regtime = .ok entry ∧
      entry.YieldWakes cause remaining regtime woken ∧
      (woken.tcb (.slot slot)).state = .ready := by
  have passed := deadline_le_of_overflow overflow
  have inClock : regtime + timeout ≠ noTimeout := by
    intro collides
    have bound := timeout.toNat_lt
    have below := regtime.toNat_lt
    have sum := congrArg UInt32.toNat collides
    rw [UInt32.toNat_add] at sum
    have last : noTimeout.toNat = 2 ^ 32 - 1 := rfl
    omega
  obtain ⟨entry, entryLists, marks, inv, mark⟩ :=
    resting.sleepMark isCurrent (.inl rfl) fun _ _ => inClock
  obtain ⟨counted, woken, lists', countedEq, wokenEq, -, -, -, -, -, -, -,
    ready, -⟩ := inv.yieldWake cause remaining regtime fun _ never => never.elim
  refine ⟨entry, woken, marks, ⟨.slot slot, counted,
    mark.currentThread.trans isCurrent, countedEq, wokenEq⟩, ready slot ?_⟩
  rw [expired_eq_filter inv.sorted, List.mem_filter, decide_eq_true_iff,
    mark.deadline rfl timed, mark.timeouts, if_pos ⟨rfl, timed⟩]
  exact ⟨List.mem_append_right _ (List.mem_cons_self ..), passed⟩

/-- In any state a thread sleeps at least as long as its timeout if the deadline
does not pass the end of the clock; in a reachable state, only then. -/
theorem timeout_never_early
    {sched : Sched limits}
    {slot : Fin limits.maxThreads}
    {timeout : TimerDuration}
    (isCurrent : sched.currentThread = some (.slot slot))
    (timed : timeout ≠ noTimeout)
    (regtime : TimerDuration) :
    (regtime.toNat + timeout.toNat < 2 ^ 32 →
      sched.NeverEarly slot timeout regtime) ∧
    (sched.Reached → (sched.NeverEarly slot timeout regtime ↔
      regtime.toNat + timeout.toNat < 2 ^ 32)) := by
  have enough : regtime.toNat + timeout.toNat < 2 ^ 32 →
      sched.NeverEarly slot timeout regtime := by
    intro inRange entry entersAsleep cause remaining curtime woken early wakes
    obtain ⟨isStopped, deadline⟩ := entersAsleep.deadline isCurrent timed
    have later := lt_deadline_of_early inRange early
    rw [← deadline] at later
    rw [wakes.asleep isStopped later]
    decide
  refine ⟨enough, fun reached => ⟨fun never => ?_, enough⟩⟩
  by_contra overflow
  obtain ⟨lists, resting⟩ := reached.resting
  obtain ⟨entry, woken, marks, wakes, isReady⟩ := resting.wakes_of_overflow
    isCurrent timed (Nat.le_of_not_lt overflow) .user 0
  have positive : 0 < timeout := by
    have below := regtime.toNat_lt
    rw [UInt32.lt_iff_toNat_lt]
    show 0 < timeout.toNat
    omega
  refine never entry (.own marks) .user 0 regtime woken ⟨UInt32.le_refl _, ?_⟩
    wakes isReady
  rwa [UInt32.sub_self]

/-- A thread of a pool of two goes to sleep for 50 ticks at time 5. -/
theorem timeout_never_early_short_sleep :
    ∃ sched : Sched Limits.tinier,
      (sched.Reached ∧ sched.currentThread = some (.slot 0)) ∧
      sched.NeverEarly 0 50 5 := by
  have ran : ∃ sched : Sched Limits.tinier, sched.Reached ∧
      decide (sched.currentThread = some (.slot 0)) = true :=
    exists_reachable_of_any
      [.spawnThread none .startMainThread, .wakeup 0, .runScheduler none,
        .yield .idle 0 0] (by decide +kernel)
  obtain ⟨sched, reached, test⟩ := ran
  have isCurrent := of_decide_eq_true test
  exact ⟨sched, ⟨reached, isCurrent⟩,
    (timeout_never_early isCurrent (by decide) 5).1 (by decide)⟩

/-- Near the end of the clock a timeout fires when it is registered. -/
theorem timeout_fires_at_once :
    ∃ sched entry woken : Sched Limits.tinier,
      (sched.Reached ∧ sched.currentThread = some (.slot 0)) ∧
      sched.sleepMark .stopped 0x200 0xFFFFFF00 = .ok entry ∧
      entry.YieldWakes .user 0 0xFFFFFF00 woken ∧
      Early 0xFFFFFF00 0x200 0xFFFFFF00 ∧
      (woken.tcb (.slot 0)).state = .ready ∧
      ¬sched.NeverEarly 0 0x200 0xFFFFFF00 := by
  have ran : ∃ sched : Sched Limits.tinier, sched.Reached ∧
      decide (sched.currentThread = some (.slot 0)) = true :=
    exists_reachable_of_any
      [.spawnThread none .startMainThread, .wakeup 0, .runScheduler none,
        .yield .idle 0 0] (by decide +kernel)
  obtain ⟨sched, reached, test⟩ := ran
  have isCurrent := of_decide_eq_true test
  obtain ⟨lists, resting⟩ := reached.resting
  have timed : (0x200 : TimerDuration) ≠ noTimeout := by decide
  have overflow : 2 ^ 32 ≤ (0xFFFFFF00 : TimerDuration).toNat +
      (0x200 : TimerDuration).toNat := by decide
  obtain ⟨entry, woken, marks, wakes, isReady⟩ := resting.wakes_of_overflow
    isCurrent timed overflow .user 0
  have early : Early 0xFFFFFF00 0x200 0xFFFFFF00 := by
    constructor <;> decide
  exact ⟨sched, entry, woken, ⟨reached, isCurrent⟩, marks, wakes, early, isReady,
    fun never => never entry (.own marks) .user 0 _ woken early wakes isReady⟩

end Sched
end TinierOS
