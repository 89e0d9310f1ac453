import TinierOS.Sched.Levels
import Mathlib.Data.Finset.Card

/-!
# Yielding the core

`yield` takes the scheduler through a state in which the selected thread is out
of the queues and the previous one still counts as running on the core; the
`gain` of the selected thread restores the invariant.
-/

namespace TinierOS

variable {limits : Limits}

namespace Sched

/-- The invariant between scheduler calls: only the current thread is running,
only its context is dirty, and nothing is in transit. -/
def Resting
    (sched : Sched limits)
    (lists : SchedList → List (Fin limits.maxThreads)) : Prop :=
  SchedInv sched lists (fun tcb => sched.currentThread = some tcb)
    (fun tcb => sched.currentThread = some tcb) (fun _ => False)

theorem resting_iff
    {sched : Sched limits}
    {lists : SchedList → List (Fin limits.maxThreads)}
    {current : TcbPtr limits}
    (isCurrent : sched.currentThread = some current) :
    sched.Resting lists ↔
      SchedInv sched lists (fun tcb => tcb = current)
        (fun tcb => tcb = current) (fun _ => False) := by
  have same : (fun tcb => sched.currentThread = some tcb) =
      fun tcb => tcb = current := by
    funext tcb
    simp [isCurrent, eq_comm]
  rw [Resting, same]

theorem yieldTCB_state
    (cause : SchedCause)
    (remaining : TimerDuration)
    (block : TCB limits) :
    (yieldTCB cause remaining block).state =
      if block.state = .running then .ready else block.state := rfl

/-- Neither the boost nor the yielding thread's bookkeeping moves a
deadline. -/
theorem SameButPriority.markedTime
    {sched counted : Sched limits}
    (same : SameButPriority sched counted)
    (current : TcbPtr limits)
    (cause : SchedCause)
    (remaining : TimerDuration)
    (tcb : TcbPtr limits) :
    ((counted.modifyTcb current (yieldTCB cause remaining)).tcb
        tcb).wakeupTime = (sched.tcb tcb).wakeupTime := by
  have kept : (counted.tcb tcb).wakeupTime = (sched.tcb tcb).wakeupTime := by
    rw [same tcb]
  rw [← kept]
  by_cases isCurrent : tcb = current
  · subst isCurrent
    rw [modifyTcb_self]
    rfl
  · rw [modifyTcb_of_ne isCurrent]

/-! ## The selection -/

/-- What `yield` does up to the selection of the next thread: `remaining` and
`curtime` are read from the timer. -/
def YieldWakes
    (entry : Sched limits)
    (cause : SchedCause)
    (remaining curtime : TimerDuration)
    (woken : Sched limits) : Prop :=
  ∃ current counted, entry.currentThread = some current ∧
    entry.countYield = .ok counted ∧
    (counted.modifyTcb current
      (yieldTCB cause remaining)).schedWakeupExpiredTimeouts curtime =
        .ok woken

/-- What `sched_queue_select` takes: the front of the first non-empty level; if
all levels are empty the yielding thread when it is ready, and otherwise the idle
thread. -/
inductive Selects
    (woken : Sched limits)
    (lists : SchedList → List (Fin limits.maxThreads))
    (current : TcbPtr limits) :
    TcbPtr limits → (SchedList → List (Fin limits.maxThreads)) → Prop
  | front
      {level : Fin schedQueues}
      {slot : Fin limits.maxThreads}
      {rest : List (Fin limits.maxThreads)}
      (queue : lists (.queue level) = slot :: rest)
      (below : ∀ lower < level, lists (.queue lower) = []) :
      Selects woken lists current (.slot slot)
        (Function.update lists (.queue level) rest)
  | caller
      (allEmpty : ∀ level, lists (.queue level) = [])
      (isReady : (woken.tcb current).state = .ready) :
      Selects woken lists current current lists
  | idle
      (allEmpty : ∀ level, lists (.queue level) = [])
      (notReady : (woken.tcb current).state ≠ .ready) :
      Selects woken lists current .idle lists

/-- `yield` hands the core to the thread that `sched_queue_select` returns. -/
theorem yieldSwitch_of_selected
    {entry counted woken selected : Sched limits}
    {current next : TcbPtr limits}
    {cause : SchedCause}
    {remaining curtime : TimerDuration}
    (isCurrent : entry.currentThread = some current)
    (countedEq : entry.countYield = .ok counted)
    (wokenEq : (counted.modifyTcb current
      (yieldTCB cause remaining)).schedWakeupExpiredTimeouts curtime =
        .ok woken)
    (selectedEq : woken.schedQueueSelect current = (some next, selected)) :
    entry.yieldSwitch cause remaining curtime = .ok { selected with
      previousThread := some current
      currentThread := some next } := by
  simp [yieldSwitch, isCurrent, countedEq, wokenEq, selectedEq, bind,
    Except.bind, pure, Except.pure]

/-! ## The hand-over -/

/-- The thread that left the core keeps its state and its deadline. -/
theorem gainPrevious_tcb
    {before after : Sched limits}
    {previous : TcbPtr limits}
    (ran : before.gainPrevious previous = .ok after) :
    after.currentThread = before.currentThread ∧
      after.tcb = (before.modifyTcb previous fun block =>
        { block with phase := .ctxClean }).tcb := by
  simp only [gainPrevious, schedQueueAdd] at ran
  split at ran
  · split_ifs at ran with isIdle
    · cases ran
      exact ⟨rfl, rfl⟩
    · split at ran
      · cases ran
      · cases ran
        exact ⟨rfl, rfl⟩
  · cases ran
    cases previous <;> exact ⟨rfl, rfl⟩
  · cases ran
    exact ⟨rfl, rfl⟩
  · cases ran
  · cases ran

theorem gain_currentThread
    {before after : Sched limits}
    (ran : before.gain = .ok after) :
    after.currentThread = before.currentThread := by
  simp only [gain] at ran
  split at ran
  · split_ifs at ran
    · cases ran
      rfl
    · exact (gainPrevious_tcb ran).1
  · cases ran

/-! ## What a turn does to the lists -/

/-- Threads have only joined the queues, each at its end. -/
def QueuesGrow
    (before after : SchedList → List (Fin limits.maxThreads)) : Prop :=
  ∀ level, before (.queue level) <+: after (.queue level)

theorem QueuesGrow.refl
    (lists : SchedList → List (Fin limits.maxThreads)) :
    QueuesGrow lists lists :=
  fun _ => List.prefix_rfl

theorem QueuesGrow.trans
    {first second third : SchedList → List (Fin limits.maxThreads)}
    (before : QueuesGrow first second)
    (after : QueuesGrow second third) :
    QueuesGrow first third :=
  fun level => (before level).trans (after level)

theorem QueuesGrow.append
    (lists : SchedList → List (Fin limits.maxThreads))
    (level : Fin schedQueues)
    (slot : Fin limits.maxThreads) :
    QueuesGrow lists
      (Function.update lists (.queue level)
        (lists (.queue level) ++ [slot])) := by
  intro other
  by_cases same : other = level
  · subst same
    simp
  · simp [same]

/-- The selected thread was the front of the first non-empty level, unless all
levels were empty. -/
def Pops
    (before : SchedList → List (Fin limits.maxThreads))
    (next : TcbPtr limits)
    (after : SchedList → List (Fin limits.maxThreads)) : Prop :=
  (∃ level slot rest, next = .slot slot ∧
      before (.queue level) = slot :: rest ∧
      (∀ lower < level, before (.queue lower) = []) ∧
      after = Function.update before (.queue level) rest) ∨
    ((∀ level, before (.queue level) = []) ∧ after = before)

/-- The lists after the yield counter has been raised. -/
def countedLists
    (sched : Sched limits)
    (lists : SchedList → List (Fin limits.maxThreads)) :
    SchedList → List (Fin limits.maxThreads) :=
  if sched.yieldCount + 1 = yieldRuns then boosted lists else lists

@[simp] theorem countedLists_timeouts
    (sched : Sched limits)
    (lists : SchedList → List (Fin limits.maxThreads)) :
    sched.countedLists lists .timeouts = lists .timeouts := by
  unfold countedLists
  split_ifs <;> rfl

/-- What one call of `yield` that hands the core to `next` does to the lists,
the yield counter and the sleepers. -/
structure Turn
    (before : Sched limits)
    (lists : SchedList → List (Fin limits.maxThreads))
    (curtime : TimerDuration)
    (next : TcbPtr limits)
    (after : Sched limits)
    (lists' : SchedList → List (Fin limits.maxThreads)) : Prop where
  yieldCount : after.yieldCount =
    if before.yieldCount + 1 = yieldRuns then 0 else before.yieldCount + 1
  timeouts : lists' .timeouts = before.pending curtime (lists .timeouts)
  wakeupTime : ∀ slot ∈ lists' .timeouts,
    (after.tcb (.slot slot)).wakeupTime =
      (before.tcb (.slot slot)).wakeupTime
  woken : ∀ slot ∈ before.expired curtime (lists .timeouts),
    (after.tcb (.slot slot)).state ≠ .stopped
  selected : ∃ arrived left, QueuesGrow (before.countedLists lists) arrived ∧
    Pops arrived next left ∧ QueuesGrow left lists'

/-- What `gain` leaves as it was. -/
structure Gained
    (before : Sched limits)
    (lists : SchedList → List (Fin limits.maxThreads))
    (after : Sched limits)
    (lists' : SchedList → List (Fin limits.maxThreads)) : Prop where
  yieldCount : after.yieldCount = before.yieldCount
  timeouts : lists' .timeouts = lists .timeouts
  wakeupTime : ∀ tcb, (after.tcb tcb).wakeupTime =
    (before.tcb tcb).wakeupTime
  stopped : ∀ tcb, (after.tcb tcb).state = .stopped →
    (before.tcb tcb).state = .stopped
  grow : QueuesGrow lists lists'

theorem Gained.trans
    {first second third : Sched limits}
    {lists₁ lists₂ lists₃ : SchedList → List (Fin limits.maxThreads)}
    (before : Gained first lists₁ second lists₂)
    (after : Gained second lists₂ third lists₃) :
    Gained first lists₁ third lists₃ where
  yieldCount := after.yieldCount.trans before.yieldCount
  timeouts := after.timeouts.trans before.timeouts
  wakeupTime := fun tcb => (after.wakeupTime tcb).trans (before.wakeupTime tcb)
  stopped := fun tcb isStopped =>
    before.stopped tcb (after.stopped tcb isStopped)
  grow := before.grow.trans after.grow

/-- Assigning to a TCB without stopping the thread or moving its deadline. -/
theorem Gained.modifyTcb
    (sched : Sched limits)
    (lists : SchedList → List (Fin limits.maxThreads))
    (tcb : TcbPtr limits)
    {change : TCB limits → TCB limits}
    (wakeupTime : (change (sched.tcb tcb)).wakeupTime =
      (sched.tcb tcb).wakeupTime)
    (stopped : (change (sched.tcb tcb)).state = .stopped →
      (sched.tcb tcb).state = .stopped) :
    Gained sched lists (sched.modifyTcb tcb change) lists where
  yieldCount := rfl
  timeouts := rfl
  wakeupTime := by
    intro other
    by_cases same : other = tcb
    · subst same
      rw [modifyTcb_self, wakeupTime]
    · rw [modifyTcb_of_ne same]
  stopped := by
    intro other
    by_cases same : other = tcb
    · subst same
      rwa [modifyTcb_self]
    · rw [modifyTcb_of_ne same]
      exact id
  grow := QueuesGrow.refl lists

/-- A turn ends with the `gain` of the selected thread. -/
theorem Turn.gained
    {before switched after : Sched limits}
    {lists lists₁ lists₂ : SchedList → List (Fin limits.maxThreads)}
    {curtime : TimerDuration}
    {next : TcbPtr limits}
    (turn : Turn before lists curtime next switched lists₁)
    (gained : Gained switched lists₁ after lists₂) :
    Turn before lists curtime next after lists₂ where
  yieldCount := gained.yieldCount.trans turn.yieldCount
  timeouts := gained.timeouts.trans turn.timeouts
  wakeupTime := by
    intro slot asleep
    rw [gained.timeouts] at asleep
    exact (gained.wakeupTime _).trans (turn.wakeupTime slot asleep)
  woken := fun slot due isStopped =>
    turn.woken slot due (gained.stopped _ isStopped)
  selected := by
    obtain ⟨arrived, left, arrivals, pops, grow⟩ := turn.selected
    exact ⟨arrived, left, arrivals, pops, grow.trans gained.grow⟩

/-- The priorities `yield` assigns stay in range. -/
theorem adjustPriority_range
    {block : TCB limits}
    (cause : SchedCause)
    (range : 0 ≤ block.priority ∧ block.priority < schedQueues) :
    0 ≤ adjustPriority block cause ∧
      adjustPriority block cause < schedQueues := by
  cases cause <;> simp only [adjustPriority] <;>
    first
    | exact range
    | split_ifs <;> omega

end Sched

namespace SchedInv

variable {sched : Sched limits}
variable {lists : SchedList → List (Fin limits.maxThreads)}
variable {running dirty hidden : TcbPtr limits → Prop}

/-- Moving the thread pointers of the core, or the yield counter. -/
theorem repoint
    {currentThread previousThread : Option (TcbPtr limits)}
    {yieldCount : Nat}
    (inv : SchedInv sched lists running dirty hidden)
    (bound : yieldCount < yieldRuns) :
    SchedInv { sched with
        currentThread := currentThread
        previousThread := previousThread
        yieldCount := yieldCount } lists running dirty hidden :=
  { inv with yieldCount := bound }

/-- Releasing an exited thread whose context is no longer in use. -/
theorem releaseTCB
    {slot : Fin limits.maxThreads}
    (inv : SchedInv sched lists running dirty (fun tcb => tcb = .slot slot))
    (usedSlot : sched.threadUsed slot = true)
    (isExited : (sched.tcb (.slot slot)).state = .exited)
    (notDirty : ¬dirty (.slot slot)) :
    SchedInv (sched.releaseTCB (.slot slot)) lists running dirty
      (fun _ => False) := by
  have stillUsed : ∀ {other}, (sched.releaseTCB (.slot slot)).threadUsed
      other = true → sched.threadUsed other = true ∧ other ≠ slot := by
    intro other usedAfter
    by_cases same : other = slot
    · subst same
      simp [Sched.releaseTCB, Sched.freeThread] at usedAfter
    · refine ⟨?_, same⟩
      simpa [Sched.releaseTCB, Sched.freeThread, same] using usedAfter
  have notListed : ∀ list, slot ∉ lists list := by
    refine SchedInv.unlisted (inv.not_queued ?_) (inv.awake ?_)
    · rintro ⟨isReady, -⟩
      rw [isExited] at isReady
      cases isReady
    · rw [isExited]
      decide
  constructor
  case represents =>
      refine inv.represents.weaken (fun other usedAfter =>
        (stillUsed usedAfter).1) ?_
      intro list other member
      have different : other ≠ slot := by
        rintro rfl
        exact notListed list member
      simpa [Sched.releaseTCB, Sched.freeThread, different] using
        inv.used_of_mem member
  case queueKey => exact inv.queueKey
  case nodeKey =>
      exact fun other usedAfter =>
        inv.nodeKey other (stillUsed usedAfter).1
  case queued =>
      intro other usedAfter
      obtain ⟨usedBefore, different⟩ := stillUsed usedAfter
      rw [inv.queued other usedBefore]
      simp [different, Sched.releaseTCB, Sched.freeThread]
  case level => exact inv.level
  case sleeping =>
      exact fun other usedAfter =>
        inv.sleeping other (stillUsed usedAfter).1
  case stopped => exact inv.stopped
  case sorted => exact inv.sorted
  case isRunning => exact inv.isRunning
  case isDirty => exact inv.isDirty
  case dirtyUsed =>
      intro other isDirtyOther
      have different : other ≠ slot := by
        rintro rfl
        exact notDirty isDirtyOther
      simpa [Sched.releaseTCB, Sched.freeThread, different] using
        inv.dirtyUsed other isDirtyOther
  case exited =>
      intro other usedAfter otherExited
      obtain ⟨usedBefore, different⟩ := stillUsed usedAfter
      refine (inv.exited other usedBefore otherExited).imp_right ?_
      intro isSlot
      exact different (by simpa using isSlot)
  case normal =>
      exact fun other usedAfter =>
        inv.normal other (stillUsed usedAfter).1
  case idle => exact inv.idle
  case priority => exact inv.priority
  case yieldCount => exact inv.yieldCount
  case active =>
      have erased : (sched.releaseTCB (.slot slot)).usedSlots =
          sched.usedSlots.erase slot := by
        ext other
        simp only [Sched.usedSlots, Finset.mem_filter, Finset.mem_univ,
          true_and, Finset.mem_erase]
        refine ⟨fun usedAfter => (stillUsed usedAfter).symm, ?_⟩
        rintro ⟨different, usedBefore⟩
        simpa [Sched.releaseTCB, Sched.freeThread, different] using usedBefore
      have member : slot ∈ sched.usedSlots := by
        simp [Sched.usedSlots, usedSlot]
      have positive := Finset.card_pos.mpr ⟨slot, member⟩
      have count : (sched.releaseTCB (.slot slot)).activeThreads =
          sched.activeThreads - 1 := rfl
      rw [count, erased, Finset.card_erase_of_mem member, inv.active]
      omega

/-- Threads that `gain` may find in `previous_thread`. -/
theorem gainPrevious
    {next previous : TcbPtr limits}
    (inv : SchedInv sched lists (fun tcb => tcb = next)
      (fun tcb => tcb = next ∨ tcb = previous) (fun _ => False))
    (different : previous ≠ next)
    (notInit : (sched.tcb previous).state ≠ .init)
    (exitedSlot : (sched.tcb previous).state = .exited →
      previous ≠ .idle) :
    ∃ after lists', sched.gainPrevious previous = .ok after ∧
      SchedInv after lists' (fun tcb => tcb = next) (fun tcb => tcb = next)
        (fun _ => False) ∧
      Sched.SameOwners sched after ∧
      after.currentThread = sched.currentThread ∧
      after.threadUsed =
        (if (sched.tcb previous).state = .exited then
          (sched.freeThread previous).threadUsed else sched.threadUsed) ∧
      Sched.Gained sched lists after lists' := by
  have notRunning : (sched.tcb previous).state ≠ .running := by
    rw [Ne, inv.isRunning]
    exact different
  have isDirty : (sched.tcb previous).phase = .ctxDirty :=
    (inv.isDirty previous).mpr (.inr rfl)
  -- The context is clean again; the thread is in transit until it is queued or
  -- released.
  have cleaned : SchedInv
      (sched.modifyTcb previous fun block =>
        { block with phase := .ctxClean })
      lists (fun tcb => tcb = next) (fun tcb => tcb = next)
      (fun tcb => tcb = previous) := by
    refine inv.modifyTcb rfl rfl (inv.priority _) (inv.isRunning _) ?_ ?_
      ?_ ?_ ?_ ?_ ?_
    · simp [different]
    · intro other apart
      simp [apart]
    · rintro slot - isNext
      exact absurd isNext different
    · rintro slot rfl usedSlot
      have notQueued := inv.not_queued fun apart =>
        absurd (apart.2.1.symm.trans isDirty) (by decide)
      simpa using notQueued
    · rintro slot level rfl member
      exact inv.level slot level member
    · rintro slot rfl member
      exact inv.stopped slot member
    · rintro slot rfl - -
      exact .inr rfl
  have owners : Sched.SameOwners sched
      (sched.modifyTcb previous fun block =>
        { block with phase := .ctxClean }) :=
    Sched.SameOwners.modifyTcb _ _ _ rfl rfl rfl
  have state : ((sched.modifyTcb previous fun block =>
      { block with phase := .ctxClean }).tcb previous).state =
        (sched.tcb previous).state := by simp
  have type : ((sched.modifyTcb previous fun block =>
      { block with phase := .ctxClean }).tcb previous).type =
        (sched.tcb previous).type := by simp
  have gained : Sched.Gained sched lists
      (sched.modifyTcb previous fun block =>
        { block with phase := .ctxClean }) lists :=
    Sched.Gained.modifyTcb _ _ _ rfl id
  unfold Sched.gainPrevious
  simp only [state, type]
  cases was : (sched.tcb previous).state with
  | init => exact absurd was notInit
  | running => exact absurd was notRunning
  | stopped =>
      refine ⟨_, lists, rfl, cleaned.rehide ?_ ?_, owners, rfl, by simp,
        gained⟩
      · rintro slot isReady -
        simp only [false_iff]
        rintro rfl
        rw [state, was] at isReady
        cases isReady
      · rintro slot isExited rfl
        rw [state, was] at isExited
        cases isExited
  | ready =>
      cases previous with
      | idle =>
          rw [if_pos inv.idle]
          exact ⟨_, lists, rfl, cleaned.rehide (by simp) (by simp), owners,
            rfl, by simp, gained⟩
      | slot slot =>
          have usedSlot := inv.dirtyUsed slot (.inr rfl)
          have notIdle : (sched.tcb (.slot slot)).type ≠ .idleThread := by
            rw [inv.normal slot usedSlot]
            decide
          obtain ⟨level, -, added, addedInv⟩ := cleaned.schedQueueAdd
            usedSlot (state.trans was) (by simp) rfl
          rw [if_neg notIdle]
          refine ⟨_, _, added, addedInv.rehide (by simp) ?_,
            owners.trans (Sched.SameOwners.of_tcb_eq rfl), rfl, by simp,
            gained.trans ⟨rfl, by simp, fun _ => rfl, fun _ => id, ?_⟩⟩
          · rintro other - ⟨isPrevious, notPrevious⟩
            exact notPrevious isPrevious
          · exact Sched.QueuesGrow.append _ level slot
  | exited =>
      cases previous with
      | idle => exact absurd rfl (exitedSlot was)
      | slot slot =>
          have usedSlot := inv.dirtyUsed slot (.inr rfl)
          exact ⟨_, lists, rfl,
            cleaned.releaseTCB usedSlot (state.trans was) different,
            owners.trans (Sched.SameOwners.of_tcb_eq rfl), rfl, by
              simp [Sched.releaseTCB, Sched.freeThread],
            gained.trans ⟨rfl, rfl, fun _ => rfl, fun _ => id,
              Sched.QueuesGrow.refl lists⟩⟩

/-- `gain` restores the invariant after a switch to `next`. -/
theorem gain
    {next previous : TcbPtr limits}
    (inv : SchedInv sched lists (fun _ => False)
      (fun tcb => tcb = previous) (fun tcb => tcb = next))
    (isCurrent : sched.currentThread = some next)
    (isPrevious : sched.previousThread = some previous)
    (nextReady : ∀ slot, next = .slot slot →
      sched.threadUsed slot = true ∧ (sched.tcb next).state = .ready)
    (notInit : (sched.tcb previous).state ≠ .init)
    (exitedSlot : (sched.tcb previous).state = .exited →
      previous ≠ .idle ∧ previous ≠ next) :
    ∃ after lists', sched.gain = .ok after ∧
      after.currentThread = some next ∧
      after.Resting lists' ∧
      Sched.SameOwners sched after ∧
      after.threadUsed =
        (if (sched.tcb previous).state = .exited then
          (sched.freeThread previous).threadUsed else sched.threadUsed) ∧
      Sched.Gained sched lists after lists' := by
  have marked : SchedInv (sched.gainCurrent next) lists
      (fun tcb => tcb = next) (fun tcb => tcb = next ∨ tcb = previous)
      (fun _ => False) := by
    refine inv.modifyTcb rfl rfl (inv.priority _) (by simp) (by simp) ?_
      ?_ ?_ ?_ ?_ ?_
    · intro other apart
      simp [apart]
    · rintro slot isSlot -
      exact (nextReady slot isSlot).1
    · rintro slot rfl usedSlot
      have notQueued := inv.not_queued fun apart => apart.2.2 rfl
      simpa using notQueued
    · rintro slot level rfl member
      exact absurd member (inv.not_queued (fun apart => apart.2.2 rfl) level)
    · rintro slot rfl member
      have isStopped := inv.stopped slot member
      rw [(nextReady slot rfl).2] at isStopped
      cases isStopped
    · simp
  have owners : Sched.SameOwners sched (sched.gainCurrent next) :=
    Sched.SameOwners.modifyTcb _ _ _ rfl rfl rfl
  have gained : Sched.Gained sched lists (sched.gainCurrent next) lists :=
    Sched.Gained.modifyTcb _ _ _ rfl (by simp)
  have unfolded : sched.gain =
      if next = previous then .ok (sched.gainCurrent next)
      else (sched.gainCurrent next).gainPrevious previous := by
    simp [Sched.gain, isCurrent, isPrevious]
  by_cases same : next = previous
  · subst same
    rw [if_pos rfl] at unfolded
    refine ⟨_, lists, unfolded, isCurrent, ?_, owners, ?_, gained⟩
    · have resting : (sched.gainCurrent next).Resting lists ↔ _ :=
        Sched.resting_iff isCurrent
      rw [resting]
      simpa using marked
    · have notExited : (sched.tcb next).state ≠ .exited := fun isExited =>
        (exitedSlot isExited).2 rfl
      rw [if_neg notExited]
      rfl
  · rw [if_neg same] at unfolded
    have unmarked : (sched.gainCurrent next).tcb previous =
        sched.tcb previous := Sched.modifyTcb_of_ne (Ne.symm same)
    obtain ⟨after, lists', handed, afterInv, afterOwners, current,
      threadUsed, handedOver⟩ := marked.gainPrevious (Ne.symm same)
        (by rwa [unmarked]) (by
          rw [unmarked]
          exact fun isExited => (exitedSlot isExited).1)
    have afterCurrent : after.currentThread = some next :=
      current.trans isCurrent
    refine ⟨after, lists', unfolded.trans handed, afterCurrent, ?_,
      owners.trans afterOwners, ?_, gained.trans handedOver⟩
    · rwa [Sched.resting_iff afterCurrent]
    · rw [threadUsed, unmarked]
      cases previous <;> rfl

/-- The yield counter, with the boost when it is due. -/
theorem countYield
    (inv : SchedInv sched lists running dirty fun _ => False) :
    ∃ after, sched.countYield = .ok after ∧
      SchedInv after (sched.countedLists lists) running dirty
        (fun _ => False) ∧
      Sched.SameButPriority sched after ∧
      Sched.SameOwners sched after ∧
      after.threadUsed = sched.threadUsed ∧
      after.yieldCount = if sched.yieldCount + 1 = yieldRuns then 0
        else sched.yieldCount + 1 := by
  have below := inv.yieldCount
  unfold Sched.countYield Sched.countedLists
  by_cases due : sched.yieldCount + 1 = yieldRuns
  · obtain ⟨after, boost, afterInv, same, -, frame⟩ :=
      inv.schedBoostPriority
    rw [if_pos due, if_pos due, if_pos due,
      Sched.schedBoostPriority_yieldCount, boost]
    exact ⟨_, rfl, afterInv.repoint (by decide), same,
      frame.toSameOwners.trans (Sched.SameOwners.of_tcb_eq rfl),
      frame.threadUsed, rfl⟩
  · rw [if_neg due, if_neg due, if_neg due]
    exact ⟨_, rfl, inv.repoint (by omega), fun _ => rfl,
      Sched.SameOwners.of_tcb_eq rfl, rfl, rfl⟩

/-- What `yield` writes into the TCB of the thread that gives up the core. -/
theorem yieldTCB
    {current : TcbPtr limits}
    (cause : SchedCause)
    (remaining : TimerDuration)
    (inv : SchedInv sched lists running (fun tcb => tcb = current)
      (fun _ => False))
    (onlyCurrent : ∀ tcb, running tcb → tcb = current) :
    SchedInv
      (sched.modifyTcb current (Sched.yieldTCB cause remaining)) lists
      (fun _ => False) (fun tcb => tcb = current) (fun _ => False) := by
  have isDirty := (inv.isDirty current).mpr rfl
  have notQueued : ∀ slot, current = .slot slot →
      ∀ level, slot ∉ lists (.queue level) := by
    rintro slot rfl
    refine inv.not_queued ?_
    rintro ⟨-, isClean, -⟩
    rw [isDirty] at isClean
    cases isClean
  refine inv.modifyTcb rfl rfl ?_ ?_ ?_ ?_ ?_ ?_ ?_ ?_ ?_
  · exact Sched.adjustPriority_range cause (inv.priority current)
  · simp only [Sched.yieldTCB, iff_false]
    split_ifs with isRunning
    · decide
    · exact isRunning
  · simpa [Sched.yieldTCB] using isDirty
  · intro other different
    have notRunning : ¬running other := fun isRunning =>
      different (onlyCurrent other isRunning)
    simp [notRunning]
  · rintro slot rfl -
    exact inv.dirtyUsed slot rfl
  · rintro slot isSlot -
    have stillDirty : (Sched.yieldTCB cause remaining
        (sched.tcb current)).phase = .ctxDirty := isDirty
    simp [notQueued slot isSlot, stillDirty]
  · rintro slot level isSlot member
    exact absurd member (notQueued slot isSlot level)
  · rintro slot rfl member
    have isStopped := inv.stopped slot member
    simp [Sched.yieldTCB, isStopped]
  · rintro slot rfl - -
    exact .inl rfl

/-- `yield` up to the selection: the sleepers that are due have joined the
queues, and the yielding thread is ready, unless it is asleep or has exited. -/
theorem yieldWake
    {current : TcbPtr limits}
    (cause : SchedCause)
    (remaining curtime : TimerDuration)
    (inv : SchedInv sched lists running (fun tcb => tcb = current)
      (fun _ => False))
    (onlyCurrent : ∀ tcb, running tcb → tcb = current) :
    ∃ counted woken lists', sched.countYield = .ok counted ∧
      (counted.modifyTcb current
        (Sched.yieldTCB cause remaining)).schedWakeupExpiredTimeouts curtime =
          .ok woken ∧
      SchedInv woken lists' (fun _ => False) (fun tcb => tcb = current)
        (fun _ => False) ∧
      Sched.SameOwners sched woken ∧
      woken.threadUsed = sched.threadUsed ∧
      ((woken.tcb current).state = .ready ∧
          (sched.tcb current).state ≠ .exited ∨
        (woken.tcb current).state = (sched.tcb current).state) ∧
      woken.yieldCount = (if sched.yieldCount + 1 = yieldRuns then 0
        else sched.yieldCount + 1) ∧
      lists' .timeouts = sched.pending curtime (lists .timeouts) ∧
      (∀ slot ∈ lists' .timeouts, (woken.tcb (.slot slot)).wakeupTime =
        (sched.tcb (.slot slot)).wakeupTime) ∧
      (∀ slot ∈ sched.expired curtime (lists .timeouts),
        (woken.tcb (.slot slot)).state = .ready) ∧
      Sched.QueuesGrow (sched.countedLists lists) lists' := by
  obtain ⟨counted, countedEq, countedInv, countedSame, countedOwners,
    countedUsed, countedCount⟩ := inv.countYield
  have marked := countedInv.yieldTCB cause remaining onlyCurrent
  obtain ⟨woken, lists₂, wokenEq, wokenInv, wokenTcb, wokenTimeouts,
    wokenQueues, wokenFrame⟩ := marked.schedWakeupExpiredTimeouts curtime
  have sameTime := countedSame.markedTime current cause remaining
  have sameExpired : (counted.modifyTcb current
        (Sched.yieldTCB cause remaining)).expired curtime (lists .timeouts) =
      sched.expired curtime (lists .timeouts) :=
    Sched.expired_congr fun slot _ => sameTime (.slot slot)
  have samePending : (counted.modifyTcb current
        (Sched.yieldTCB cause remaining)).pending curtime (lists .timeouts) =
      sched.pending curtime (lists .timeouts) :=
    Sched.pending_congr fun slot _ => sameTime (.slot slot)
  have kept : (counted.tcb current).state = (sched.tcb current).state := by
    rw [countedSame current]
  have stopped := fun slot => marked.stopped slot
  rw [Sched.countedLists_timeouts] at wokenTcb wokenTimeouts wokenQueues
  simp only [Sched.countedLists_timeouts] at stopped
  rw [sameExpired] at wokenTcb wokenQueues
  rw [samePending] at wokenTimeouts
  refine ⟨counted, woken, lists₂, countedEq, wokenEq, wokenInv, ?_,
    wokenFrame.threadUsed.trans countedUsed, ?_,
    wokenFrame.yieldCount.trans countedCount, wokenTimeouts, ?_, ?_, ?_⟩
  · exact countedOwners.trans <|
      (Sched.SameOwners.modifyTcb _ _ _ rfl rfl rfl).trans
        wokenFrame.toSameOwners
  · rw [wokenTcb, ← kept]
    rcases Sched.wakeAll_cases _ _ current with same | ⟨slot, isSlot, due⟩
    · rw [same, Sched.modifyTcb_self, Sched.yieldTCB_state]
      split_ifs with isRunning
      · rw [isRunning]
        exact .inl ⟨rfl, by decide⟩
      · exact .inr rfl
    · subst isSlot
      have isStopped := stopped slot (Sched.expired_subset due)
      rw [Sched.modifyTcb_self, Sched.yieldTCB_state] at isStopped
      split_ifs at isStopped
      refine .inl ⟨Sched.wakeAll_state_of_mem due, ?_⟩
      rw [isStopped]
      decide
  · have nodup := inv.represents.nodup .timeouts
    rw [← sched.expired_append_pending curtime (lists .timeouts)] at nodup
    intro slot asleep
    rw [wokenTimeouts] at asleep
    have notDue : slot ∉ sched.expired curtime (lists .timeouts) :=
      fun due => List.disjoint_of_nodup_append nodup due asleep
    rw [wokenTcb]
    simp only [Sched.wakeAll, Sched.changeAll, if_neg notDue]
    exact sameTime (.slot slot)
  · intro slot due
    rw [wokenTcb]
    exact Sched.wakeAll_state_of_mem due
  · intro level
    rw [wokenQueues level]
    exact List.prefix_append _ _

/-- `yield` up to the context switch: the selected thread is in transit and the
yielding one still holds the core's context. -/
theorem yieldSwitch
    {current : TcbPtr limits}
    (cause : SchedCause)
    (remaining curtime : TimerDuration)
    (inv : SchedInv sched lists running (fun tcb => tcb = current)
      (fun _ => False))
    (isCurrent : sched.currentThread = some current)
    (onlyCurrent : ∀ tcb, running tcb → tcb = current)
    (notInit : (sched.tcb current).state ≠ .init) :
    ∃ next after lists',
      sched.yieldSwitch cause remaining curtime = .ok after ∧
      SchedInv after lists' (fun _ => False) (fun tcb => tcb = current)
        (fun tcb => tcb = next) ∧
      after.currentThread = some next ∧
      after.previousThread = some current ∧
      Sched.SameOwners sched after ∧
      after.threadUsed = sched.threadUsed ∧
      (∀ slot, next = .slot slot → sched.threadUsed slot = true ∧
        (after.tcb next).state = .ready) ∧
      (after.tcb current).state ≠ .init ∧
      ((after.tcb current).state = .exited ↔
        (sched.tcb current).state = .exited) ∧
      Sched.Turn sched lists curtime next after lists' := by
  obtain ⟨counted, woken, lists₂, countedEq, wokenEq, wokenInv, wokenOwners,
    wokenUsed, currentState, wokenCount, wokenTimeouts, sameTime, wokenReady,
    arrivals⟩ := inv.yieldWake cause remaining curtime onlyCurrent
  obtain ⟨next, selected, lists₃, selectedEq, selectedInv, selectedTcb,
    selectedTimeouts, selectedFrame, choice⟩ := wokenInv.schedQueueSelect rfl
  have threadUsed : selected.threadUsed = sched.threadUsed :=
    selectedFrame.threadUsed.trans wokenUsed
  have selectedBlock : ∀ tcb,
      (selected.tcb tcb).state = (woken.tcb tcb).state ∧
        (selected.tcb tcb).wakeupTime = (woken.tcb tcb).wakeupTime := by
    intro tcb
    rw [selectedTcb]
    by_cases same : tcb = next
    · subst same
      simp
    · simp [same]
  refine ⟨next, { selected with
      previousThread := some current, currentThread := some next },
    lists₃, ?_, selectedInv.repoint selectedInv.yieldCount, rfl, rfl,
    wokenOwners.trans (selectedFrame.toSameOwners.trans
      (Sched.SameOwners.of_tcb_eq rfl)), threadUsed, ?_, ?_, ?_, ?_⟩
  · exact Sched.yieldSwitch_of_selected isCurrent countedEq wokenEq selectedEq
  · rintro slot rfl
    rcases choice with ⟨level, other, rest, isSlot, queue, -, -⟩ |
      ⟨-, -, isCurrentOrIdle⟩
    · cases isSlot
      have member : slot ∈ lists₂ (.queue level) := by
        rw [queue]
        exact List.mem_cons_self ..
      have usedSlot := wokenInv.used_of_mem member
      have isReady := ((wokenInv.queued slot usedSlot).mp ⟨level, member⟩).1
      exact ⟨wokenUsed ▸ usedSlot, (selectedBlock _).1.trans isReady⟩
    · split_ifs at isCurrentOrIdle with isReady
      subst isCurrentOrIdle
      exact ⟨inv.dirtyUsed slot rfl, (selectedBlock _).1.trans isReady⟩
  · show (selected.tcb current).state ≠ .init
    rw [(selectedBlock current).1]
    rcases currentState with ⟨isReady, -⟩ | same
    · rw [isReady]
      decide
    · rwa [same]
  · show (selected.tcb current).state = .exited ↔ _
    rw [(selectedBlock current).1]
    rcases currentState with ⟨isReady, notExited⟩ | same
    · simp [isReady, notExited]
    · rw [same]
  · refine
      { yieldCount := selectedFrame.yieldCount.trans wokenCount
        timeouts := selectedTimeouts.trans wokenTimeouts
        wakeupTime := ?_
        woken := ?_
        selected :=
          ⟨lists₂, lists₃, arrivals, ?_, Sched.QueuesGrow.refl lists₃⟩ }
    · intro slot asleep
      rw [selectedTimeouts] at asleep
      exact (selectedBlock _).2.trans (sameTime slot asleep)
    · intro slot due isStopped
      have isReady := (selectedBlock (.slot slot)).1.trans
        (wokenReady slot due)
      exact absurd (isReady.symm.trans isStopped) (by decide)
    · rcases choice with ⟨level, slot, rest, isSlot, queue, below, left⟩ |
        ⟨allEmpty, left, -⟩
      · exact .inl ⟨level, slot, rest, isSlot, queue, below, left⟩
      · exact .inr ⟨allEmpty, left⟩

/-- A thread that has exited is never selected. -/
theorem exited_apart
    {current next : TcbPtr limits}
    (nextReady : ∀ slot, next = .slot slot → (sched.tcb next).state = .ready)
    (notIdle : current ≠ .idle)
    (isExited : (sched.tcb current).state = .exited) :
    current ≠ next := by
  rintro rfl
  cases current with
  | idle => exact notIdle rfl
  | slot slot =>
      have isReady := nextReady slot rfl
      rw [isExited] at isReady
      cases isReady

/-- `yield` returns, to whichever thread, with the invariant restored; the
slot of a thread that had exited is free. -/
theorem yield
    {current : TcbPtr limits}
    (cause : SchedCause)
    (remaining curtime : TimerDuration)
    (inv : SchedInv sched lists running (fun tcb => tcb = current)
      (fun _ => False))
    (isCurrent : sched.currentThread = some current)
    (onlyCurrent : ∀ tcb, running tcb → tcb = current)
    (notInit : (sched.tcb current).state ≠ .init)
    (exitedSlot : (sched.tcb current).state = .exited → current ≠ .idle) :
    ∃ next after lists',
      sched.yield cause remaining curtime = .ok after ∧
      after.currentThread = some next ∧
      after.Resting lists' ∧
      Sched.SameOwners sched after ∧
      after.threadUsed =
        (if (sched.tcb current).state = .exited then
          (sched.freeThread current).threadUsed else sched.threadUsed) ∧
      Sched.Turn sched lists curtime next after lists' := by
  obtain ⟨next, switched, lists₁, switchedEq, switchedInv, nextCurrent,
    previous, owners, threadUsed, nextReady, stillNotInit, stillExited,
    turn⟩ :=
      inv.yieldSwitch cause remaining curtime isCurrent onlyCurrent notInit
  have exitedApart : (switched.tcb current).state = .exited →
      current ≠ .idle ∧ current ≠ next := by
    intro isExited
    have notIdle := exitedSlot (stillExited.mp isExited)
    exact ⟨notIdle, exited_apart (fun slot isSlot => (nextReady slot isSlot).2)
      notIdle isExited⟩
  obtain ⟨after, lists₂, gained, afterCurrent, resting, afterOwners,
    afterUsed, handedOver⟩ := switchedInv.gain nextCurrent previous
      (fun slot isSlot => by
        rw [threadUsed]
        exact nextReady slot isSlot)
      stillNotInit exitedApart
  refine ⟨next, after, lists₂, ?_, afterCurrent, resting,
    owners.trans afterOwners, ?_, turn.gained handedOver⟩
  · rw [Sched.yield, switchedEq]
    exact gained
  · rw [afterUsed]
    simp only [stillExited]
    cases current <;> simp [Sched.freeThread, threadUsed]

end SchedInv
end TinierOS
