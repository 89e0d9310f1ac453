import TinierOS.Sched.Yield
import TinierOS.Sched.Timeouts
import TinierOS.Library.Transition

/-!
# The scheduler's entry points

Every function the rest of the kernel calls takes a resting scheduler to a
resting scheduler and cannot fail.
-/

namespace TinierOS

variable {limits : Limits}

namespace Sched

variable {sched : Sched limits}
variable {lists : SchedList → List (Fin limits.maxThreads)}

/-! ## Starting up -/

theorem initializeScheduler_queue
    (sched : Sched limits)
    (level : Fin schedQueues) :
    sched.initializeScheduler.heap (.queue level) =
      { obj := none, prev := .queue level, next := .queue level } := by
  have injective : Function.Injective (SchedNode.queue : _ →
      SchedNode limits) := fun _ _ equal => by simpa using equal
  have initialised := RlHeap.rlnodeInit_foldl_of_mem sched.heap
    (fun _ => none) injective (List.mem_finRange level)
  rw [← initialised]
  simp [initializeScheduler, RlHeap.rlnodeInit]

theorem initializeScheduler_timeoutList (sched : Sched limits) :
    sched.initializeScheduler.heap .timeoutList =
      { obj := none, prev := .timeoutList, next := .timeoutList } := by
  simp [initializeScheduler, RlHeap.rlnodeInit]

/-- The scheduler after `initialize_scheduler` in zeroed storage. -/
theorem resting_initializeScheduler :
    (zero limits).initializeScheduler.Resting fun _ => [] := by
  have unused : ∀ slot,
      (zero limits).initializeScheduler.threadUsed slot ≠ true := by
    simp [initializeScheduler, zero]
  refine
    { represents := Layout.Represents.of_singletons ?_
        fun slot usedSlot => absurd usedSlot (unused slot)
      queueKey := ?_
      nodeKey := fun slot usedSlot => absurd usedSlot (unused slot)
      queued := fun slot usedSlot => absurd usedSlot (unused slot)
      level := by simp
      sleeping := fun slot usedSlot => absurd usedSlot (unused slot)
      stopped := by simp
      sorted := List.Pairwise.nil
      isRunning := ?_
      isDirty := ?_
      dirtyUsed := ?_
      exited := fun slot usedSlot => absurd usedSlot (unused slot)
      normal := fun slot usedSlot => absurd usedSlot (unused slot)
      idle := rfl
      priority := fun _ => ⟨le_refl _, Int.natCast_pos.mpr (by decide)⟩
      yieldCount := Nat.zero_lt_succ _
      active := ?_ }
  · rintro (level | _)
    · simp [Links.Follows, initializeScheduler_queue]
    · simp [Links.Follows, initializeScheduler_timeoutList]
  · intro level
    rw [initializeScheduler_queue]
  · simp [initializeScheduler, zero, TCB.zero]
  · simp [initializeScheduler, zero, TCB.zero]
  · simp [initializeScheduler, zero]
  · have empty : (zero limits).initializeScheduler.usedSlots = ∅ := by
      simp [usedSlots, initializeScheduler, zero]
    rw [empty]
    rfl

theorem runScheduler_tcb_slot
    (sched : Sched limits)
    (pcb : Option (Fin limits.maxProc))
    (slot : Fin limits.maxThreads) :
    (sched.runScheduler pcb).tcb (.slot slot) = sched.tcb (.slot slot) := by
  simp [runScheduler, modifyTcb]

theorem runScheduler_heap_of_ne
    {node : SchedNode limits}
    (sched : Sched limits)
    (pcb : Option (Fin limits.maxProc))
    (different : node ≠ .schedNode .idle) :
    (sched.runScheduler pcb).heap node = sched.heap node := by
  simp [runScheduler, RlHeap.rlnodeInit, different]

/-- `run_scheduler` makes the idle thread the current one. -/
theorem Resting.runScheduler
    (resting : sched.Resting lists)
    (notStarted : sched.currentThread = none)
    (pcb : Option (Fin limits.maxProc)) :
    (sched.runScheduler pcb).Resting lists := by
  have nobody : ∀ slot, (sched.tcb (.slot slot)).state ≠ .running ∧
      (sched.tcb (.slot slot)).phase ≠ .ctxDirty := by
    intro slot
    rw [Ne, resting.isRunning, Ne, resting.isDirty, notStarted]
    simp
  have isIdle : (sched.runScheduler pcb).currentThread = some .idle := rfl
  rw [resting_iff isIdle]
  constructor
  case represents =>
      have outside := resting.represents.single_outside
        (show ∀ list, SchedNode.schedNode .idle ≠
          (schedLayout limits).sentinel list by rintro (_ | _) <;> simp)
        (by simp)
      simpa [Sched.runScheduler] using outside
  case queueKey =>
      intro level
      rw [runScheduler_heap_of_ne _ _ (by simp)]
      exact resting.queueKey level
  case nodeKey =>
      intro slot usedSlot
      rw [runScheduler_heap_of_ne _ _ (by simp)]
      exact resting.nodeKey slot usedSlot
  case queued =>
      intro slot usedSlot
      rw [runScheduler_tcb_slot]
      exact resting.queued slot usedSlot
  case level =>
      intro slot level member
      rw [runScheduler_tcb_slot]
      exact resting.level slot level member
  case sleeping =>
      intro slot usedSlot
      rw [runScheduler_tcb_slot]
      exact resting.sleeping slot usedSlot
  case stopped =>
      intro slot member
      rw [runScheduler_tcb_slot]
      exact resting.stopped slot member
  case sorted =>
      simp only [runScheduler_tcb_slot]
      exact resting.sorted
  case isRunning =>
      rintro (_ | slot)
      · simp [Sched.runScheduler]
      · simp [runScheduler_tcb_slot, (nobody slot).1]
  case isDirty =>
      rintro (_ | slot)
      · simp [Sched.runScheduler]
      · simp [runScheduler_tcb_slot, (nobody slot).2]
  case dirtyUsed => simp
  case exited =>
      intro slot usedSlot isExited
      rw [runScheduler_tcb_slot] at isExited
      have none := resting.exited slot usedSlot isExited
      simp [notStarted] at none
  case normal =>
      intro slot usedSlot
      rw [runScheduler_tcb_slot]
      exact resting.normal slot usedSlot
  case idle =>
      simp [Sched.runScheduler]
  case priority =>
      rintro (_ | slot)
      · simpa [Sched.runScheduler] using resting.priority .idle
      · rw [runScheduler_tcb_slot]
        exact resting.priority (.slot slot)
  case yieldCount => exact resting.yieldCount
  case active => exact resting.active

/-! ## Spawning and waking threads -/

theorem freeSlot_eq_some
    {slot : Fin limits.maxThreads}
    (found : sched.freeSlot = some slot) :
    sched.threadUsed slot = false := by
  simpa using firstIndex_test found

theorem freeSlot_eq_none_iff :
    sched.freeSlot = none ↔ ∀ slot, sched.threadUsed slot = true := by
  simp [freeSlot, firstIndex_eq_none_iff]

theorem spawnThread_of_free
    {slot : Fin limits.maxThreads}
    (found : sched.freeSlot = some slot)
    (pcb : Option (Fin limits.maxProc))
    (func : ThreadFunc) :
    sched.spawnThread pcb func = (some slot, sched.initThread slot pcb func) := by
  rw [spawnThread, found]

theorem spawnThread_of_full
    (full : sched.freeSlot = none)
    (pcb : Option (Fin limits.maxProc))
    (func : ThreadFunc) :
    sched.spawnThread pcb func = (none, sched) := by
  rw [spawnThread, full]

section InitThread

variable (sched : Sched limits)
variable (slot : Fin limits.maxThreads)
variable (pcb : Option (Fin limits.maxProc))
variable (func : ThreadFunc)

@[simp] theorem initThread_currentThread :
    (sched.initThread slot pcb func).currentThread = sched.currentThread :=
  rfl

@[simp] theorem initThread_tcb_self :
    (sched.initThread slot pcb func).tcb (.slot slot) =
      spawnedTCB pcb func := by
  simp [initThread]

theorem initThread_tcb_of_ne
    {tcb : TcbPtr limits}
    (different : tcb ≠ .slot slot) :
    (sched.initThread slot pcb func).tcb tcb = sched.tcb tcb := by
  simp [initThread, different]

theorem initThread_used_iff {other : Fin limits.maxThreads} :
    (sched.initThread slot pcb func).threadUsed other = true ↔
      other = slot ∨ sched.threadUsed other = true := by
  by_cases same : other = slot <;> simp [initThread, same]

theorem initThread_heap_of_ne
    {node : SchedNode limits}
    (different : node ≠ .schedNode (.slot slot)) :
    (sched.initThread slot pcb func).heap node = sched.heap node := by
  simp [initThread, RlHeap.rlnodeInit, different]

end InitThread

/-- A new thread is in no list. -/
theorem Resting.initThread
    {slot : Fin limits.maxThreads}
    (resting : sched.Resting lists)
    (unused : sched.threadUsed slot = false)
    (pcb : Option (Fin limits.maxProc))
    (func : ThreadFunc) :
    (sched.initThread slot pcb func).Resting lists := by
  have notCurrent : sched.currentThread ≠ some (.slot slot) := by
    intro isCurrent
    rw [resting.dirtyUsed slot isCurrent] at unused
    cases unused
  have unlisted : ∀ list, slot ∉ lists list := by
    intro list member
    rw [resting.used_of_mem member] at unused
    cases unused
  have kept : ∀ {other}, other ≠ slot →
      (sched.initThread slot pcb func).tcb (.slot other) =
        sched.tcb (.slot other) := fun different =>
    initThread_tcb_of_ne _ _ _ _ (by simpa using different)
  have listed : ∀ {list other}, other ∈ lists list →
      (sched.initThread slot pcb func).tcb (.slot other) =
        sched.tcb (.slot other) := by
    intro list other member
    refine kept ?_
    rintro rfl
    exact unlisted list member
  have old : ∀ {other},
      (sched.initThread slot pcb func).threadUsed other = true →
        other ≠ slot → sched.threadUsed other = true :=
    fun usedAfter => ((initThread_used_iff ..).mp usedAfter).resolve_left
  constructor
  case represents =>
      have represents := resting.represents.single unlisted
      simp only [initThread_used_iff]
      simpa [Sched.initThread] using represents
  case queueKey =>
      intro level
      rw [initThread_heap_of_ne _ _ _ _ (by simp)]
      exact resting.queueKey level
  case nodeKey =>
      intro other usedAfter
      by_cases same : other = slot
      · simp [same, Sched.initThread]
      · rw [initThread_heap_of_ne _ _ _ _ (by simpa using same)]
        exact resting.nodeKey other (old usedAfter same)
  case queued =>
      intro other usedAfter
      by_cases same : other = slot
      · subst same
        simp [unlisted, spawnedTCB]
      · rw [kept same]
        exact resting.queued other (old usedAfter same)
  case level =>
      intro other level member
      rw [listed member]
      exact resting.level other level member
  case sleeping =>
      intro other usedAfter
      by_cases same : other = slot
      · subst same
        simp [unlisted, spawnedTCB]
      · rw [kept same]
        exact resting.sleeping other (old usedAfter same)
  case stopped =>
      intro other member
      rw [listed member]
      exact resting.stopped other member
  case sorted =>
      refine resting.sorted.imp_of_mem ?_
      intro first second inFirst inSecond ordered
      rwa [listed inFirst, listed inSecond]
  case isRunning =>
      intro tcb
      by_cases same : tcb = .slot slot
      · subst same
        simpa [spawnedTCB] using notCurrent
      · rw [initThread_tcb_of_ne _ _ _ _ same]
        exact resting.isRunning tcb
  case isDirty =>
      intro tcb
      by_cases same : tcb = .slot slot
      · subst same
        simpa [spawnedTCB] using notCurrent
      · rw [initThread_tcb_of_ne _ _ _ _ same]
        exact resting.isDirty tcb
  case dirtyUsed =>
      intro other isCurrent
      exact (initThread_used_iff ..).mpr (.inr (resting.dirtyUsed other isCurrent))
  case exited =>
      intro other usedAfter isExited
      by_cases same : other = slot
      · subst same
        simp [spawnedTCB] at isExited
      · rw [kept same] at isExited
        exact resting.exited other (old usedAfter same) isExited
  case normal =>
      intro other usedAfter
      by_cases same : other = slot
      · subst same
        simp [spawnedTCB]
      · rw [kept same]
        exact resting.normal other (old usedAfter same)
  case idle =>
      rw [initThread_tcb_of_ne _ _ _ _ (by simp)]
      exact resting.idle
  case priority =>
      intro tcb
      by_cases same : tcb = .slot slot
      · subst same
        simp [spawnedTCB]
      · rw [initThread_tcb_of_ne _ _ _ _ same]
        exact resting.priority tcb
  case yieldCount => exact resting.yieldCount
  case active =>
      have inserted : (sched.initThread slot pcb func).usedSlots =
          insert slot sched.usedSlots := by
        ext other
        simp [usedSlots, initThread_used_iff]
      have fresh : slot ∉ sched.usedSlots := by
        simp [usedSlots, unused]
      have count : (sched.initThread slot pcb func).activeThreads =
          sched.activeThreads + 1 := rfl
      rw [count, inserted, Finset.card_insert_of_notMem fresh, resting.active]
      push_cast
      rfl

/-- `sched_make_ready` in any state in which it returns. -/
theorem schedMakeReady_tcb
    {before after : Sched limits}
    {tcb : TcbPtr limits}
    (ran : before.schedMakeReady tcb = .ok after) :
    after.currentThread = before.currentThread ∧
      after.tcb = Function.update before.tcb tcb { before.tcb tcb with
        state := .ready
        wakeupTime := noTimeout } := by
  have cancelled : ∀ {cancelled : Sched limits},
      before.cancelTimeout tcb = .ok cancelled →
        cancelled.currentThread = before.currentThread ∧
          cancelled.tcb = Function.update before.tcb tcb
            { before.tcb tcb with wakeupTime := noTimeout } := by
    intro cancelled cancels
    simp only [cancelTimeout] at cancels
    split_ifs at cancels with untimed linked
    · cases cancels
      refine ⟨rfl, ?_⟩
      rw [← untimed, Function.update_eq_self]
    · cases cancels
      exact ⟨rfl, rfl⟩
  simp only [schedMakeReady] at ran
  split_ifs at ran with waiting
  · obtain ⟨middle, cancels, rested⟩ := exists_of_bind_eq_ok ran
    obtain ⟨sameThread, tcbs⟩ := cancelled cancels
    have marked : (middle.modifyTcb tcb fun block =>
        { block with state := .ready }).tcb =
          Function.update before.tcb tcb { before.tcb tcb with
            state := .ready
            wakeupTime := noTimeout } := by
      simp [modifyTcb, tcbs]
    split_ifs at rested with clean
    · simp only [schedQueueAdd] at rested
      split at rested
      · cases rested
      · cases rested
        exact ⟨sameThread, marked⟩
    · cases rested
      exact ⟨sameThread, marked⟩

/-- `wakeup` in any state in which it returns. -/
theorem wakeup_sameOwners
    {before after : Sched limits}
    {tcb : TcbPtr limits}
    {woken : Bool}
    (ran : before.wakeup tcb = .ok (after, woken)) :
    SameOwners before after := by
  simp only [Sched.wakeup] at ran
  split_ifs at ran with waiting
  · obtain ⟨ready, made, returned⟩ := exists_of_bind_eq_ok ran
    cases returned
    obtain ⟨-, tcbs⟩ := schedMakeReady_tcb made
    have marked := SameOwners.modifyTcb before tcb
      (fun block => { block with state := .ready, wakeupTime := noTimeout })
      rfl rfl rfl
    exact marked.trans (.of_tcb_eq tcbs)
  · cases ran
    exact SameOwners.refl before

/-- What `wakeup` does to the lists and the TCBs, whether the thread was waiting
or not. -/
structure Woke
    (before : Sched limits)
    (lists : SchedList → List (Fin limits.maxThreads))
    (slot : Fin limits.maxThreads)
    (after : Sched limits)
    (lists' : SchedList → List (Fin limits.maxThreads)) : Prop
    extends Frame before after where
  timeouts : lists' .timeouts = (lists .timeouts).erase slot
  grow : QueuesGrow lists lists'
  others : ∀ tcb, tcb ≠ .slot slot → after.tcb tcb = before.tcb tcb
  awake : (after.tcb (.slot slot)).state ≠ .stopped

/-- `wakeup` of an allocated thread. -/
theorem Resting.wakeup
    {slot : Fin limits.maxThreads}
    (resting : sched.Resting lists)
    (usedSlot : sched.threadUsed slot = true) :
    ∃ after lists' woken, sched.wakeup (.slot slot) = .ok (after, woken) ∧
      after.Resting lists' ∧ Woke sched lists slot after lists' := by
  unfold Sched.wakeup
  split_ifs with waiting
  · obtain ⟨after, lists', ready, afterInv, afterTcb, timeouts, queues,
      frame⟩ := resting.schedMakeReady usedSlot waiting
    rw [ready]
    refine ⟨after, lists', true, rfl, ?_,
      { toFrame := frame
        timeouts := timeouts
        grow := ?_
        others := ?_
        awake := ?_ }⟩
    · rw [Resting, frame.currentThread]
      exact afterInv
    · intro level
      rw [queues level]
      split_ifs
      · exact List.prefix_append _ _
      · exact List.prefix_rfl
    · intro tcb different
      rw [afterTcb, Function.update_of_ne different]
    · simp [afterTcb]
  · have notStopped : (sched.tcb (.slot slot)).state ≠ .stopped :=
      fun isStopped => waiting (.inl isStopped)
    exact ⟨sched, lists, false, rfl, resting,
      { toFrame := Frame.refl sched
        timeouts := (List.erase_of_not_mem (resting.awake notStopped)).symm
        grow := QueuesGrow.refl lists
        others := fun _ _ => rfl
        awake := notStopped }⟩

/-! ## Giving up the core -/

/-- `yield` by the current thread. -/
theorem Resting.yield
    {current : TcbPtr limits}
    (resting : sched.Resting lists)
    (isCurrent : sched.currentThread = some current)
    (cause : SchedCause)
    (remaining curtime : TimerDuration) :
    ∃ next after lists',
      sched.yield cause remaining curtime = .ok after ∧
      after.currentThread = some next ∧ after.Resting lists' ∧
      SameOwners sched after ∧ after.threadUsed = sched.threadUsed ∧
      Turn sched lists curtime next after lists' := by
  have inv := (resting_iff isCurrent).mp resting
  have isRunning := (inv.isRunning current).mpr rfl
  obtain ⟨next, after, lists', yielded, afterCurrent, afterResting, owners,
    threadUsed, turn⟩ := inv.yield cause remaining curtime isCurrent
      (fun _ running => running) (by rw [isRunning]; decide)
      (by rw [isRunning]; simp)
  refine ⟨next, after, lists', yielded, afterCurrent, afterResting, owners, ?_,
    turn⟩
  rw [threadUsed, if_neg]
  rw [isRunning]
  decide

/-- What the first half of `sleep_releasing` does to the lists and the TCBs: the
thread joins the sleepers if it stops with a timeout. -/
structure Marked
    (before : Sched limits)
    (lists : SchedList → List (Fin limits.maxThreads))
    (slot : Fin limits.maxThreads)
    (state : ThreadState)
    (timeout curtime : TimerDuration)
    (after : Sched limits)
    (lists' : SchedList → List (Fin limits.maxThreads)) : Prop
    extends Frame before after where
  stateMark : (after.tcb (.slot slot)).state = state
  queues : ∀ level, lists' (.queue level) = lists (.queue level)
  timeouts : lists' .timeouts =
    if state = .stopped ∧ timeout ≠ noTimeout then
      before.expired (curtime + timeout) (lists .timeouts) ++
        slot :: before.pending (curtime + timeout) (lists .timeouts)
    else lists .timeouts
  once : (lists' .timeouts).Nodup
  others : ∀ tcb, tcb ≠ .slot slot → after.tcb tcb = before.tcb tcb
  deadline : state = .stopped → timeout ≠ noTimeout →
    (after.tcb (.slot slot)).wakeupTime = curtime + timeout

/-- The current thread of the pool is in no list. -/
theorem Resting.current_unlisted
    {slot : Fin limits.maxThreads}
    (resting : sched.Resting lists)
    (isCurrent : sched.currentThread = some (.slot slot)) :
    ∀ list, slot ∉ lists list := by
  have isRunning := (resting.isRunning (.slot slot)).mpr isCurrent
  have isDirty := (resting.isDirty (.slot slot)).mpr isCurrent
  refine SchedInv.unlisted (resting.not_queued fun apart =>
    absurd (apart.2.1.symm.trans isDirty) (by decide)) (resting.awake ?_)
  rw [isRunning]
  decide

/-- The current thread changes its state to stopped or exited. -/
theorem Resting.markState
    {slot : Fin limits.maxThreads}
    {state : ThreadState}
    (resting : sched.Resting lists)
    (isCurrent : sched.currentThread = some (.slot slot))
    (sleeps : state = .stopped ∨ state = .exited) :
    SchedInv
      (sched.modifyTcb (.slot slot) fun block => { block with state := state })
      lists (fun _ => False) (fun tcb => tcb = .slot slot)
      (fun _ => False) := by
  have inv := (resting_iff isCurrent).mp resting
  have isDirty := (inv.isDirty (.slot slot)).mpr rfl
  have unlisted := resting.current_unlisted isCurrent
  refine inv.modifyTcb rfl rfl (inv.priority _) ?_ ?_ ?_ ?_ ?_ ?_ ?_ ?_
  · rcases sleeps with rfl | rfl <;> simp
  · simpa using isDirty
  · intro other different
    simp [different]
  · rintro other isSlot -
    cases isSlot
    exact inv.dirtyUsed slot rfl
  · rintro other isSlot -
    cases isSlot
    simp [unlisted, isDirty]
  · rintro other level isSlot member
    cases isSlot
    exact absurd member (unlisted _)
  · rintro other isSlot member
    cases isSlot
    exact absurd member (unlisted _)
  · rintro other - - -
    exact .inl rfl

/-- The current thread marks itself stopped or exited. -/
theorem Resting.sleepMark
    {slot : Fin limits.maxThreads}
    {state : ThreadState}
    {timeout curtime : TimerDuration}
    (resting : sched.Resting lists)
    (isCurrent : sched.currentThread = some (.slot slot))
    (sleeps : state = .stopped ∨ state = .exited)
    (deadline : state = .stopped → timeout ≠ noTimeout →
      curtime + timeout ≠ noTimeout) :
    ∃ after lists', sched.sleepMark state timeout curtime = .ok after ∧
      SchedInv after lists' (fun _ => False) (fun tcb => tcb = .slot slot)
        (fun _ => False) ∧
      Marked sched lists slot state timeout curtime after lists' := by
  have inv := (resting_iff isCurrent).mp resting
  have usedSlot := inv.dirtyUsed slot rfl
  have awake := resting.current_unlisted isCurrent .timeouts
  have marked := resting.markState isCurrent sleeps
  have frame : Frame sched (sched.modifyTcb (.slot slot) fun block =>
      { block with state := state }) := Frame.modifyTcb _ _ _ rfl rfl rfl
  have untimedMark : (state = .stopped → timeout = noTimeout) →
      Marked sched lists slot state timeout curtime
        (sched.modifyTcb (.slot slot) fun block =>
          { block with state := state }) lists := by
    intro untimed
    exact
      { toFrame := frame
        stateMark := by simp
        queues := fun _ => rfl
        timeouts := (if_neg fun timed => timed.2 (untimed timed.1)).symm
        once := inv.represents.nodup .timeouts
        others := fun _ different => modifyTcb_of_ne different
        deadline := fun isStopped timed => absurd (untimed isStopped) timed }
  unfold Sched.sleepMark
  rw [if_pos sleeps, isCurrent]
  by_cases isExited : state = .exited
  · simp only [if_pos isExited]
    refine ⟨_, lists, rfl, marked, untimedMark ?_⟩
    rw [isExited]
    exact fun isStopped => by cases isStopped
  · simp only [if_neg isExited]
    have isStopped : state = .stopped := sleeps.resolve_right isExited
    by_cases untimed : timeout = noTimeout
    · rw [schedRegisterTimeout, if_pos untimed]
      exact ⟨_, lists, rfl, marked, untimedMark fun _ => untimed⟩
    · have awakeTime : ((sched.modifyTcb (.slot slot) fun block =>
          { block with state := state }).tcb (.slot slot)).wakeupTime =
            noTimeout := by
        have asleep := inv.sleeping slot usedSlot
        simpa [awake] using asleep
      obtain ⟨after, registered, afterInv, afterTcb, afterFrame⟩ :=
        marked.schedRegisterTimeout usedSlot (by simpa using isStopped)
          awakeTime untimed (deadline isStopped untimed)
      have sameTime : ∀ other ∈ lists .timeouts,
          ((sched.modifyTcb (.slot slot) fun block =>
            { block with state := state }).tcb (.slot other)).wakeupTime =
              (sched.tcb (.slot other)).wakeupTime := by
        intro other asleep
        rw [modifyTcb_of_ne]
        rintro isSlot
        cases isSlot
        exact awake asleep
      refine ⟨after, _, registered, afterInv,
        { toFrame := frame.trans afterFrame
          stateMark := by simp [afterTcb]
          queues := fun level => by simp
          timeouts := ?_
          once := afterInv.represents.nodup .timeouts
          others := ?_
          deadline := fun _ _ => by simp [afterTcb] }⟩
      · rw [if_pos ⟨isStopped, untimed⟩, Function.update_self,
          expired_congr sameTime, pending_congr sameTime]
      · intro tcb different
        rw [afterTcb, Function.update_of_ne different,
          modifyTcb_of_ne different]

/-- `sleep_releasing` by a thread of the pool. -/
theorem Resting.sleepReleasing
    {slot : Fin limits.maxThreads}
    {state : ThreadState}
    {timeout regtime : TimerDuration}
    (resting : sched.Resting lists)
    (isCurrent : sched.currentThread = some (.slot slot))
    (sleeps : state = .stopped ∨ state = .exited)
    (deadline : state = .stopped → timeout ≠ noTimeout →
      regtime + timeout ≠ noTimeout)
    (cause : SchedCause)
    (remaining curtime : TimerDuration) :
    ∃ next after lists',
      sched.sleepReleasing state cause timeout regtime remaining curtime =
        .ok after ∧
      after.currentThread = some next ∧ after.Resting lists' ∧
      SameOwners sched after ∧
      after.threadUsed =
        (if state = .exited then Function.update sched.threadUsed slot false
        else sched.threadUsed) ∧
      ∃ marked lists₁,
        Marked sched lists slot state timeout regtime marked lists₁ ∧
        Turn marked lists₁ curtime next after lists' := by
  obtain ⟨marked, lists₁, markedEq, markedInv, mark⟩ :=
    resting.sleepMark isCurrent sleeps deadline
  obtain ⟨next, after, lists₂, yielded, afterCurrent, afterResting, owners,
    threadUsed, turn⟩ := markedInv.yield cause remaining curtime
      (mark.currentThread.trans isCurrent) (fun _ running => running.elim)
      (by rw [mark.stateMark]; rcases sleeps with rfl | rfl <;> decide)
      (by simp)
  refine ⟨next, after, lists₂, ?_, afterCurrent, afterResting,
    mark.toSameOwners.trans owners, ?_, marked, lists₁, mark, turn⟩
  · rw [Sched.sleepReleasing, markedEq]
    exact yielded
  · rw [threadUsed, mark.stateMark]
    simp [freeThread, mark.threadUsed]

end Sched
end TinierOS
