import TinierOS.Sched.Run

/-!
# Deadlines and the sentinel

`wakeup_time` is a deadline, a 32-bit sum, and at the same time the mark that a
thread is in `TIMEOUT_LIST`: `sched_make_ready` unlinks a thread only if the
field differs from `NO_TIMEOUT`.  A sum that happens to be `NO_TIMEOUT` links the
thread without the mark.
-/

namespace TinierOS

variable {limits : Limits}

namespace Sched

/-- The thread is in `TIMEOUT_LIST` if and only if its `wakeup_time` says so. -/
def FlagAgrees (sched : Sched limits) (slot : Fin limits.maxThreads) : Prop :=
  ∃ lists, sched.Walks lists ∧ (slot ∈ lists .timeouts ↔
    (sched.tcb (.slot slot)).wakeupTime ≠ noTimeout)

/-- `wakeup` takes the sleeping thread out of `TIMEOUT_LIST` and puts it at the
end of its queue, and the lists are disjoint rings as before. -/
def WakesCleanly
    (sched : Sched limits)
    (slot : Fin limits.maxThreads) : Prop :=
  ∃ lists woken lists', sched.Walks lists ∧
    sched.wakeup (.slot slot) = .ok (woken, true) ∧ woken.Walks lists' ∧
    (∀ other first second, other ∈ lists' first → other ∈ lists' second →
      first = second) ∧
    lists' .timeouts = (lists .timeouts).erase slot ∧
    ∀ level, lists' (.queue level) =
      if (sched.tcb (.slot slot)).priority = (level : Nat) then
        lists (.queue level) ++ [slot]
      else lists (.queue level)

/-- A sleep with a timeout during which the mark can be relied on: where
`sleep_releasing` has marked the thread and calls `yield`, and in every later
state in which the thread is still stopped. -/
def SleepsMarked
    (sched : Sched limits)
    (slot : Fin limits.maxThreads)
    (cause : SchedCause)
    (timeout regtime remaining curtime : TimerDuration) : Prop :=
  ∃ entry after, sched.sleepMark .stopped timeout regtime = .ok entry ∧
    entry.FlagAgrees slot ∧
    entry.yield cause remaining curtime = .ok after ∧
    ∀ later, Reachable step Enabled after later →
      later.threadUsed slot = true →
      (later.tcb (.slot slot)).state = .stopped →
        later.FlagAgrees slot ∧ later.WakesCleanly slot

theorem flagAgrees
    {sched : Sched limits}
    {lists : SchedList → List (Fin limits.maxThreads)}
    {running dirty hidden : TcbPtr limits → Prop}
    {slot : Fin limits.maxThreads}
    (inv : SchedInv sched lists running dirty hidden)
    (usedSlot : sched.threadUsed slot = true) :
    sched.FlagAgrees slot :=
  ⟨lists, inv.represents.ring, inv.sleeping slot usedSlot⟩

theorem Resting.wakesCleanly
    {sched : Sched limits}
    {lists : SchedList → List (Fin limits.maxThreads)}
    {slot : Fin limits.maxThreads}
    (resting : sched.Resting lists)
    (usedSlot : sched.threadUsed slot = true)
    (isStopped : (sched.tcb (.slot slot)).state = .stopped) :
    sched.WakesCleanly slot := by
  obtain ⟨woken, lists', ready, wokenInv, -, timeouts, queues, -⟩ :=
    resting.schedMakeReady usedSlot (.inl isStopped)
  have isClean : (sched.tcb (.slot slot)).phase = .ctxClean := by
    cases phase : (sched.tcb (.slot slot)).phase with
    | ctxClean => rfl
    | ctxDirty =>
        have isCurrent := (resting.isDirty (.slot slot)).mp phase
        have isRunning := (resting.isRunning (.slot slot)).mpr isCurrent
        rw [isStopped] at isRunning
        cases isRunning
  refine ⟨lists, woken, lists', resting.represents.ring, ?_,
    wokenInv.represents.ring, fun _ _ _ inFirst inSecond =>
      wokenInv.represents.unique inFirst inSecond, timeouts, ?_⟩
  · rw [Sched.wakeup, if_pos (.inl isStopped), ready]
    rfl
  · intro level
    rw [queues level]
    simp only [isClean, true_and]

/-- With the sentinel as its deadline the thread is linked but not marked. -/
theorem Resting.linked_unmarked
    {sched entry : Sched limits}
    {lists : SchedList → List (Fin limits.maxThreads)}
    {slot : Fin limits.maxThreads}
    {timeout regtime : TimerDuration}
    (resting : sched.Resting lists)
    (isCurrent : sched.currentThread = some (.slot slot))
    (timed : timeout ≠ noTimeout)
    (marks : sched.sleepMark .stopped timeout regtime = .ok entry) :
    (∃ lists', entry.Walks lists' ∧ slot ∈ lists' .timeouts) ∧
      (entry.tcb (.slot slot)).wakeupTime = regtime + timeout := by
  have usedSlot := resting.dirtyUsed slot isCurrent
  obtain ⟨heap, registered, represents, -⟩ :=
    (resting.markState isCurrent (.inl rfl)).schedRegisterTimeout_links
      usedSlot (resting.current_unlisted isCurrent) timed
  rw [Sched.sleepMark, if_pos (.inl rfl), isCurrent] at marks
  cases registered.symm.trans marks
  refine ⟨⟨_, represents.ring, ?_⟩, by simp⟩
  rw [Function.update_self]
  exact List.mem_append_right _ (List.mem_cons_self ..)

/-- The first thread of `TIMEOUT_LIST` is found in its walk. -/
theorem Walks.mem_timeouts
    {sched : Sched limits}
    {lists : SchedList → List (Fin limits.maxThreads)}
    {slot : Fin limits.maxThreads}
    (walks : sched.Walks lists)
    (first : (sched.heap .timeoutList).next = .schedNode (.slot slot)) :
    slot ∈ lists .timeouts := by
  have start := (walks .timeouts).next_head
  rw [RlHeap.links_next, schedLayout_timeouts, first] at start
  cases asleep : lists .timeouts with
  | nil => simp [asleep] at start
  | cons other rest =>
      simp only [asleep, List.map_cons, List.cons_append, List.head_cons,
        schedLayout_cell, SchedNode.schedNode.injEq,
        TcbPtr.slot.injEq] at start
      rw [start]
      exact List.mem_cons_self ..

/-- No queue runs through the head of `TIMEOUT_LIST`. -/
theorem Walks.next_queue_ne
    {sched : Sched limits}
    {lists : SchedList → List (Fin limits.maxThreads)}
    (walks : sched.Walks lists)
    (level : Fin schedQueues) :
    (sched.heap (.queue level)).next ≠ .timeoutList := by
  intro merged
  have start := (walks (.queue level)).next_head
  rw [RlHeap.links_next, schedLayout_queue, merged] at start
  cases queue : lists (.queue level) <;> simp [queue] at start

/-- The mark can be relied on during a sleep if and only if the deadline is not
`NO_TIMEOUT`. -/
theorem deadline_is_mark
    {sched : Sched limits}
    {slot : Fin limits.maxThreads}
    {timeout : TimerDuration}
    (reached : sched.Reached)
    (isCurrent : sched.currentThread = some (.slot slot))
    (timed : timeout ≠ noTimeout)
    (cause : SchedCause)
    (regtime remaining curtime : TimerDuration) :
    sched.SleepsMarked slot cause timeout regtime remaining curtime ↔
      regtime + timeout ≠ noTimeout := by
  obtain ⟨lists, resting⟩ := reached.resting
  constructor
  · rintro ⟨entry, after, marks, ⟨entryLists, walks, agrees⟩, -⟩ collides
    obtain ⟨⟨lists', walks', linked⟩, deadline⟩ :=
      resting.linked_unmarked isCurrent timed marks
    rw [walks'.unique walks] at linked
    exact agrees.mp linked (deadline.trans collides)
  · intro deadline
    have enabled : sched.Enabled
        (.sleepReleasing .stopped cause timeout regtime remaining
          curtime) := by
      rw [Enabled, isCurrent]
      simp [deadline]
    obtain ⟨entry, entryLists, marks, inv, mark⟩ :=
      resting.sleepMark isCurrent (.inl rfl) fun _ _ => deadline
    obtain ⟨after, -, slept, -⟩ := resting.step enabled
    have yielded : entry.yield cause remaining curtime = .ok after := by
      simpa only [step, sleepReleasing, marks, bind, Except.bind] using slept
    refine ⟨entry, after, marks, ?_, yielded, ?_⟩
    · refine flagAgrees inv ?_
      rw [mark.threadUsed]
      exact resting.dirtyUsed slot isCurrent
    · intro later continues usedSlot isStopped
      have afterReached : later.Reached :=
        (reached.tail enabled slept).trans continues
      obtain ⟨laterLists, laterResting⟩ := afterReached.resting
      exact ⟨flagAgrees laterResting usedSlot,
        laterResting.wakesCleanly usedSlot isStopped⟩

/-- The first thread of a pool of two goes to sleep for 50 ticks at time 0x100. -/
theorem deadline_is_mark_short_sleep :
    ∃ sched : Sched Limits.tinier,
      (sched.Reached ∧ sched.currentThread = some (.slot 0)) ∧
      (sched.SleepsMarked 0 .user 50 0x100 0 0x200 ↔
        (0x100 : TimerDuration) + 50 ≠ noTimeout) := by
  have ran : ∃ sched : Sched Limits.tinier, sched.Reached ∧
      decide (sched.currentThread = some (.slot 0)) = true :=
    exists_reachable_of_any
      [.spawnThread none .startMainThread, .wakeup 0, .runScheduler none,
        .yield .idle 0 0] (by decide +kernel)
  obtain ⟨sched, reached, test⟩ := ran
  have isCurrent := of_decide_eq_true test
  exact ⟨sched, ⟨reached, isCurrent⟩,
    deadline_is_mark reached isCurrent (by decide) .user 0x100 0 0x200⟩

/-- A timeout of `NO_TIMEOUT - 0x100` registered at time 0x100: the thread sleeps in
`TIMEOUT_LIST` with `wakeup_time` equal to `NO_TIMEOUT`, and waking it makes one
ring of `TIMEOUT_LIST` and `SCHED[0]`. -/
theorem deadline_hides_sleeper :
    ∃ sched after woken : Sched Limits.tinier,
      (sched.Reached ∧ sched.currentThread = some (.slot 0)) ∧
      ¬sched.SleepsMarked 0 .user 0xFFFFFEFF 0x100 0 0x100 ∧
      sched.sleepReleasing .stopped .user 0xFFFFFEFF 0x100 0 0x100 = .ok after ∧
      (after.tcb (.slot 0)).state = .stopped ∧
      ¬after.FlagAgrees 0 ∧
      after.wakeup (.slot 0) = .ok (woken, true) ∧
      ¬∃ lists, woken.Walks lists := by
  have ran : ∃ sched : Sched Limits.tinier, sched.Reached ∧
      (match sched.sleepReleasing .stopped .user 0xFFFFFEFF 0x100 0 0x100 with
        | .error _ => false
        | .ok after => match after.wakeup (.slot 0) with
          | .error _ => false
          | .ok (woken, woke) => decide (
              sched.currentThread = some (.slot 0) ∧
              after.threadUsed 0 = true ∧
              (after.tcb (.slot 0)).state = .stopped ∧
              (after.tcb (.slot 0)).wakeupTime = noTimeout ∧
              (after.heap .timeoutList).next = .schedNode (.slot 0) ∧
              woke = true ∧
              (woken.heap (.queue 0)).next = .timeoutList)) = true :=
    exists_reachable_of_any
      [.spawnThread none .startMainThread, .wakeup 0, .runScheduler none,
        .yield .idle 0 0] (by decide +kernel)
  obtain ⟨sched, reached, test⟩ := ran
  cases slept : sched.sleepReleasing .stopped .user 0xFFFFFEFF 0x100 0 0x100 with
  | error fault => simp [slept] at test
  | ok after =>
      cases woke : after.wakeup (.slot 0) with
      | error fault => simp [slept, woke] at test
      | ok result =>
          obtain ⟨woken, returned⟩ := result
          simp only [slept, woke] at test
          obtain ⟨isCurrent, used, isStopped, unmarked, linked, rfl, merged⟩ :=
            of_decide_eq_true test
          have disagrees : ¬after.FlagAgrees 0 := by
            rintro ⟨lists, walks, agrees⟩
            exact agrees.mp (walks.mem_timeouts linked) unmarked
          refine ⟨sched, after, woken, ⟨reached, isCurrent⟩, ?_, slept,
            isStopped, disagrees, woke, ?_⟩
          · rintro ⟨entry, after', marks, -, yielded, later⟩
            rw [sleepReleasing, marks] at slept
            cases yielded.symm.trans slept
            exact disagrees (later after .refl used isStopped).1
          · rintro ⟨lists, walks⟩
            exact walks.next_queue_ne 0 merged

end Sched
end TinierOS
