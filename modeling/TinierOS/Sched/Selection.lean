import TinierOS.Sched.Run

/-!
# Which thread gets the core

`yield` hands the core to the head of the first non-empty level.  The yielding
thread is ready but not queued while the queues are looked at, so it goes on only
if they are all empty, and the idle thread gets the core only if no thread is
ready.
-/

namespace TinierOS

variable {limits : Limits}

namespace Sched

/-- A call of `yield` with the states it goes through: the due sleepers have been
woken, the next thread has been selected, and that thread has returned from
`gain`. -/
structure Dispatched
    (entry : Sched limits)
    (cause : SchedCause)
    (remaining curtime : TimerDuration)
    (current next : TcbPtr limits)
    (woken switched after : Sched limits) : Prop where
  caller : entry.currentThread = some current
  wakes : entry.YieldWakes cause remaining curtime woken
  switches : entry.yieldSwitch cause remaining curtime = .ok switched
  returns : entry.yield cause remaining curtime = .ok after
  becomes : after.currentThread = some next
  selects : ∃ lists lists', woken.Walks lists ∧ switched.Walks lists' ∧
    Selects woken lists current next lists'
  conserves : next = .idle → ∀ slot, woken.threadUsed slot = true →
    (woken.tcb (.slot slot)).type = .normalThread →
      (woken.tcb (.slot slot)).state ≠ .ready

/-- The idle thread is selected only if no thread of the pool is ready. -/
theorem Selects.conserves
    {woken : Sched limits}
    {lists lists' : SchedList → List (Fin limits.maxThreads)}
    {running : TcbPtr limits → Prop}
    {current : TcbPtr limits}
    {slot : Fin limits.maxThreads}
    (selects : Selects woken lists current .idle lists')
    (inv : SchedInv woken lists running (fun tcb => tcb = current)
      fun _ => False)
    (usedSlot : woken.threadUsed slot = true) :
    (woken.tcb (.slot slot)).state ≠ .ready := by
  intro isReady
  have notQueued : ∀ {level}, (∀ level, lists (.queue level) = []) →
      slot ∉ lists (.queue level) := by
    intro level allEmpty member
    rw [allEmpty level] at member
    cases member
  have isDirty : (∀ level, lists (.queue level) = []) →
      TcbPtr.slot slot = current := by
    intro allEmpty
    by_contra different
    have isClean : (woken.tcb (.slot slot)).phase = .ctxClean := by
      cases phase : (woken.tcb (.slot slot)).phase with
      | ctxClean => rfl
      | ctxDirty => exact absurd ((inv.isDirty _).mp phase) different
    obtain ⟨level, member⟩ :=
      (inv.queued slot usedSlot).mpr ⟨isReady, isClean, id⟩
    exact notQueued allEmpty member
  cases selects with
  | caller allEmpty _ => cases isDirty allEmpty
  | idle allEmpty notReady =>
      rw [← isDirty allEmpty] at notReady
      exact notReady isReady

theorem dispatched
    {entry : Sched limits}
    {lists : SchedList → List (Fin limits.maxThreads)}
    {running : TcbPtr limits → Prop}
    {current : TcbPtr limits}
    (inv : SchedInv entry lists running (fun tcb => tcb = current)
      fun _ => False)
    (isCurrent : entry.currentThread = some current)
    (onlyCurrent : ∀ tcb, running tcb → tcb = current)
    (notInit : (entry.tcb current).state ≠ .init)
    (exitedSlot : (entry.tcb current).state = .exited → current ≠ .idle)
    (cause : SchedCause)
    (remaining curtime : TimerDuration) :
    ∃ next woken switched after,
      Dispatched entry cause remaining curtime current next woken switched
        after := by
  obtain ⟨counted, woken, wokenLists, countedEq, wokenEq, wokenInv, -⟩ :=
    inv.yieldWake cause remaining curtime onlyCurrent
  obtain ⟨next, selected, left, selectedEq, selectedInv, -, -, -, choice⟩ :=
    wokenInv.schedQueueSelect rfl
  have switches := yieldSwitch_of_selected isCurrent countedEq wokenEq
    selectedEq
  obtain ⟨next', after, -, returns, becomes, -⟩ := inv.yield cause remaining
    curtime isCurrent onlyCurrent notInit exitedSlot
  have selects : Selects woken wokenLists current next left := by
    rcases choice with ⟨level, slot, rest, rfl, queue, below, rfl⟩ |
      ⟨allEmpty, rfl, rfl⟩
    · exact .front queue below
    · split_ifs with isReady
      · exact .caller allEmpty isReady
      · exact .idle allEmpty isReady
  have gained : ({ selected with
      previousThread := some current
      currentThread := some next } : Sched limits).gain = .ok after := by
    have split := returns
    rw [Sched.yield, switches] at split
    exact split
  refine ⟨next, woken, _, after,
    { caller := isCurrent
      wakes := ⟨current, counted, isCurrent, countedEq, wokenEq⟩
      switches := switches
      returns := returns
      becomes := gain_currentThread gained
      selects := ⟨wokenLists, left, wokenInv.represents.ring,
        selectedInv.represents.ring, selects⟩
      conserves := ?_ }⟩
  rintro rfl slot usedSlot -
  exact selects.conserves wokenInv usedSlot

/-- In every reachable state each call of `yield` hands the core to the head of
the first non-empty level, which alone leaves the queues; to the caller only if
all levels are empty and it is ready; and to the idle thread only if no normal
thread is ready. -/
theorem selection_work_conserving
    {sched : Sched limits}
    (reached : sched.Reached) :
    ∀ op entry, sched.Enabled op → sched.EntersYield op entry →
      ∀ cause remaining curtime, ∃ current next woken switched after,
        Dispatched entry cause remaining curtime current next woken switched
          after := by
  intro op entry enabled enters cause remaining curtime
  obtain ⟨lists, resting⟩ := reached.resting
  obtain ⟨current, entryLists, running, isCurrent, onlyCurrent, inv, notInit,
    exitedSlot⟩ := resting.entersYield enabled enters
  exact ⟨current, dispatched inv isCurrent onlyCurrent notInit exitedSlot cause
    remaining curtime⟩

/-- Two threads at different levels. -/
theorem selection_work_conserving_two_levels :
    ∃ sched : Sched Limits.tinier,
      (sched.Reached ∧ sched.currentThread = some (.slot 1) ∧
        (sched.tcb (.slot 0)).priority = 1) ∧
      ∀ op entry, sched.Enabled op → sched.EntersYield op entry →
        ∀ cause remaining curtime, ∃ current next woken switched after,
          Dispatched entry cause remaining curtime current next woken switched
            after := by
  have ran : ∃ sched : Sched Limits.tinier, sched.Reached ∧
      decide (sched.currentThread = some (.slot 1) ∧
        (sched.tcb (.slot 0)).priority = 1) = true :=
    exists_reachable_of_any
      [.spawnThread none .startMainThread, .wakeup 0, .runScheduler none,
        .spawnThread none .startMainThread, .wakeup 1, .yield .idle 0 0,
        .yield .quantum 0 10] (by decide +kernel)
  obtain ⟨sched, reached, test⟩ := ran
  exact ⟨sched, ⟨reached, of_decide_eq_true test⟩,
    selection_work_conserving reached⟩

end Sched
end TinierOS
