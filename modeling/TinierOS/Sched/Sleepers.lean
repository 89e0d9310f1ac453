import TinierOS.Sched.Run

/-!
# Sleepers

`TIMEOUT_LIST` is compared with a history variable: the threads that slept with
a timeout and have not been woken, in the order in which they registered.  The
list holds the same threads by increasing deadline, ties in order of
registration, and `yield` takes from it those that are due.
-/

namespace TinierOS

variable {limits : Limits}

namespace Sched

/-! ## Sorted lists of sleepers -/

/-- In a sorted list the sleepers that are due are the front. -/
theorem expired_eq_filter
    {sched : Sched limits}
    {curtime : TimerDuration}
    {sleepers : List (Fin limits.maxThreads)}
    (sorted : sleepers.Pairwise fun first second =>
      (sched.tcb (.slot first)).wakeupTime ≤
        (sched.tcb (.slot second)).wakeupTime) :
    sched.expired curtime sleepers = sleepers.filter fun slot =>
      (sched.tcb (.slot slot)).wakeupTime ≤ curtime := by
  have split := sched.expired_append_pending curtime sleepers
  have front : (sched.expired curtime sleepers).filter (fun slot =>
      (sched.tcb (.slot slot)).wakeupTime ≤ curtime) =
        sched.expired curtime sleepers := by
    refine List.filter_eq_self.mpr fun slot due => ?_
    simpa using le_of_mem_expired due
  have back : (sched.pending curtime sleepers).filter (fun slot =>
      (sched.tcb (.slot slot)).wakeupTime ≤ curtime) = [] := by
    refine List.filter_eq_nil_iff.mpr fun slot later => ?_
    simpa using lt_of_mem_pending sorted later
  conv_rhs => rw [← split, List.filter_append, front, back, List.append_nil]

theorem pending_eq_filter
    {sched : Sched limits}
    {curtime : TimerDuration}
    {sleepers : List (Fin limits.maxThreads)}
    (sorted : sleepers.Pairwise fun first second =>
      (sched.tcb (.slot first)).wakeupTime ≤
        (sched.tcb (.slot second)).wakeupTime) :
    sched.pending curtime sleepers = sleepers.filter fun slot =>
      curtime < (sched.tcb (.slot slot)).wakeupTime := by
  have split := sched.expired_append_pending curtime sleepers
  have front : (sched.expired curtime sleepers).filter (fun slot =>
      curtime < (sched.tcb (.slot slot)).wakeupTime) = [] := by
    refine List.filter_eq_nil_iff.mpr fun slot due => ?_
    simpa using le_of_mem_expired due
  have back : (sched.pending curtime sleepers).filter (fun slot =>
      curtime < (sched.tcb (.slot slot)).wakeupTime) =
        sched.pending curtime sleepers := by
    refine List.filter_eq_self.mpr fun slot later => ?_
    simpa using lt_of_mem_pending sorted later
  conv_rhs => rw [← split, List.filter_append, front, back, List.nil_append]

/-! ## The history of sleepers -/

/-- The thread that a call puts to sleep with a timeout. -/
def registers (sched : Sched limits) :
    SchedOp limits → List (Fin limits.maxThreads)
  | .sleepReleasing state _ timeout _ _ _ =>
      match sched.currentThread with
      | some (.slot slot) =>
          if state = .stopped ∧ timeout ≠ noTimeout then [slot] else []
      | _ => []
  | .runScheduler _ | .spawnThread _ _ | .wakeup _ | .yield _ _ _ => []

/-- The threads that are still stopped. -/
def stillStopped
    (sched : Sched limits)
    (sleepers : List (Fin limits.maxThreads)) :
    List (Fin limits.maxThreads) :=
  sleepers.filter fun slot => (sched.tcb (.slot slot)).state = .stopped

/-! ## Waking the sleepers that are due -/

/-- `sched_wakeup_expired_timeouts` returns, and it has made ready exactly the
threads of the list that are due, in list order. -/
structure WakesExpired
    (before : Sched limits)
    (lists : SchedList → List (Fin limits.maxThreads))
    (curtime : TimerDuration)
    (after : Sched limits)
    (lists' : SchedList → List (Fin limits.maxThreads)) : Prop where
  returns : before.schedWakeupExpiredTimeouts curtime = .ok after
  walks : after.Walks lists'
  timeouts : lists' .timeouts = (lists .timeouts).filter fun slot =>
    curtime < (before.tcb (.slot slot)).wakeupTime
  queues : ∀ level, lists' (.queue level) = lists (.queue level) ++
    (lists .timeouts).filter fun slot =>
      (before.tcb (.slot slot)).wakeupTime ≤ curtime ∧
        (before.tcb (.slot slot)).phase = .ctxClean ∧
        (before.tcb (.slot slot)).priority = (level : Nat)
  woken : ∀ slot ∈ lists .timeouts,
    (before.tcb (.slot slot)).wakeupTime ≤ curtime →
      after.tcb (.slot slot) = { before.tcb (.slot slot) with
        state := .ready, wakeupTime := noTimeout }
  others : ∀ tcb, (∀ slot ∈ lists .timeouts, tcb = .slot slot →
    curtime < (before.tcb (.slot slot)).wakeupTime) →
      after.tcb tcb = before.tcb tcb

theorem wakesExpired
    {sched : Sched limits}
    {lists : SchedList → List (Fin limits.maxThreads)}
    {running dirty : TcbPtr limits → Prop}
    (inv : SchedInv sched lists running dirty fun _ => False)
    (curtime : TimerDuration) :
    ∃ after lists', WakesExpired sched lists curtime after lists' := by
  obtain ⟨after, lists', returns, afterInv, tcbs, timeouts, queues, -⟩ :=
    inv.schedWakeupExpiredTimeouts curtime
  have due : ∀ {slot}, slot ∈ sched.expired curtime (lists .timeouts) ↔
      slot ∈ lists .timeouts ∧
        (sched.tcb (.slot slot)).wakeupTime ≤ curtime := by
    intro slot
    rw [expired_eq_filter inv.sorted, List.mem_filter, decide_eq_true_iff]
  refine ⟨after, lists',
    { returns := returns
      walks := afterInv.represents.ring
      timeouts := timeouts.trans (pending_eq_filter inv.sorted)
      queues := ?_
      woken := ?_
      others := ?_ }⟩
  · intro level
    rw [queues level, expired_eq_filter inv.sorted, List.filter_filter]
    congr 2
    funext slot
    rw [Bool.eq_iff_iff, Bool.and_eq_true, decide_eq_true_iff,
      decide_eq_true_iff, decide_eq_true_iff]
    exact and_comm
  · intro slot asleep isDue
    rw [tcbs]
    exact if_pos (due.mpr ⟨asleep, isDue⟩)
  · intro tcb later
    rw [tcbs]
    cases tcb with
    | idle => rfl
    | slot slot =>
        refine if_neg fun isDue => ?_
        obtain ⟨asleep, reached⟩ := due.mp isDue
        exact absurd (later slot asleep rfl) (UInt32.not_lt.mpr reached)

end Sched

/-- The scheduler with the history of its sleepers. -/
structure Tracked (limits : Limits) where
  sched : Sched limits
  sleepers : List (Fin limits.maxThreads)

namespace Tracked

open Sched

/-- One call: a thread joins the history when it goes to sleep with a timeout,
and leaves it when it is woken. -/
def step
    (tracked : Tracked limits)
    (op : SchedOp limits) : Except Fault (Tracked limits) := do
  let after ← tracked.sched.step op
  return ⟨after, after.stillStopped
    (tracked.sleepers ++ tracked.sched.registers op)⟩

/-- The states of all runs, with their history. -/
abbrev Reached (tracked : Tracked limits) : Prop :=
  Reachable step (fun tracked op => tracked.sched.Enabled op)
    ⟨(zero limits).initializeScheduler, []⟩ tracked

/-- The timeout list holds the history's threads by increasing deadline, ties in
order of registration. -/
structure InOrder
    (sched : Sched limits)
    (sleepers : List (Fin limits.maxThreads))
    (timeouts : List (Fin limits.maxThreads)) : Prop where
  perm : timeouts.Perm sleepers
  order : timeouts.Pairwise fun first second =>
    (sched.tcb (.slot first)).wakeupTime <
        (sched.tcb (.slot second)).wakeupTime ∨
      (sched.tcb (.slot first)).wakeupTime =
          (sched.tcb (.slot second)).wakeupTime ∧
        [first, second].Sublist sleepers

namespace InOrder

variable {before after : Sched limits}
variable {sleepers timeouts : List (Fin limits.maxThreads)}
variable {slot : Fin limits.maxThreads}

/-- Threads leave the list when they stop being stopped. -/
theorem restrict
    {timeouts' : List (Fin limits.maxThreads)}
    (inOrder : InOrder before sleepers timeouts)
    (nodup : timeouts.Nodup)
    (sublist : timeouts'.Sublist timeouts)
    (stays : ∀ slot ∈ timeouts,
      (after.tcb (.slot slot)).state = .stopped ↔ slot ∈ timeouts')
    (sameTime : ∀ slot ∈ timeouts', (after.tcb (.slot slot)).wakeupTime =
      (before.tcb (.slot slot)).wakeupTime) :
    InOrder after (after.stillStopped sleepers) timeouts' where
  perm := by
    have nodupSleepers := inOrder.perm.nodup_iff.mp nodup
    refine (List.perm_ext_iff_of_nodup (nodup.sublist sublist)
      (nodupSleepers.filter _)).mpr ?_
    intro slot
    simp only [List.mem_filter, decide_eq_true_eq,
      ← inOrder.perm.mem_iff]
    constructor
    · intro member
      have was := sublist.subset member
      exact ⟨was, (stays slot was).mpr member⟩
    · rintro ⟨was, isStopped⟩
      exact (stays slot was).mp isStopped
  order := by
    refine (inOrder.order.sublist sublist).imp_of_mem ?_
    intro first second inFirst inSecond ordered
    rw [sameTime first inFirst, sameTime second inSecond]
    refine ordered.imp_right fun tied => ⟨tied.1, ?_⟩
    have firstStopped :=
      (stays first (sublist.subset inFirst)).mpr inFirst
    have secondStopped :=
      (stays second (sublist.subset inSecond)).mpr inSecond
    have kept := tied.2.filter fun slot =>
      decide ((after.tcb (.slot slot)).state = .stopped)
    simpa [stillStopped, firstStopped, secondStopped] using kept

/-- A thread is registered behind all deadlines that are not later. -/
theorem insert
    {deadline : TimerDuration}
    (inOrder : InOrder before sleepers timeouts)
    (sorted : timeouts.Pairwise fun first second =>
      (before.tcb (.slot first)).wakeupTime ≤
        (before.tcb (.slot second)).wakeupTime)
    (fresh : slot ∉ timeouts)
    (sameTime : ∀ other ≠ slot, (after.tcb (.slot other)).wakeupTime =
      (before.tcb (.slot other)).wakeupTime)
    (registered : (after.tcb (.slot slot)).wakeupTime = deadline) :
    InOrder after (sleepers ++ [slot])
      (before.expired deadline timeouts ++
        slot :: before.pending deadline timeouts) := by
  have split := before.expired_append_pending deadline timeouts
  have apart : ∀ other ∈ timeouts, other ≠ slot := by
    rintro other member rfl
    exact fresh member
  have inFront : ∀ other ∈ before.expired deadline timeouts,
      other ∈ timeouts := fun other member => expired_subset member
  have inBack : ∀ other ∈ before.pending deadline timeouts,
      other ∈ timeouts := by
    intro other member
    rw [← split]
    exact List.mem_append_right _ member
  have order := inOrder.order
  rw [← split, List.pairwise_append] at order
  obtain ⟨front, back, across⟩ := order
  -- Pairs of earlier sleepers keep their order.
  have keep : ∀ first ∈ timeouts, ∀ second ∈ timeouts,
      ((before.tcb (.slot first)).wakeupTime <
          (before.tcb (.slot second)).wakeupTime ∨
        (before.tcb (.slot first)).wakeupTime =
            (before.tcb (.slot second)).wakeupTime ∧
          [first, second].Sublist sleepers) →
      (after.tcb (.slot first)).wakeupTime <
          (after.tcb (.slot second)).wakeupTime ∨
        (after.tcb (.slot first)).wakeupTime =
            (after.tcb (.slot second)).wakeupTime ∧
          [first, second].Sublist (sleepers ++ [slot]) := by
    intro first inFirst second inSecond ordered
    rw [sameTime first (apart first inFirst),
      sameTime second (apart second inSecond)]
    exact ordered.imp_right fun tied =>
      ⟨tied.1, tied.2.trans (List.sublist_append_left _ _)⟩
  refine ⟨?_, ?_⟩
  · have moved : (before.expired deadline timeouts ++
        slot :: before.pending deadline timeouts).Perm
          (slot :: timeouts) := by
      have middle : (before.expired deadline timeouts ++
          slot :: before.pending deadline timeouts).Perm
            (slot :: (before.expired deadline timeouts ++
              before.pending deadline timeouts)) := List.perm_middle
      rwa [split] at middle
    exact moved.trans ((inOrder.perm.cons slot).trans
      (List.perm_append_singleton slot sleepers).symm)
  · rw [List.pairwise_append, List.pairwise_cons]
    refine ⟨front.imp_of_mem ?_, ⟨?_, back.imp_of_mem ?_⟩, ?_⟩
    · intro first second inFirst inSecond
      exact keep first (inFront first inFirst) second (inFront second inSecond)
    · intro other member
      rw [registered, sameTime other (apart other (inBack other member))]
      exact .inl (lt_of_mem_pending sorted member)
    · intro first second inFirst inSecond
      exact keep first (inBack first inFirst) second (inBack second inSecond)
    · intro first inFirst second inSecond
      rcases List.mem_cons.mp inSecond with rfl | inPending
      · -- A tie: everything in the list was registered earlier.
        have early := inFront first inFirst
        rw [registered, sameTime first (apart first early)]
        rcases UInt32.lt_or_eq_of_le (le_of_mem_expired inFirst) with
          earlier | tied
        · exact .inl earlier
        · refine .inr ⟨tied, ?_⟩
          have isSleeper := inOrder.perm.mem_iff.mp early
          exact (List.singleton_sublist.mpr isSleeper).append
            (List.Sublist.refl [second])
      · exact keep first (inFront first inFirst) second
          (inBack second inPending) (across first inFirst second inPending)

end InOrder

/-! ## One call -/

/-- The invariant of the timeout list along runs. -/
def Sound (tracked : Tracked limits) : Prop :=
  ∃ lists, tracked.sched.Resting lists ∧
    InOrder tracked.sched tracked.sleepers (lists .timeouts)

/-- A turn takes the sleepers that are due. -/
theorem InOrder.turn
    {before after : Sched limits}
    {sleepers : List (Fin limits.maxThreads)}
    {lists lists' : SchedList → List (Fin limits.maxThreads)}
    {curtime : TimerDuration}
    {next : TcbPtr limits}
    (inOrder : InOrder before sleepers (lists .timeouts))
    (nodup : (lists .timeouts).Nodup)
    (turn : Turn before lists curtime next after lists')
    (resting : after.Resting lists') :
    InOrder after (after.stillStopped sleepers) (lists' .timeouts) := by
  refine inOrder.restrict nodup ?_ ?_ turn.wakeupTime
  · rw [turn.timeouts]
    exact List.dropWhile_sublist _
  · intro slot asleep
    refine ⟨fun isStopped => ?_, resting.stopped slot⟩
    rw [← before.expired_append_pending curtime (lists .timeouts),
      List.mem_append] at asleep
    rcases asleep with due | later
    · exact absurd isStopped (turn.woken slot due)
    · rwa [turn.timeouts]

/-- A call that leaves the sleepers alone. -/
theorem InOrder.same
    {before after : Sched limits}
    {sleepers : List (Fin limits.maxThreads)}
    {lists : SchedList → List (Fin limits.maxThreads)}
    (inOrder : InOrder before sleepers (lists .timeouts))
    (resting : after.Resting lists)
    (sameTime : ∀ slot ∈ lists .timeouts,
      (after.tcb (.slot slot)).wakeupTime =
        (before.tcb (.slot slot)).wakeupTime) :
    InOrder after (after.stillStopped sleepers) (lists .timeouts) :=
  inOrder.restrict (resting.represents.nodup .timeouts)
    (List.Sublist.refl _)
    (fun slot asleep => iff_of_true (resting.stopped slot asleep) asleep)
    sameTime

/-- The sleeping thread is registered, and then its turn ends. -/
theorem InOrder.sleep
    {before marked after : Sched limits}
    {sleepers : List (Fin limits.maxThreads)}
    {lists lists₁ lists₂ : SchedList → List (Fin limits.maxThreads)}
    {slot : Fin limits.maxThreads}
    {state : ThreadState}
    {cause : SchedCause}
    {timeout regtime remaining curtime : TimerDuration}
    {next : TcbPtr limits}
    (inOrder : InOrder before sleepers (lists .timeouts))
    (resting : before.Resting lists)
    (isCurrent : before.currentThread = some (.slot slot))
    (mark : Marked before lists slot state timeout regtime marked lists₁)
    (turn : Turn marked lists₁ curtime next after lists₂)
    (restingAfter : after.Resting lists₂) :
    InOrder after
      (after.stillStopped (sleepers ++ before.registers
        (.sleepReleasing state cause timeout regtime remaining curtime)))
      (lists₂ .timeouts) := by
  have awake := resting.current_unlisted isCurrent .timeouts
  have sameTime : ∀ other ≠ slot, (marked.tcb (.slot other)).wakeupTime =
      (before.tcb (.slot other)).wakeupTime := by
    intro other different
    rw [mark.others]
    simpa using different
  have registered : InOrder marked (sleepers ++ before.registers
        (.sleepReleasing state cause timeout regtime remaining curtime))
      (lists₁ .timeouts) := by
    rw [mark.timeouts]
    simp only [registers, isCurrent]
    by_cases timed : state = .stopped ∧ timeout ≠ noTimeout
    · rw [if_pos timed, if_pos timed]
      exact inOrder.insert resting.sorted awake sameTime
        (mark.deadline timed.1 timed.2)
    · rw [if_neg timed, if_neg timed, List.append_nil]
      refine ⟨inOrder.perm, inOrder.order.imp_of_mem ?_⟩
      intro first second inFirst inSecond ordered
      have apart : ∀ other ∈ lists .timeouts, other ≠ slot := by
        rintro other member rfl
        exact awake member
      rwa [sameTime first (apart first inFirst),
        sameTime second (apart second inSecond)]
  exact registered.turn mark.once turn restingAfter

/-- Every call keeps the timeout list in order. -/
theorem Sound.step
    {before after : Tracked limits}
    {op : SchedOp limits}
    (sound : before.Sound)
    (enabled : before.sched.Enabled op)
    (stepped : before.step op = .ok after) :
    after.Sound := by
  obtain ⟨lists, resting, inOrder⟩ := sound
  obtain ⟨sched, lists', stepped', -⟩ := resting.step enabled
  simp only [Tracked.step, stepped', bind, Except.bind, pure,
    Except.pure] at stepped
  cases stepped
  cases op with
  | runScheduler pcb =>
      cases stepped'
      have restingAfter := resting.runScheduler enabled pcb
      refine ⟨lists, restingAfter, ?_⟩
      rw [registers, List.append_nil]
      refine inOrder.same restingAfter fun slot _ => ?_
      rw [runScheduler_tcb_slot]
  | spawnThread pcb func =>
      cases stepped'
      rw [Sound, registers, List.append_nil]
      cases found : before.sched.freeSlot with
      | none =>
          rw [spawnThread_of_full found]
          exact ⟨lists, resting, inOrder.same resting fun _ _ => rfl⟩
      | some slot =>
          have unused := freeSlot_eq_some found
          have restingAfter := resting.initThread unused pcb func
          rw [spawnThread_of_free found]
          refine ⟨lists, restingAfter, inOrder.same restingAfter ?_⟩
          intro other asleep
          rw [initThread_tcb_of_ne]
          rintro isSlot
          cases isSlot
          rw [resting.used_of_mem asleep] at unused
          cases unused
  | wakeup slot =>
      obtain ⟨sched', lists'', woken, woke, restingAfter, wakes⟩ :=
        resting.wakeup enabled
      simp only [Sched.step, woke, bind, Except.bind, pure,
        Except.pure] at stepped'
      cases stepped'
      have nodup := resting.represents.nodup .timeouts
      refine ⟨lists'', restingAfter, ?_⟩
      rw [registers, List.append_nil]
      refine inOrder.restrict nodup ?_ ?_ ?_
      · rw [wakes.timeouts]
        exact List.erase_sublist
      · intro other asleep
        refine ⟨fun isStopped => ?_, restingAfter.stopped other⟩
        rw [wakes.timeouts, nodup.mem_erase_iff]
        refine ⟨?_, asleep⟩
        rintro rfl
        exact wakes.awake isStopped
      · intro other asleep
        rw [wakes.timeouts, nodup.mem_erase_iff] at asleep
        rw [wakes.others]
        simpa using asleep.1
  | yield cause remaining curtime =>
      obtain ⟨current, isCurrent⟩ := Option.ne_none_iff_exists'.mp enabled
      obtain ⟨next, sched', lists'', yielded, -, restingAfter, -, -, turn⟩ :=
        resting.yield isCurrent cause remaining curtime
      cases yielded.symm.trans stepped'
      refine ⟨lists'', restingAfter, ?_⟩
      rw [registers, List.append_nil]
      exact inOrder.turn (resting.represents.nodup .timeouts) turn
        restingAfter
  | sleepReleasing state cause timeout regtime remaining curtime =>
      obtain ⟨started, notIdle, sleeps, deadline⟩ := enabled
      obtain ⟨current, isCurrent⟩ := Option.ne_none_iff_exists'.mp started
      cases current with
      | idle => exact absurd isCurrent notIdle
      | slot slot =>
          obtain ⟨next, sched', lists'', slept, -, restingAfter, -, -, marked,
            lists₁, mark, turn⟩ := resting.sleepReleasing isCurrent sleeps
              deadline cause remaining curtime
          cases slept.symm.trans stepped'
          exact ⟨lists'', restingAfter,
            inOrder.sleep resting isCurrent mark turn restingAfter⟩

theorem Reached.sound
    {tracked : Tracked limits}
    (reached : tracked.Reached) :
    tracked.Sound := by
  refine reached.invariant (motive := Sound) ?_ ?_
  · exact ⟨_, resting_initializeScheduler, List.Perm.refl [],
      List.Pairwise.nil⟩
  · intro before after op sound enabled stepped
    exact sound.step enabled stepped

/-! ## Whole runs -/

/-- The timeout list of a state: the history's threads, stopped, by increasing
deadline with ties in order of registration. -/
structure HoldsSleepers
    (tracked : Tracked limits)
    (lists : SchedList → List (Fin limits.maxThreads)) : Prop where
  walks : tracked.sched.Walks lists
  stopped : ∀ slot ∈ lists .timeouts,
    (tracked.sched.tcb (.slot slot)).state = .stopped
  inOrder : InOrder tracked.sched tracked.sleepers (lists .timeouts)

/-- In every reachable state the timeout list holds exactly the sleepers, in
order; every `yield` wakes exactly those that are due; and `wakeup` of a sleeper
takes exactly that one out of the list. -/
theorem sleepers_woken_on_time
    {tracked : Tracked limits}
    (reached : tracked.Reached) :
    ∃ lists, tracked.HoldsSleepers lists ∧
      (∀ op entry, tracked.sched.Enabled op →
        tracked.sched.EntersYield op entry →
        ∀ cause remaining curtime, ∃ current counted entryLists woken lists',
          entry.currentThread = some current ∧
          entry.countYield = .ok counted ∧
          (counted.modifyTcb current (yieldTCB cause remaining)).Walks
            entryLists ∧
          WakesExpired
            (counted.modifyTcb current (yieldTCB cause remaining))
            entryLists curtime woken lists') ∧
      ∀ slot ∈ lists .timeouts, ∃ after woken lists',
        tracked.sched.wakeup (.slot slot) = .ok (after, woken) ∧
        after.Walks lists' ∧
        lists' .timeouts = (lists .timeouts).erase slot := by
  obtain ⟨lists, resting, inOrder⟩ := reached.sound
  refine ⟨lists, ⟨resting.represents.ring, resting.stopped, inOrder⟩, ?_, ?_⟩
  · intro op entry enabled enters cause remaining curtime
    obtain ⟨current, entryLists, running, isCurrent, onlyCurrent, inv, -⟩ :=
      resting.entersYield enabled enters
    obtain ⟨counted, countedEq, countedInv, -⟩ := inv.countYield
    have marked := countedInv.yieldTCB cause remaining onlyCurrent
    obtain ⟨woken, lists', wakes⟩ := wakesExpired marked curtime
    exact ⟨current, counted, _, woken, lists', isCurrent, countedEq,
      marked.represents.ring, wakes⟩
  · intro slot asleep
    obtain ⟨after, lists', woken, woke, restingAfter, wakes⟩ :=
      resting.wakeup (resting.used_of_mem asleep)
    exact ⟨after, woken, lists', woke, restingAfter.represents.ring,
      wakes.timeouts⟩

/-- Two threads that sleep until the same time. -/
theorem sleepers_woken_on_time_tie :
    ∃ tracked : Tracked Limits.tinier,
      (tracked.Reached ∧ tracked.sleepers = [1, 0]) ∧
      ∃ lists, tracked.HoldsSleepers lists ∧
        (∀ op entry, tracked.sched.Enabled op →
          tracked.sched.EntersYield op entry →
          ∀ cause remaining curtime,
            ∃ current counted entryLists woken lists',
              entry.currentThread = some current ∧
              entry.countYield = .ok counted ∧
              (counted.modifyTcb current (yieldTCB cause remaining)).Walks
                entryLists ∧
              WakesExpired
                (counted.modifyTcb current (yieldTCB cause remaining))
                entryLists curtime woken lists') ∧
        ∀ slot ∈ lists .timeouts, ∃ after woken lists',
          tracked.sched.wakeup (.slot slot) = .ok (after, woken) ∧
          after.Walks lists' ∧
          lists' .timeouts = (lists .timeouts).erase slot := by
  have ran : ∃ tracked : Tracked Limits.tinier, tracked.Reached ∧
      decide (tracked.sleepers = [1, 0]) = true :=
    exists_reachable_of_any
      [.spawnThread none .startMainThread, .wakeup 0, .runScheduler none,
        .spawnThread none .startMainThread, .wakeup 1, .yield .idle 0 0,
        .yield .user 0 10, .sleepReleasing .stopped .user 50 10 0 10,
        .sleepReleasing .stopped .user 40 20 0 20] (by decide +kernel)
  obtain ⟨tracked, reached, test⟩ := ran
  exact ⟨tracked, ⟨reached, of_decide_eq_true test⟩,
    sleepers_woken_on_time reached⟩

end Tracked
end TinierOS
