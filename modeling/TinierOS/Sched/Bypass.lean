import TinierOS.Sched.Run

/-!
# Bounded bypass

A queued thread is selected after a bounded number of calls of `yield`.  Until
it is at the top level a boost takes it up by one level every `YIELD_RUNS` calls;
at the top level nobody gets ahead of it, since threads join a queue at its end
and are taken from its front.
-/

namespace TinierOS

variable {limits : Limits}

/-- The calls that enter `yield`. -/
def SchedOp.callsYield : SchedOp limits → Bool
  | .yield _ _ _ | .sleepReleasing _ _ _ _ _ _ => true
  | .runScheduler _ | .spawnThread _ _ | .wakeup _ => false

namespace Sched

/-- The thread is queued: at the top level less than `turns` from the front, or
at a lower level from which the boosts take it up in time. -/
def Placed
    (slot : Fin limits.maxThreads)
    (turns slack : Nat)
    (lists : SchedList → List (Fin limits.maxThreads)) : Prop :=
  ∃ level : Fin schedQueues, slot ∈ lists (.queue level) ∧
    if level = 0 then (lists (.queue 0)).idxOf slot < turns
    else level * yieldRuns + limits.maxThreads ≤ slack

namespace Placed

variable {slot : Fin limits.maxThreads}
variable {turns slack : Nat}
variable {lists lists' : SchedList → List (Fin limits.maxThreads)}

/-- A queued thread is never at its last turn and out of reach of a boost. -/
theorem pos
    (placed : Placed slot turns slack lists)
    (below : slack < turns + yieldRuns) :
    0 < turns := by
  obtain ⟨level, -, rank⟩ := placed
  split_ifs at rank with top
  · omega
  · have positive : 1 ≤ (level : Nat) :=
      Nat.one_le_iff_ne_zero.mpr fun zero => top (Fin.ext zero)
    have bound := Nat.mul_le_mul_right yieldRuns positive
    omega

/-- Arrivals at the ends of the queues do not get ahead. -/
theorem grow
    (placed : Placed slot turns slack lists)
    (grows : QueuesGrow lists lists') :
    Placed slot turns slack lists' := by
  obtain ⟨level, member, rank⟩ := placed
  refine ⟨level, (grows level).subset member, ?_⟩
  split_ifs at rank ⊢ with top
  · subst top
    obtain ⟨arrivals, joined⟩ := grows 0
    rwa [← joined, List.idxOf_append_of_mem member]
  · exact rank

/-- A boost takes the thread up by one level, or leaves it in its place at the
top. -/
theorem boost
    (placed : Placed slot turns slack lists)
    (due : slack < turns + yieldRuns)
    (short : (boosted lists (.queue 0)).length ≤ limits.maxThreads) :
    Placed slot turns (slack - yieldRuns) (boosted lists) := by
  obtain ⟨⟨level, small⟩, member, rank⟩ := placed
  cases level with
  | zero =>
      have top : (⟨0, small⟩ : Fin schedQueues) = 0 := rfl
      rw [if_pos top] at rank
      refine ⟨0, List.mem_append_left _ member, ?_⟩
      rw [if_pos rfl]
      exact (List.idxOf_append_of_mem member).trans_lt rank
  | succ level =>
      have lower : (⟨level + 1, small⟩ : Fin schedQueues) ≠ 0 :=
        fun zero => Nat.succ_ne_zero level (congrArg Fin.val zero)
      rw [if_neg lower, Nat.add_mul, Nat.one_mul] at rank
      cases level with
      | zero =>
          have joins : slot ∈ boosted lists (.queue 0) :=
            List.mem_append_right _ member
          refine ⟨0, joins, ?_⟩
          rw [if_pos rfl]
          have place := List.idxOf_lt_length_of_mem joins
          omega
      | succ level =>
          have fits : level + 1 < schedQueues := Nat.lt_of_succ_lt small
          have moves : slot ∈ boosted lists (.queue ⟨level + 1, fits⟩) := by
            simp only [boosted, dif_pos small]
            exact member
          have still : (⟨level + 1, fits⟩ : Fin schedQueues) ≠ 0 :=
            fun zero => Nat.succ_ne_zero level (congrArg Fin.val zero)
          refine ⟨⟨level + 1, fits⟩, moves, ?_⟩
          rw [if_neg still]
          refine Nat.le_sub_of_add_le ?_
          rw [Nat.add_right_comm]
          exact rank

/-- At the top level every selection of another thread brings the thread
forward by one. -/
theorem pop
    {next : TcbPtr limits}
    (placed : Placed slot (turns + 1) slack lists)
    (pops : Pops lists next lists') :
    next = .slot slot ∨ Placed slot turns slack lists' := by
  obtain ⟨level, member, rank⟩ := placed
  rcases pops with ⟨taken, front, rest, isFront, queue, above, rfl⟩ |
    ⟨allEmpty, -⟩
  · by_cases isSlot : front = slot
    · exact .inl (isFront.trans (by rw [isSlot]))
    · refine .inr ⟨level, ?_, ?_⟩
      · by_cases same : level = taken
        · subst same
          rw [queue, List.mem_cons] at member
          rw [Function.update_self]
          exact member.resolve_left (Ne.symm isSlot)
        · rwa [Function.update_of_ne (by simpa using same)]
      · split_ifs at rank ⊢ with top
        · subst top
          -- Selection starts at the top, so the front was taken there.
          have isTop : taken = 0 := by
            by_contra lower
            rw [above 0 (Fin.pos_iff_ne_zero.mpr lower)] at member
            cases member
          subst isTop
          rw [queue, List.idxOf_cons_ne _ isSlot] at rank
          rw [Function.update_self]
          omega
        · exact rank
  · rw [allEmpty level] at member
    cases member

end Placed

/-- At most `calls` further calls of `yield` can pass before the queued thread
is selected. -/
def Waiting
    (slot : Fin limits.maxThreads)
    (calls : Nat)
    (sched : Sched limits) : Prop :=
  ∃ lists, sched.Resting lists ∧
    Placed slot calls (calls + sched.yieldCount) lists

theorem Waiting.ne_zero
    {slot : Fin limits.maxThreads}
    {sched : Sched limits} :
    ¬Waiting slot 0 sched := by
  rintro ⟨lists, resting, placed⟩
  have below := resting.yieldCount
  exact absurd (placed.pos (by omega)) (Nat.lt_irrefl 0)

/-- Two levels together hold no more threads than there are. -/
theorem Resting.boosted_length_le
    {sched : Sched limits}
    {lists : SchedList → List (Fin limits.maxThreads)}
    (resting : sched.Resting lists) :
    (boosted lists (.queue 0)).length ≤ limits.maxThreads := by
  obtain ⟨boost, -, boostInv, -⟩ := resting.schedBoostPriority
  exact Nat.le_of_lt_succ (boostInv.length_lt (.queue 0))

/-- A turn selects the thread or brings it closer. -/
theorem Turn.advances
    {before after : Sched limits}
    {lists lists' : SchedList → List (Fin limits.maxThreads)}
    {curtime : TimerDuration}
    {next : TcbPtr limits}
    {slot : Fin limits.maxThreads}
    {calls : Nat}
    (turn : Turn before lists curtime next after lists')
    (short : (boosted lists (.queue 0)).length ≤ limits.maxThreads)
    (placed : Placed slot (calls + 1) (calls + 1 + before.yieldCount) lists) :
    next = .slot slot ∨
      Placed slot calls (calls + after.yieldCount) lists' := by
  obtain ⟨arrived, left, arrivals, pops, grows⟩ := turn.selected
  have counted : Placed slot (calls + 1) (calls + after.yieldCount)
      (before.countedLists lists) := by
    rw [turn.yieldCount]
    unfold countedLists
    split_ifs with due
    · have up := placed.boost (by omega) short
      have slack : calls + 1 + before.yieldCount - yieldRuns = calls := by
        omega
      rwa [slack] at up
    · rwa [Nat.add_comm before.yieldCount 1, ← Nat.add_assoc]
  rcases (counted.grow arrivals).pop pops with isNext | stays
  · exact .inl isNext
  · exact .inr (stays.grow grows)

/-- A call that does not enter `yield` leaves the thread in its place. -/
theorem Waiting.waits
    {before after : Sched limits}
    {slot : Fin limits.maxThreads}
    {calls : Nat}
    {op : SchedOp limits}
    (waiting : Waiting slot calls before)
    (enabled : before.Enabled op)
    (stepped : before.step op = .ok after)
    (noYield : op.callsYield = false) :
    Waiting slot calls after := by
  obtain ⟨lists, resting, placed⟩ := waiting
  cases op with
  | runScheduler pcb =>
      cases stepped
      exact ⟨lists, resting.runScheduler enabled pcb, placed⟩
  | spawnThread pcb func =>
      cases stepped
      cases found : before.freeSlot with
      | none =>
          rw [spawnThread_of_full found]
          exact ⟨lists, resting, placed⟩
      | some free =>
          rw [spawnThread_of_free found]
          exact ⟨lists, resting.initThread (freeSlot_eq_some found) pcb func,
            placed⟩
  | wakeup other =>
      obtain ⟨after', lists', woken, woke, restingAfter, wakes⟩ :=
        resting.wakeup enabled
      simp only [Sched.step, woke, bind, Except.bind, pure,
        Except.pure] at stepped
      cases stepped
      refine ⟨lists', restingAfter, ?_⟩
      rw [wakes.yieldCount]
      exact placed.grow wakes.grow
  | yield cause remaining curtime => cases noYield
  | sleepReleasing state cause timeout regtime remaining curtime =>
      cases noYield

/-- A call that enters `yield` selects the thread or brings it closer. -/
theorem Waiting.advances
    {before after : Sched limits}
    {slot : Fin limits.maxThreads}
    {calls : Nat}
    {op : SchedOp limits}
    (waiting : Waiting slot (calls + 1) before)
    (enabled : before.Enabled op)
    (stepped : before.step op = .ok after)
    (yields : op.callsYield = true) :
    after.currentThread = some (.slot slot) ∨ Waiting slot calls after := by
  obtain ⟨lists, resting, placed⟩ := waiting
  cases op with
  | runScheduler pcb => cases yields
  | spawnThread pcb func => cases yields
  | wakeup other => cases yields
  | yield cause remaining curtime =>
      obtain ⟨current, isCurrent⟩ := Option.ne_none_iff_exists'.mp enabled
      obtain ⟨next, after', lists', yielded, nextCurrent, restingAfter, -, -,
        turn⟩ := resting.yield isCurrent cause remaining curtime
      cases yielded.symm.trans stepped
      rcases turn.advances resting.boosted_length_le placed with isNext | closer
      · exact .inl (nextCurrent.trans (congrArg some isNext))
      · exact .inr ⟨lists', restingAfter, closer⟩
  | sleepReleasing state cause timeout regtime remaining curtime =>
      obtain ⟨started, notIdle, sleeps, deadline⟩ := enabled
      obtain ⟨current, isCurrent⟩ := Option.ne_none_iff_exists'.mp started
      cases current with
      | idle => exact absurd isCurrent notIdle
      | slot own =>
          obtain ⟨next, after', lists', slept, nextCurrent, restingAfter, -, -,
            marked, lists₁, mark, turn⟩ := resting.sleepReleasing isCurrent
              sleeps deadline cause remaining curtime
          cases slept.symm.trans stepped
          have sameQueues : QueuesGrow lists lists₁ := by
            intro level
            rw [mark.queues level]
          have short : (boosted lists₁ (.queue 0)).length ≤
              limits.maxThreads := by
            have fits := resting.boosted_length_le
            simpa only [boosted, mark.queues] using fits
          have markedPlaced := placed.grow sameQueues
          rw [← mark.yieldCount] at markedPlaced
          rcases turn.advances short markedPlaced with isNext | closer
          · exact .inl (nextCurrent.trans (congrArg some isNext))
          · exact .inr ⟨lists', restingAfter, closer⟩

/-- A queued thread waits for at most `YIELD_RUNS` calls for each level above
it, and then for at most as many as there are threads. -/
theorem Resting.waiting
    {sched : Sched limits}
    {lists : SchedList → List (Fin limits.maxThreads)}
    {slot : Fin limits.maxThreads}
    {level : Fin schedQueues}
    (resting : sched.Resting lists)
    (queued : slot ∈ lists (.queue level)) :
    Waiting slot (level * yieldRuns + limits.maxThreads) sched := by
  refine ⟨lists, resting, level, queued, ?_⟩
  split_ifs with top
  · subst top
    have place := List.idxOf_lt_length_of_mem queued
    have length := resting.length_lt (.queue 0)
    rw [Fin.val_zero, Nat.zero_mul, Nat.zero_add]
    omega
  · exact Nat.le_add_right _ _

/-- In every continuation of a run, a thread that is linked in `SCHED[level]` is
selected by one of the next `level * YIELD_RUNS + MAX_THREADS` calls of
`yield`. -/
theorem bounded_bypass
    {sched last : Sched limits}
    {lists : SchedList → List (Fin limits.maxThreads)}
    {slot : Fin limits.maxThreads}
    {level : Fin schedQueues}
    {ops : List (SchedOp limits)}
    (reached : sched.Reached)
    (walks : sched.Walks lists)
    (queued : slot ∈ lists (.queue level))
    (ran : runActions step Enabled ops sched = some last)
    (enough : level * yieldRuns + limits.maxThreads ≤
      ops.countP SchedOp.callsYield) :
    ∃ earlier op later before after,
      ops = earlier ++ op :: later ∧
      earlier.countP SchedOp.callsYield <
        level * yieldRuns + limits.maxThreads ∧
      op.callsYield = true ∧
      runActions step Enabled earlier sched = some before ∧
      before.step op = .ok after ∧
      after.currentThread = some (.slot slot) := by
  obtain ⟨lists', resting⟩ := reached.resting
  have same : lists' = lists :=
    Walks.unique resting.represents.ring walks
  rw [same] at resting
  exact goalWithin_of_waiting SchedOp.callsYield (Waiting slot)
    (fun after => after.currentThread = some (.slot slot))
    (fun _ => Waiting.ne_zero) Waiting.waits Waiting.advances
    (resting.waiting queued) ran enough

/-- The second of two threads in `SCHED[0]` is selected by one of the next two
calls. -/
theorem bounded_bypass_second_in_queue :
    ∃ sched last : Sched Limits.tinier,
      (sched.Reached ∧ (∃ lists, sched.Walks lists ∧ 1 ∈ lists (.queue 0)) ∧
        runActions step Enabled [.yield .idle 0 0, .yield .user 0 10] sched =
          some last) ∧
      ∃ earlier op later before after,
        [.yield .idle 0 0, .yield .user 0 10] = earlier ++ op :: later ∧
        earlier.countP SchedOp.callsYield < 2 ∧ op.callsYield = true ∧
        runActions step Enabled earlier sched = some before ∧
        before.step op = .ok after ∧
        after.currentThread = some (.slot 1) := by
  have ran : ∃ sched : Sched Limits.tinier, sched.Reached ∧
      decide (sched.threadUsed 1 = true ∧
        (sched.tcb (.slot 1)).state = .ready ∧
        (sched.tcb (.slot 1)).phase = .ctxClean ∧
        (sched.tcb (.slot 1)).priority = 0 ∧
        (runActions step Enabled [.yield .idle 0 0, .yield .user 0 10]
          sched).isSome = true) = true :=
    exists_reachable_of_any
      [.spawnThread none .startMainThread, .wakeup 0, .runScheduler none,
        .spawnThread none .startMainThread, .wakeup 1] (by decide +kernel)
  obtain ⟨sched, reached, test⟩ := ran
  obtain ⟨used, isReady, isClean, priority, continues⟩ :=
    of_decide_eq_true test
  obtain ⟨last, ran⟩ := Option.isSome_iff_exists.mp continues
  obtain ⟨lists, resting⟩ := reached.resting
  obtain ⟨level, member⟩ :=
    (resting.queued 1 used).mpr ⟨isReady, isClean, id⟩
  have top : level = 0 := by
    have agrees := resting.level 1 level member
    rw [priority] at agrees
    exact_mod_cast agrees.symm
  subst top
  have walks : sched.Walks lists := resting.represents.ring
  exact ⟨sched, last, ⟨reached, ⟨lists, walks, member⟩, ran⟩,
    bounded_bypass reached walks member ran (by decide)⟩

end Sched
end TinierOS
