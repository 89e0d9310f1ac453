import TinierOS.Sched.Run

/-!
# Priorities and queue levels

The priority of a thread is the index of the queue it belongs to, stored apart
from the queue its node sits in.  Only `yield` changes it, for the yielding
thread, which is in no queue, and for the queued threads in a boost, which moves
each of them up by one level.
-/

namespace TinierOS

variable {limits : Limits}

namespace Sched

/-- Priorities are queue indices, and a queued thread is in the queue of its
priority. -/
structure LevelsAgree (sched : Sched limits) : Prop where
  range : ∀ tcb, 0 ≤ (sched.tcb tcb).priority ∧
    (sched.tcb tcb).priority < schedQueues
  level : ∃ lists, sched.Walks lists ∧ ∀ level, ∀ slot ∈ lists (.queue level),
    (sched.tcb (.slot slot)).priority = (level : Nat)
  yieldCount : sched.yieldCount < yieldRuns

/-- What the boost of a `yield` entered in this state does. -/
structure BoostsOneLevel
    (entry : Sched limits)
    (lists : SchedList → List (Fin limits.maxThreads))
    (after : Sched limits) : Prop where
  returns : ({ entry with yieldCount := entry.yieldCount + 1 } :
    Sched limits).schedBoostPriority = .ok after
  walks : after.Walks (boosted lists)
  moved : ∀ level : Fin 9, ∀ slot ∈ lists (.queue level.succ),
    after.tcb (.slot slot) = { entry.tcb (.slot slot) with
      priority := (entry.tcb (.slot slot)).priority - 1 }
  front : ∀ slot ∈ lists (.queue 0),
    after.tcb (.slot slot) = entry.tcb (.slot slot)
  unqueued : ∀ tcb, (∀ slot level, tcb = .slot slot →
    slot ∉ lists (.queue level)) → after.tcb tcb = entry.tcb tcb
  /-- In particular running, stopped, exited and new threads are unchanged. -/
  notReady : ∀ tcb, (entry.tcb tcb).state ≠ .ready →
    (∀ slot, tcb = .slot slot → entry.threadUsed slot = true) →
      after.tcb tcb = entry.tcb tcb

/-- A thread of level `level + 1` is found one level up after the boost. -/
theorem mem_boosted
    {lists : SchedList → List (Fin limits.maxThreads)}
    {level : Fin 9}
    {slot : Fin limits.maxThreads}
    (member : slot ∈ lists (.queue level.succ)) :
    slot ∈ boosted lists (.queue level.castSucc) := by
  obtain ⟨level, small⟩ := level
  cases level with
  | zero => exact List.mem_append_right _ member
  | succ level =>
      have below : level + 2 < 10 := by omega
      simp only [boosted, Fin.castSucc_mk, dif_pos below]
      exact member

/-- The boost of a `yield`, from the invariant inside it. -/
theorem boostsOneLevel
    {entry : Sched limits}
    {lists : SchedList → List (Fin limits.maxThreads)}
    {running dirty : TcbPtr limits → Prop}
    (inv : SchedInv entry lists running dirty fun _ => False) :
    ∃ after, BoostsOneLevel entry lists after := by
  obtain ⟨boost, boostEq, boostInv, same, unqueued, -⟩ :=
    inv.schedBoostPriority
  have samePriority : ∀ {tcb} {priority : Int},
      (boost.tcb tcb).priority = priority →
        boost.tcb tcb = { entry.tcb tcb with priority := priority } := by
    rintro tcb priority rfl
    exact same tcb
  refine ⟨{ boost with yieldCount := entry.yieldCount + 1 },
    { returns := ?_
      walks := boostInv.represents.ring
      moved := ?_
      front := ?_
      unqueued := unqueued
      notReady := ?_ }⟩
  · rw [schedBoostPriority_yieldCount, boostEq]
    rfl
  · intro level slot member
    have was := inv.level slot _ member
    have becomes := boostInv.level slot _ (mem_boosted member)
    refine samePriority (becomes.trans ?_)
    rw [was]
    simp
  · intro slot member
    have was := inv.level slot _ member
    have becomes := boostInv.level slot 0 (List.mem_append_left _ member)
    refine (samePriority (becomes.trans was.symm)).trans ?_
    rfl
  · intro tcb notReady used
    refine unqueued tcb ?_
    rintro slot level rfl member
    exact notReady ((inv.queued slot (used slot rfl)).mp ⟨level, member⟩).1

theorem Resting.levelsAgree
    {sched : Sched limits}
    {lists : SchedList → List (Fin limits.maxThreads)}
    (resting : sched.Resting lists) :
    sched.LevelsAgree where
  range := resting.priority
  level := ⟨lists, resting.represents.ring, fun level slot member =>
    resting.level slot level member⟩
  yieldCount := resting.yieldCount

/-- In every reachable state priorities and queue levels agree, and wherever
`yield` is entered a boost would move every queued thread up by one level and
change nothing else. -/
theorem priority_is_level
    {sched : Sched limits}
    (reached : sched.Reached) :
    sched.LevelsAgree ∧
      ∀ op entry, sched.Enabled op → sched.EntersYield op entry →
        ∃ lists after, entry.Walks lists ∧
          BoostsOneLevel entry lists after := by
  obtain ⟨lists, resting⟩ := reached.resting
  refine ⟨resting.levelsAgree, ?_⟩
  intro op entry enabled enters
  obtain ⟨current, entryLists, running, -, -, inv, -⟩ :=
    resting.entersYield enabled enters
  obtain ⟨after, boosts⟩ := boostsOneLevel inv
  exact ⟨entryLists, after, inv.represents.ring, boosts⟩

/-- A thread that used up its quantum waits in level 1. -/
theorem priority_is_level_quantum :
    ∃ sched : Sched Limits.tinier,
      (sched.Reached ∧ (sched.tcb (.slot 0)).priority = 1) ∧
      sched.LevelsAgree ∧
      ∀ op entry, sched.Enabled op → sched.EntersYield op entry →
        ∃ lists after, entry.Walks lists ∧
          BoostsOneLevel entry lists after := by
  have ran : ∃ sched : Sched Limits.tinier, sched.Reached ∧
      decide ((sched.tcb (.slot 0)).priority = 1) = true :=
    exists_reachable_of_any
      [.spawnThread none .startMainThread, .wakeup 0, .runScheduler none,
        .spawnThread none .startMainThread, .wakeup 1, .yield .idle 0 0,
        .yield .quantum 0 10] (by decide +kernel)
  obtain ⟨sched, reached, test⟩ := ran
  exact ⟨sched, ⟨reached, of_decide_eq_true test⟩, priority_is_level reached⟩

end Sched
end TinierOS
