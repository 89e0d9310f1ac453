import TinierOS.Sched.Queues
import Mathlib.Data.List.TakeWhile

/-!
# Registering a timeout

`sched_register_timeout` walks the timeout list to the first later deadline and
splices the thread in before it, which keeps the list in order of deadlines with
ties in order of registration.
-/

namespace TinierOS

variable {limits : Limits}

namespace Sched

theorem le_of_mem_expired
    {sched : Sched limits}
    {deadline : TimerDuration}
    {sleepers : List (Fin limits.maxThreads)}
    {slot : Fin limits.maxThreads}
    (member : slot ∈ sched.expired deadline sleepers) :
    (sched.tcb (.slot slot)).wakeupTime ≤ deadline := by
  have passed := List.mem_takeWhile_imp member
  simpa using passed

/-- In a sorted list everything from the insertion point on is later. -/
theorem lt_of_mem_pending
    {sched : Sched limits}
    {deadline : TimerDuration}
    {sleepers : List (Fin limits.maxThreads)}
    {slot : Fin limits.maxThreads}
    (sorted : sleepers.Pairwise fun first second =>
      (sched.tcb (.slot first)).wakeupTime ≤
        (sched.tcb (.slot second)).wakeupTime)
    (member : slot ∈ sched.pending deadline sleepers) :
    deadline < (sched.tcb (.slot slot)).wakeupTime := by
  induction sleepers with
  | nil => simp [pending] at member
  | cons first rest inductionHypothesis =>
      rw [List.pairwise_cons] at sorted
      by_cases ahead : deadline < (sched.tcb (.slot first)).wakeupTime
      · rw [(expired_pending_of_ahead rest ahead).2, List.mem_cons] at member
        rcases member with rfl | inRest
        · exact ahead
        · exact UInt32.lt_of_lt_of_le ahead (sorted.1 slot inRest)
      · rw [(expired_pending_cons rest ahead).2] at member
        exact inductionHypothesis sorted.2 member

/-- The search loop stops at the first sleeper with a later deadline, or at the
list head. -/
theorem timeoutPosition_eq
    {lists : SchedList → List (Fin limits.maxThreads)}
    {live : Fin limits.maxThreads → Prop}
    {fuel : Nat}
    {sleepers : List (Fin limits.maxThreads)}
    (sched : Sched limits)
    (deadline : TimerDuration)
    (passed : List (Fin limits.maxThreads))
    (represents : (schedLayout limits).Represents sched.heap.links lists live)
    (keys : ∀ slot ∈ lists .timeouts,
      (sched.heap (.schedNode (.slot slot))).obj = some (.slot slot))
    (split : lists .timeouts = passed ++ sleepers)
    (enough : sleepers.length < fuel) :
    timeoutPosition sched deadline fuel
        ((sleepers.map (schedLayout limits).cell ++
          [(schedLayout limits).sentinel .timeouts]).head (by simp)) =
      .ok (((sched.pending deadline sleepers).map (schedLayout limits).cell ++
        [(schedLayout limits).sentinel .timeouts]).head (by simp)) := by
  induction fuel generalizing passed sleepers with
  | zero => omega
  | succ fuel inductionHypothesis =>
      cases sleepers with
      | nil => simp [timeoutPosition, pending]
      | cons first rest =>
          have member : first ∈ lists .timeouts := by
            rw [split]
            simp
          have advance := represents.next_cell split
          simp only [RlHeap.links_next, schedLayout_cell] at advance
          simp only [List.map_cons, List.cons_append, List.head_cons,
            schedLayout_cell, timeoutPosition, reduceCtorEq, if_false,
            keys first member]
          by_cases ahead : deadline < (sched.tcb (.slot first)).wakeupTime
          · simp [pending, ahead]
          · rw [if_neg ahead, advance]
            simp only [(expired_pending_cons rest ahead).2]
            rw [List.length_cons] at enough
            rw [List.append_cons] at split
            exact inductionHypothesis _ split (by omega)

end Sched

namespace SchedInv

variable {sched : Sched limits}
variable {lists : SchedList → List (Fin limits.maxThreads)}
variable {running dirty hidden : TcbPtr limits → Prop}

/-- `sched_register_timeout` splices a thread that is in no list into the timeout
list, behind everything that is due no later; whatever the deadline is. -/
theorem schedRegisterTimeout_links
    {slot : Fin limits.maxThreads}
    {timeout curtime : TimerDuration}
    (inv : SchedInv sched lists running dirty hidden)
    (usedSlot : sched.threadUsed slot = true)
    (unlisted : ∀ list, slot ∉ lists list)
    (timed : timeout ≠ noTimeout) :
    ∃ heap, sched.schedRegisterTimeout (.slot slot) timeout curtime =
        .ok (({ sched with heap := heap } : Sched limits).modifyTcb
          (.slot slot) fun block =>
            { block with wakeupTime := curtime + timeout }) ∧
      (schedLayout limits).Represents heap.links
        (Function.update lists .timeouts
          (sched.expired (curtime + timeout) (lists .timeouts) ++
            slot :: sched.pending (curtime + timeout) (lists .timeouts)))
        (fun slot => sched.threadUsed slot = true) ∧
      ∀ node, (heap node).obj = (sched.heap node).obj := by
  have others : ∀ other ∈ lists .timeouts,
      ((sched.modifyTcb (.slot slot) fun block =>
        { block with wakeupTime := curtime + timeout }).tcb
          (.slot other)).wakeupTime =
            (sched.tcb (.slot other)).wakeupTime := by
    intro other member
    rw [Sched.modifyTcb_of_ne]
    rintro equal
    cases equal
    exact unlisted .timeouts member
  have samePending : (sched.modifyTcb (.slot slot) fun block =>
        { block with wakeupTime := curtime + timeout }).pending
          (curtime + timeout) (lists .timeouts) =
      sched.pending (curtime + timeout) (lists .timeouts) :=
    Sched.pending_congr others
  have split := sched.expired_append_pending (curtime + timeout)
    (lists .timeouts)
  have inserted := inv.represents.insert_before usedSlot unlisted split.symm
  have start := (inv.represents.ring .timeouts).next_head
  simp only [RlHeap.links_next, schedLayout_timeouts] at start
  have found := Sched.timeoutPosition_eq
    (sched.modifyTcb (.slot slot) fun block =>
      { block with wakeupTime := curtime + timeout })
    (curtime + timeout) [] inv.represents
    (fun other member => inv.nodeKey other (inv.used_of_mem member))
    rfl (inv.length_lt .timeouts)
  simp only [samePending] at found
  generalize ((sched.pending (curtime + timeout) (lists .timeouts)).map
    (schedLayout limits).cell ++
      [(schedLayout limits).sentinel .timeouts]).head _ = node
    at found inserted
  refine ⟨sched.heap.rlSplice (sched.heap node).prev
    (.schedNode (.slot slot)), ?_, by simpa using inserted, by simp⟩
  rw [Sched.schedRegisterTimeout, if_neg timed]
  simp only [Sched.modifyTcb_self, Sched.modifyTcb_heap, start]
  erw [found]
  rfl

/-- `sched_register_timeout` for a stopped thread that is in no list, with a
deadline that is not the sentinel. -/
theorem schedRegisterTimeout
    {slot : Fin limits.maxThreads}
    {timeout curtime : TimerDuration}
    (inv : SchedInv sched lists running dirty hidden)
    (usedSlot : sched.threadUsed slot = true)
    (isStopped : (sched.tcb (.slot slot)).state = .stopped)
    (untimed : (sched.tcb (.slot slot)).wakeupTime = noTimeout)
    (timed : timeout ≠ noTimeout)
    (deadline : curtime + timeout ≠ noTimeout) :
    ∃ after, sched.schedRegisterTimeout (.slot slot) timeout curtime =
        .ok after ∧
      SchedInv after
        (Function.update lists .timeouts
          (sched.expired (curtime + timeout) (lists .timeouts) ++
            slot :: sched.pending (curtime + timeout) (lists .timeouts)))
        running dirty hidden ∧
      after.tcb = Function.update sched.tcb (.slot slot)
        { sched.tcb (.slot slot) with wakeupTime := curtime + timeout } ∧
      Sched.Frame sched after := by
  have awake : slot ∉ lists .timeouts := by
    rw [inv.sleeping slot usedSlot]
    simp [untimed]
  have notReady : (sched.tcb (.slot slot)).state ≠ .ready := by
    rw [isStopped]
    decide
  have unlisted : ∀ list, slot ∉ lists list :=
    SchedInv.unlisted (inv.not_queued fun apart => notReady apart.1) awake
  have split := sched.expired_append_pending (curtime + timeout)
    (lists .timeouts)
  obtain ⟨heap, registered, inserted, keys⟩ :=
    inv.schedRegisterTimeout_links usedSlot unlisted timed
  refine ⟨_, registered, inv.retime inserted keys ?_ ?_ ?_ ?_, rfl, ?_⟩
  · intro other different
    have mem : other ∈ sched.expired (curtime + timeout) (lists .timeouts) ++
          sched.pending (curtime + timeout) (lists .timeouts) ↔
        other ∈ lists .timeouts := by
      rw [split]
    rw [← mem]
    simp [different]
  · simp [deadline]
  · exact fun _ => isStopped
  · -- Everything before the thread is due no later, everything after it later.
    have sorted := inv.sorted
    rw [← split, List.pairwise_append] at sorted
    obtain ⟨front, back, across⟩ := sorted
    have notFront : ∀ other ∈
        sched.expired (curtime + timeout) (lists .timeouts),
          other ≠ slot := by
      rintro other member rfl
      exact awake (Sched.expired_subset member)
    have notBack : ∀ other ∈
        sched.pending (curtime + timeout) (lists .timeouts),
          other ≠ slot := by
      rintro other member rfl
      exact awake (split ▸ List.mem_append_right _ member)
    rw [List.pairwise_append, List.pairwise_cons]
    refine ⟨front.imp_of_mem ?_, ⟨?_, back.imp_of_mem ?_⟩, ?_⟩
    · intro first second inFirst inSecond ordered
      rwa [if_neg (notFront _ inFirst), if_neg (notFront _ inSecond)]
    · intro other member
      rw [if_pos rfl, if_neg (notBack _ member)]
      exact UInt32.le_of_lt (Sched.lt_of_mem_pending inv.sorted member)
    · intro first second inFirst inSecond ordered
      rwa [if_neg (notBack _ inFirst), if_neg (notBack _ inSecond)]
    · intro first inFirst second inSecond
      rw [if_neg (notFront _ inFirst)]
      rcases List.mem_cons.mp inSecond with rfl | inBack
      · rw [if_pos rfl]
        exact Sched.le_of_mem_expired inFirst
      · rw [if_neg (notBack _ inBack)]
        exact across first inFirst second inBack
  · exact (Sched.Frame.heap sched _).trans
      (Sched.Frame.modifyTcb _ _ _ rfl rfl rfl)

end SchedInv
end TinierOS
