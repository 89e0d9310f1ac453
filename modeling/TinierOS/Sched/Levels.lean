import TinierOS.Sched.Timeouts
import Mathlib.Tactic.FinCases

/-!
# Boosting and selecting

`sched_boost_priority` moves every queued thread one level up, and
`sched_queue_select` takes the front of the first non-empty level.
-/

namespace TinierOS

variable {limits : Limits}

/-- The lists after one level has been appended to the level above it. -/
def moveUp
    (lists : SchedList → List (Fin limits.maxThreads))
    (above : Fin 9) : SchedList → List (Fin limits.maxThreads) :=
  Function.update (Function.update lists (.queue above.succ) [])
    (.queue above.castSucc)
    (lists (.queue above.castSucc) ++ lists (.queue above.succ))

/-- The lists after a boost: level 1 joins level 0 and every lower level moves
up by one. -/
def boosted
    (lists : SchedList → List (Fin limits.maxThreads)) :
    SchedList → List (Fin limits.maxThreads)
  | .queue ⟨0, _⟩ => lists (.queue 0) ++ lists (.queue 1)
  | .queue ⟨level + 1, _⟩ =>
      if below : level + 2 < schedQueues then
        lists (.queue ⟨level + 2, below⟩)
      else []
  | .timeouts => lists .timeouts

/-- Moving a level up keeps the set of queued threads. -/
theorem mem_moveUp
    {lists : SchedList → List (Fin limits.maxThreads)}
    {above : Fin 9}
    {slot : Fin limits.maxThreads} :
    (∃ level, slot ∈ moveUp lists above (.queue level)) ↔
      ∃ level, slot ∈ lists (.queue level) := by
  have differs : above.succ ≠ above.castSucc := Fin.castSucc_lt_succ.ne'
  constructor
  · rintro ⟨level, member⟩
    by_cases isAbove : level = above.castSucc
    · subst isAbove
      rw [moveUp, Function.update_self, List.mem_append] at member
      rcases member with inAbove | inLevel
      · exact ⟨_, inAbove⟩
      · exact ⟨_, inLevel⟩
    · by_cases isLevel : level = above.succ
      · subst isLevel
        simp [moveUp, differs] at member
      · exact ⟨level, by simpa [moveUp, isAbove, isLevel] using member⟩
  · rintro ⟨level, member⟩
    by_cases isAbove : level = above.castSucc
    · subst isAbove
      exact ⟨above.castSucc, by simp [moveUp, member]⟩
    · by_cases isLevel : level = above.succ
      · subst isLevel
        exact ⟨above.castSucc, by simp [moveUp, member]⟩
      · exact ⟨level, by simpa [moveUp, isAbove, isLevel] using member⟩

/-- Going through levels 1 to 9 in this order, a thread is moved once. -/
theorem moveUp_finRange
    (lists : SchedList → List (Fin limits.maxThreads)) :
    (List.finRange 9).foldl moveUp lists = boosted lists := by
  funext list
  cases list with
  | timeouts => rfl
  | queue level => fin_cases level <;> rfl

namespace Sched

/-- The TCBs after the given threads have been boosted by one level. -/
def boostAll
    (sched : Sched limits)
    (boosted : List (Fin limits.maxThreads)) : TcbPtr limits → TCB limits :=
  sched.changeAll
    (fun block => { block with priority := block.priority - 1 }) boosted

/-- Every field except the priority is as before. -/
def SameButPriority (before after : Sched limits) : Prop :=
  ∀ tcb, after.tcb tcb =
    { before.tcb tcb with priority := (after.tcb tcb).priority }

theorem sameButPriority_boostAll
    {before after : Sched limits}
    {boosted : List (Fin limits.maxThreads)}
    (tcbs : after.tcb = before.boostAll boosted) :
    SameButPriority before after := by
  intro tcb
  rw [tcbs]
  cases tcb with
  | idle => rfl
  | slot slot =>
      simp only [boostAll, changeAll]
      split_ifs <;> rfl

theorem SameButPriority.trans
    {first second third : Sched limits}
    (before : SameButPriority first second)
    (after : SameButPriority second third) :
    SameButPriority first third := by
  intro tcb
  rw [after tcb, before tcb]

theorem boostLoop_yieldCount
    (level above : Fin schedQueues)
    (fuel : Nat)
    (sched : Sched limits)
    (count : Nat) :
    boostLoop level above fuel { sched with yieldCount := count } =
      (boostLoop level above fuel sched).map
        fun after => { after with yieldCount := count } := by
  induction fuel generalizing sched with
  | zero => rfl
  | succ fuel inductionHypothesis =>
      simp only [boostLoop]
      split_ifs with empty
      · rfl
      · split
        · rfl
        · rw [← inductionHypothesis]
          rfl

/-- The boost does not look at the yield counter. -/
theorem schedBoostPriority_yieldCount
    (sched : Sched limits)
    (count : Nat) :
    ({ sched with yieldCount := count } : Sched limits).schedBoostPriority =
      sched.schedBoostPriority.map
        fun after => { after with yieldCount := count } := by
  unfold schedBoostPriority
  generalize List.finRange 9 = levels
  induction levels generalizing sched with
  | nil => rfl
  | cons above rest inductionHypothesis =>
      simp only [List.foldlM_cons, boostLoop_yieldCount]
      cases boostLoop above.succ above.castSucc (limits.maxThreads + 1)
          sched with
      | error fault => rfl
      | ok after => exact inductionHypothesis after
end Sched

namespace SchedInv

variable {sched : Sched limits}
variable {lists : SchedList → List (Fin limits.maxThreads)}
variable {running dirty hidden : TcbPtr limits → Prop}

/-- One round of the inner boost loop. -/
theorem boostOne
    {slot : Fin limits.maxThreads}
    {rest : List (Fin limits.maxThreads)}
    {level above : Fin schedQueues}
    (inv : SchedInv sched lists running dirty fun _ => False)
    (adjacent : (level : Nat) = above + 1)
    (front : lists (.queue level) = slot :: rest) :
    SchedInv
      (({ sched with
          heap := (sched.heap.rlistPopFront (.queue level)).2.rlistPushBack
            (.queue above) (.schedNode (.slot slot)) } :
          Sched limits).modifyTcb (.slot slot) fun block =>
            { block with priority := block.priority - 1 })
      (Function.update (Function.update lists (.queue level) rest)
        (.queue above) (lists (.queue above) ++ [slot]))
      running dirty (fun _ => False) := by
  have member : slot ∈ lists (.queue level) := by
    rw [front]
    exact List.mem_cons_self ..
  have usedSlot := inv.used_of_mem member
  obtain ⟨isReady, isClean, _⟩ :=
    (inv.queued slot usedSlot).mp ⟨level, member⟩
  have priority := inv.level slot level member
  have differs : above ≠ level := by
    intro equal
    rw [equal] at adjacent
    omega
  have popped := inv.popQueue front
  -- The priority is lowered while the thread is out of the queues; the code
  -- lowers it after the push, which gives the same state.
  have lowered : SchedInv
      (({ sched with
          heap := (sched.heap.rlistPopFront (.queue level)).2 } :
          Sched limits).modifyTcb (.slot slot) fun block =>
            { block with priority := block.priority - 1 })
      (Function.update lists (.queue level) rest)
      running dirty (fun tcb => tcb = .slot slot) := by
    refine popped.modifyTcb rfl rfl ?_ (popped.isRunning _)
      (popped.isDirty _) (fun _ _ => by simp) ?_ ?_ ?_ ?_ ?_
    · have bound := level.isLt
      have small := above.isLt
      simp only [priority]
      omega
    · rintro other equal -
      cases equal
      exact usedSlot
    · rintro other equal otherUsed
      cases equal
      exact popped.queued slot otherUsed
    · rintro other which equal listed
      cases equal
      have := (popped.queued slot usedSlot).mp ⟨which, listed⟩
      exact absurd rfl this.2.2
    · rintro other equal listed
      cases equal
      exact popped.stopped slot listed
    · rintro other equal - -
      exact .inr rfl
  have newPriority :
      ((({ sched with
          heap := (sched.heap.rlistPopFront (.queue level)).2 } :
          Sched limits).modifyTcb (.slot slot) fun block =>
            { block with priority := block.priority - 1 }).tcb
          (.slot slot)).priority = (above : Nat) := by
    simp only [Sched.modifyTcb_self, priority]
    omega
  have pushed := lowered.pushQueue usedSlot (by simpa using isReady)
    (by simpa using isClean) rfl newPriority
  have relisted : Function.update lists (.queue level) rest (.queue above) =
      lists (.queue above) := Function.update_of_ne (by simpa using differs) ..
  rw [relisted] at pushed
  exact pushed.rehide (by simp) (by
    rintro other - ⟨isSlot, notSlot⟩
    exact notSlot isSlot)

/-- The inner boost loop appends one level to the level above it. -/
theorem boostLoop
    {level above : Fin schedQueues}
    {fuel : Nat}
    (inv : SchedInv sched lists running dirty fun _ => False)
    (adjacent : (level : Nat) = above + 1)
    (enough : (lists (.queue level)).length < fuel) :
    ∃ after, Sched.boostLoop level above fuel sched = .ok after ∧
      SchedInv after
        (Function.update (Function.update lists (.queue level) [])
          (.queue above) (lists (.queue above) ++ lists (.queue level)))
        running dirty (fun _ => False) ∧
      after.tcb = sched.boostAll (lists (.queue level)) ∧
      Sched.Frame sched after := by
  have differs : above ≠ level := by
    intro equal
    rw [equal] at adjacent
    omega
  induction fuel generalizing sched lists with
  | zero => omega
  | succ fuel inductionHypothesis =>
      rw [Sched.boostLoop]
      cases queue : lists (.queue level) with
      | nil =>
          have empty : sched.heap.isRlistEmpty (.queue level) = true :=
            (RlHeap.isRlistEmpty_iff inv.represents (.queue level)).mpr queue
          rw [if_pos empty]
          refine ⟨sched, rfl, ?_, (sched.changeAll_nil _).symm,
            Sched.Frame.refl sched⟩
          rw [List.append_nil, ← queue, Function.update_eq_self,
            Function.update_eq_self]
          exact inv
      | cons slot rest =>
          have member : slot ∈ lists (.queue level) := by
            rw [queue]
            exact List.mem_cons_self ..
          have notEmpty : ¬sched.heap.isRlistEmpty (.queue level) = true := by
            intro empty
            have nothing :=
              (RlHeap.isRlistEmpty_iff inv.represents (.queue level)).mp empty
            rw [nothing] at queue
            cases queue
          have first : (sched.heap (.queue level)).next =
              .schedNode (.slot slot) :=
            inv.represents.next_sentinel_cons queue
          have nodup := inv.represents.nodup (.queue level)
          rw [queue, List.nodup_cons] at nodup
          have moved := inv.boostOne adjacent queue
          have remaining : Function.update
                (Function.update lists (.queue level) rest) (.queue above)
                (lists (.queue above) ++ [slot]) (.queue level) = rest := by
            rw [Function.update_of_ne (by simpa using Ne.symm differs),
              Function.update_self]
          obtain ⟨after, looped, afterInv, afterTcb, afterFrame⟩ :=
            inductionHypothesis moved (by
              rw [remaining]
              rw [queue, List.length_cons] at enough
              omega)
          rw [remaining] at afterInv afterTcb
          refine ⟨after, ?_, ?_, ?_, ?_⟩
          · rw [if_neg notEmpty]
            simp only [RlHeap.rlistPopFront_fst, RlHeap.links_next, first,
              RlHeap.rlistPushBack_obj, RlHeap.rlistPopFront_obj,
              inv.nodeKey slot (inv.used_of_mem member)]
            exact looped
          · have relisted :
                Function.update (Function.update (Function.update
                    (Function.update lists (.queue level) rest)
                    (.queue above) (lists (.queue above) ++ [slot]))
                  (.queue level) []) (.queue above)
                  (Function.update
                    (Function.update lists (.queue level) rest)
                    (.queue above) (lists (.queue above) ++ [slot])
                    (.queue above) ++ rest) =
                Function.update (Function.update lists (.queue level) [])
                  (.queue above) (lists (.queue above) ++ slot :: rest) := by
              funext list
              by_cases isAbove : list = .queue above
              · subst isAbove
                simp
              · by_cases isLevel : list = .queue level
                · subst isLevel
                  simp [Ne.symm differs]
                · simp [isAbove, isLevel]
            rw [← relisted]
            exact afterInv
          · exact afterTcb.trans (Sched.changeAll_cons rfl nodup.1)
          · exact ((Sched.Frame.heap sched _).trans
              (Sched.Frame.modifyTcb _ _ _ rfl rfl rfl)).trans afterFrame

/-- The outer boost loop: it moves up the given levels one after the other, and
a thread that is in no queue keeps its TCB. -/
theorem boostLevels
    (inv : SchedInv sched lists running dirty fun _ => False)
    (levels : List (Fin 9)) :
    ∃ after,
      levels.foldlM
          (fun sched above => Sched.boostLoop above.succ above.castSucc
            (limits.maxThreads + 1) sched)
          sched = .ok after ∧
      SchedInv after (levels.foldl moveUp lists) running dirty
        (fun _ => False) ∧
      Sched.SameButPriority sched after ∧
      (∀ tcb, (∀ slot level, tcb = .slot slot →
        slot ∉ lists (.queue level)) → after.tcb tcb = sched.tcb tcb) ∧
      Sched.Frame sched after := by
  induction levels generalizing sched lists with
  | nil =>
      exact ⟨sched, rfl, inv, fun _ => rfl, fun _ _ => rfl,
        Sched.Frame.refl sched⟩
  | cons above rest inductionHypothesis =>
      obtain ⟨middle, looped, middleInv, middleTcb, middleFrame⟩ :=
        inv.boostLoop
          (show ((above.succ : Fin schedQueues) : Nat) =
            (above.castSucc : Fin schedQueues) + 1 by simp)
          (inv.length_lt _)
      obtain ⟨after, folded, afterInv, same, unqueued, frame⟩ :=
        inductionHypothesis middleInv
      refine ⟨after, ?_, afterInv,
        (Sched.sameButPriority_boostAll middleTcb).trans same, ?_,
        middleFrame.trans frame⟩
      · rw [List.foldlM_cons, looped]
        exact folded
      · intro tcb apart
        have stillApart : ∀ slot level, tcb = .slot slot →
            slot ∉ moveUp lists above (.queue level) := by
          intro slot level isSlot member
          obtain ⟨was, inQueue⟩ := mem_moveUp.mp ⟨level, member⟩
          exact apart slot was isSlot inQueue
        rw [unqueued tcb stillApart, middleTcb]
        cases tcb with
        | idle => rfl
        | slot slot => exact if_neg (apart slot _ rfl)

/-- A boost moves every queued thread one level up, changes nothing in a TCB
but the priority, and does not touch threads that are in no queue. -/
theorem schedBoostPriority
    (inv : SchedInv sched lists running dirty fun _ => False) :
    ∃ after, sched.schedBoostPriority = .ok after ∧
      SchedInv after (boosted lists) running dirty (fun _ => False) ∧
      Sched.SameButPriority sched after ∧
      (∀ tcb, (∀ slot level, tcb = .slot slot →
        slot ∉ lists (.queue level)) → after.tcb tcb = sched.tcb tcb) ∧
      Sched.Frame sched after := by
  rw [← moveUp_finRange]
  exact inv.boostLevels (List.finRange 9)

/-! ## Selection -/

/-- The level that `sched_queue_select` takes from. -/
theorem highestPriority
    (inv : SchedInv sched lists running dirty hidden) :
    (∃ slot rest, lists (.queue sched.highestPriority) = slot :: rest ∧
        ∀ level < sched.highestPriority, lists (.queue level) = []) ∨
      (sched.highestPriority = 0 ∧ ∀ level, lists (.queue level) = []) := by
  have empty_iff : ∀ level,
      (!sched.heap.isRlistEmpty (.queue level)) = true ↔
        lists (.queue level) ≠ [] := by
    intro level
    rw [Bool.not_eq_true', ← Bool.not_eq_true]
    exact not_congr (RlHeap.isRlistEmpty_iff inv.represents (.queue level))
  unfold Sched.highestPriority
  cases found : firstIndex fun level : Fin schedQueues =>
      !sched.heap.isRlistEmpty (.queue level) with
  | none =>
      right
      refine ⟨rfl, fun level => ?_⟩
      have nothing := firstIndex_eq_none_iff.mp found level
      by_contra nonempty
      rw [(empty_iff level).mpr nonempty] at nothing
      cases nothing
  | some level =>
      left
      obtain ⟨nonempty, below⟩ := firstIndex_eq_some_iff.mp found
      obtain ⟨slot, rest, queue⟩ :=
        List.exists_cons_of_ne_nil ((empty_iff level).mp nonempty)
      refine ⟨slot, rest, queue, fun lower smaller => ?_⟩
      by_contra nonemptyLower
      have nothing := below lower smaller
      rw [(empty_iff lower).mpr nonemptyLower] at nothing
      cases nothing

/-- `sched_queue_select` returns the front of the first non-empty level; when
all levels are empty it returns the current thread if that is ready, and the
idle thread otherwise. -/
theorem schedQueueSelect
    {current : TcbPtr limits}
    (inv : SchedInv sched lists running dirty fun _ => False)
    (isCurrent : dirty current) :
    ∃ next after lists',
      sched.schedQueueSelect current = (some next, after) ∧
      SchedInv after lists' running dirty (fun tcb => tcb = next) ∧
      after.tcb = Function.update sched.tcb next
        { sched.tcb next with its := quantum } ∧
      lists' .timeouts = lists .timeouts ∧
      Sched.Frame sched after ∧
      ((∃ level slot rest, next = .slot slot ∧
          lists (.queue level) = slot :: rest ∧
          (∀ lower < level, lists (.queue lower) = []) ∧
          lists' = Function.update lists (.queue level) rest) ∨
        ((∀ level, lists (.queue level) = []) ∧ lists' = lists ∧
          next = if (sched.tcb current).state = .ready then current
            else .idle)) := by
  rcases inv.highestPriority with
    ⟨slot, rest, queue, below⟩ | ⟨level0, allEmpty⟩
  · have member : slot ∈ lists (.queue sched.highestPriority) := by
      rw [queue]
      exact List.mem_cons_self ..
    have first : (sched.heap (.queue sched.highestPriority)).next =
        .schedNode (.slot slot) :=
      inv.represents.next_sentinel_cons queue
    have key := inv.nodeKey slot (inv.used_of_mem member)
    have popped := inv.popQueue queue
    have selected : sched.schedQueueSelect current =
        (some (.slot slot), ({ sched with
          heap := (sched.heap.rlistPopFront
            (.queue sched.highestPriority)).2 } : Sched limits).modifyTcb
          (.slot slot) fun block => { block with its := quantum }) := by
      unfold Sched.schedQueueSelect
      simp only [RlHeap.rlistPopFront_fst, RlHeap.links_next, first,
        RlHeap.rlistPopFront_obj, key, Option.orElse_some]
    exact ⟨.slot slot, _, _, selected,
      popped.modifyTcb_unobserved rfl rfl rfl rfl rfl, rfl, by simp,
      (Sched.Frame.heap sched _).trans
        (Sched.Frame.modifyTcb _ _ _ rfl rfl rfl),
      .inl ⟨_, slot, rest, rfl, queue, below, rfl⟩⟩
  · have empty : (sched.heap (.queue sched.highestPriority)).next =
        .queue sched.highestPriority :=
      (inv.represents.next_sentinel_eq_iff (.queue _)).mpr (allEmpty _)
    have key := inv.queueKey sched.highestPriority
    have unchanged :
        (sched.heap.rlistPopFront (.queue sched.highestPriority)).2 =
          sched.heap := by
      simp only [RlHeap.rlistPopFront, empty]
      exact RlHeap.rlSplice_self _ _
    have hiddenInv : SchedInv sched lists running dirty (fun tcb => tcb =
        if (sched.tcb current).state = .ready then current else .idle) := by
      refine inv.rehide ?_ (fun _ _ never => never.elim)
      intro slot _ isClean
      simp only [iff_false]
      split_ifs
      · rintro rfl
        rw [(inv.isDirty _).mpr isCurrent] at isClean
        cases isClean
      · simp
    have selected : sched.schedQueueSelect current =
        (some (if (sched.tcb current).state = .ready then current
            else .idle),
          sched.modifyTcb (if (sched.tcb current).state = .ready then current
            else .idle) fun block => { block with its := quantum }) := by
      unfold Sched.schedQueueSelect
      simp only [unchanged, RlHeap.rlistPopFront_fst, RlHeap.links_next,
        empty, key, Option.orElse_none]
    exact ⟨_, _, lists, selected,
      hiddenInv.modifyTcb_unobserved rfl rfl rfl rfl rfl, rfl, rfl,
      Sched.Frame.modifyTcb _ _ _ rfl rfl rfl, .inr ⟨allEmpty, rfl, rfl⟩⟩

end SchedInv
end TinierOS
