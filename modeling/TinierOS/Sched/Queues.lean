import TinierOS.Sched.Invariant

/-!
# Queue and timeout operations

One specification for each function that links or unlinks a `sched_node`: it
returns, it keeps the scheduler invariant, and it changes the represented lists
and the TCBs as stated.
-/

namespace TinierOS

variable {limits : Limits}

namespace Sched

/-- The front of a list of sleepers that is due at `curtime`. -/
def expired
    (sched : Sched limits)
    (curtime : TimerDuration)
    (sleepers : List (Fin limits.maxThreads)) :
    List (Fin limits.maxThreads) :=
  sleepers.takeWhile fun slot =>
    !decide (curtime < (sched.tcb (.slot slot)).wakeupTime)

/-- The rest of a list of sleepers, from the first deadline past `curtime` on. -/
def pending
    (sched : Sched limits)
    (curtime : TimerDuration)
    (sleepers : List (Fin limits.maxThreads)) :
    List (Fin limits.maxThreads) :=
  sleepers.dropWhile fun slot =>
    !decide (curtime < (sched.tcb (.slot slot)).wakeupTime)

/-- The TCBs after those of the given threads have been changed. -/
def changeAll
    (sched : Sched limits)
    (change : TCB limits → TCB limits)
    (slots : List (Fin limits.maxThreads)) : TcbPtr limits → TCB limits
  | .idle => sched.tcb .idle
  | .slot slot =>
      if slot ∈ slots then change (sched.tcb (.slot slot))
      else sched.tcb (.slot slot)

/-- The TCBs after the given sleepers have been woken. -/
def wakeAll
    (sched : Sched limits)
    (woken : List (Fin limits.maxThreads)) : TcbPtr limits → TCB limits :=
  sched.changeAll
    (fun block => { block with state := .ready, wakeupTime := noTimeout }) woken

theorem expired_nil (sched : Sched limits) (curtime : TimerDuration) :
    sched.expired curtime [] = [] := rfl

theorem expired_append_pending
    (sched : Sched limits)
    (curtime : TimerDuration)
    (sleepers : List (Fin limits.maxThreads)) :
    sched.expired curtime sleepers ++ sched.pending curtime sleepers =
      sleepers :=
  List.takeWhile_append_dropWhile

/-- Cutting the list at its first sleeper. -/
theorem expired_pending_cons
    {sched : Sched limits}
    {curtime : TimerDuration}
    {slot : Fin limits.maxThreads}
    (rest : List (Fin limits.maxThreads))
    (due : ¬curtime < (sched.tcb (.slot slot)).wakeupTime) :
    sched.expired curtime (slot :: rest) =
        slot :: sched.expired curtime rest ∧
      sched.pending curtime (slot :: rest) = sched.pending curtime rest := by
  simp [expired, pending, due]

theorem expired_pending_of_ahead
    {sched : Sched limits}
    {curtime : TimerDuration}
    {slot : Fin limits.maxThreads}
    (rest : List (Fin limits.maxThreads))
    (ahead : curtime < (sched.tcb (.slot slot)).wakeupTime) :
    sched.expired curtime (slot :: rest) = [] ∧
      sched.pending curtime (slot :: rest) = slot :: rest := by
  simp [expired, pending, ahead]

theorem expired_congr
    {before after : Sched limits}
    {curtime : TimerDuration}
    {sleepers : List (Fin limits.maxThreads)}
    (same : ∀ slot ∈ sleepers, (after.tcb (.slot slot)).wakeupTime =
      (before.tcb (.slot slot)).wakeupTime) :
    after.expired curtime sleepers = before.expired curtime sleepers := by
  induction sleepers with
  | nil => rfl
  | cons slot rest inductionHypothesis =>
      simp only [expired, List.takeWhile_cons] at inductionHypothesis ⊢
      rw [same slot (List.mem_cons_self ..),
        inductionHypothesis fun other member =>
          same other (List.mem_cons_of_mem _ member)]

theorem pending_congr
    {before after : Sched limits}
    {curtime : TimerDuration}
    {sleepers : List (Fin limits.maxThreads)}
    (same : ∀ slot ∈ sleepers, (after.tcb (.slot slot)).wakeupTime =
      (before.tcb (.slot slot)).wakeupTime) :
    after.pending curtime sleepers = before.pending curtime sleepers := by
  have cut := (after.expired_append_pending curtime sleepers).trans
    (before.expired_append_pending curtime sleepers).symm
  rw [expired_congr same] at cut
  exact List.append_cancel_left cut

theorem expired_subset
    {sched : Sched limits}
    {curtime : TimerDuration}
    {sleepers : List (Fin limits.maxThreads)}
    {slot : Fin limits.maxThreads}
    (member : slot ∈ sched.expired curtime sleepers) :
    slot ∈ sleepers :=
  (List.takeWhile_prefix _).subset member

theorem changeAll_nil
    (sched : Sched limits)
    (change : TCB limits → TCB limits) :
    sched.changeAll change [] = sched.tcb := by
  funext tcb
  cases tcb with
  | idle => rfl
  | slot slot => simp [changeAll]

/-- Changing one TCB and then the others is changing all of them. -/
theorem changeAll_cons
    {before after : Sched limits}
    {change : TCB limits → TCB limits}
    {slot : Fin limits.maxThreads}
    {rest : List (Fin limits.maxThreads)}
    (first : after.tcb = Function.update before.tcb (.slot slot)
      (change (before.tcb (.slot slot))))
    (fresh : slot ∉ rest) :
    after.changeAll change rest = before.changeAll change (slot :: rest) := by
  funext tcb
  cases tcb with
  | idle => simp [changeAll, first]
  | slot other =>
      by_cases same : other = slot
      · subst same
        simp [changeAll, first, fresh]
      · simp [changeAll, first, same]

theorem wakeAll_state_of_mem
    {sched : Sched limits}
    {woken : List (Fin limits.maxThreads)}
    {slot : Fin limits.maxThreads}
    (member : slot ∈ woken) :
    (sched.wakeAll woken (.slot slot)).state = .ready := by
  simp [wakeAll, changeAll, member]

theorem wakeAll_cases
    (sched : Sched limits)
    (woken : List (Fin limits.maxThreads))
    (tcb : TcbPtr limits) :
    sched.wakeAll woken tcb = sched.tcb tcb ∨
      ∃ slot, tcb = .slot slot ∧ slot ∈ woken := by
  cases tcb with
  | idle => exact .inl rfl
  | slot slot =>
      by_cases member : slot ∈ woken
      · exact .inr ⟨slot, rfl, member⟩
      · exact .inl (if_neg member)

/-- What queue operations leave alone. -/
structure Frame (before after : Sched limits) : Prop
    extends SameOwners before after where
  threadUsed : after.threadUsed = before.threadUsed
  currentThread : after.currentThread = before.currentThread
  yieldCount : after.yieldCount = before.yieldCount

namespace Frame

theorem refl (sched : Sched limits) : Frame sched sched :=
  ⟨SameOwners.refl sched, rfl, rfl, rfl⟩

theorem trans
    {first second third : Sched limits}
    (before : Frame first second)
    (after : Frame second third) :
    Frame first third where
  toSameOwners := before.toSameOwners.trans after.toSameOwners
  threadUsed := after.threadUsed.trans before.threadUsed
  currentThread := after.currentThread.trans before.currentThread
  yieldCount := after.yieldCount.trans before.yieldCount

theorem modifyTcb
    (sched : Sched limits)
    (tcb : TcbPtr limits)
    (change : TCB limits → TCB limits)
    (ownerPcb : (change (sched.tcb tcb)).ownerPcb = (sched.tcb tcb).ownerPcb)
    (ptcb : (change (sched.tcb tcb)).ptcb = (sched.tcb tcb).ptcb)
    (threadFunc :
      (change (sched.tcb tcb)).threadFunc = (sched.tcb tcb).threadFunc) :
    Frame sched (sched.modifyTcb tcb change) :=
  ⟨SameOwners.modifyTcb sched tcb change ownerPcb ptcb threadFunc, rfl, rfl,
    rfl⟩

theorem heap
    (sched : Sched limits)
    (heap : RlHeap (SchedNode limits) (Option (TcbPtr limits))) :
    Frame sched { sched with heap := heap } :=
  ⟨SameOwners.of_tcb_eq rfl, rfl, rfl, rfl⟩

end Frame

theorem queueIndex_of_range
    {priority : Int}
    (range : 0 ≤ priority ∧ priority < schedQueues) :
    ∃ level : Fin schedQueues,
      queueIndex priority = some level ∧ priority = (level : Nat) := by
  have inRange : 0 ≤ priority ∧ priority.toNat < schedQueues := by omega
  refine ⟨⟨priority.toNat, inRange.2⟩, ?_, ?_⟩
  · rw [queueIndex, dif_pos inRange]
  · exact (Int.toNat_of_nonneg range.1).symm

end Sched

namespace SchedInv

variable {sched : Sched limits}
variable {lists : SchedList → List (Fin limits.maxThreads)}
variable {running dirty hidden : TcbPtr limits → Prop}

/-- Changes of the heap that keep the keys and the timeout list. -/
theorem requeue
    {heap : RlHeap (SchedNode limits) (Option (TcbPtr limits))}
    {lists' : SchedList → List (Fin limits.maxThreads)}
    {hidden' : TcbPtr limits → Prop}
    (inv : SchedInv sched lists running dirty hidden)
    (represents : (schedLayout limits).Represents heap.links lists'
      (fun slot => sched.threadUsed slot = true))
    (keys : ∀ node, (heap node).obj = (sched.heap node).obj)
    (timeouts : lists' .timeouts = lists .timeouts)
    (queued : ∀ slot, sched.threadUsed slot = true →
      ((∃ level, slot ∈ lists' (.queue level)) ↔
        (sched.tcb (.slot slot)).state = .ready ∧
          (sched.tcb (.slot slot)).phase = .ctxClean ∧
            ¬hidden' (.slot slot)))
    (level : ∀ slot level, slot ∈ lists' (.queue level) →
      (sched.tcb (.slot slot)).priority = (level : Nat))
    (exited : ∀ slot, (sched.tcb (.slot slot)).state = .exited →
      hidden (.slot slot) → hidden' (.slot slot)) :
    SchedInv { sched with heap := heap } lists' running dirty hidden' where
  represents := represents
  queueKey := fun which => (keys _).trans (inv.queueKey which)
  nodeKey := fun slot usedSlot => (keys _).trans (inv.nodeKey slot usedSlot)
  queued := queued
  level := level
  sleeping := by
    rw [timeouts]
    exact inv.sleeping
  stopped := by
    rw [timeouts]
    exact inv.stopped
  sorted := by
    rw [timeouts]
    exact inv.sorted
  isRunning := inv.isRunning
  isDirty := inv.isDirty
  dirtyUsed := inv.dirtyUsed
  exited := fun slot usedSlot isExited =>
    (inv.exited slot usedSlot isExited).imp_right (exited slot isExited)
  normal := inv.normal
  idle := inv.idle
  priority := inv.priority
  yieldCount := inv.yieldCount
  active := inv.active

/-- The hidden set only matters at threads that are ready and clean, and at
exited ones. -/
theorem rehide
    {hidden' : TcbPtr limits → Prop}
    (inv : SchedInv sched lists running dirty hidden)
    (same : ∀ slot, (sched.tcb (.slot slot)).state = .ready →
      (sched.tcb (.slot slot)).phase = .ctxClean →
        (hidden' (.slot slot) ↔ hidden (.slot slot)))
    (exited : ∀ slot, (sched.tcb (.slot slot)).state = .exited →
      hidden (.slot slot) → hidden' (.slot slot)) :
    SchedInv sched lists running dirty hidden' :=
  { inv with
    queued := by
      intro slot usedSlot
      rw [inv.queued slot usedSlot]
      constructor
      · rintro ⟨isReady, isClean, visible⟩
        exact ⟨isReady, isClean,
          fun now => visible ((same slot isReady isClean).mp now)⟩
      · rintro ⟨isReady, isClean, visible⟩
        exact ⟨isReady, isClean,
          fun before => visible ((same slot isReady isClean).mpr before)⟩
    exited := fun slot usedSlot isExited =>
      (inv.exited slot usedSlot isExited).imp_right (exited slot isExited) }

/-- Linking a hidden thread at the end of the queue of its priority. -/
theorem pushQueue
    {slot : Fin limits.maxThreads}
    {level : Fin schedQueues}
    (inv : SchedInv sched lists running dirty hidden)
    (usedSlot : sched.threadUsed slot = true)
    (isReady : (sched.tcb (.slot slot)).state = .ready)
    (isClean : (sched.tcb (.slot slot)).phase = .ctxClean)
    (isHidden : hidden (.slot slot))
    (priority : (sched.tcb (.slot slot)).priority = (level : Nat)) :
    SchedInv { sched with
        heap := sched.heap.rlistPushBack (.queue level)
          (.schedNode (.slot slot)) }
      (Function.update lists (.queue level) (lists (.queue level) ++ [slot]))
      running dirty (fun tcb => hidden tcb ∧ tcb ≠ .slot slot) := by
  have unlisted : ∀ list, slot ∉ lists list :=
    SchedInv.unlisted (inv.not_queued fun apart => apart.2.2 isHidden)
      (inv.awake (by rw [isReady]; decide))
  have pushed := inv.represents.push_back usedSlot unlisted (.queue level)
  refine inv.requeue (by simpa using pushed) (fun node => by simp)
    (by simp) ?_ ?_ ?_
  · intro other otherUsed
    by_cases same : other = slot
    · subst same
      constructor
      · intro _
        exact ⟨isReady, isClean, by simp⟩
      · intro _
        exact ⟨level, by simp⟩
    · have listed : (∃ which, other ∈ Function.update lists (.queue level)
            (lists (.queue level) ++ [slot]) (.queue which)) ↔
          ∃ which, other ∈ lists (.queue which) := by
        refine exists_congr fun which => ?_
        by_cases there : which = level
        · subst there
          simp [same]
        · simp [there]
      rw [listed, inv.queued other otherUsed]
      simp [same]
  · intro other which member
    by_cases there : which = level
    · subst there
      rw [Function.update_self, List.mem_append, List.mem_singleton] at member
      rcases member with member | rfl
      · exact inv.level other which member
      · exact priority
    · rw [Function.update_of_ne (by simpa using there)] at member
      exact inv.level other which member
  · intro other isExited wasHidden
    refine ⟨wasHidden, ?_⟩
    rintro equal
    cases equal
    rw [isReady] at isExited
    cases isExited

/-- Unlinking the front of a queue puts that thread in transit. -/
theorem popQueue
    {slot : Fin limits.maxThreads}
    {rest : List (Fin limits.maxThreads)}
    {level : Fin schedQueues}
    (inv : SchedInv sched lists running dirty fun _ => False)
    (front : lists (.queue level) = slot :: rest) :
    SchedInv { sched with
        heap := (sched.heap.rlistPopFront (.queue level)).2 }
      (Function.update lists (.queue level) rest)
      running dirty (fun tcb => tcb = .slot slot) := by
  have popped := inv.represents.pop_front front
  have nodup := inv.represents.nodup (.queue level)
  rw [front, List.nodup_cons] at nodup
  have member : slot ∈ lists (.queue level) := by
    rw [front]
    exact List.mem_cons_self ..
  refine inv.requeue (by simpa using popped) (fun node => by simp)
    (by simp) ?_ ?_ ?_
  · intro other otherUsed
    by_cases same : other = slot
    · subst same
      have gone : ¬∃ which, other ∈
          Function.update lists (.queue level) rest (.queue which) := by
        rintro ⟨which, listed⟩
        by_cases there : which = level
        · subst there
          rw [Function.update_self] at listed
          exact nodup.1 listed
        · rw [Function.update_of_ne (by simpa using there)] at listed
          have := inv.represents.unique listed member
          exact there (by simpa using this)
      simp only [gone, false_iff]
      simp
    · have listed : (∃ which, other ∈
            Function.update lists (.queue level) rest (.queue which)) ↔
          ∃ which, other ∈ lists (.queue which) := by
        refine exists_congr fun which => ?_
        by_cases there : which = level
        · subst there
          simp [front, same]
        · simp [there]
      rw [listed, inv.queued other otherUsed]
      simp [same]
  · intro other which listed
    by_cases there : which = level
    · subst there
      rw [Function.update_self] at listed
      refine inv.level other which ?_
      rw [front]
      exact List.mem_cons_of_mem _ listed
    · rw [Function.update_of_ne (by simpa using there)] at listed
      exact inv.level other which listed
  · intro other _ wasHidden
    exact wasHidden.elim

/-- `sched_queue_add` puts a ready and clean thread at the end of the queue of
its priority. -/
theorem schedQueueAdd
    {slot : Fin limits.maxThreads}
    (inv : SchedInv sched lists running dirty hidden)
    (usedSlot : sched.threadUsed slot = true)
    (isReady : (sched.tcb (.slot slot)).state = .ready)
    (isClean : (sched.tcb (.slot slot)).phase = .ctxClean)
    (isHidden : hidden (.slot slot)) :
    ∃ level : Fin schedQueues,
      (sched.tcb (.slot slot)).priority = (level : Nat) ∧
      sched.schedQueueAdd (.slot slot) = .ok { sched with
        heap := sched.heap.rlistPushBack (.queue level)
          (.schedNode (.slot slot)) } ∧
      SchedInv { sched with
          heap := sched.heap.rlistPushBack (.queue level)
            (.schedNode (.slot slot)) }
        (Function.update lists (.queue level)
          (lists (.queue level) ++ [slot]))
        running dirty (fun tcb => hidden tcb ∧ tcb ≠ .slot slot) := by
  obtain ⟨level, index, priority⟩ :=
    Sched.queueIndex_of_range (inv.priority (.slot slot))
  exact ⟨level, priority, by simp [Sched.schedQueueAdd, index],
    inv.pushQueue usedSlot isReady isClean isHidden priority⟩

/-- Changes of the timeout list and of one thread's `wakeup_time`. -/
theorem retime
    {heap : RlHeap (SchedNode limits) (Option (TcbPtr limits))}
    {timeouts : List (Fin limits.maxThreads)}
    {slot : Fin limits.maxThreads}
    {time : TimerDuration}
    (inv : SchedInv sched lists running dirty hidden)
    (represents : (schedLayout limits).Represents heap.links
      (Function.update lists .timeouts timeouts)
      (fun slot => sched.threadUsed slot = true))
    (keys : ∀ node, (heap node).obj = (sched.heap node).obj)
    (others : ∀ other, other ≠ slot →
      (other ∈ timeouts ↔ other ∈ lists .timeouts))
    (asleep : slot ∈ timeouts ↔ time ≠ noTimeout)
    (isStopped : slot ∈ timeouts →
      (sched.tcb (.slot slot)).state = .stopped)
    (sorted : timeouts.Pairwise fun first second =>
      (if first = slot then time
        else (sched.tcb (.slot first)).wakeupTime) ≤
      (if second = slot then time
        else (sched.tcb (.slot second)).wakeupTime)) :
    SchedInv
      (({ sched with heap := heap } : Sched limits).modifyTcb (.slot slot)
        fun block => { block with wakeupTime := time })
      (Function.update lists .timeouts timeouts) running dirty hidden := by
  have kept : ∀ tcb,
      ((({ sched with heap := heap } : Sched limits).modifyTcb (.slot slot)
        fun block => { block with wakeupTime := time }).tcb tcb) =
          { sched.tcb tcb with
            wakeupTime := if tcb = .slot slot then time
              else (sched.tcb tcb).wakeupTime } := by
    intro tcb
    by_cases same : tcb = .slot slot
    · subst same
      simp
    · rw [Sched.modifyTcb_of_ne same, if_neg same]
  refine
    { represents := represents
      queueKey := fun which => (keys _).trans (inv.queueKey which)
      nodeKey := fun other usedSlot =>
        (keys _).trans (inv.nodeKey other usedSlot)
      queued := ?_
      level := ?_
      sleeping := ?_
      stopped := ?_
      sorted := ?_
      isRunning := fun tcb => ?_
      isDirty := fun tcb => ?_
      dirtyUsed := inv.dirtyUsed
      exited := ?_
      normal := ?_
      idle := inv.idle
      priority := fun tcb => ?_
      yieldCount := inv.yieldCount
      active := inv.active }
  · intro other usedSlot
    rw [kept]
    simpa using inv.queued other usedSlot
  · intro other which member
    rw [Function.update_of_ne (by simp)] at member
    rw [kept]
    exact inv.level other which member
  · intro other usedSlot
    rw [Function.update_self, kept]
    by_cases same : other = slot
    · subst same
      simpa using asleep
    · rw [others other same]
      simpa [same] using inv.sleeping other usedSlot
  · intro other member
    rw [Function.update_self] at member
    rw [kept]
    by_cases same : other = slot
    · subst same
      exact isStopped member
    · exact inv.stopped other ((others other same).mp member)
  · rw [Function.update_self]
    refine sorted.imp ?_
    intro first second ordered
    rw [kept, kept]
    simpa using ordered
  · rw [kept]
    exact inv.isRunning tcb
  · rw [kept]
    exact inv.isDirty tcb
  · intro other usedSlot isExited
    rw [kept] at isExited
    exact inv.exited other usedSlot isExited
  · intro other usedSlot
    rw [kept]
    exact inv.normal other usedSlot
  · rw [kept]
    exact inv.priority tcb

/-- The first half of `sched_make_ready` takes the thread out of the timeout
list, if it is there. -/
theorem cancelTimeout
    {slot : Fin limits.maxThreads}
    (inv : SchedInv sched lists running dirty hidden)
    (usedSlot : sched.threadUsed slot = true) :
    ∃ after, sched.cancelTimeout (.slot slot) = .ok after ∧
      SchedInv after
        (Function.update lists .timeouts ((lists .timeouts).erase slot))
        running dirty hidden ∧
      after.tcb = Function.update sched.tcb (.slot slot)
        { sched.tcb (.slot slot) with wakeupTime := noTimeout } ∧
      Sched.Frame sched after := by
  have nodup := inv.represents.nodup .timeouts
  by_cases asleep : slot ∈ lists .timeouts
  · have timed := (inv.sleeping slot usedSlot).mp asleep
    have isStopped := inv.stopped slot asleep
    have linked := inv.represents.next_cell_ne asleep
    simp only [RlHeap.links_next, schedLayout_cell] at linked
    have removed := inv.represents.remove asleep
    refine ⟨_, by rw [Sched.cancelTimeout, if_neg timed,
      if_pos ⟨linked, isStopped⟩], ?_, rfl, ?_⟩
    · refine inv.retime (by simpa using removed) (fun node => by simp)
        ?_ ?_ ?_ ?_
      · intro other different
        rw [nodup.mem_erase_iff]
        exact and_iff_right different
      · simp [nodup.mem_erase_iff]
      · exact fun _ => isStopped
      · refine (inv.sorted.sublist List.erase_sublist).imp_of_mem ?_
        intro first second inFirst inSecond ordered
        rw [nodup.mem_erase_iff] at inFirst inSecond
        rwa [if_neg inFirst.1, if_neg inSecond.1]
    · exact (Sched.Frame.heap sched _).trans
        (Sched.Frame.modifyTcb _ _ _ rfl rfl rfl)
  · have untimed : (sched.tcb (.slot slot)).wakeupTime = noTimeout := by
      by_contra timed
      exact asleep ((inv.sleeping slot usedSlot).mpr timed)
    refine ⟨sched, by rw [Sched.cancelTimeout, if_pos untimed], ?_, ?_,
      Sched.Frame.refl sched⟩
    · rw [List.erase_of_not_mem asleep, Function.update_eq_self]
      exact inv
    · rw [← untimed, Function.update_eq_self]

/-- A thread that is in no list becomes ready: until it is queued, it is the
only one in transit. -/
theorem markReady
    {slot : Fin limits.maxThreads}
    (inv : SchedInv sched lists running dirty fun _ => False)
    (usedSlot : sched.threadUsed slot = true)
    (notRunning : (sched.tcb (.slot slot)).state ≠ .running)
    (notQueued : ∀ level, slot ∉ lists (.queue level))
    (awake : slot ∉ lists .timeouts) :
    SchedInv
      (sched.modifyTcb (.slot slot) fun block => { block with state := .ready })
      lists running dirty (fun tcb => tcb = .slot slot) := by
  refine inv.modifyTcb rfl rfl (inv.priority _) ?_ (inv.isDirty _) ?_ ?_ ?_ ?_
    ?_ ?_
  · rw [← inv.isRunning]
    simp [notRunning]
  · intro other different
    simp [different]
  · rintro other equal -
    cases equal
    exact usedSlot
  · rintro other equal -
    cases equal
    simpa using notQueued
  · rintro other level equal member
    cases equal
    exact absurd member (notQueued level)
  · rintro other equal member
    cases equal
    exact absurd member awake
  · simp

/-- `sched_make_ready` wakes a stopped or new thread: it leaves the timeout list
and, unless it is still on the core, joins the queue of its priority. -/
theorem schedMakeReady
    {slot : Fin limits.maxThreads}
    (inv : SchedInv sched lists running dirty fun _ => False)
    (usedSlot : sched.threadUsed slot = true)
    (waiting : (sched.tcb (.slot slot)).state = .stopped ∨
      (sched.tcb (.slot slot)).state = .init) :
    ∃ after lists', sched.schedMakeReady (.slot slot) = .ok after ∧
      SchedInv after lists' running dirty (fun _ => False) ∧
      after.tcb = Function.update sched.tcb (.slot slot)
        { sched.tcb (.slot slot) with
          state := .ready, wakeupTime := noTimeout } ∧
      lists' .timeouts = (lists .timeouts).erase slot ∧
      (∀ level, lists' (.queue level) =
        if (sched.tcb (.slot slot)).phase = .ctxClean ∧
            (sched.tcb (.slot slot)).priority = (level : Nat) then
          lists (.queue level) ++ [slot]
        else lists (.queue level)) ∧
      Sched.Frame sched after := by
  obtain ⟨woken, cancelled, wokenInv, wokenTcb, wokenFrame⟩ :=
    inv.cancelTimeout usedSlot
  have notReady : (sched.tcb (.slot slot)).state ≠ .ready := by
    rcases waiting with state | state <;> rw [state] <;> decide
  have notRunning : (sched.tcb (.slot slot)).state ≠ .running := by
    rcases waiting with state | state <;> rw [state] <;> decide
  have wokenUsed : woken.threadUsed slot = true := by
    rw [wokenFrame.threadUsed]
    exact usedSlot
  have notListed : ∀ level, slot ∉ Function.update lists .timeouts
      ((lists .timeouts).erase slot) (.queue level) := by
    intro level
    rw [Function.update_of_ne (by simp)]
    exact inv.not_queued (fun apart => notReady apart.1) level
  have awake : slot ∉ Function.update lists .timeouts
      ((lists .timeouts).erase slot) .timeouts := by
    rw [Function.update_self,
      (inv.represents.nodup .timeouts).mem_erase_iff]
    simp
  have markedInv := wokenInv.markReady wokenUsed
    (by rw [Ne, wokenInv.isRunning, ← inv.isRunning]; exact notRunning)
    notListed awake
  have markedTcb :
      (woken.modifyTcb (.slot slot) fun block =>
        { block with state := .ready }).tcb =
      Function.update sched.tcb (.slot slot)
        { sched.tcb (.slot slot) with
          state := .ready, wakeupTime := noTimeout } := by
    simp [Sched.modifyTcb, wokenTcb]
  have markedFrame : Sched.Frame sched
      (woken.modifyTcb (.slot slot) fun block =>
        { block with state := .ready }) :=
    wokenFrame.trans (Sched.Frame.modifyTcb _ _ _ rfl rfl rfl)
  have unfolded : sched.schedMakeReady (.slot slot) =
      if ((woken.modifyTcb (.slot slot) fun block =>
            { block with state := .ready }).tcb (.slot slot)).phase =
          .ctxClean then
        (woken.modifyTcb (.slot slot) fun block =>
          { block with state := .ready }).schedQueueAdd (.slot slot)
      else .ok (woken.modifyTcb (.slot slot) fun block =>
        { block with state := .ready }) := by
    rw [Sched.schedMakeReady, if_pos waiting, cancelled]
    rfl
  generalize woken.modifyTcb (.slot slot) (fun block =>
    { block with state := .ready }) = marked at *
  have markedPhase : (marked.tcb (.slot slot)).phase =
      (sched.tcb (.slot slot)).phase := by
    simp [markedTcb]
  have markedPriority : (marked.tcb (.slot slot)).priority =
      (sched.tcb (.slot slot)).priority := by
    simp [markedTcb]
  by_cases isClean : (sched.tcb (.slot slot)).phase = .ctxClean
  · rw [if_pos (markedPhase.trans isClean)] at unfolded
    obtain ⟨level, priority, added, addedInv⟩ := markedInv.schedQueueAdd
      (by rw [markedFrame.threadUsed]; exact usedSlot)
      (by simp [markedTcb]) (markedPhase.trans isClean) rfl
    refine ⟨_, _, unfolded.trans added, addedInv.rehide ?_ ?_, markedTcb,
      ?_, ?_, markedFrame.trans (Sched.Frame.heap marked _)⟩
    · simp
    · rintro other - ⟨isSlot, notSlot⟩
      exact notSlot isSlot
    · simp
    · intro which
      rw [markedPriority] at priority
      by_cases there : which = level
      · subst there
        simp [isClean, priority]
      · have apart : (sched.tcb (.slot slot)).priority ≠ (which : Nat) := by
          rw [priority]
          intro equal
          exact there (Fin.ext (by exact_mod_cast equal.symm))
        simp [there, apart]
  · rw [if_neg (by rwa [markedPhase])] at unfolded
    refine ⟨marked, _, unfolded, markedInv.rehide ?_ ?_, markedTcb,
      ?_, ?_, markedFrame⟩
    · rintro other - otherClean
      have different : other ≠ slot := by
        rintro rfl
        exact isClean (markedPhase.symm.trans otherClean)
      simp [different]
    · rintro other isExited equal
      cases equal
      simp [markedTcb] at isExited
    · simp
    · simp [isClean]

/-! ## Expired timeouts -/

/-- The draining loop wakes the front of the timeout list up to the first
deadline that is still ahead, in list order, and leaves the rest of it. -/
theorem wakeupExpiredLoop
    {curtime : TimerDuration}
    {fuel : Nat}
    (inv : SchedInv sched lists running dirty fun _ => False)
    (enough : (lists .timeouts).length < fuel) :
    ∃ after lists', Sched.wakeupExpiredLoop curtime fuel sched = .ok after ∧
      SchedInv after lists' running dirty (fun _ => False) ∧
      after.tcb = sched.wakeAll (sched.expired curtime (lists .timeouts)) ∧
      lists' .timeouts = sched.pending curtime (lists .timeouts) ∧
      (∀ level, lists' (.queue level) = lists (.queue level) ++
        (sched.expired curtime (lists .timeouts)).filter fun slot =>
          (sched.tcb (.slot slot)).phase = .ctxClean ∧
            (sched.tcb (.slot slot)).priority = (level : Nat)) ∧
      Sched.Frame sched after := by
  induction fuel generalizing sched lists with
  | zero => omega
  | succ fuel inductionHypothesis =>
      rw [Sched.wakeupExpiredLoop]
      cases asleep : lists .timeouts with
      | nil =>
          have empty : sched.heap.isRlistEmpty .timeoutList = true :=
            (RlHeap.isRlistEmpty_iff inv.represents .timeouts).mpr asleep
          rw [if_pos empty]
          rw [Sched.expired_nil]
          exact ⟨sched, lists, rfl, inv, (sched.changeAll_nil _).symm,
            asleep, by simp, Sched.Frame.refl sched⟩
      | cons slot rest =>
          have member : slot ∈ lists .timeouts := by
            rw [asleep]
            exact List.mem_cons_self ..
          have usedSlot := inv.used_of_mem member
          have notEmpty : ¬sched.heap.isRlistEmpty .timeoutList = true := by
            intro empty
            have := (RlHeap.isRlistEmpty_iff inv.represents .timeouts).mp empty
            rw [this] at asleep
            cases asleep
          have first : (sched.heap .timeoutList).next =
              .schedNode (.slot slot) :=
            inv.represents.next_sentinel_cons asleep
          rw [if_neg notEmpty, first, inv.nodeKey slot usedSlot]
          by_cases ahead : curtime < (sched.tcb (.slot slot)).wakeupTime
          · obtain ⟨noneExpired, allPending⟩ :=
              Sched.expired_pending_of_ahead rest ahead
            simp only [if_pos ahead, noneExpired, allPending]
            exact ⟨sched, lists, rfl, inv, (sched.changeAll_nil _).symm,
              asleep, by simp, Sched.Frame.refl sched⟩
          · obtain ⟨woken, wokenLists, made, wokenInv, wokenTcb,
              wokenTimeouts, wokenQueues, wokenFrame⟩ :=
              inv.schedMakeReady usedSlot (.inl (inv.stopped slot member))
            rw [asleep, List.erase_cons_head] at wokenTimeouts
            have nodup := inv.represents.nodup .timeouts
            rw [asleep, List.nodup_cons] at nodup
            obtain ⟨after, lists', drained, afterInv, afterTcb,
              afterTimeouts, afterQueues, afterFrame⟩ :=
              inductionHypothesis wokenInv (by
                rw [wokenTimeouts]
                rw [asleep, List.length_cons] at enough
                omega)
            have others : ∀ other ∈ rest,
                woken.tcb (.slot other) = sched.tcb (.slot other) := by
              intro other inRest
              rw [wokenTcb, Function.update_of_ne]
              rintro equal
              cases equal
              exact nodup.1 inRest
            have sameTime : ∀ other ∈ rest,
                (woken.tcb (.slot other)).wakeupTime =
                  (sched.tcb (.slot other)).wakeupTime := by
              intro other inRest
              rw [others other inRest]
            have sameExpired : woken.expired curtime rest =
                sched.expired curtime rest :=
              Sched.expired_congr sameTime
            obtain ⟨oneExpired, samePending⟩ :=
              Sched.expired_pending_cons rest ahead
            rw [wokenTimeouts, Sched.pending_congr sameTime] at afterTimeouts
            rw [wokenTimeouts, sameExpired] at afterTcb afterQueues
            simp only [if_neg ahead, oneExpired, samePending]
            refine ⟨after, lists', ?_, afterInv, ?_, ?_, ?_,
              wokenFrame.trans afterFrame⟩
            · rw [made]
              exact drained
            · exact afterTcb.trans (Sched.changeAll_cons wokenTcb fun inRest =>
                nodup.1 (Sched.expired_subset inRest))
            · exact afterTimeouts
            · intro level
              rw [afterQueues level, wokenQueues level, List.filter_cons]
              have filtered : (sched.expired curtime rest).filter
                    (fun other => (woken.tcb (.slot other)).phase =
                        .ctxClean ∧
                      (woken.tcb (.slot other)).priority = (level : Nat)) =
                  (sched.expired curtime rest).filter
                    (fun other => (sched.tcb (.slot other)).phase =
                        .ctxClean ∧
                      (sched.tcb (.slot other)).priority =
                        (level : Nat)) := by
                refine List.filter_congr fun other member => ?_
                rw [others other (Sched.expired_subset member)]
              rw [filtered]
              split_ifs <;> simp_all

/-- `sched_wakeup_expired_timeouts` wakes exactly the sleepers that are due, in
the order of the list. -/
theorem schedWakeupExpiredTimeouts
    (inv : SchedInv sched lists running dirty fun _ => False)
    (curtime : TimerDuration) :
    ∃ after lists',
      sched.schedWakeupExpiredTimeouts curtime = .ok after ∧
      SchedInv after lists' running dirty (fun _ => False) ∧
      after.tcb = sched.wakeAll (sched.expired curtime (lists .timeouts)) ∧
      lists' .timeouts = sched.pending curtime (lists .timeouts) ∧
      (∀ level, lists' (.queue level) = lists (.queue level) ++
        (sched.expired curtime (lists .timeouts)).filter fun slot =>
          (sched.tcb (.slot slot)).phase = .ctxClean ∧
            (sched.tcb (.slot slot)).priority = (level : Nat)) ∧
      Sched.Frame sched after :=
  inv.wakeupExpiredLoop (inv.length_lt .timeouts)

end SchedInv
end TinierOS
