import TinierOS.System.Boot

/-!
# Thread accounting

`active_threads` counts the slots in use and `thread_count` the threads of a
process that have not exited.  A thread that exits is counted out at once, but
its slot is given back later, by the `gain` of the thread that gets the core; in
between the thread is marked exited.
-/

namespace TinierOS

variable {limits : Limits}

namespace Kernel

/-- The threads of a process. -/
def threadsOf
    (kernel : Kernel limits)
    (pid : Fin limits.maxProc) : Finset (Fin limits.maxThreads) :=
  Finset.univ.filter fun slot =>
    kernel.threadUsed slot = true ∧ kernel.owner slot = some pid

/-- The threads of a process that have not exited. -/
def liveThreads
    (kernel : Kernel limits)
    (pid : Fin limits.maxProc) : Finset (Fin limits.maxThreads) :=
  (kernel.threadsOf pid).filter fun slot =>
    (kernel.sched.tcb (.slot slot)).state ≠ .exited

/-- The two counters agree with the thread pool. -/
structure Accounted (kernel : Kernel limits) : Prop where
  active : kernel.sched.activeThreads = kernel.sched.usedSlots.card
  threadCount : ∀ pid, kernel.threadCount pid = (kernel.liveThreads pid).card

/-- `thread_count` is the number of threads, when none has exited. -/
def CountsThreads (kernel : Kernel limits) : Prop :=
  ∀ pid, kernel.threadCount pid = (kernel.threadsOf pid).card

@[simp] theorem mem_threadsOf
    {kernel : Kernel limits}
    {pid : Fin limits.maxProc}
    {slot : Fin limits.maxThreads} :
    slot ∈ kernel.threadsOf pid ↔
      kernel.threadUsed slot = true ∧ kernel.owner slot = some pid := by
  simp [threadsOf]

namespace CountsThreads

variable {before after : Kernel limits}
variable {slot : Fin limits.maxThreads}
variable {proc : Fin limits.maxProc}

theorem of_same
    (counts : before.CountsThreads)
    (threads : SameThreads before after) :
    after.CountsThreads := by
  intro pid
  rw [threads.threadCount, counts pid]
  simp only [threadsOf, threads.used, threads.owner]

/-- A spawned thread is counted for its process. -/
theorem of_new
    (counts : before.CountsThreads)
    (thread : NewThread before after slot proc) :
    after.CountsThreads := by
  have unused : before.threadUsed slot = false :=
    Sched.freeSlot_eq_some thread.free
  intro pid
  rw [thread.threadCount, Function.update_apply]
  split_ifs with isProc
  · have grown : after.threadsOf pid = insert slot (before.threadsOf pid) := by
      ext other
      by_cases same : other = slot
      · simp [thread.used, thread.owner, same, isProc]
      · simp [thread.used, thread.owner, same]
    have fresh : slot ∉ before.threadsOf pid := by
      simp [unused]
    rw [grown, Finset.card_insert_of_notMem fresh, ← isProc, counts pid]
    push_cast
    rfl
  · have kept : after.threadsOf pid = before.threadsOf pid := by
      ext other
      by_cases same : other = slot
      · simp [thread.owner, same, unused, Ne.symm isProc]
      · simp [thread.used, thread.owner, same]
    rw [kept, counts pid]

/-- A thread that leaves is counted out. -/
theorem of_left
    (counts : before.CountsThreads)
    (usedSlot : before.threadUsed slot = true)
    (owned : before.owner slot = some proc)
    (left : ThreadLeft before after slot proc) :
    after.CountsThreads := by
  intro pid
  rw [left.threadCount, Function.update_apply]
  split_ifs with isProc
  · have shrunk : after.threadsOf pid = (before.threadsOf pid).erase slot := by
      ext other
      by_cases same : other = slot
      · simp [left.used, same]
      · simp [left.used, left.owner, same]
    have member : slot ∈ before.threadsOf pid := by
      simp [usedSlot, owned, isProc]
    have positive := Finset.card_pos.mpr ⟨slot, member⟩
    rw [shrunk, Finset.card_erase_of_mem member, ← isProc, counts pid]
    omega
  · have kept : after.threadsOf pid = before.threadsOf pid := by
      ext other
      by_cases same : other = slot
      · simp [left.used, left.owner, same, owned, Ne.symm isProc]
      · simp [left.used, left.owner, same]
    rw [kept, counts pid]

theorem of_execEffect
    {call : Option Task}
    {pid : Option (Fin limits.maxProc)}
    (counts : before.CountsThreads)
    (effect : ExecEffect before call pid after) :
    after.CountsThreads := by
  cases effect with
  | full noPcb => exact counts
  | threadless newproc noCall proc files threads ptcbs sched =>
      exact counts.of_same threads
  | failed newproc isCall noSlot proc files threads ptcbs sched =>
      exact counts.of_same threads
  | started newproc slot isCall proc files thread ptcbs current =>
      exact counts.of_new thread

end CountsThreads

theorem Fresh.countsThreads
    {kernel : Kernel limits}
    (fresh : kernel.Fresh) :
    kernel.CountsThreads := by
  intro pid
  rw [fresh.threadCount]
  simp [threadsOf, fresh.unused]

/-- A thread that is at rest has not exited. -/
theorem Resting.liveThreads
    {kernel : Kernel limits}
    (resting : kernel.Resting)
    (pid : Fin limits.maxProc) :
    kernel.liveThreads pid = kernel.threadsOf pid := by
  obtain ⟨lists, inv⟩ := resting
  refine Finset.filter_true_of_mem ?_
  intro slot member isExited
  obtain ⟨usedSlot, -⟩ := mem_threadsOf.mp member
  rcases inv.exited slot usedSlot isExited with isCurrent | hidden
  · have isRunning := (inv.isRunning (.slot slot)).mpr isCurrent
    rw [isExited] at isRunning
    cases isRunning
  · exact hidden

theorem CountsThreads.accounted
    {kernel : Kernel limits}
    (counts : kernel.CountsThreads)
    (resting : kernel.Resting) :
    kernel.Accounted := by
  refine ⟨?_, ?_⟩
  · obtain ⟨lists, inv⟩ := resting
    exact inv.active
  · intro pid
    rw [resting.liveThreads, counts pid]

end Kernel

/-- The slot that `gain` gives back: the one of the previous thread, when that
has exited. -/
def Sched.gainReleases
    (sched : Sched limits) : Option (Fin limits.maxThreads) :=
  match sched.currentThread, sched.previousThread with
  | some current, some (.slot slot) =>
      if current ≠ .slot slot ∧ (sched.tcb (.slot slot)).state = .exited then
        some slot
      else none
  | _, _ => none

/-- The scheduler between the context switch of `yield` and the `gain` of the
selected thread. -/
structure Sched.SwitchedFrom
    (sched middle : Sched limits)
    (current : TcbPtr limits) : Prop where
  active : middle.activeThreads = middle.usedSlots.card
  threadUsed : middle.threadUsed = sched.threadUsed
  owners : Sched.SameOwners sched middle
  selected : ∀ slot, middle.currentThread = some (.slot slot) →
    middle.threadUsed slot = true ∧ (middle.tcb (.slot slot)).state = .ready
  exited : ∀ slot, middle.threadUsed slot = true →
    ((middle.tcb (.slot slot)).state = .exited ↔
      current = .slot slot ∧ (sched.tcb current).state = .exited)
  releases : ∀ slot, middle.gainReleases = some slot ↔
    current = .slot slot ∧ (sched.tcb current).state = .exited
  released : ∀ slot, middle.gainReleases = some slot →
    middle.threadUsed slot = true
  gains : ∃ after lists, middle.gain = .ok after ∧ after.Resting lists ∧
    Sched.SameOwners middle after ∧
    ∀ slot, after.threadUsed slot = true ↔ middle.threadUsed slot = true ∧
      middle.gainReleases ≠ some slot

theorem SchedInv.switchedFrom
    {sched middle : Sched limits}
    {lists : SchedList → List (Fin limits.maxThreads)}
    {running : TcbPtr limits → Prop}
    {current : TcbPtr limits}
    {cause : SchedCause}
    {remaining curtime : TimerDuration}
    (inv : SchedInv sched lists running (fun tcb => tcb = current)
      (fun _ => False))
    (isCurrent : sched.currentThread = some current)
    (onlyCurrent : ∀ tcb, running tcb → tcb = current)
    (notInit : (sched.tcb current).state ≠ .init)
    (exitedSlot : (sched.tcb current).state = .exited → current ≠ .idle)
    (switched : sched.yieldSwitch cause remaining curtime = .ok middle) :
    Sched.SwitchedFrom sched middle current := by
  obtain ⟨next, middle', lists', switchedEq, middleInv, nextCurrent, previous,
    owners, threadUsed, nextReady, stillNotInit, stillExited, -⟩ :=
      inv.yieldSwitch cause remaining curtime isCurrent onlyCurrent notInit
  rw [switched] at switchedEq
  cases switchedEq
  have selected : ∀ slot, middle.currentThread = some (.slot slot) →
      middle.threadUsed slot = true ∧
        (middle.tcb (.slot slot)).state = .ready := by
    intro slot isSlot
    rw [nextCurrent] at isSlot
    cases isSlot
    rw [threadUsed]
    exact nextReady slot rfl
  have apart : (middle.tcb current).state = .exited →
      current ≠ .idle ∧ current ≠ next := by
    intro isExited
    have notIdle := exitedSlot (stillExited.mp isExited)
    exact ⟨notIdle, SchedInv.exited_apart
      (fun slot isSlot => (nextReady slot isSlot).2) notIdle isExited⟩
  have releases : ∀ slot, middle.gainReleases = some slot ↔
      current = .slot slot ∧ (sched.tcb current).state = .exited := by
    intro slot
    rw [← stillExited, Sched.gainReleases, nextCurrent, previous]
    cases current with
    | idle => simp
    | slot own =>
        simp only [Option.ite_none_right_eq_some, Option.some.injEq,
          TcbPtr.slot.injEq]
        constructor
        · rintro ⟨⟨-, isExited⟩, isSlot⟩
          exact ⟨isSlot, isExited⟩
        · rintro ⟨isSlot, isExited⟩
          exact ⟨⟨Ne.symm (apart isExited).2, isExited⟩, isSlot⟩
  refine ⟨middleInv.active, threadUsed, owners, selected, ?_, releases, ?_,
    ?_⟩
  · intro slot usedSlot
    constructor
    · intro isExited
      rcases middleInv.exited slot usedSlot isExited with isOwn | isNext
      · rw [isOwn] at isExited
        exact ⟨isOwn.symm, stillExited.mp isExited⟩
      · subst isNext
        rw [(nextReady slot rfl).2] at isExited
        cases isExited
    · rintro ⟨rfl, isExited⟩
      exact stillExited.mpr isExited
  · intro slot released
    obtain ⟨isOwn, -⟩ := (releases slot).mp released
    exact middleInv.dirtyUsed slot isOwn.symm
  · obtain ⟨after, lists'', gained, -, resting, afterOwners, afterUsed, -⟩ :=
      middleInv.gain nextCurrent previous
        (fun slot isSlot => by
          rw [threadUsed]
          exact nextReady slot isSlot)
        stillNotInit apart
    refine ⟨after, lists'', gained, resting, afterOwners, ?_⟩
    intro slot
    rw [afterUsed, ne_eq, releases, ← stillExited]
    split_ifs with isExited
    · cases current with
      | idle => exact absurd rfl (apart isExited).1
      | slot own =>
          by_cases same : slot = own
          · simp [Sched.freeThread, same, isExited]
          · simp [Sched.freeThread, same, Ne.symm same]
    · simp [isExited]

namespace System

open Kernel

variable {system before after : System limits}
variable {action : Action limits}

/-! ## Between two threads -/

/-- The kernel after the context switch of a step, before the `gain` of the
thread that gets the core.  A call that yields has left the tables as they are;
`Exit` and `ThreadExit` have marked the thread. -/
inductive Switched (system : System limits) : Kernel limits → Prop
  | yielded
      {cause : SchedCause}
      {clock : Clock}
      {sched : Sched limits}
      (switched : system.kernel.sched.yieldSwitch cause clock.remaining
        clock.curtime = .ok sched) :
      Switched system { system.kernel with sched := sched }
  | left
      {kernel : Kernel limits}
      {slot : Fin limits.maxThreads}
      {proc : Fin limits.maxProc}
      {exitval : Int}
      {clock : Clock}
      {marked sched : Sched limits}
      (isCurrent : system.currentSlot = some slot)
      (owned : system.kernel.owner slot = some proc)
      (call : kernel = system.kernel ∨
        kernel = system.kernel.markExit proc exitval)
      (mark : kernel.sched.sleepMark .exited noTimeout 0 = .ok marked)
      (switched : marked.yieldSwitch .user clock.remaining clock.curtime =
        .ok sched) :
      Switched system { kernel.markThreadExit (.slot slot) proc exitval with
        sched := sched }

/-- What holds between two threads: the counters are right, the selected thread
has not exited, and `gain` gives back at most the slot of the previous thread,
which is in use, has exited and does not have the core. -/
structure HandOver (kernel : Kernel limits) : Prop where
  accounted : kernel.Accounted
  selected : ∀ slot, kernel.sched.currentThread = some (.slot slot) →
    kernel.threadUsed slot = true ∧
      (kernel.sched.tcb (.slot slot)).state = .ready
  releases : ∀ slot, kernel.sched.gainReleases = some slot →
    kernel.threadUsed slot = true ∧
      (kernel.sched.tcb (.slot slot)).state = .exited ∧
      kernel.sched.currentThread ≠ some (.slot slot)
  gains : ∃ sched, kernel.sched.gain = .ok sched ∧
    ({ kernel with sched := sched } : Kernel limits).Accounted ∧
    ∀ slot, sched.threadUsed slot = true ↔ kernel.threadUsed slot = true ∧
      kernel.sched.gainReleases ≠ some slot

/-- The counters are right at the switch when they are right after `gain`: the
threads that have not exited are those that keep their slots. -/
theorem handOver_of_switchedFrom
    {kernel : Kernel limits}
    {sched middle : Sched limits}
    {current : TcbPtr limits}
    (switched : Sched.SwitchedFrom sched middle current)
    (counts : ∀ after, middle.gain = .ok after →
      ({ kernel with sched := after } : Kernel limits).CountsThreads) :
    HandOver { kernel with sched := middle } := by
  obtain ⟨after, lists, gained, resting, owners, used⟩ := switched.gains
  have afterCounts := counts after gained
  have afterResting : ({ kernel with sched := after } :
      Kernel limits).Resting := ⟨lists, resting⟩
  have live : ∀ pid,
      ({ kernel with sched := middle } : Kernel limits).liveThreads pid =
        ({ kernel with sched := after } : Kernel limits).threadsOf pid := by
    intro pid
    ext slot
    have sameOwner : (after.tcb (.slot slot)).ownerPcb =
        (middle.tcb (.slot slot)).ownerPcb := owners.ownerPcb _
    simp only [liveThreads, Finset.mem_filter, mem_threadsOf, threadUsed,
      owner, used, sameOwner, ne_eq]
    constructor
    · rintro ⟨⟨usedSlot, owned⟩, notExited⟩
      refine ⟨⟨usedSlot, fun released => notExited ?_⟩, owned⟩
      exact (switched.exited slot usedSlot).mpr
        ((switched.releases slot).mp released)
    · rintro ⟨⟨usedSlot, kept⟩, owned⟩
      refine ⟨⟨usedSlot, owned⟩, fun isExited => kept ?_⟩
      exact (switched.releases slot).mpr
        ((switched.exited slot usedSlot).mp isExited)
  refine ⟨⟨switched.active, ?_⟩, switched.selected, ?_, after, gained,
    afterCounts.accounted afterResting, used⟩
  · intro pid
    rw [live]
    exact afterCounts pid
  · intro slot releases
    have usedSlot := switched.released slot releases
    have isExited := (switched.exited slot usedSlot).mpr
      ((switched.releases slot).mp releases)
    refine ⟨usedSlot, isExited, ?_⟩
    intro isSlot
    have isReady := (switched.selected slot isSlot).2
    rw [isExited] at isReady
    cases isReady

theorem Switched.handOver
    {kernel : Kernel limits}
    (sound : system.Sound)
    (counts : system.kernel.CountsThreads)
    (switched : Switched system kernel) :
    HandOver kernel ∧ kernel.threadUsed = system.kernel.threadUsed := by
  obtain ⟨lists, resting⟩ := sound.resting
  obtain ⟨current, isCurrent⟩ := Option.ne_none_iff_exists'.mp sound.started
  have inv := (Sched.resting_iff isCurrent).mp resting
  have isRunning := (inv.isRunning current).mpr rfl
  cases switched with
  | @yielded cause clock sched switched =>
      have facts := inv.switchedFrom isCurrent (fun _ running => running)
        (by rw [isRunning]; decide) (by rw [isRunning]; simp) switched
      refine ⟨handOver_of_switchedFrom facts ?_, facts.threadUsed⟩
      intro after gained
      obtain ⟨after', lists', gained', -, owners, used⟩ := facts.gains
      rw [gained] at gained'
      cases gained'
      have sameUsed : after.threadUsed = system.kernel.sched.threadUsed := by
        funext slot
        have kept := used slot
        rw [facts.threadUsed, ne_eq, facts.releases, isRunning] at kept
        rw [Bool.eq_iff_iff]
        simpa using kept
      refine counts.of_same ⟨sameUsed, ?_, rfl⟩
      · funext slot
        exact (facts.owners.trans owners).ownerPcb _
  | @left kernel slot proc exitval clock marked sched isSlot owned call mark
      switched =>
      have current' := currentSlot_eq_some.mp isSlot
      rw [isCurrent] at current'
      cases current'
      have sameSched : kernel.sched = system.kernel.sched := by
        rcases call with rfl | rfl <;> rfl
      have sameCount : kernel.threadCount = system.kernel.threadCount := by
        rcases call with rfl | rfl
        · rfl
        · exact same_column_of_pcb PCB.threadCount rfl rfl
      rw [sameSched] at mark
      obtain ⟨marked', lists', mark', markedInv, frame⟩ :=
        resting.sleepMark isCurrent (.inr rfl)
          (fun isStopped : ThreadState.exited = .stopped =>
            by cases isStopped)
      rw [mark] at mark'
      cases mark'
      have facts := markedInv.switchedFrom
        (frame.currentThread.trans isCurrent) (fun _ running => running.elim)
        (by rw [frame.stateMark]; decide) (by simp) switched
      refine ⟨handOver_of_switchedFrom facts ?_,
        facts.threadUsed.trans frame.threadUsed⟩
      intro after gained
      obtain ⟨after', lists', gained', -, owners, used⟩ := facts.gains
      rw [gained] at gained'
      cases gained'
      have pcb : (kernel.markThreadExit (.slot slot) proc exitval).pcb =
          Function.update kernel.pcb proc { kernel.pcb proc with
            threadCount := (kernel.pcb proc).threadCount - 1 } := rfl
      have usedAfter : after.threadUsed =
          Function.update system.kernel.sched.threadUsed slot false := by
        funext other
        have kept := used other
        rw [facts.threadUsed, frame.threadUsed, ne_eq, facts.releases,
          frame.stateMark] at kept
        rw [Bool.eq_iff_iff]
        by_cases same : other = slot
        · subst same
          simpa using kept
        · simpa [same, Ne.symm same] using kept
      refine counts.of_left (sound.current_used isSlot) owned
        ⟨usedAfter, ?_, ?_⟩
      · funext other
        exact ((frame.toSameOwners.trans facts.owners).trans owners).ownerPcb _
      · rw [← sameCount]
        exact column_of_pcb PCB.threadCount pcb

/-! ## The steps that give up the core -/

/-- The core is handed over through a switch. -/
def CorePassed (before after : System limits) : Prop :=
  ∃ kernel, Switched before kernel ∧
    kernel.sched.gain = .ok after.kernel.sched

theorem CorePassed.of_suspend
    {slot : Fin limits.maxThreads}
    {control : Control limits}
    {cause : SchedCause}
    {clock : Clock}
    (suspended : system.suspend slot control cause clock = .ok after) :
    CorePassed system after := by
  obtain ⟨sched, yielded, returned⟩ := exists_of_bind_eq_ok suspended
  cases returned
  obtain ⟨middle, switched, gained⟩ := exists_of_bind_eq_ok yielded
  exact ⟨_, .yielded switched, gained⟩

/-- A thread that exits leaves the core through the switch of
`sleep_releasing`. -/
theorem CorePassed.of_threadExit
    {kernel result : Kernel limits}
    {slot : Fin limits.maxThreads}
    {proc : Fin limits.maxProc}
    {exitval : Int}
    {clock : Clock}
    (isCurrent : system.currentSlot = some slot)
    (owned : system.kernel.owner slot = some proc)
    (call : kernel = system.kernel ∨
      kernel = system.kernel.markExit proc exitval)
    (exited : kernel.sysThreadExit exitval clock.remaining clock.curtime =
      .ok result)
    (sched : after.kernel.sched = result.sched) :
    CorePassed system after := by
  have sameSched : kernel.sched = system.kernel.sched := by
    rcases call with rfl | rfl <;> rfl
  have isSlot : kernel.sched.currentThread = some (.slot slot) := by
    rw [sameSched]
    exact currentSlot_eq_some.mp isCurrent
  have owns : (kernel.sched.tcb (.slot slot)).ownerPcb = some proc := by
    rw [sameSched]
    exact owned
  unfold Kernel.sysThreadExit at exited
  simp only [isSlot, owns, Sched.sleepReleasing] at exited
  have same : (kernel.markThreadExit (.slot slot) proc exitval).sched =
      kernel.sched := rfl
  rw [same] at exited
  cases mark : kernel.sched.sleepMark .exited noTimeout 0 with
  | error fault =>
      rw [mark] at exited
      cases exited
  | ok marked =>
      simp only [mark, bind, Except.bind] at exited
      split at exited
      · cases exited
      · rename_i afterSched yielded
        cases exited
        obtain ⟨middle, switched, gained⟩ := exists_of_bind_eq_ok yielded
        refine ⟨_, .left isCurrent owned call mark switched, ?_⟩
        rw [sched]
        exact gained

theorem Sound.passed_of_exit
    (sound : system.Sound)
    (isExit : ∃ exitval clock, action = .exit exitval clock ∨
      action = .threadExit exitval clock)
    (enabled : system.Enabled action)
    (stepped : system.step action = .ok after) :
    CorePassed system after := by
  obtain ⟨exitval, clock, isExit⟩ := isExit
  have calls : system.currentControl = some .user := by
    rcases isExit with rfl | rfl <;> exact enabled
  obtain ⟨slot, isCurrent⟩ := exists_currentSlot calls
  obtain ⟨proc, owned⟩ := sound.owned slot (sound.current_used isCurrent)
  rw [step_of_slot isCurrent] at stepped
  rcases isExit with rfl | rfl
  · obtain ⟨kernel, exited, returned⟩ := exists_of_bind_eq_ok stepped
    cases returned
    rw [Kernel.sysExit, currentProc_of_slot (currentSlot_eq_some.mp isCurrent),
      owned] at exited
    exact .of_threadExit isCurrent owned (.inr rfl) exited rfl
  · obtain ⟨kernel, exited, returned⟩ := exists_of_bind_eq_ok stepped
    cases returned
    exact .of_threadExit isCurrent owned (.inl rfl) exited rfl

theorem passed_of_idleStep
    {clock : Clock}
    (stepped : system.idleStep clock = .ok after) :
    after.kernel.sched.currentThread = system.kernel.sched.currentThread ∨
      CorePassed system after := by
  unfold System.idleStep at stepped
  split_ifs at stepped with active
  · obtain ⟨sched, yielded, returned⟩ := exists_of_bind_eq_ok stepped
    cases returned
    obtain ⟨middle, switched, gained⟩ := exists_of_bind_eq_ok yielded
    exact .inr ⟨_, .yielded switched, gained⟩
  · cases stepped
    exact .inl rfl

/-- Every step leaves the core to the current thread or hands it over through a
switch. -/
theorem Sound.core
    (sound : system.Sound)
    (enabled : system.Enabled action)
    (stepped : system.step action = .ok after) :
    after.kernel.sched.currentThread = system.kernel.sched.currentThread ∨
      CorePassed system after := by
  cases turn_of_step enabled stepped with
  | returns slot plain isCurrent blank => exact .inl rfl
  | suspends slot control cause clock plain isCurrent entered suspended =>
      exact .inr (.of_suspend suspended)
  | idles noSlot idled => exact passed_of_idleStep idled
  | wakes slot woke isCurrent usedOther woken =>
      obtain ⟨lists, inv⟩ := sound.resting
      obtain ⟨sched, lists', woke', woken', -, frame⟩ := inv.wakeup usedOther
      cases woken.symm.trans woken'
      exact .inl frame.currentThread
  | joined slot ptcb exitval plain isCurrent loop exited => exact .inl rfl
  | reaped slot child status plain isCurrent reason => exact .inl rfl
  | executed slot pid isCurrent executed =>
      obtain ⟨-, effect⟩ :=
        (sysExec_outcome sound.resting executed).effect sound.resting
      exact .inl effect.current
  | exited slot isCurrent exited =>
      exact .inr (sound.passed_of_exit ⟨_, _, .inl rfl⟩ enabled stepped)
  | threadExited slot isCurrent exited =>
      exact .inr (sound.passed_of_exit ⟨_, _, .inr rfl⟩ enabled stepped)
  | created slot tid isCurrent created =>
      obtain ⟨proc, owned⟩ := sound.owned slot (sound.current_used isCurrent)
      cases sysCreateThread_outcome sound.resting
          (currentSlot_eq_some.mp isCurrent) owned created with
      | refused reason => exact .inl rfl
      | started new isTask effect frame => exact .inl effect.current
  | @detached tid slot isCurrent => cases tid <;> exact .inl rfl
  | opened slot fid isCurrent opens opened =>
      exact .inl (congrArg Sched.currentThread
        (OnlyFiles.openStream opened).sched)
  | closed slot result isCurrent closed =>
      exact .inl (congrArg Sched.currentThread (OnlyFiles.sysClose closed).sched)

/-! ## Slots that come and go -/

/-- The step calls `spawn_thread`, which takes the slot. -/
def Spawns
    (system : System limits)
    (action : Action limits)
    (slot : Fin limits.maxThreads) : Prop :=
  (match action with
    | .exec call _ _ _ => call ≠ none ∧ system.kernel.freePcb ≠ none
    | .createThread task _ _ => task ≠ none
    | _ => False) ∧
  system.kernel.sched.freeSlot = some slot

/-- The step switches to a thread whose `gain` calls `release_TCB` for the
slot. -/
def Releases
    (before after : System limits)
    (slot : Fin limits.maxThreads) : Prop :=
  ∃ kernel, Switched before kernel ∧
    kernel.sched.gain = .ok after.kernel.sched ∧
    kernel.sched.gainReleases = some slot

/-- A slot comes into use by a new thread only. -/
theorem newThread_iff
    {before after : Kernel limits}
    {new slot : Fin limits.maxThreads}
    {proc : Fin limits.maxProc}
    (thread : NewThread before after new proc) :
    before.sched.freeSlot = some slot ↔
      before.threadUsed slot = false ∧ after.threadUsed slot = true := by
  have unused : before.threadUsed new = false :=
    Sched.freeSlot_eq_some thread.free
  rw [thread.free, thread.used]
  constructor
  · rintro ⟨⟩
    simp [unused]
  · rintro ⟨wasUnused, isUsed⟩
    by_cases same : slot = new
    · rw [same]
    · rw [Function.update_of_ne same, wasUnused] at isUsed
      cases isUsed

/-- Only `Exec` and `CreateThread` bring a slot into use. -/
theorem Effect.used_before
    {slot : Fin limits.maxThreads}
    (effect : Effect before action after)
    (isUsed : after.kernel.threadUsed slot = true) :
    before.kernel.threadUsed slot = true ∨
      (∃ call argl args memory, action = .exec call argl args memory) ∨
      ∃ task argl args, action = .createThread task argl args := by
  have left : ∀ {leaver proc}, ThreadLeft before.kernel after.kernel leaver
      proc → before.kernel.threadUsed slot = true := by
    intro leaver proc threads
    rw [threads.used, Function.update_apply] at isUsed
    split_ifs at isUsed
    exact isUsed
  cases effect with
  | stay notExit procs files threads ptcbs control reply =>
      exact .inl (threads.used ▸ isUsed)
  | executed caller newproc isCurrent proc files threads control reply =>
      exact .inr (.inl ⟨_, _, _, _, rfl⟩)
  | execFailed caller newproc isCurrent isCall noSlot proc files threads ptcbs
      control reply => exact .inl (threads.used ▸ isUsed)
  | exited leaver proc isCurrent owned procs files threads ptcbs control
      reply => exact .inl (left threads)
  | threadExited leaver proc isCurrent owned procs files threads ptcbs control
      reply => exact .inl (left threads)
  | reaped reaper reaped status isCurrent reason procs files threads ptcbs
      control reply => exact .inl (threads.used ▸ isUsed)
  | threadCreated caller new proc isCurrent owned procs files thread ptcbs
      control reply => exact .inr (.inr ⟨_, _, _, rfl⟩)
  | streams caller notExit isCurrent call only control reply =>
      exact .inl (only.sameThreads.used ▸ isUsed)

/-- Only `Exit` and `ThreadExit` take a slot out of use, that of the caller. -/
theorem Effect.used_after
    {slot : Fin limits.maxThreads}
    (effect : Effect before action after)
    (wasUsed : before.kernel.threadUsed slot = true) :
    after.kernel.threadUsed slot = true ∨
      (∃ exitval clock, action = .exit exitval clock ∨
        action = .threadExit exitval clock) := by
  have new : ∀ {fresh proc}, NewThread before.kernel after.kernel fresh
      proc → after.kernel.threadUsed slot = true := by
    intro fresh proc threads
    rw [threads.used, Function.update_apply]
    split_ifs
    · rfl
    · exact wasUsed
  cases effect with
  | stay notExit procs files threads ptcbs control reply =>
      exact .inl (threads.used ▸ wasUsed)
  | executed caller newproc isCurrent proc files threads control reply =>
      rcases threads with ⟨-, threads, -⟩ | ⟨-, fresh, thread, -⟩
      · exact .inl (threads.used ▸ wasUsed)
      · exact .inl (new thread)
  | execFailed caller newproc isCurrent isCall noSlot proc files threads ptcbs
      control reply => exact .inl (threads.used ▸ wasUsed)
  | exited leaver proc isCurrent owned procs files threads ptcbs control
      reply => exact .inr ⟨_, _, .inl rfl⟩
  | threadExited leaver proc isCurrent owned procs files threads ptcbs control
      reply => exact .inr ⟨_, _, .inr rfl⟩
  | reaped reaper reaped status isCurrent reason procs files threads ptcbs
      control reply => exact .inl (threads.used ▸ wasUsed)
  | threadCreated caller fresh proc isCurrent owned procs files thread ptcbs
      control reply => exact .inl (new thread)
  | streams caller notExit isCurrent call only control reply =>
      exact .inl (only.sameThreads.used ▸ wasUsed)

/-- `spawn_thread` succeeds in a step exactly when a slot comes into use. -/
theorem spawns_iff
    {slot : Fin limits.maxThreads}
    (sound : system.Sound)
    (enabled : system.Enabled action)
    (stepped : system.step action = .ok after) :
    system.Spawns action slot ↔ system.kernel.threadUsed slot = false ∧
      after.kernel.threadUsed slot = true := by
  obtain ⟨-, effect⟩ := sound.step enabled stepped
  have same : after.kernel.threadUsed = system.kernel.threadUsed →
      ¬(system.kernel.threadUsed slot = false ∧
        after.kernel.threadUsed slot = true) := by
    rintro unchanged ⟨wasUnused, isUsed⟩
    rw [unchanged, wasUnused] at isUsed
    cases isUsed
  have other : (∀ call argl args memory,
        action ≠ .exec call argl args memory) →
      (∀ task argl args, action ≠ .createThread task argl args) →
      ¬(system.kernel.threadUsed slot = false ∧
        after.kernel.threadUsed slot = true) := by
    rintro notExec notCreate ⟨wasUnused, isUsed⟩
    rcases effect.used_before isUsed with
      wasUsed | ⟨call, argl, args, memory, isExec⟩ |
        ⟨task, argl, args, isCreate⟩
    · rw [wasUnused] at wasUsed
      cases wasUsed
    · exact notExec call argl args memory isExec
    · exact notCreate task argl args isCreate
  cases action with
  | exec call argl args memory =>
      obtain ⟨caller, isCurrent⟩ := exists_currentSlot enabled
      rw [step_of_slot isCurrent] at stepped
      obtain ⟨⟨pid, kernel⟩, executed, returned⟩ :=
        exists_of_bind_eq_ok stepped
      cases returned
      cases ((sysExec_outcome sound.resting executed).effect
        sound.resting).2 with
      | full noPcb => simpa [Spawns, noPcb] using same rfl
      | threadless newproc noCall proc files threads ptcbs sched =>
          simpa [Spawns, noCall] using same threads.used
      | failed newproc isCall noSlot proc files threads ptcbs sched =>
          simpa [Spawns, noSlot] using same threads.used
      | started newproc new isCall proc files thread ptcbs current =>
          have spawned : system.kernel.sched.freeSlot = some slot ↔ _ :=
            newThread_iff thread
          refine ⟨fun spawns => spawned.mp spawns.2, fun used => ?_⟩
          exact ⟨⟨isCall, by simp [proc.free]⟩, spawned.mpr used⟩
  | createThread task argl args =>
      obtain ⟨caller, isCurrent⟩ := exists_currentSlot enabled
      obtain ⟨proc, owned⟩ := sound.owned caller (sound.current_used isCurrent)
      rw [step_of_slot isCurrent] at stepped
      obtain ⟨⟨tid, kernel⟩, created, returned⟩ := exists_of_bind_eq_ok stepped
      cases returned
      cases sysCreateThread_outcome sound.resting
          (currentSlot_eq_some.mp isCurrent) owned created with
      | refused reason =>
          rcases reason with noTask | noSlot
          · simpa [Spawns, noTask] using same rfl
          · simpa [Spawns, noSlot] using same rfl
      | started new isTask started frame =>
          have spawned : system.kernel.sched.freeSlot = some slot ↔ _ :=
            newThread_iff started.thread
          exact ⟨fun spawns => spawned.mp spawns.2,
            fun used => ⟨isTask, spawned.mpr used⟩⟩
  | _ => simpa [Spawns] using other (by simp) (by simp)

/-- `release_TCB` is called in a step exactly when a slot goes out of use. -/
theorem releases_iff
    {slot : Fin limits.maxThreads}
    (sound : system.Sound)
    (counts : system.kernel.CountsThreads)
    (enabled : system.Enabled action)
    (stepped : system.step action = .ok after) :
    Releases system after slot ↔ system.kernel.threadUsed slot = true ∧
      after.kernel.threadUsed slot = false := by
  have gainIff : ∀ {kernel}, Switched system kernel →
      kernel.sched.gain = .ok after.kernel.sched →
        (kernel.sched.gainReleases = some slot ↔
          system.kernel.threadUsed slot = true ∧
            after.kernel.threadUsed slot = false) := by
    intro kernel switched gained
    obtain ⟨handOver, sameUsed⟩ := switched.handOver sound counts
    obtain ⟨sched, gained', -, used⟩ := handOver.gains
    rw [gained] at gained'
    cases gained'
    have usedIff : after.kernel.threadUsed slot = true ↔ _ := used slot
    rw [← sameUsed]
    constructor
    · intro released
      refine ⟨(handOver.releases slot released).1, ?_⟩
      rw [← Bool.not_eq_true, usedIff]
      exact fun both => both.2 released
    · rintro ⟨wasUsed, isUnused⟩
      by_contra kept
      rw [usedIff.mpr ⟨wasUsed, kept⟩] at isUnused
      cases isUnused
  constructor
  · rintro ⟨kernel, switched, gained, released⟩
    exact (gainIff switched gained).mp released
  · rintro ⟨wasUsed, isUnused⟩
    obtain ⟨-, effect⟩ := sound.step enabled stepped
    have isExit := (effect.used_after wasUsed).resolve_left (by simp [isUnused])
    obtain ⟨kernel, switched, gained⟩ :=
      sound.passed_of_exit isExit enabled stepped
    exact ⟨kernel, switched, gained,
      (gainIff switched gained).mpr ⟨wasUsed, isUnused⟩⟩

/-! ## Runs -/

theorem countsThreads_step
    (counts : before.kernel.CountsThreads)
    (sound : before.Sound)
    (effect : Effect before action after) :
    after.kernel.CountsThreads := by
  cases effect with
  | stay notExit procs files threads ptcbs control reply =>
      exact counts.of_same threads
  | executed caller newproc isCurrent proc files threads control reply =>
      rcases threads with ⟨-, threads, -⟩ | ⟨-, new, thread, -⟩
      · exact counts.of_same threads
      · exact counts.of_new thread
  | execFailed caller newproc isCurrent isCall noSlot proc files threads ptcbs
      control reply => exact counts.of_same threads
  | exited leaver proc isCurrent owned procs files threads ptcbs control
      reply => exact counts.of_left (sound.current_used isCurrent) owned threads
  | threadExited leaver proc isCurrent owned procs files threads ptcbs control
      reply => exact counts.of_left (sound.current_used isCurrent) owned threads
  | reaped reaper reaped status isCurrent reason procs files threads ptcbs
      control reply => exact counts.of_same threads
  | threadCreated caller new proc isCurrent owned procs files thread ptcbs
      control reply => exact counts.of_new thread
  | streams caller notExit isCurrent call only control reply =>
      exact counts.of_same only.sameThreads

theorem Reached.countsThreads
    {allowed : System limits → Action limits → Prop}
    (reached : Reached allowed system) :
    system.Sound ∧ system.kernel.CountsThreads := by
  refine reached.invariant (motive := fun system =>
    system.kernel.CountsThreads) ?_ ?_
  · intro start booted
    obtain ⟨first, kernel, effect, -, -, threads, -⟩ := booted.tables
    exact (initial_fresh.countsThreads.of_execEffect effect).of_same threads
  · intro before action after sound counts enabled isAllowed effect
    exact countsThreads_step counts sound effect

open Classical in
/-- A run with the number of successful calls of `spawn_thread` and of calls of
`release_TCB` for each slot.  The first process is spawned before the scheduler
starts. -/
inductive Ledger (limits : Limits) :
    System limits → (Fin limits.maxThreads → Nat) →
      (Fin limits.maxThreads → Nat) → Prop
  | boot
      {start : System limits}
      (booted : System.boot limits = .ok start) :
      Ledger limits start
        (fun slot => if start.kernel.threadUsed slot then 1 else 0)
        fun _ => 0
  | step
      {before after : System limits}
      {action : Action limits}
      {spawned released : Fin limits.maxThreads → Nat}
      (earlier : Ledger limits before spawned released)
      (enabled : before.Enabled action)
      (stepped : before.step action = .ok after) :
      Ledger limits after
        (fun slot => spawned slot + if before.Spawns action slot then 1 else 0)
        fun slot =>
          released slot + if Releases before after slot then 1 else 0

theorem Ledger.reached
    {spawned released : Fin limits.maxThreads → Nat}
    (ledger : Ledger limits system spawned released) :
    Reached (fun _ _ => True) system := by
  induction ledger with
  | boot booted => exact ⟨_, booted, .refl⟩
  | step earlier enabled stepped inductionHypothesis =>
      obtain ⟨start, booted, reachable⟩ := inductionHypothesis
      exact ⟨start, booted, reachable.tail ⟨enabled, trivial⟩ stepped⟩

theorem Reached.ledger
    {allowed : System limits → Action limits → Prop}
    (reached : Reached allowed system) :
    ∃ spawned released, Ledger limits system spawned released := by
  obtain ⟨start, booted, reachable⟩ := reached
  induction reachable with
  | refl => exact ⟨_, _, .boot booted⟩
  | tail earlier enabled stepped inductionHypothesis =>
      obtain ⟨spawned, released, ledger⟩ := inductionHypothesis
      exact ⟨_, _, ledger.step enabled.1 stepped⟩

/-- Every spawned thread is released once, or still in use. -/
theorem Ledger.balance
    {spawned released : Fin limits.maxThreads → Nat}
    (ledger : Ledger limits system spawned released)
    (slot : Fin limits.maxThreads) :
    spawned slot =
      released slot + if system.kernel.threadUsed slot then 1 else 0 := by
  induction ledger with
  | boot booted => simp
  | @step before after action spawned released earlier enabled stepped
      inductionHypothesis =>
      obtain ⟨sound, counts⟩ := earlier.reached.countsThreads
      simp only [inductionHypothesis, spawns_iff sound enabled stepped,
        releases_iff sound counts enabled stepped]
      cases before.kernel.threadUsed slot <;>
        cases after.kernel.threadUsed slot <;> simp

/-- In every run the counters agree with the thread pool, also between two
threads; a thread that has exited is not selected again; every spawned thread is
released at most once, by the `gain` of another thread and after it has exited;
and when the test of `idle_thread` ends its loop, no slot is in use. -/
theorem thread_accounting
    {spawned released : Fin limits.maxThreads → Nat}
    (ledger : Ledger limits system spawned released) :
    system.kernel.Accounted ∧
      (∀ kernel, Switched system kernel → HandOver kernel) ∧
      (∀ action after, system.Enabled action →
        system.step action = .ok after →
          after.kernel.sched.currentThread =
              system.kernel.sched.currentThread ∨
            CorePassed system after) ∧
      (∀ slot, spawned slot = released slot +
        if system.kernel.threadUsed slot then 1 else 0) ∧
      (system.currentSlot = none → ¬0 < system.kernel.sched.activeThreads →
        ∀ slot, system.kernel.threadUsed slot = false) := by
  obtain ⟨sound, counts⟩ := ledger.reached.countsThreads
  have accounted := counts.accounted sound.resting
  refine ⟨accounted, ?_, ?_, ledger.balance, ?_⟩
  · intro kernel switched
    exact (switched.handOver sound counts).1
  · intro action after enabled stepped
    exact sound.core enabled stepped
  · intro idles none slot
    have active := accounted.active
    have noSlots : system.kernel.sched.usedSlots = ∅ := by
      rw [← Finset.card_eq_zero]
      omega
    by_contra isUsed
    have member : slot ∈ system.kernel.sched.usedSlots := by
      simpa [Sched.usedSlots, threadUsed] using isUsed
    rw [noSlots] at member
    exact absurd member (Finset.notMem_empty slot)

/-- A second thread of the first process has come and gone. -/
theorem thread_accounting_second_thread :
    ∃ system : System Limits.tinier, ∃ spawned released,
      (Ledger Limits.tinier system spawned released ∧
        system.kernel.threadUsed 0 = true ∧
        system.kernel.threadUsed 1 = false) ∧
      system.kernel.Accounted ∧
        (∀ kernel, Switched system kernel → HandOver kernel) ∧
        (∀ action after, system.Enabled action →
          system.step action = .ok after →
            after.kernel.sched.currentThread =
                system.kernel.sched.currentThread ∨
              CorePassed system after) ∧
        (∀ slot, spawned slot = released slot +
          if system.kernel.threadUsed slot then 1 else 0) ∧
        (system.currentSlot = none → ¬0 < system.kernel.sched.activeThreads →
          ∀ slot, system.kernel.threadUsed slot = false) := by
  have ran : ∃ system : System Limits.tinier,
      Reached (fun _ _ => True) system ∧
        decide (system.kernel.threadUsed 0 = true ∧
          system.kernel.threadUsed 1 = false) = true :=
    exists_reached_of_any
      [.idle .zero, .start, .createThread (some 1) 5 .null,
        .yield .quantum .zero, .start, .threadExit 0 .zero] (by decide +kernel)
  obtain ⟨system, reached, test⟩ := ran
  obtain ⟨spawned, released, ledger⟩ := reached.ledger
  exact ⟨system, spawned, released, ⟨ledger, of_decide_eq_true test⟩,
    thread_accounting ledger⟩

end System
end TinierOS
