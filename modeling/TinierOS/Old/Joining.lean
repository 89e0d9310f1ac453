import TinierOS.Old.PtcbTurns

/-!
# Joining threads in the old kernel

What `ThreadJoin` does in the states of all runs of the old kernel.  It never uses
a PTCB that has been freed.
-/

namespace TinierOS

variable {limits : Limits} {π : Type}

namespace OldKernel

variable [DecidableEq π]
variable {kernel : OldKernel limits π}
variable {t : Nat}
variable {thread : OldThread limits π}
variable {ptcb : π}
variable {lists : Fin limits.maxProc → List π}

/-- The loop of `sys_ThreadJoin`, and what follows it, by a thread that waits in
`table`. -/
theorem joinLoop_spec
    {table : PtcbTable limits π}
    {target : Nat}
    (sound : table.Sound lists)
    (isThread : table.threads[t]? = some thread)
    (isJoining : thread.call = .joining ptcb target)
    (isTable : ∀ call, { kernel.ptcbTable with
        threads := kernel.threads.modify t fun thread =>
          { thread with call := call } } = table.move t thread call) :
    ∃ after, kernel.joinLoop t ptcb target = .ok after ∧
      ((table.ptcb ptcb).detached = true ∧
          after.reply = .threadJoin none ∧
          after.ptcbTable = table.move t thread .own ∨
        (table.ptcb ptcb).detached = false ∧
          (table.ptcb ptcb).exited = false ∧ after.ptcbTable = table ∨
        (table.ptcb ptcb).detached = false ∧
          (table.ptcb ptcb).exited = true ∧
          after.reply =
            .threadJoin (some (target, (table.ptcb ptcb).exitval)) ∧
          (after.live ptcb = true ↔ 0 < after.ptcbTable.joiners ptcb) ∧
          ∀ other, other ≠ ptcb → after.live other = table.live other) := by
  have blocks : kernel.ptcb = table.ptcb :=
    congrArg PtcbTable.ptcb (isTable .own)
  have lives : kernel.live = table.live :=
    congrArg PtcbTable.live (isTable .own)
  have isLive : table.live ptcb = true := sound.rings.alive
    (sound.joins thread (List.mem_of_getElem? isThread) ptcb target isJoining).1
  have notFreed : ¬kernel.live ptcb = false := by
    rw [lives, isLive]
    simp
  unfold joinLoop
  rw [if_neg notFreed, blocks]
  by_cases detached : (table.ptcb ptcb).detached = true
  · rw [if_pos detached]
    exact ⟨_, rfl, .inl ⟨detached, rfl, isTable .own⟩⟩
  rw [if_neg detached]
  have notDetached := Bool.eq_false_of_not_eq_true detached
  by_cases exited : (table.ptcb ptcb).exited = true
  · have counted := (sound.joined isThread isJoining notDetached).2
    simp only [← isTable .own] at counted
    have value : (kernel.modifyPtcb ptcb fun block =>
        { block with refcount := block.refcount - 1 }).ptcb ptcb =
          { table.ptcb ptcb with
            refcount := (table.ptcb ptcb).refcount - 1 } := by
      simp [modifyPtcb, blocks]
    simp only [if_pos exited, value]
    by_cases last : (table.ptcb ptcb).refcount - 1 = 0
    · rw [if_pos last]
      rw [last] at counted
      refine ⟨_, rfl, .inr (.inr ⟨notDetached, exited, rfl, ?_, ?_⟩)⟩
      · refine iff_of_false ?_ ?_
        · simp [returning, goto]
        · have none : PtcbTable.joiners (PtcbTable.mk (kernel.threads.modify t
              fun thread => { thread with call := .own }) kernel.ptcb
                kernel.live kernel.ptcbLists) ptcb = 0 := by
            exact_mod_cast counted
          exact Nat.not_lt.mpr (Nat.le_of_eq none)
      · intro other different
        show Function.update kernel.live ptcb false other = _
        rw [Function.update_of_ne different, lives]
    · rw [if_neg last]
      refine ⟨_, rfl, .inr (.inr ⟨notDetached, exited, rfl, ?_, ?_⟩)⟩
      · refine iff_of_true ?_ ?_
        · show kernel.live ptcb = true
          rw [lives]
          exact isLive
        · have some : (PtcbTable.joiners (PtcbTable.mk (kernel.threads.modify t
              fun thread => { thread with call := .own }) kernel.ptcb
                kernel.live kernel.ptcbLists) ptcb : Int) ≠ 0 := by
            intro none
            exact last (counted.symm.trans none)
          apply Nat.pos_of_ne_zero
          exact_mod_cast some
      · intro other _
        show kernel.live other = _
        rw [lives]
  · rw [if_neg exited]
    refine ⟨_, rfl, .inr (.inl ⟨notDetached,
      Bool.eq_false_of_not_eq_true exited, ?_⟩)⟩
    rw [← move_self isThread, isJoining]
    exact isTable _

/-- The PTCB is in use and belongs to a thread of the process, or of an earlier one
with the same number: the PTCBs of threads that ended and were not joined stay in
the list. -/
def IsPtcbOf
    (kernel : OldKernel limits π)
    (pid : Fin limits.maxProc)
    (ptcb : π) : Prop :=
  kernel.live ptcb = true ∧ ∃ target,
    kernel.threads[(kernel.ptcb ptcb).thread]? = some target ∧
      target.owner = pid

theorem isPtcbOf_iff
    (sound : kernel.ptcbTable.Sound lists)
    {pid : Fin limits.maxProc} :
    kernel.IsPtcbOf pid ptcb ↔ ptcb ∈ lists pid := by
  constructor
  · rintro ⟨isLive, target, isTarget, rfl⟩
    obtain ⟨pid, member⟩ := sound.listed isLive
    obtain ⟨found, isFound, isOwner, -⟩ := sound.thread member
    obtain rfl := Option.some.inj (isFound.symm.trans isTarget)
    rw [isOwner]
    exact member
  · intro member
    obtain ⟨target, isTarget, isOwner, -⟩ := sound.thread member
    exact ⟨sound.rings.alive member, target, isTarget, isOwner⟩

/-- The PTCB whose thread a call of `ThreadJoin` is to wait for. -/
def Joins
    (kernel : OldKernel limits π)
    (thread : OldThread limits π) : OldAction π → π → Prop
  | .threadJoin _ tid, ptcb =>
      tid = some ptcb ∧ ptcb ≠ thread.ptcb ∧ kernel.IsPtcbOf thread.owner ptcb
  | .resume _, ptcb => ∃ target, thread.call = .joining ptcb target
  | _, _ => False

/-- The step begins a call of `ThreadJoin` or goes on with one. -/
def IsThreadJoin (thread : OldThread limits π) : OldAction π → Prop
  | .threadJoin _ _ => thread.call = .own
  | .resume _ => ∃ ptcb target, thread.call = .joining ptcb target
  | _ => False

/-- What a call of `ThreadJoin` does before its next `kernel_wait`. -/
inductive JoinSpec
    (kernel : OldKernel limits π)
    (thread : OldThread limits π)
    (action : OldAction π)
    (after : OldKernel limits π) : Prop
  /-- There is no such thread, or it has been detached: it returns -1. -/
  | rejects
      (detached : ∀ ptcb, kernel.Joins thread action ptcb →
        (kernel.ptcb ptcb).detached = true)
      (table : after.ptcbTable =
        kernel.ptcbTable.move action.thread thread .own)
      (reply : after.reply = .threadJoin none)
  /-- The thread runs: it waits. -/
  | waits
      (ptcb : π)
      (target : OldThread limits π)
      (joins : kernel.Joins thread action ptcb)
      (notDetached : (kernel.ptcb ptcb).detached = false)
      (isTarget : kernel.threads[(kernel.ptcb ptcb).thread]? = some target)
      (sameProcess : target.owner = thread.owner)
      (running : target.call.isExited = false)
      (threads : after.threads = kernel.threads.set action.thread { thread with
        call := .joining ptcb (kernel.ptcb ptcb).thread })
      (live : after.live = kernel.live)
  /-- The thread has ended: it returns the value the thread has passed to
  `ThreadExit`, and frees the PTCB unless another call waits. -/
  | returns
      (ptcb : π)
      (target : OldThread limits π)
      (exitval : Int)
      (joins : kernel.Joins thread action ptcb)
      (notDetached : (kernel.ptcb ptcb).detached = false)
      (isTarget : kernel.threads[(kernel.ptcb ptcb).thread]? = some target)
      (sameProcess : target.owner = thread.owner)
      (ended : target.call = .exited exitval)
      (reply : after.reply =
        .threadJoin (some ((kernel.ptcb ptcb).thread, exitval)))
      (freed : after.live ptcb = true ↔ 0 < after.ptcbTable.joiners ptcb)
      (live : ∀ other, other ≠ ptcb → after.live other = kernel.live other)

/-- A call that waits, or is about to, does one of three things. -/
theorem joinSpec_of_loop
    {before : OldKernel limits π}
    {table : PtcbTable limits π}
    {action : OldAction π}
    {joining : OldThread limits π}
    (sound : before.ptcbTable.Sound lists)
    (tableSound : table.Sound lists)
    (isThread : table.threads[action.thread]? = some joining)
    (isJoining : joining = { thread with
      call := .joining ptcb (before.ptcb ptcb).thread })
    (isTable : ∀ call, { kernel.ptcbTable with
        threads := kernel.threads.modify action.thread fun thread =>
          { thread with call := call } } = table.move action.thread joining call)
    (joins : ∀ {other}, before.Joins thread action other ↔ other = ptcb)
    (listed : ptcb ∈ lists thread.owner)
    (threads : table.threads = before.threads.set action.thread joining)
    (live : table.live = before.live)
    (kept : (table.ptcb ptcb).detached = (before.ptcb ptcb).detached ∧
      (table.ptcb ptcb).exited = (before.ptcb ptcb).exited ∧
      (table.ptcb ptcb).exitval = (before.ptcb ptcb).exitval)
    (detachedBefore : (before.ptcb ptcb).detached = true →
      table = before.ptcbTable) :
    ∃ after, kernel.joinLoop action.thread ptcb (before.ptcb ptcb).thread =
      .ok after ∧ before.JoinSpec thread action after := by
  obtain ⟨target, isTarget, isOwner, isPtcb, state⟩ := sound.thread listed
  obtain ⟨after, ran, outcome⟩ := joinLoop_spec tableSound isThread
    (by rw [isJoining]) isTable
  rw [kept.1, kept.2.1, kept.2.2] at outcome
  refine ⟨after, ran, ?_⟩
  rcases outcome with ⟨detached, reply, isAfter⟩ |
    ⟨notDetached, notExited, isAfter⟩ |
    ⟨notDetached, exited, reply, freed, others⟩
  · refine .rejects ?_ ?_ reply
    · intro other isJoined
      rw [joins.mp isJoined]
      exact detached
    · rw [isAfter, detachedBefore detached, isJoining]
      rfl
  · refine .waits ptcb target (joins.mpr rfl) notDetached isTarget isOwner ?_ ?_
      ?_
    · rcases state with ⟨-, running⟩ | ⟨exited, -⟩
      · exact running
      · exact absurd exited (by
          rw [show before.ptcbTable.ptcb ptcb = before.ptcb ptcb from rfl,
            notExited]
          simp)
    · have same := congrArg PtcbTable.threads isAfter
      rw [threads, isJoining] at same
      exact same
    · have same := congrArg PtcbTable.live isAfter
      rw [live] at same
      exact same
  · rw [live] at others
    refine .returns ptcb target (before.ptcb ptcb).exitval (joins.mpr rfl)
      notDetached isTarget isOwner ?_ reply freed others
    rcases state with ⟨running, -⟩ | ⟨-, ended⟩
    · exact absurd exited (by
        rw [show (before.ptcb ptcb).exited = false from running]
        simp)
    · exact ended

/-- In all runs a call of `ThreadJoin` never fails.  It returns -1 exactly when
`tid` is its own thread, or no PTCB of the process, or a detached one; it waits
exactly as long as the thread runs; and else it returns the exit value of that
thread. -/
theorem Occurs.threadJoin
    {action : OldAction π}
    (occurs : Occurs kernel)
    (isThread : kernel.threads[action.thread]? = some thread)
    (isThreadJoin : IsThreadJoin thread action) :
    ∃ after, kernel.step action = .ok after ∧
      kernel.JoinSpec thread action after := by
  obtain ⟨lists, sound⟩ := occurs.ptcbs
  have member := List.mem_of_getElem? isThread
  unfold step
  rw [isThread]
  cases action with
  | threadJoin t tid =>
      change kernel.threads[t]? = some thread at isThread
      have unjoined := unjoined_of_own isThreadJoin
      have rejects : ∀ {reply}, reply = OldReply.threadJoin none →
          (∀ ptcb, kernel.Joins thread (.threadJoin t tid) ptcb →
            (kernel.ptcb ptcb).detached = true) →
          kernel.JoinSpec thread (.threadJoin t tid)
            (kernel.returning t reply) := by
        rintro reply rfl detached
        refine .rejects detached ?_ rfl
        show PtcbTable.mk (kernel.threads.modify t _) _ _ _ = _
        rw [modify_eq_set isThread]
        rfl
      show ∃ after, kernel.sysThreadJoin t thread.owner thread.ptcb tid =
        .ok after ∧ _
      unfold sysThreadJoin
      by_cases isSelf : some thread.ptcb = tid
      · rw [if_pos isSelf]
        refine ⟨_, rfl, rejects rfl ?_⟩
        rintro ptcb ⟨rfl, different, -⟩
        exact absurd (Option.some.inj isSelf).symm different
      rw [if_neg isSelf]
      unfold findPtcb
      rcases sound.find_eq thread.owner tid with ⟨missing, unlisted⟩ |
        ⟨ptcb, listed, rfl, found⟩
      · rw [show kernel.ptcbLists.rlistFind (kernel.threads.length + 1)
          (.list thread.owner) tid none = some none from missing]
        refine ⟨_, rfl, rejects rfl ?_⟩
        rintro ptcb ⟨rfl, -, isPtcb⟩
        exact absurd rfl (unlisted ptcb ((isPtcbOf_iff sound).mp isPtcb))
      rw [show kernel.ptcbLists.rlistFind (kernel.threads.length + 1)
        (.list thread.owner) (some ptcb) none = some (some (.node ptcb)) from
          found]
      have isLive : kernel.live ptcb = true := sound.rings.alive listed
      have isKey : (kernel.ptcbLists (.node ptcb)).obj = some ptcb :=
        sound.key isLive
      simp only [isKey, bind, Except.bind, isLive, Bool.true_eq_false, if_false]
      by_cases detached : (kernel.ptcb ptcb).detached = true
      · rw [if_pos detached]
        refine ⟨_, rfl, rejects rfl ?_⟩
        rintro other ⟨same, -⟩
        rw [← Option.some.inj same]
        exact detached
      rw [if_neg detached]
      have notDetached := Bool.eq_false_of_not_eq_true detached
      have begun := sound.begins isThread unjoined.notExited unjoined.notJoining
        listed notDetached
      have target : ((kernel.modifyPtcb ptcb fun block =>
          { block with refcount := block.refcount + 1 }).ptcb ptcb).thread =
            (kernel.ptcb ptcb).thread := by
        simp [modifyPtcb]
      rw [target]
      have isBegun : ((kernel.ptcbTable.move t thread (.joining ptcb
          (kernel.ptcb ptcb).thread)).modifyPtcb ptcb fun block =>
            { block with refcount := block.refcount + 1 }).threads[
              (OldAction.threadJoin t (some ptcb)).thread]? =
          some { thread with call := .joining ptcb (kernel.ptcb ptcb).thread } :=
        (PtcbTable.getElem?_move isThread t).trans (if_pos rfl)
      refine joinSpec_of_loop sound begun isBegun rfl ?_ ?_ listed rfl rfl ?_ ?_
      · intro call
        show PtcbTable.mk (kernel.threads.modify t _) _ _ _ =
          PtcbTable.mk ((kernel.threads.set t _).set t _) _ _ _
        rw [List.set_set, modify_eq_set isThread]
        rfl
      · intro other
        constructor
        · rintro ⟨same, -⟩
          exact (Option.some.inj same).symm
        · rintro rfl
          refine ⟨rfl, ?_, (isPtcbOf_iff sound).mpr listed⟩
          rintro rfl
          exact isSelf rfl
      · simp [PtcbTable.modifyPtcb, PtcbTable.move, ptcbTable]
      · intro isDetached
        exact absurd isDetached detached
  | resume t =>
      change kernel.threads[t]? = some thread at isThread
      obtain ⟨ptcb, target, isJoining⟩ := isThreadJoin
      simp only [threadStep, isJoining]
      obtain ⟨listed, isTarget⟩ := sound.joins thread member ptcb target
        isJoining
      obtain rfl : (kernel.ptcb ptcb).thread = target := isTarget
      refine joinSpec_of_loop sound sound isThread ?_ ?_ ?_ listed ?_ rfl
        ⟨rfl, rfl, rfl⟩ fun _ => rfl
      · rw [← isJoining]
      · intro call
        show PtcbTable.mk (kernel.threads.modify t _) _ _ _ = _
        rw [modify_eq_set isThread]
        rfl
      · intro other
        simp [Joins, isJoining, eq_comm]
      · have stays : kernel.ptcbTable.move t thread thread.call =
            kernel.ptcbTable := move_self isThread
        exact (congrArg PtcbTable.threads stays).symm
  | _ => exact isThreadJoin.elim

/-- The main thread joins one that has exited with 7. -/
theorem threadJoin_seven :
    ∃ (kernel : OldKernel ⟨4, 4, 1, 1⟩ Nat) (thread : OldThread ⟨4, 4, 1, 1⟩ Nat),
      (Occurs kernel ∧ kernel.threads[0]? = some thread ∧
        kernel.threads[1]? = some ⟨1, 1, .exited 7⟩) ∧
      ∃ after, kernel.step (.threadJoin 0 (some 1)) = .ok after ∧
        kernel.JoinSpec thread (.threadJoin 0 (some 1)) after := by
  have ran : ∃ kernel : OldKernel ⟨4, 4, 1, 1⟩ Nat,
      Reached kernel ∧ decide (kernel.threads[0]? = some ⟨1, 0, .own⟩ ∧
        kernel.threads[1]? = some ⟨1, 1, .exited 7⟩) = true :=
    exists_reached_of_any (fun _ => 0) 0
      [.createThread 0 (some 1) 0 0 1, .threadExit 1 7] (by decide +kernel)
  obtain ⟨kernel, reached, passed⟩ := ran
  obtain ⟨isThread, ended⟩ := of_decide_eq_true passed
  exact ⟨kernel, ⟨1, 0, .own⟩, ⟨reached.occurs, isThread, ended⟩,
    reached.occurs.threadJoin isThread rfl⟩

end OldKernel
end TinierOS
