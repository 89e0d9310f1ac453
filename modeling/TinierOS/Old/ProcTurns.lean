import TinierOS.Old.Kernel
import TinierOS.Old.Adoption

/-!
# What a step does to the processes of the old kernel

Every step changes the process table and the threads in one of a few ways.
-/

namespace TinierOS

variable {limits : Limits} {π : Type}

namespace ProcTable

/-- What `sys_Exit` may do before `sys_ThreadExit`: it stores the exit value, and
the initial process reaps children. -/
inductive ExitPath
    (curproc : Fin limits.maxProc) :
    Option Int → ProcTable limits → ProcTable limits → Prop
  | refl {table : ProcTable limits} : ExitPath curproc none table table
  | store
      {table after : ProcTable limits}
      {exitval : Int}
      (path : ExitPath curproc none (table.modifyPcb curproc fun block =>
        { block with exitval := exitval }) after) :
      ExitPath curproc (some exitval) table after
  | reap
      {table after : ProcTable limits}
      {child : Fin limits.maxProc}
      {exitval : Int}
      {reaped : ProcTable limits}
      (polled : table.pollAny curproc = .ok (.reaped child exitval reaped))
      (path : ExitPath curproc none reaped after) :
      ExitPath curproc none table after

/-- The loop of `sys_Exit` only reaps. -/
theorem ExitPath.of_reapAll
    {table after : ProcTable limits}
    {curproc : Fin limits.maxProc}
    {fuel : Nat}
    {ended : Bool}
    (ran : reapAll curproc fuel table = .ok (ended, after)) :
    ExitPath curproc none table after := by
  induction fuel generalizing table with
  | zero => cases ran
  | succ fuel inductionHypothesis =>
      obtain ⟨outcome, polled, continues⟩ := exists_of_bind_eq_ok ran
      cases outcome with
      | noChild =>
          cases continues
          exact .refl
      | waits =>
          cases continues
          exact .refl
      | reaped child exitval reaped =>
          exact .reap polled (inductionHypothesis continues)

/-- The table after `thread_count--`. -/
def leave
    (table : ProcTable limits)
    (curproc : Fin limits.maxProc) : ProcTable limits :=
  table.modifyPcb curproc fun block =>
    { block with threadCount := block.threadCount - 1 }

/-- The table after `thread_count++`. -/
def enter
    (table : ProcTable limits)
    (curproc : Fin limits.maxProc) : ProcTable limits :=
  table.modifyPcb curproc fun block =>
    { block with threadCount := block.threadCount + 1 }

end ProcTable

/-- The value that is passed to `Exit`. -/
def OldAction.stored : OldAction π → Option Int
  | .exit _ exitval => some exitval
  | _ => none

namespace OldKernel

/-- What a step of a thread does to the process table and to the threads. -/
inductive ProcTurn
    (kernel : OldKernel limits π)
    (t : Nat)
    (thread : OldThread limits π) :
    Option Int → ProcTable limits → List (OldThread limits π) → Prop
  /-- The thread goes on at another point. -/
  | goes
      (call : OldCall limits π)
      (goesOn : call.isExited = false)
      (child : ∀ child, call = .waitsFor child →
        thread.call = .waitsFor child ∨
          kernel.procs.IsParent child thread.owner)
      (notExiting : ∀ exitval, call ≠ .exiting exitval) :
      ProcTurn kernel t thread none kernel.procs
        (kernel.threads.set t { thread with call := call })
  /-- `sys_Exec` with a null task. -/
  | createsEmpty
      (newproc : Fin limits.maxProc)
      (argl : Int)
      (args : List UInt8)
      (isFree : kernel.procs.freelist = some newproc) :
      ProcTurn kernel t thread none
        (kernel.procs.created newproc
          (ProcTable.newParent newproc (some thread.owner)) none argl args)
        (kernel.threads.set t { thread with call := .own })
  /-- `sys_Exec` -/
  | creates
      (newproc : Fin limits.maxProc)
      (task : Task)
      (argl : Int)
      (args : List UInt8)
      (ptcb : π)
      (isFree : kernel.procs.freelist = some newproc) :
      ProcTurn kernel t thread none
        ((kernel.procs.created newproc
          (ProcTable.newParent newproc (some thread.owner)) (some task) argl
            args).enter newproc)
        ((kernel.threads ++ [OldThread.mk newproc ptcb .own]).set t
          { thread with call := .own })
  /-- `sys_CreateThread` -/
  | spawns
      (ptcb : π) :
      ProcTurn kernel t thread none (kernel.procs.enter thread.owner)
        ((kernel.threads ++ [OldThread.mk thread.owner ptcb .own]).set t
          { thread with call := .own })
  /-- A child is reaped by its pid. -/
  | reapsChild
      (child : Fin limits.maxProc)
      (isChild : thread.call = .waitsFor child ∨
        kernel.procs.IsParent child thread.owner)
      (notAlive : kernel.procs.pstate child ≠ .alive) :
      ProcTurn kernel t thread none (kernel.procs.cleanupZombie child).2
        (kernel.threads.set t { thread with call := .own })
  /-- Some child is reaped. -/
  | reapsAny
      (child : Fin limits.maxProc)
      (exitval : Int)
      (procs : ProcTable limits)
      (polled : kernel.procs.pollAny thread.owner =
        .ok (.reaped child exitval procs)) :
      ProcTurn kernel t thread none procs
        (kernel.threads.set t { thread with call := .own })
  /-- The initial process waits in `sys_Exit`. -/
  | exitWaits
      (stored : Option Int)
      (exitval : Int)
      (procs : ProcTable limits)
      (isInit : thread.owner.val = 1)
      (path : ProcTable.ExitPath thread.owner stored kernel.procs procs) :
      ProcTurn kernel t thread stored procs
        (kernel.threads.set t { thread with call := .exiting exitval })
  /-- A thread ends, but not its process. -/
  | leaves
      (stored : Option Int)
      (exitval : Int)
      (procs : ProcTable limits)
      (path : ProcTable.ExitPath thread.owner stored kernel.procs procs)
      (others : ((procs.leave thread.owner).pcb thread.owner).threadCount ≠ 0) :
      ProcTurn kernel t thread stored (procs.leave thread.owner)
        (kernel.threads.set t { thread with call := .exited exitval })
  /-- The last thread of a process ends. -/
  | ends
      (stored : Option Int)
      (exitval : Int)
      (procs after : ProcTable limits)
      (path : ProcTable.ExitPath thread.owner stored kernel.procs procs)
      (last : ((procs.leave thread.owner).pcb thread.owner).threadCount = 0)
      (ended : (procs.leave thread.owner).endProcess thread.owner = .ok after) :
      ProcTurn kernel t thread stored after
        (kernel.threads.set t { thread with call := .exited exitval })

variable {kernel after : OldKernel limits π}
variable {t : Nat}
variable {thread : OldThread limits π}

/-- The other threads stay where they are. -/
theorem modify_eq_set
    {threads : List (OldThread limits π)}
    (isThread : threads[t]? = some thread)
    (call : OldCall limits π) :
    threads.modify t (fun thread => { thread with call := call }) =
      threads.set t { thread with call := call } := by
  ext other found
  rw [List.getElem?_modify, List.getElem?_set]
  split_ifs with same inRange
  · subst same
    simp [isThread]
  · subst same
    simp [List.getElem?_eq_none (Nat.le_of_not_lt inRange)]
  · simp

/-- A new thread does not move the others. -/
theorem getElem?_append_new
    {threads : List (OldThread limits π)}
    {new : OldThread limits π}
    (isThread : threads[t]? = some thread) :
    (threads ++ [new])[t]? = some thread := by
  obtain ⟨inRange, -⟩ := List.getElem?_eq_some_iff.mp isThread
  rw [List.getElem?_append_left inRange]
  exact isThread

/-- A step that leaves the process table alone and does not end the thread. -/
theorem ProcTurn.of_goes
    (isThread : kernel.threads[t]? = some thread)
    (call : OldCall limits π)
    (procs : after.procs = kernel.procs)
    (threads : after.threads =
      kernel.threads.modify t fun thread => { thread with call := call })
    (goesOn : call.isExited = false)
    (child : ∀ child, call = .waitsFor child →
      thread.call = .waitsFor child ∨
        kernel.procs.IsParent child thread.owner)
    (notExiting : ∀ exitval, call ≠ .exiting exitval) :
    ProcTurn kernel t thread none after.procs after.threads := by
  rw [procs, threads, modify_eq_set isThread]
  exact .goes call goesOn child notExiting

/-- A step that returns to the thread's own code. -/
theorem ProcTurn.of_returning
    (isThread : kernel.threads[t]? = some thread)
    (procs : after.procs = kernel.procs)
    (threads : after.threads =
      kernel.threads.modify t fun thread => { thread with call := .own }) :
    ProcTurn kernel t thread none after.procs after.threads :=
  .of_goes isThread .own procs threads rfl (by simp) (by simp)

/-- A legal child is a process whose parent is the caller. -/
theorem isParent_of_legalChild
    {procs : ProcTable limits}
    {parent child : Fin limits.maxProc}
    {cpid : Int}
    (legal : procs.legalChild parent cpid = .ok (some child)) :
    procs.IsParent child parent := by
  unfold ProcTable.legalChild at legal
  by_cases outside : cpid < 0 ∨ (limits.maxProc : Int) ≤ cpid
  · rw [if_pos outside] at legal
    cases legal
  rw [if_neg outside] at legal
  obtain ⟨found, got, checked⟩ := exists_of_bind_eq_ok legal
  cases found with
  | none => cases checked
  | some pcb =>
      simp only at checked
      split_ifs at checked with differs
      · cases checked
      · obtain rfl : pcb = child := by
          cases checked
          rfl
        refine ⟨?_, not_not.mp differs⟩
        unfold ProcTable.getPcb at got
        split_ifs at got with inRange isFree
        · cases got
        · obtain rfl := Option.some.inj (Except.ok.inj got)
          exact isFree

/-- The loop of `wait_for_specific_child`. -/
theorem procTurn_waitChildLoop
    {child : Fin limits.maxProc}
    (isThread : kernel.threads[t]? = some thread)
    (isChild : thread.call = .waitsFor child ∨
      kernel.procs.IsParent child thread.owner) :
    ProcTurn kernel t thread none (kernel.waitChildLoop t child).procs
      (kernel.waitChildLoop t child).threads := by
  unfold waitChildLoop ProcTable.pollChild
  split_ifs with isAlive
  · refine .of_goes isThread (.waitsFor child) rfl rfl rfl ?_ (by simp)
    intro other same
    cases same
    exact isChild
  · show ProcTurn kernel t thread none (kernel.procs.cleanupZombie child).2
      (kernel.threads.modify t _)
    rw [modify_eq_set isThread]
    exact .reapsChild child isChild isAlive

/-- The loop of `wait_for_any_child`. -/
theorem procTurn_waitAnyLoop
    (isThread : kernel.threads[t]? = some thread)
    (ran : kernel.waitAnyLoop t thread.owner = .ok after) :
    ProcTurn kernel t thread none after.procs after.threads := by
  obtain ⟨outcome, polled, isAfter⟩ := exists_of_bind_eq_ok ran
  cases outcome with
  | noChild =>
      cases isAfter
      exact .of_returning isThread rfl rfl
  | waits =>
      cases isAfter
      exact .of_goes isThread .waitsAny rfl rfl rfl (by simp) (by simp)
  | reaped child exitval procs =>
      cases isAfter
      show ProcTurn kernel t thread none procs (kernel.threads.modify t _)
      rw [modify_eq_set isThread]
      exact .reapsAny child exitval procs polled

/-- `sys_WaitChild` -/
theorem procTurn_waitChild
    {cpid : Int}
    (isThread : kernel.threads[t]? = some thread)
    (ran : kernel.sysWaitChild t thread.owner cpid = .ok after) :
    ProcTurn kernel t thread none after.procs after.threads := by
  unfold sysWaitChild at ran
  split_ifs at ran
  · obtain ⟨found, legal, isAfter⟩ := exists_of_bind_eq_ok ran
    cases found with
    | none =>
        cases isAfter
        exact .of_returning isThread rfl rfl
    | some child =>
        cases isAfter
        exact procTurn_waitChildLoop isThread
          (.inr (isParent_of_legalChild legal))
  · exact procTurn_waitAnyLoop isThread ran

/-- Opening streams leaves the processes alone. -/
theorem procTurn_returnOpened
    {opened : Except OldFault
      (Option (List (Fin limits.maxFileid)) × FileTable limits)}
    (isThread : kernel.threads[t]? = some thread)
    (ran : kernel.returnOpened t opened = .ok after) :
    ProcTurn kernel t thread none after.procs after.threads := by
  obtain ⟨result, -, isAfter⟩ := exists_of_bind_eq_ok ran
  cases isAfter
  exact .of_returning isThread rfl rfl

variable [DecidableEq π]

/-- `sys_ThreadExit`, after what `sys_Exit` may do before it. -/
theorem procTurn_sysThreadExit
    {middle : OldKernel limits π}
    {exitval : Int}
    {stored : Option Int}
    (isThread : kernel.threads[t]? = some thread)
    (threads : middle.threads = kernel.threads)
    (path : ProcTable.ExitPath thread.owner stored kernel.procs middle.procs)
    (ran : middle.sysThreadExit t thread.owner thread.ptcb exitval =
      .ok after) :
    ProcTurn kernel t thread stored after.procs after.threads := by
  unfold sysThreadExit at ran
  split_ifs at ran with isFreed
  obtain ⟨left, isLeft, isAfter⟩ := exists_of_bind_eq_ok ran
  cases isAfter
  unfold endIfLast at isLeft
  split_ifs at isLeft with last
  · obtain ⟨procs, ended, isKernel⟩ := exists_of_bind_eq_ok isLeft
    split_ifs at isKernel
    cases isKernel
    show ProcTurn kernel t thread stored procs (middle.threads.modify t _)
    rw [threads, modify_eq_set isThread]
    exact .ends stored exitval middle.procs procs path last ended
  · cases isLeft
    show ProcTurn kernel t thread stored (middle.procs.leave thread.owner)
      (middle.threads.modify t _)
    rw [threads, modify_eq_set isThread]
    exact .leaves stored exitval middle.procs path last

theorem procTurn_exitLoop
    {middle : OldKernel limits π}
    {exitval : Int}
    {stored : Option Int}
    (isThread : kernel.threads[t]? = some thread)
    (threads : middle.threads = kernel.threads)
    (isInit : thread.owner.val = 1)
    (path : ∀ {procs}, ProcTable.ExitPath thread.owner none middle.procs procs →
      ProcTable.ExitPath thread.owner stored kernel.procs procs)
    (ran : middle.exitLoop t thread.owner thread.ptcb exitval = .ok after) :
    ProcTurn kernel t thread stored after.procs after.threads := by
  obtain ⟨⟨ended, procs⟩, reaped, isAfter⟩ := exists_of_bind_eq_ok ran
  have exitPath := path (.of_reapAll reaped)
  simp only at isAfter
  split_ifs at isAfter
  · refine procTurn_sysThreadExit isThread ?_ ?_ isAfter
    · exact threads
    · exact exitPath
  · cases isAfter
    show ProcTurn kernel t thread stored procs (middle.threads.modify t _)
    rw [threads, modify_eq_set isThread]
    exact .exitWaits stored exitval procs isInit exitPath

/-- `sys_Exec` -/
theorem procTurn_exec
    {call : Option Task}
    {argl : Int}
    {args : Nat}
    {memory : Nat → UInt8}
    {ptcb : π}
    {newproc : Option (Fin limits.maxProc)}
    {middle : OldKernel limits π}
    (isThread : kernel.threads[t]? = some thread)
    (ran : kernel.sysExec (some thread.owner) call argl args memory ptcb =
      .ok (newproc, middle)) :
    ProcTurn kernel t thread none (middle.returning t (.exec newproc)).procs
      (middle.returning t (.exec newproc)).threads := by
  obtain ⟨⟨result, procs⟩, executed, isMiddle⟩ := exists_of_bind_eq_ok ran
  rcases ProcTable.exec_eq_ok executed with
    ⟨-, rfl, rfl⟩ | ⟨pid, bytes, isFree, rfl, -, -, rfl⟩
  · cases isMiddle
    exact .of_returning isThread rfl rfl
  · cases call with
    | none =>
        cases isMiddle
        show ProcTurn kernel t thread none _ (kernel.threads.modify t _)
        rw [modify_eq_set isThread]
        exact .createsEmpty pid argl bytes isFree
    | some task =>
        cases isMiddle
        show ProcTurn kernel t thread none _
          ((kernel.threads ++ [OldThread.mk pid ptcb .own]).modify t _)
        rw [modify_eq_set (getElem?_append_new isThread)]
        exact .creates pid task argl bytes ptcb isFree

/-- `sys_CreateThread` -/
theorem procTurn_createThread
    (isThread : kernel.threads[t]? = some thread)
    (task : Option Task)
    (argl : Int)
    (args : Nat)
    (ptcb : π)
    (reply : OldReply limits π) :
    ProcTurn kernel t thread none
      ((kernel.sysCreateThread thread.owner task argl args ptcb).2.returning t
        reply).procs
      ((kernel.sysCreateThread thread.owner task argl args ptcb).2.returning t
        reply).threads := by
  cases task with
  | none => exact .of_returning isThread rfl rfl
  | some task =>
      show ProcTurn kernel t thread none _
        ((kernel.threads ++ [OldThread.mk thread.owner ptcb .own]).modify t _)
      rw [modify_eq_set (getElem?_append_new isThread)]
      exact .spawns ptcb

/-- The loop of `sys_ThreadJoin` leaves the processes alone. -/
theorem procTurn_joinLoop
    {middle : OldKernel limits π}
    {ptcb : π}
    {target : Nat}
    (isThread : kernel.threads[t]? = some thread)
    (procs : middle.procs = kernel.procs)
    (threads : middle.threads = kernel.threads)
    (ran : middle.joinLoop t ptcb target = .ok after) :
    ProcTurn kernel t thread none after.procs after.threads := by
  have replied : ∀ {last : OldKernel limits π} {reply : OldReply limits π},
      last.procs = middle.procs → last.threads = middle.threads →
      ProcTurn kernel t thread none (last.returning t reply).procs
        (last.returning t reply).threads := by
    intro last reply lastProcs lastThreads
    apply ProcTurn.of_returning isThread
    · exact lastProcs.trans procs
    · show last.threads.modify t _ = _
      rw [lastThreads, threads]
  unfold joinLoop at ran
  simp only at ran
  split_ifs at ran with freed detached exited last
  · cases ran
    exact replied rfl rfl
  · cases ran
    exact replied rfl rfl
  · cases ran
    exact replied rfl rfl
  · cases ran
    refine .of_goes isThread (.joining ptcb target) procs ?_ rfl (by simp)
      (by simp)
    show middle.threads.modify t _ = _
    rw [threads]

/-- `sys_ThreadJoin` -/
theorem procTurn_threadJoin
    {tid : Option π}
    (isThread : kernel.threads[t]? = some thread)
    (ran : kernel.sysThreadJoin t thread.owner thread.ptcb tid = .ok after) :
    ProcTurn kernel t thread none after.procs after.threads := by
  unfold sysThreadJoin at ran
  split_ifs at ran
  · cases ran
    exact .of_returning isThread rfl rfl
  · obtain ⟨found, -, isAfter⟩ := exists_of_bind_eq_ok ran
    cases found with
    | none =>
        cases isAfter
        exact .of_returning isThread rfl rfl
    | some ptcb =>
        simp only at isAfter
        split_ifs at isAfter
        · cases isAfter
          exact .of_returning isThread rfl rfl
        · refine procTurn_joinLoop isThread ?_ ?_ isAfter
          · rfl
          · rfl

/-- `sys_ThreadDetach` -/
theorem procTurn_threadDetach
    {tid : Option π}
    (isThread : kernel.threads[t]? = some thread)
    (ran : kernel.sysThreadDetach t thread.owner tid = .ok after) :
    ProcTurn kernel t thread none after.procs after.threads := by
  obtain ⟨found, -, isAfter⟩ := exists_of_bind_eq_ok ran
  cases found with
  | none =>
      cases isAfter
      exact .of_returning isThread rfl rfl
  | some ptcb =>
      simp only at isAfter
      split_ifs at isAfter <;> cases isAfter <;>
        exact .of_returning isThread rfl rfl

/-- A waiting call goes on. -/
theorem procTurn_resume
    (isThread : kernel.threads[t]? = some thread)
    (waiting : thread.call.isWaiting = true)
    (ran : kernel.threadStep t thread (.resume t) = .ok after)
    (exiting : ∀ exitval, thread.call = .exiting exitval →
      thread.owner.val = 1) :
    ProcTurn kernel t thread none after.procs after.threads := by
  unfold threadStep at ran
  cases called : thread.call with
  | own =>
      rw [called] at waiting
      cases waiting
  | waitsFor child =>
      rw [called] at ran
      cases ran
      exact procTurn_waitChildLoop isThread (.inl called)
  | waitsAny =>
      rw [called] at ran
      exact procTurn_waitAnyLoop isThread ran
  | exiting exitval =>
      rw [called] at ran
      exact procTurn_exitLoop isThread rfl (exiting exitval called) id ran
  | joining ptcb target =>
      rw [called] at ran
      exact procTurn_joinLoop isThread rfl rfl ran
  | streaming fcb =>
      rw [called] at ran
      cases ran
      exact .of_goes isThread .own rfl rfl rfl (by simp) (by simp)
  | exited exitval =>
      rw [called] at waiting
      cases waiting

/-- Every step of a thread is one of the turns. -/
theorem procTurn_of_step
    {action : OldAction π}
    (isThread : kernel.threads[action.thread]? = some thread)
    (takes : kernel.Takes thread action)
    (ran : kernel.step action = .ok after)
    (exiting : ∀ exitval, thread.call = .exiting exitval →
      thread.owner.val = 1) :
    ProcTurn kernel action.thread thread action.stored after.procs after.threads := by
  unfold step at ran
  rw [isThread] at ran
  simp only at ran
  cases action with
  | exec t call argl args memory ptcb =>
      obtain ⟨⟨newproc, middle⟩, executed, isAfter⟩ := exists_of_bind_eq_ok ran
      cases isAfter
      exact procTurn_exec isThread executed
  | exit t exitval =>
      change kernel.sysExit t thread.owner thread.ptcb exitval = .ok after at ran
      unfold sysExit at ran
      simp only at ran
      split_ifs at ran with isInit
      · refine procTurn_exitLoop isThread ?_ isInit ?_ ran
        · rfl
        · exact .store
      · refine procTurn_sysThreadExit isThread ?_ ?_ ran
        · rfl
        · exact .store .refl
  | waitChild t cpid => exact procTurn_waitChild isThread ran
  | createThread t task argl args ptcb =>
      cases ran
      exact procTurn_createThread isThread task argl args ptcb _
  | threadExit t exitval => exact procTurn_sysThreadExit isThread rfl .refl ran
  | threadJoin t tid => exact procTurn_threadJoin isThread ran
  | threadDetach t tid => exact procTurn_threadDetach isThread ran
  | openNull t => exact procTurn_returnOpened isThread ran
  | openTerminal t termno => exact procTurn_returnOpened isThread ran
  | openInfo t => exact procTurn_returnOpened isThread ran
  | pipe t => exact procTurn_returnOpened isThread ran
  | close t fd =>
      cases ran
      exact .of_returning isThread rfl rfl
  | dup2 t oldfd newfd =>
      cases ran
      exact .of_returning isThread rfl rfl
  | startTransfer t fd =>
      change Except.ok (kernel.beginTransfer t
        (kernel.files.startTransfer thread.owner fd)) = .ok after at ran
      cases started : kernel.files.startTransfer thread.owner fd with
      | mk found files =>
          rw [started] at ran
          cases found with
          | none =>
              cases ran
              exact .of_returning isThread rfl rfl
          | some fcb =>
              cases ran
              exact .of_goes isThread (.streaming fcb) rfl rfl rfl (by simp)
                (by simp)
  | resume t => exact procTurn_resume isThread takes ran exiting

end OldKernel
end TinierOS
