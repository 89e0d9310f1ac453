import TinierOS.Old.ProcRuns

/-!
# Lives of processes in the old kernel

The tree of the processes and what a call of `WaitChild` returns, in the runs of
the old kernel in which nobody waits for a process that has been reaped, and the
thread counts in all runs.
-/

namespace TinierOS

variable {limits : Limits} {π : Type}

namespace OldKernel

variable [DecidableEq π]
variable {kernel : OldKernel limits π}

/-- As long as nobody waits for a process that has been reaped, the processes form
a tree rooted at the initial process, which ends last. -/
theorem Reached.processTree
    (reached : Reached kernel) :
    (∃ children exited frees, kernel.procs.Tree children exited frees) ∧
    (∀ {pid}, pid.val = 0 → kernel.procs.pstate pid = .alive) ∧
    (∀ {pid}, pid.val = 1 → kernel.procs.pstate pid ≠ .free) ∧
    ∀ {init}, init.val = 1 → kernel.procs.pstate init = .zombie →
      (∀ {pid}, 1 < pid.val → kernel.procs.pstate pid = .free) ∧
        ∀ thread ∈ kernel.threads, thread.call.isExited = true := by
  have living := reached.living
  obtain ⟨children, exited, frees, tree⟩ := living.sound.tree
  refine ⟨⟨children, exited, frees, tree⟩, living.sound.system,
    living.sound.init, ?_⟩
  intro init isInit isZombie
  have othersFree : ∀ {pid : Fin limits.maxProc}, 1 < pid.val →
      kernel.procs.pstate pid = .free := by
    intro pid high
    by_contra inUse
    obtain ⟨root, isRoot, rootAlive⟩ := tree.init_alive inUse high
    obtain rfl : root = init := Fin.ext (isRoot.trans isInit.symm)
    rw [isZombie] at rootAlive
    cases rootAlive
  refine ⟨othersFree, ?_⟩
  intro thread member
  by_contra running
  have isAlive := living.sound.alive
    (running_pos member (Bool.eq_false_of_not_eq_true running))
  have notSystem := living.owner thread member
  by_cases isOne : thread.owner.val = 1
  · obtain same : thread.owner = init := Fin.ext (isOne.trans isInit.symm)
    rw [same, isZombie] at isAlive
    cases isAlive
  · rw [othersFree (by omega)] at isAlive
    cases isAlive

/-- The initial process adopts the child of a process that has ended. -/
theorem processTree_adopted :
    ∃ kernel : OldKernel ⟨4, 4, 1, 1⟩ Nat,
      (Reached kernel ∧ kernel.procs.pstate 2 = .zombie ∧
        kernel.procs.parent 3 = some 1) ∧
      (∃ children exited frees, kernel.procs.Tree children exited frees) ∧
      (∀ {pid}, pid.val = 0 → kernel.procs.pstate pid = .alive) ∧
      (∀ {pid}, pid.val = 1 → kernel.procs.pstate pid ≠ .free) ∧
      ∀ {init}, init.val = 1 → kernel.procs.pstate init = .zombie →
        (∀ {pid}, 1 < pid.val → kernel.procs.pstate pid = .free) ∧
          ∀ thread ∈ kernel.threads, thread.call.isExited = true := by
  obtain ⟨kernel, reached, passed⟩ : ∃ kernel : OldKernel ⟨4, 4, 1, 1⟩ Nat,
      Reached kernel ∧ decide (kernel.procs.pstate 2 = .zombie ∧
        kernel.procs.parent 3 = some 1) = true :=
    exists_reached_of_any (fun _ => 0) 0
      [.exec 0 (some 1) 0 0 (fun _ => 0) 1, .exec 1 (some 2) 0 0 (fun _ => 0) 2,
        .exit 1 7]
      (by decide +kernel)
  exact ⟨kernel, ⟨reached, of_decide_eq_true passed⟩, reached.processTree⟩

/-- In all runs `thread_count` counts the threads that have not ended; a process
has such threads only while it is alive, and as long as it is alive if it was
created with a task. -/
theorem Occurs.threadCounts
    (occurs : Occurs kernel)
    (pid : Fin limits.maxProc) :
    (kernel.procs.pcb pid).threadCount = running kernel.threads pid ∧
    (0 < running kernel.threads pid → kernel.procs.pstate pid = .alive) ∧
    (kernel.procs.pstate pid = .alive →
      (kernel.procs.pcb pid).mainTask ≠ none →
        0 < running kernel.threads pid) := by
  have staffed := occurs.staffed
  exact ⟨staffed.counts.count pid, staffed.counts.alive, staffed.runs⟩

/-- One of two threads has ended. -/
theorem threadCounts_two :
    ∃ kernel : OldKernel ⟨4, 4, 1, 1⟩ Nat,
      (Occurs kernel ∧ kernel.threads.length = 2) ∧
      (kernel.procs.pcb 1).threadCount = running kernel.threads 1 ∧
      (0 < running kernel.threads 1 → kernel.procs.pstate 1 = .alive) ∧
      (kernel.procs.pstate 1 = .alive → (kernel.procs.pcb 1).mainTask ≠ none →
        0 < running kernel.threads 1) := by
  obtain ⟨kernel, reached, passed⟩ : ∃ kernel : OldKernel ⟨4, 4, 1, 1⟩ Nat,
      Reached kernel ∧ decide (kernel.threads.length = 2) = true :=
    exists_reached_of_any (fun _ => 0) 0
      [.createThread 0 (some 1) 0 0 1, .threadExit 0 7] (by decide +kernel)
  exact ⟨kernel, ⟨reached.occurs, of_decide_eq_true passed⟩,
    reached.occurs.threadCounts 1⟩

end OldKernel

/-! ## Exit values -/

/-- A kernel with what the present process of each number has last passed to
`Exit`, if it has, and the exit value that the number had before that process was
created. -/
structure OldPast (limits : Limits) (π : Type) where
  kernel : OldKernel limits π
  given : Fin limits.maxProc → Option Int
  left : Fin limits.maxProc → Int

namespace ProcTable

/-- The exit values when a process may have stored one. -/
def storeExit
    (stored : Option Int)
    (curproc : Fin limits.maxProc)
    (values : Fin limits.maxProc → Int) : Fin limits.maxProc → Int :=
  match stored with
  | none => values
  | some exitval => Function.update values curproc exitval

/-- The column of the exit values. -/
def exitvals (table : ProcTable limits) (pid : Fin limits.maxProc) : Int :=
  (table.pcb pid).exitval

variable {table after : ProcTable limits}
variable {curproc : Fin limits.maxProc}

/-- An assignment to another field. -/
theorem exitvals_modifyPcb
    (table : ProcTable limits)
    (pid : Fin limits.maxProc)
    {change : OldPcb limits → OldPcb limits}
    (kept : (change (table.pcb pid)).exitval = (table.pcb pid).exitval) :
    (table.modifyPcb pid change).exitvals = table.exitvals := by
  funext other
  by_cases same : other = pid
  · subst same
    simpa [exitvals, modifyPcb] using kept
  · simp [exitvals, modifyPcb, same]

theorem exitvals_created
    (table : ProcTable limits)
    (newproc : Fin limits.maxProc)
    (newParent : Option (Fin limits.maxProc))
    (call : Option Task)
    (argl : Int)
    (args : List UInt8) :
    (table.created newproc newParent call argl args).exitvals =
      table.exitvals := by
  funext other
  by_cases same : other = newproc
  · subst same
    simp [exitvals, created]
  · simp [exitvals, created, same]

theorem exitvals_cleanupZombie
    (table : ProcTable limits)
    (child : Fin limits.maxProc) :
    (table.cleanupZombie child).2.exitvals = table.exitvals := by
  funext other
  by_cases same : other = child
  · subst same
    simp [exitvals, cleanupZombie, releasePCB, modifyPcb]
  · simp [exitvals, cleanupZombie, releasePCB, modifyPcb, same]

/-- What `sys_Exit` stores before `sys_ThreadExit`. -/
theorem ExitPath.exitvals
    {stored : Option Int}
    (path : ExitPath curproc stored table after) :
    after.exitvals = storeExit stored curproc table.exitvals := by
  induction path with
  | refl => rfl
  | @store table after exitval path inductionHypothesis =>
      rw [inductionHypothesis]
      funext pid
      by_cases isCur : pid = curproc
      · subst isCur
        simp [storeExit, ProcTable.exitvals, modifyPcb]
      · simp [storeExit, ProcTable.exitvals, modifyPcb, isCur]
  | @reap table after child exitval reaped polled path inductionHypothesis =>
      obtain ⟨-, -, rfl⟩ := zombie_of_pollAny polled
      rw [inductionHypothesis]
      exact exitvals_cleanupZombie table child

end ProcTable

namespace OldKernel

variable {kernel : OldKernel limits π}
variable {t : Nat}
variable {thread : OldThread limits π}
variable {stored : Option Int}
variable {after : ProcTable limits}
variable {changed : List (OldThread limits π)}

/-- Only `Exit` stores an exit value. -/
theorem Living.exitvals_turn
    (living : Living kernel.procs kernel.threads)
    (isThread : kernel.threads[t]? = some thread)
    (notExited : thread.call.isExited = false)
    (turn : ProcTurn kernel t thread stored after changed) :
    after.exitvals =
      ProcTable.storeExit stored thread.owner kernel.procs.exitvals := by
  have member := List.mem_of_getElem? isThread
  have hasThread := running_pos member notExited
  cases turn with
  | goes call goesOn child notExiting => rfl
  | createsEmpty newproc argl args isFree =>
      exact ProcTable.exitvals_created ..
  | creates newproc task argl args ptcb isFree =>
      rw [ProcTable.enter, ProcTable.exitvals_modifyPcb _ newproc rfl]
      exact ProcTable.exitvals_created ..
  | spawns ptcb => exact ProcTable.exitvals_modifyPcb _ thread.owner rfl
  | reapsChild child isChild notAlive =>
      exact ProcTable.exitvals_cleanupZombie kernel.procs child
  | reapsAny child exitval procs polled =>
      obtain ⟨-, -, rfl⟩ := ProcTable.zombie_of_pollAny polled
      exact ProcTable.exitvals_cleanupZombie kernel.procs child
  | exitWaits stored exitval procs isInit path =>
      exact path.exitvals
  | leaves stored exitval procs path others =>
      rw [ProcTable.leave, ProcTable.exitvals_modifyPcb _ thread.owner rfl]
      exact path.exitvals
  | ends stored exitval procs result path last ended =>
      have sound := (living.sound.exitPath path).1
      have left := sound.leave hasThread
      have leftAlive : (procs.leave thread.owner).pstate thread.owner =
          .alive := by
        rw [(ProcTable.sameTree_leave procs thread.owner).pstate]
        exact sound.alive hasThread
      rw [left.count] at last
      have isEnd := (left.endProcess leftAlive (living.owner thread member)
        (by omega) ended).2
      rw [← path.exitvals]
      funext pid
      rw [ProcTable.exitvals, (isEnd.fields pid).1]
      exact congrFun (ProcTable.exitvals_modifyPcb procs thread.owner rfl) pid

end OldKernel

namespace OldPast

/-- The exit value of the present process of a number: what it has last passed to
`Exit`, or else the one that the number had before. -/
def exitval (past : OldPast limits π) (pid : Fin limits.maxProc) : Int :=
  (past.given pid).getD (past.left pid)

/-- A process may have passed a value to `Exit`. -/
def gives
    (past : OldPast limits π)
    (owner : Fin limits.maxProc) : Option Int → OldPast limits π
  | none => past
  | some exitval => { past with
      given := Function.update past.given owner (some exitval) }

/-- A process may have been created; it has passed nothing to `Exit`. -/
def begins
    (past : OldPast limits π) : Option (Fin limits.maxProc) → OldPast limits π
  | none => past
  | some newproc => { past with
      given := Function.update past.given newproc none
      left := Function.update past.left newproc (past.exitval newproc) }

end OldPast

/-- The process that the last step has created. -/
def OldReply.newproc : OldReply limits π → Option (Fin limits.maxProc)
  | .exec newproc => newproc
  | _ => Option.none

namespace OldPast

/-- Add one step to the past. -/
def record
    (past : OldPast limits π)
    (action : OldAction π)
    (after : OldKernel limits π) : OldPast limits π :=
  match past.kernel.threads[action.thread]? with
  | none => { past with kernel := after }
  | some thread => { (past.gives thread.owner action.stored).begins
      after.reply.newproc with kernel := after }

variable {past : OldPast limits π}

theorem gives_exitval
    (past : OldPast limits π)
    (owner : Fin limits.maxProc)
    (stored : Option Int) :
    (past.gives owner stored).exitval =
      ProcTable.storeExit stored owner past.exitval := by
  cases stored with
  | none => rfl
  | some exitval =>
      funext pid
      by_cases same : pid = owner
      · subst same
        simp [OldPast.exitval, gives, ProcTable.storeExit]
      · simp [OldPast.exitval, gives, ProcTable.storeExit, same]

/-- A new process has the exit value that its number had. -/
theorem begins_exitval
    (past : OldPast limits π)
    (newproc : Option (Fin limits.maxProc)) :
    (past.begins newproc).exitval = past.exitval := by
  cases newproc with
  | none => rfl
  | some newproc =>
      funext pid
      by_cases same : pid = newproc
      · subst same
        simp [OldPast.exitval, begins]
      · simp [OldPast.exitval, begins, same]

theorem record_kernel
    (past : OldPast limits π)
    (action : OldAction π)
    (after : OldKernel limits π) :
    (past.record action after).kernel = after := by
  unfold record
  cases past.kernel.threads[action.thread]? with
  | none => rfl
  | some thread => rfl

theorem record_exitval
    {action : OldAction π}
    {thread : OldThread limits π}
    (isThread : past.kernel.threads[action.thread]? = some thread)
    (after : OldKernel limits π) :
    (past.record action after).exitval =
      ProcTable.storeExit action.stored thread.owner past.exitval := by
  unfold record
  rw [isThread]
  calc (OldPast.begins (past.gives thread.owner action.stored)
          after.reply.newproc).exitval
      = (past.gives thread.owner action.stored).exitval := begins_exitval ..
    _ = _ := gives_exitval ..

variable [DecidableEq π]

/-- The states of the same runs, with their past. -/
def Reached (past : OldPast limits π) : Prop :=
  ∃ ports task argl args memory ptcb start,
    OldKernel.boot limits ports task argl args memory ptcb = .ok start ∧
      Reachable (withPast kernel OldKernel.step record)
        (fun (past : OldPast limits π) action => past.kernel.Allowed action)
        ⟨start, fun _ => none, fun _ => 0⟩ past

theorem Reached.kernel
    (reached : past.Reached) :
    past.kernel.Reached := by
  obtain ⟨ports, task, argl, args, memory, ptcb, start, ran, reachable⟩ :=
    reached
  refine ⟨ports, task, argl, args, memory, ptcb, start, ran, ?_⟩
  exact reachable.of_withPast OldKernel.Allowed record_kernel

/-- A process block holds the exit value of its process. -/
theorem Reached.exitvals
    (reached : past.Reached) :
    past.kernel.procs.exitvals = past.exitval := by
  obtain ⟨ports, task, argl, args, memory, ptcb, start, ran, reachable⟩ :=
    reached
  have begins := OldKernel.booted_of_boot ran
  refine (reachable.invariant (motive := fun past =>
    OldKernel.Living past.kernel.procs past.kernel.threads ∧
      past.kernel.procs.exitvals = past.exitval) ⟨begins.living, ?_⟩ ?_).2
  · obtain ⟨ports, task, argl, args, ptcb, system, init, systemArgs, initArgs,
      -, -, -, -, rfl⟩ := begins
    have fresh : (OldKernel.initial limits π ports).procs.Fresh :=
      ProcTable.initializeProcesses_fresh
    show (ProcTable.enter _ init).exitvals = _
    rw [ProcTable.enter, ProcTable.exitvals_modifyPcb _ init rfl,
      ProcTable.exitvals_created, ProcTable.exitvals_created]
    funext pid
    exact fresh.exitval pid
  · rintro before after action ⟨living, same⟩ ⟨enabled, noneStranded⟩ stepped
    obtain ⟨kernel, kernelStepped, rfl⟩ := withPast_eq_ok.mp stepped
    obtain ⟨thread, isThread, takes, notExited⟩ :=
      OldKernel.exists_thread enabled
    have turn := OldKernel.procTurn_of_step isThread takes kernelStepped
      (living.exiting thread (List.mem_of_getElem? isThread))
    rw [record_kernel, record_exitval isThread kernel, ← same]
    exact ⟨living.step enabled kernelStepped
      (noneStranded kernel kernelStepped),
        living.exitvals_turn isThread notExited turn⟩

/-! ## Waiting for children -/

/-- The children that a call of `WaitChild` may return. -/
def Wanted
    (past : OldPast limits π)
    (thread : OldThread limits π) :
    OldAction π → Fin limits.maxProc → Prop
  | .waitChild _ cpid, child =>
      past.kernel.procs.IsParent child thread.owner ∧
        (cpid = -1 ∨ cpid = child.val)
  | .resume _, child =>
      past.kernel.procs.IsParent child thread.owner ∧
        (thread.call = .waitsAny ∨ thread.call = .waitsFor child)
  | _, _ => False

/-- The step begins a call of `WaitChild` or goes on with one. -/
def IsWaitChild (thread : OldThread limits π) : OldAction π → Prop
  | .waitChild _ _ => True
  | .resume _ => thread.call = .waitsAny ∨
      ∃ child, thread.call = .waitsFor child
  | _ => False

/-- What a call of `WaitChild` does before its next `kernel_wait`. -/
inductive WaitSpec
    (past : OldPast limits π)
    (thread : OldThread limits π)
    (action : OldAction π)
    (after : OldKernel limits π) : Prop
  /-- There is no such child: it returns `NOPROC`. -/
  | noChild
      (none : ∀ child, ¬past.Wanted thread action child)
      (procs : after.procs = past.kernel.procs)
      (threads : after.threads =
        past.kernel.threads.set action.thread { thread with call := .own })
      (reply : after.reply = .waitChild .none)
  /-- All such children are alive: it waits. -/
  | waits
      (call : OldCall limits π)
      (some : ∃ child, past.Wanted thread action child)
      (alive : ∀ child, past.Wanted thread action child →
        past.kernel.procs.pstate child = .alive)
      (waiting : call.isWaiting = true)
      (procs : after.procs = past.kernel.procs)
      (threads : after.threads =
        past.kernel.threads.set action.thread { thread with call := call })
  /-- It returns a zombie and the exit value, and the process is no more. -/
  | reaps
      (child : Fin limits.maxProc)
      (wanted : past.Wanted thread action child)
      (zombie : past.kernel.procs.pstate child = .zombie)
      (pstate : after.procs.pstate =
        Function.update past.kernel.procs.pstate child .free)
      (isParent : ∀ {other parent}, after.procs.IsParent other parent ↔
        other ≠ child ∧ past.kernel.procs.IsParent other parent)
      (count : after.procs.processCount = past.kernel.procs.processCount - 1)
      (threads : after.threads =
        past.kernel.threads.set action.thread { thread with call := .own })
      (reply : after.reply = .waitChild (some (child, past.exitval child)))

namespace Reached

variable {action : OldAction π}
variable {thread : OldThread limits π}
variable {child : Fin limits.maxProc}

/-- A zombie is reaped. -/
theorem reaps
    (reached : past.Reached)
    (isThread : past.kernel.threads[action.thread]? = some thread)
    (wanted : past.Wanted thread action child)
    (isZombie : past.kernel.procs.pstate child = .zombie) :
    past.WaitSpec thread action (past.kernel.waitOutcome action.thread .own
      (.reaped child (past.kernel.procs.cleanupZombie child).1
        (past.kernel.procs.cleanupZombie child).2)) := by
  refine .reaps child wanted isZombie
    (ProcTable.cleanupZombie_pstate past.kernel.procs child)
    ProcTable.cleanupZombie_isParent rfl
    (OldKernel.modify_eq_set isThread .own) ?_
  show OldReply.waitChild (some (child, (past.kernel.procs.pcb child).exitval)) =
    _
  rw [← reached.exitvals]
  rfl

/-- The loop of `wait_for_specific_child`. -/
theorem waitChildLoop
    (reached : past.Reached)
    (isThread : past.kernel.threads[action.thread]? = some thread)
    (isParent : past.kernel.procs.IsParent child thread.owner)
    (wanted : ∀ {other}, past.Wanted thread action other ↔ other = child) :
    past.WaitSpec thread action
      (past.kernel.waitChildLoop action.thread child) := by
  unfold OldKernel.waitChildLoop ProcTable.pollChild
  split_ifs with isAlive
  · refine .waits (.waitsFor child) ⟨child, wanted.mpr rfl⟩ ?_ rfl rfl
      (OldKernel.modify_eq_set isThread _)
    intro other isWanted
    rw [wanted.mp isWanted]
    exact isAlive
  · have isZombie : past.kernel.procs.pstate child = .zombie := by
      cases state : past.kernel.procs.pstate child with
      | free => exact absurd state isParent.1
      | alive => exact absurd state isAlive
      | zombie => rfl
    exact reached.reaps isThread (wanted.mpr rfl) isZombie

/-- The loop of `wait_for_any_child`. -/
theorem waitAnyLoop
    (reached : past.Reached)
    (isThread : past.kernel.threads[action.thread]? = some thread)
    (wanted : ∀ {other}, past.Wanted thread action other ↔
      past.kernel.procs.IsParent other thread.owner) :
    ∃ after, past.kernel.waitAnyLoop action.thread thread.owner = .ok after ∧
      past.WaitSpec thread action after := by
  obtain ⟨children, exited, frees, tree⟩ := reached.kernel.living.sound.tree
  unfold OldKernel.waitAnyLoop
  rcases tree.pollAny thread.owner with ⟨childless, polled⟩ |
    ⟨hasChild, noneExited, polled⟩ | ⟨child, rest, isExited, polled⟩
  · rw [polled]
    refine ⟨_, rfl, .noChild ?_ rfl (OldKernel.modify_eq_set isThread .own) rfl⟩
    intro child isWanted
    have member := tree.mem_children.mpr (wanted.mp isWanted)
    rw [childless] at member
    cases member
  · rw [polled]
    refine ⟨_, rfl, .waits .waitsAny ?_ ?_ rfl rfl
      (OldKernel.modify_eq_set isThread .waitsAny)⟩
    · obtain ⟨child, member⟩ := List.exists_mem_of_ne_nil _ hasChild
      exact ⟨child, wanted.mpr (tree.mem_children.mp member)⟩
    · intro child isWanted
      have isParent := wanted.mp isWanted
      cases state : past.kernel.procs.pstate child with
      | free => exact absurd state isParent.1
      | alive => rfl
      | zombie =>
          have member := tree.mem_exited.mpr ⟨state, isParent.2⟩
          rw [noneExited] at member
          cases member
  · rw [polled]
    have member : child ∈ exited thread.owner := by
      rw [isExited]
      exact List.mem_cons_self ..
    refine ⟨_, rfl, reached.reaps isThread (wanted.mpr ?_)
      (tree.mem_exited.mp member).1⟩
    exact tree.mem_children.mp (tree.exited_subset thread.owner member)

/-- `wait_for_specific_child` finds its child, or there is none. -/
theorem legalChild_spec
    (procs : ProcTable limits)
    (parent : Fin limits.maxProc)
    (cpid : Int) :
    (procs.legalChild parent cpid = .ok none ∧
      ∀ child : Fin limits.maxProc, procs.IsParent child parent →
        cpid ≠ child.val) ∨
    ∃ child, procs.legalChild parent cpid = .ok (some child) ∧
      procs.IsParent child parent ∧ cpid = child.val := by
  unfold ProcTable.legalChild
  by_cases outside : cpid < 0 ∨ (limits.maxProc : Int) ≤ cpid
  · rw [if_pos outside]
    refine .inl ⟨rfl, ?_⟩
    rintro child - rfl
    omega
  rw [if_neg outside]
  have inRange : 0 ≤ cpid ∧ cpid.toNat < limits.maxProc := by omega
  have unique : ∀ child : Fin limits.maxProc, cpid = child.val →
      child = ⟨cpid.toNat, inRange.2⟩ := by
    rintro child rfl
    rfl
  unfold ProcTable.getPcb
  rw [dif_pos inRange]
  by_cases isFree : (procs.pcb ⟨cpid.toNat, inRange.2⟩).pstate = .free
  · rw [if_pos isFree]
    refine .inl ⟨rfl, ?_⟩
    intro child isParent same
    rw [unique child same] at isParent
    exact isParent.1 isFree
  rw [if_neg isFree]
  simp only [bind, Except.bind]
  by_cases differs : (procs.pcb ⟨cpid.toNat, inRange.2⟩).parent ≠ some parent
  · rw [if_pos differs]
    refine .inl ⟨rfl, ?_⟩
    intro child isParent same
    rw [unique child same] at isParent
    exact differs isParent.2
  · rw [if_neg differs]
    exact .inr ⟨_, rfl, ⟨isFree, not_not.mp differs⟩,
      (Int.toNat_of_nonneg inRange.1).symm⟩

/-- As long as nobody waits for a process that has been reaped, a call of
`WaitChild` never fails.  It returns `NOPROC` exactly when the process has no such
child, waits exactly when all of them are alive, and else returns a zombie with
its exit value. -/
theorem waitChild
    (reached : past.Reached)
    (isThread : past.kernel.threads[action.thread]? = some thread)
    (isWaitChild : IsWaitChild thread action) :
    ∃ after, past.kernel.step action = .ok after ∧
      past.WaitSpec thread action after := by
  have living := reached.kernel.living
  unfold OldKernel.step
  rw [isThread]
  cases action with
  | waitChild t cpid =>
      show ∃ after, past.kernel.sysWaitChild t thread.owner cpid = .ok after ∧ _
      unfold OldKernel.sysWaitChild
      split_ifs with specific
      · rcases legalChild_spec past.kernel.procs thread.owner cpid with
          ⟨legal, none⟩ | ⟨child, legal, isParent, isCpid⟩
        · rw [legal]
          refine ⟨_, rfl, .noChild ?_ rfl
            (OldKernel.modify_eq_set isThread .own) rfl⟩
          rintro child ⟨isParent, any | same⟩
          · exact specific any
          · exact none child isParent same
        · rw [legal]
          refine ⟨_, rfl, reached.waitChildLoop isThread isParent ?_⟩
          intro other
          constructor
          · rintro ⟨-, any | same⟩
            · exact absurd any specific
            · apply Fin.ext
              omega
          · rintro rfl
            exact ⟨isParent, .inr isCpid⟩
      · apply reached.waitAnyLoop isThread
        intro other
        simp [Wanted, not_not.mp specific]
  | resume t =>
      rcases isWaitChild with any | ⟨child, specific⟩
      · simp only [OldKernel.threadStep, any]
        apply reached.waitAnyLoop isThread
        intro other
        simp [Wanted, any]
      · simp only [OldKernel.threadStep, specific]
        have isParent := living.waits thread (List.mem_of_getElem? isThread)
          child specific
        refine ⟨_, rfl, reached.waitChildLoop isThread isParent ?_⟩
        intro other
        constructor
        · rintro ⟨-, any | same⟩
          · rw [specific] at any
            cases any
          · rw [specific] at same
            cases same
            rfl
        · rintro rfl
          exact ⟨isParent, .inr specific⟩
  | _ => exact isWaitChild.elim

/-- The initial process reaps a child that has exited with 7. -/
theorem waitChild_seven :
    ∃ (past : OldPast ⟨4, 4, 1, 1⟩ Nat) (thread : OldThread ⟨4, 4, 1, 1⟩ Nat),
      (past.Reached ∧ past.kernel.threads[0]? = some thread ∧
        past.given 2 = some 7) ∧
      ∃ after, past.kernel.step (.waitChild 0 (-1)) = .ok after ∧
        past.WaitSpec thread (.waitChild 0 (-1)) after := by
  have ran : ∃ (start : OldKernel ⟨4, 4, 1, 1⟩ Nat)
      (past : OldPast ⟨4, 4, 1, 1⟩ Nat),
      OldKernel.boot ⟨4, 4, 1, 1⟩ 1 0 0 0 (fun _ => 0) 0 = .ok start ∧
      Reachable (withPast OldPast.kernel OldKernel.step record)
        (fun past action => past.kernel.Allowed action)
          ⟨start, fun _ => none, fun _ => 0⟩ past ∧
      decide (past.kernel.threads[0]? = some ⟨1, 0, .own⟩ ∧
        past.given 2 = some 7) = true :=
    exists_reachable_of_booted
      [OldAction.exec 0 (some 1) 0 0 (fun _ => 0) 1, .exit 1 7]
      (by decide +kernel)
  obtain ⟨start, past, booted, reachable, passed⟩ := ran
  obtain ⟨isThread, stored⟩ := of_decide_eq_true passed
  have reached : past.Reached :=
    ⟨1, 0, 0, 0, fun _ => 0, 0, start, booted, reachable⟩
  exact ⟨past, ⟨1, 0, .own⟩, ⟨reached, isThread, stored⟩,
    reached.waitChild isThread trivial⟩

end Reached
end OldPast
end TinierOS
