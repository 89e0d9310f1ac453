import TinierOS.Old.Living

/-!
# Processes and threads of the old kernel

The threads of each process are counted, and every turn of a thread keeps the
counts.  The process table fits the threads: only children are waited for, and
only the initial process waits in `sys_Exit`.  Every turn that leaves nobody
waiting for a process that has been reaped keeps this.
-/

namespace TinierOS

variable {limits : Limits} {π : Type}

namespace OldThread

/-- The thread belongs to the process and has not ended. -/
def runsIn (thread : OldThread limits π) (pid : Fin limits.maxProc) : Bool :=
  thread.owner = pid && !thread.call.isExited

end OldThread

namespace OldKernel

/-- The number of threads of a process that have not ended. -/
def running
    (threads : List (OldThread limits π))
    (pid : Fin limits.maxProc) : Nat :=
  threads.countP fun thread => thread.runsIn pid

/-- The threads of each process are counted, a living process that was created
with a task has one, and only the initial process waits in `sys_Exit`. -/
structure Staffed
    (procs : ProcTable limits)
    (threads : List (OldThread limits π)) : Prop where
  counts : procs.Counts (running threads)
  runs : procs.Runs (running threads)
  exiting : ∀ thread ∈ threads, ∀ exitval, thread.call = .exiting exitval →
    thread.owner.val = 1

/-- The process table fits the threads; only children are waited for, and only
the initial process waits in `sys_Exit`. -/
structure Living
    (procs : ProcTable limits)
    (threads : List (OldThread limits π)) : Prop where
  sound : procs.Sound (running threads)
  runs : procs.Runs (running threads)
  owner : ∀ thread ∈ threads, thread.owner.val ≠ 0
  waits : ∀ thread ∈ threads, ∀ child, thread.call = .waitsFor child →
    procs.IsParent child thread.owner
  exiting : ∀ thread ∈ threads, ∀ exitval, thread.call = .exiting exitval →
    thread.owner.val = 1

theorem Living.staffed
    {procs : ProcTable limits}
    {threads : List (OldThread limits π)}
    (living : Living procs threads) :
    Staffed procs threads :=
  ⟨living.sound.toCounts, living.runs, living.exiting⟩

variable {procs after : ProcTable limits}
variable {threads changed : List (OldThread limits π)}
variable {thread : OldThread limits π}
variable {t : Nat}
variable {stored : Option Int}

/-! ## Counting threads -/

theorem running_pos
    (member : thread ∈ threads)
    (notExited : thread.call.isExited = false) :
    0 < running threads thread.owner := by
  rw [running, List.countP_pos_iff]
  exact ⟨thread, member, by simp [OldThread.runsIn, notExited]⟩

/-- A thread goes from one call to another. -/
theorem running_set
    (isThread : threads[t]? = some thread)
    (notExited : thread.call.isExited = false)
    (call : OldCall limits π)
    (goesOn : call.isExited = false) :
    running (threads.set t { thread with call := call }) = running threads := by
  funext pid
  have counted := countP_set_add isThread (fun thread => thread.runsIn pid)
    { thread with call := call }
  have same : ({ thread with call := call } : OldThread limits π).runsIn pid =
      thread.runsIn pid := by
    simp [OldThread.runsIn, notExited, goesOn]
  rw [same] at counted
  exact Nat.add_right_cancel counted

/-- A thread ends. -/
theorem running_exited
    (isThread : threads[t]? = some thread)
    (notExited : thread.call.isExited = false)
    (exitval : Int) :
    running (threads.set t { thread with call := .exited exitval }) =
      Function.update (running threads) thread.owner
        (running threads thread.owner - 1) := by
  funext pid
  have counted := countP_set_add isThread (fun thread => thread.runsIn pid)
    { thread with call := .exited exitval }
  have ended : ({ thread with call := .exited exitval } :
      OldThread limits π).runsIn pid = false := by
    simp [OldThread.runsIn, OldCall.isExited]
  have counts : thread.runsIn pid = decide (thread.owner = pid) := by
    simp [OldThread.runsIn, notExited]
  rw [ended, counts] at counted
  by_cases same : pid = thread.owner
  · subst same
    simp only [decide_true, if_true, Bool.false_eq_true, if_false, running,
      Function.update_self] at counted ⊢
    omega
  · simpa [Ne.symm same, same, running] using counted

/-- A thread creates another one. -/
theorem running_append_set
    (isThread : threads[t]? = some thread)
    (notExited : thread.call.isExited = false)
    (owner : Fin limits.maxProc)
    (ptcb : π) :
    running ((threads ++ [OldThread.mk owner ptcb .own]).set t
        { thread with call := .own }) =
      Function.update (running threads) owner (running threads owner + 1) := by
  rw [running_set (getElem?_append_new isThread) notExited .own rfl]
  funext pid
  rw [running, List.countP_append, List.countP_singleton]
  by_cases same : pid = owner
  · subst same
    simp [OldThread.runsIn, OldCall.isExited, running]
  · simp [OldThread.runsIn, same, Ne.symm same, running]

/-! ## Keeping the counts -/

/-- The task of a process after `sys_Exec`. -/
theorem created_mainTask
    (procs : ProcTable limits)
    (newproc : Fin limits.maxProc)
    (newParent : Option (Fin limits.maxProc))
    (call : Option Task)
    (argl : Int)
    (args : List UInt8)
    (pid : Fin limits.maxProc) :
    ((procs.created newproc newParent call argl args).pcb pid).mainTask =
      if pid = newproc then call else (procs.pcb pid).mainTask := by
  by_cases same : pid = newproc
  · subst same
    simp [ProcTable.created]
  · simp [ProcTable.created, same]

namespace Staffed

variable {middle : ProcTable limits}

/-- A turn that moves its thread to another call; living processes have the
threads they had or at least one. -/
theorem moves
    {call : OldCall limits π}
    (staffed : Staffed procs threads)
    (counts : after.Counts
      (running (threads.set t { thread with call := call })))
    (fades : ProcTable.Fades procs after)
    (kept : ∀ pid, after.pstate pid = .alive →
      running (threads.set t { thread with call := call }) pid =
          running threads pid ∨
        0 < running (threads.set t { thread with call := call }) pid)
    (exiting : ∀ exitval, call = .exiting exitval → thread.owner.val = 1) :
    Staffed after (threads.set t { thread with call := call }) where
  counts := counts
  runs := by
    intro pid isAlive hasTask
    rcases kept pid isAlive with same | positive
    · rw [same]
      exact staffed.runs (fades.alive isAlive) (fades.mainTask pid ▸ hasTask)
    · exact positive
  exiting := by
    intro other member exitval isExiting
    rcases List.mem_or_eq_of_mem_set member with old | rfl
    · exact staffed.exiting other old exitval isExiting
    · exact exiting exitval isExiting

/-- A turn after which no more threads and no fewer run. -/
theorem goes
    {call : OldCall limits π}
    (staffed : Staffed procs threads)
    (isThread : threads[t]? = some thread)
    (notExited : thread.call.isExited = false)
    (goesOn : call.isExited = false)
    (counts : after.Counts (running threads))
    (fades : ProcTable.Fades procs after)
    (exiting : ∀ exitval, call = .exiting exitval → thread.owner.val = 1) :
    Staffed after (threads.set t { thread with call := call }) := by
  have same := running_set isThread notExited call goesOn
  refine staffed.moves ?_ fades (fun pid _ => .inl (congrFun same pid)) exiting
  rw [same]
  exact counts

/-- `sys_Exec` with a null task. -/
theorem createsEmpty
    (staffed : Staffed procs threads)
    (isThread : threads[t]? = some thread)
    (notExited : thread.call.isExited = false)
    (newproc : Fin limits.maxProc)
    (newParent : Option (Fin limits.maxProc))
    (argl : Int)
    (args : List UInt8) :
    Staffed (procs.created newproc newParent none argl args)
      (threads.set t { thread with call := .own }) where
  counts := by
    rw [running_set isThread notExited .own rfl]
    exact staffed.counts.created newproc newParent none argl args
  runs := by
    rw [running_set isThread notExited .own rfl]
    intro pid isAlive hasTask
    rw [created_mainTask] at hasTask
    rw [ProcTable.created_pstate, Function.update_apply] at isAlive
    split_ifs at hasTask isAlive with isNew
    · exact absurd rfl hasTask
    · exact staffed.runs isAlive hasTask
  exiting := by
    intro other member exitval isExiting
    rcases List.mem_or_eq_of_mem_set member with old | rfl
    · exact staffed.exiting other old exitval isExiting
    · cases isExiting

/-- A thread is started in a living process. -/
theorem starts
    {owner : Fin limits.maxProc}
    (staffed : Staffed procs threads)
    (isThread : threads[t]? = some thread)
    (notExited : thread.call.isExited = false)
    (ptcb : π)
    (counts : middle.Counts (running threads))
    (isAlive : middle.pstate owner = .alive)
    (runs : ∀ {pid}, pid ≠ owner → middle.pstate pid = .alive →
      (middle.pcb pid).mainTask ≠ none → 0 < running threads pid) :
    Staffed (middle.enter owner)
      ((threads ++ [OldThread.mk owner ptcb .own]).set t
        { thread with call := .own }) where
  counts := by
    rw [running_append_set isThread notExited owner ptcb]
    exact counts.enter isAlive
  runs := by
    rw [running_append_set isThread notExited owner ptcb]
    intro pid entered hasTask
    rw [(ProcTable.sameTree_enter middle owner).pstate] at entered
    by_cases isOwner : pid = owner
    · subst isOwner
      simp
    · rw [Function.update_of_ne isOwner]
      apply runs isOwner entered
      simpa [ProcTable.enter, ProcTable.modifyPcb, isOwner] using hasTask
  exiting := by
    intro other member exitval isExiting
    rcases List.mem_or_eq_of_mem_set member with either | rfl
    · rcases List.mem_append.mp either with old | new
      · exact staffed.exiting other old exitval isExiting
      · obtain rfl := List.mem_singleton.mp new
        cases isExiting
    · cases isExiting

/-- A thread ends, but not its process. -/
theorem leaves
    (staffed : Staffed procs threads)
    (isThread : threads[t]? = some thread)
    (notExited : thread.call.isExited = false)
    (path : ProcTable.ExitPath thread.owner stored procs middle)
    (others : ((middle.leave thread.owner).pcb thread.owner).threadCount ≠ 0)
    (exitval : Int) :
    Staffed (middle.leave thread.owner)
      (threads.set t { thread with call := .exited exitval }) := by
  have fewer := running_exited isThread notExited exitval
  obtain ⟨counts, fades⟩ := staffed.counts.exitPath path
  have left := counts.leave
    (running_pos (List.mem_of_getElem? isThread) notExited)
  refine staffed.moves ?_ (fades.trans (.of_leave middle thread.owner)) ?_
    (by simp)
  · rw [fewer]
    exact left
  · rw [fewer]
    intro pid _
    by_cases isOwner : pid = thread.owner
    · subst isOwner
      rw [left.count] at others
      right
      omega
    · exact .inl (Function.update_of_ne isOwner ..)

/-- The last thread of a process ends. -/
theorem ends
    (staffed : Staffed procs threads)
    (isThread : threads[t]? = some thread)
    (notExited : thread.call.isExited = false)
    (path : ProcTable.ExitPath thread.owner stored procs middle)
    (last : ((middle.leave thread.owner).pcb thread.owner).threadCount = 0)
    (ended : (middle.leave thread.owner).endProcess thread.owner = .ok after)
    (exitval : Int) :
    Staffed after (threads.set t { thread with call := .exited exitval }) := by
  have fewer := running_exited isThread notExited exitval
  obtain ⟨counts, fades⟩ := staffed.counts.exitPath path
  have left := counts.leave
    (running_pos (List.mem_of_getElem? isThread) notExited)
  rw [left.count] at last
  obtain ⟨countsAfter, ends⟩ := left.endProcess (by omega) ended
  refine staffed.moves ?_
    ((fades.trans (.of_leave middle thread.owner)).trans ends) ?_ (by simp)
  · rw [fewer]
    exact countsAfter
  · rw [fewer]
    intro pid endAlive
    left
    apply Function.update_of_ne
    rintro rfl
    rw [(ProcTable.endProcess_lives ended).1, Function.update_self] at endAlive
    cases endAlive

variable {kernel : OldKernel limits π}

/-- Every turn keeps the counts. -/
theorem turn
    (staffed : Staffed kernel.procs kernel.threads)
    (isThread : kernel.threads[t]? = some thread)
    (notExited : thread.call.isExited = false)
    (turn : ProcTurn kernel t thread stored after changed) :
    Staffed after changed := by
  have isAlive := staffed.counts.alive
    (running_pos (List.mem_of_getElem? isThread) notExited)
  cases turn with
  | goes call goesOn child notExiting =>
      exact staffed.goes isThread notExited goesOn staffed.counts .refl
        fun exitval isExiting => absurd isExiting (notExiting exitval)
  | createsEmpty newproc argl args isFree =>
      exact staffed.createsEmpty isThread notExited newproc _ argl args
  | creates newproc task argl args ptcb isFree =>
      refine staffed.starts isThread notExited ptcb
        (staffed.counts.created newproc _ _ argl args) ?_ ?_
      · rw [ProcTable.created_pstate, Function.update_self]
      · intro pid isOld isAlive hasTask
        rw [ProcTable.created_pstate, Function.update_of_ne isOld] at isAlive
        rw [created_mainTask, if_neg isOld] at hasTask
        exact staffed.runs isAlive hasTask
  | spawns ptcb =>
      exact staffed.starts isThread notExited ptcb staffed.counts isAlive
        fun _ isAlive hasTask => staffed.runs isAlive hasTask
  | reapsChild child isChild notAlive =>
      exact staffed.goes isThread notExited rfl (staffed.counts.reap notAlive)
        (.of_cleanupZombie kernel.procs child) (by simp)
  | reapsAny child exitval procs polled =>
      obtain ⟨isZombie, -, rfl⟩ := ProcTable.zombie_of_pollAny polled
      exact staffed.goes isThread notExited rfl
        (staffed.counts.reap (by simp [isZombie]))
        (.of_cleanupZombie kernel.procs child) (by simp)
  | exitWaits stored exitval procs isInit path =>
      obtain ⟨counts, fades⟩ := staffed.counts.exitPath path
      exact staffed.goes isThread notExited rfl counts fades fun _ _ => isInit
  | leaves stored exitval procs path others =>
      exact staffed.leaves isThread notExited path others exitval
  | ends stored exitval procs result path last ended =>
      exact staffed.ends isThread notExited path last ended exitval

end Staffed

/-! ## Keeping the tables -/

/-- Those whose parent stays alive keep it. -/
def KeepsParents (before after : ProcTable limits) : Prop :=
  ∀ {child parent}, before.IsParent child parent →
    after.pstate child ≠ .free → after.pstate parent = .alive →
      after.IsParent child parent

/-- What a turn has to keep. -/
theorem Living.of_turn
    (living : Living procs threads)
    (staffed : Staffed after changed)
    (sound : after.Sound (running changed))
    (keeps : KeepsParents procs after)
    (members : ∀ other ∈ changed, other ∈ threads ∨
      (other.owner.val ≠ 0 ∧ ∀ child, other.call = .waitsFor child →
        procs.IsParent child other.owner))
    (noneStranded : ∀ other ∈ changed, ∀ child, other.call = .waitsFor child →
      after.pstate child ≠ .free) :
    Living after changed where
  sound := sound
  runs := staffed.runs
  exiting := staffed.exiting
  owner := by
    intro other member
    rcases members other member with old | ⟨notSystem, -⟩
    · exact living.owner other old
    · exact notSystem
  waits := by
    intro other member child waiting
    have wasParent : procs.IsParent child other.owner := by
      rcases members other member with old | ⟨-, waits⟩
      · exact living.waits other old child waiting
      · exact waits child waiting
    apply keeps wasParent (noneStranded other member child waiting)
    apply sound.alive
    apply running_pos member
    rw [waiting]
    rfl

/-- A turn that only moves its thread to another call. -/
theorem mem_set_cases
    {call : OldCall limits π}
    (notSystem : thread.owner.val ≠ 0)
    (waits : ∀ child, call = .waitsFor child →
      procs.IsParent child thread.owner) :
    ∀ other ∈ threads.set t { thread with call := call }, other ∈ threads ∨
      (other.owner.val ≠ 0 ∧ ∀ child, other.call = .waitsFor child →
        procs.IsParent child other.owner) := by
  intro other member
  rcases List.mem_or_eq_of_mem_set member with old | rfl
  · exact .inl old
  · exact .inr ⟨notSystem, waits⟩

/-- A turn that also creates a thread. -/
theorem mem_append_set_cases
    {owner : Fin limits.maxProc}
    {ptcb : π}
    (notSystem : thread.owner.val ≠ 0)
    (newNotSystem : owner.val ≠ 0) :
    ∀ other ∈ (threads ++ [OldThread.mk owner ptcb .own]).set t
        { thread with call := .own }, other ∈ threads ∨
      (other.owner.val ≠ 0 ∧ ∀ child, other.call = .waitsFor child →
        procs.IsParent child other.owner) := by
  intro other member
  rcases List.mem_or_eq_of_mem_set member with either | rfl
  · rcases List.mem_append.mp either with old | new
    · exact .inl old
    · obtain rfl := List.mem_singleton.mp new
      exact .inr ⟨newNotSystem, by simp⟩
  · exact .inr ⟨notSystem, by simp⟩

/-- A new process does not take the parents of others. -/
theorem keepsParents_created
    {newproc : Fin limits.maxProc}
    {newParent : Option (Fin limits.maxProc)}
    {call : Option Task}
    {argl : Int}
    {args : List UInt8}
    (isFree : procs.pstate newproc = .free) :
    KeepsParents procs (procs.created newproc newParent call argl args) := by
  intro child parent isParent _ _
  exact (ProcTable.created_isParent isFree).mpr (.inr isParent)

theorem keepsParents_enter
    (owner : Fin limits.maxProc) :
    KeepsParents procs (procs.enter owner) := by
  intro child parent isParent _ _
  have same := ProcTable.sameTree_enter procs owner
  rw [ProcTable.IsParent, same.pstate, same.parent]
  exact isParent

/-! ## One turn -/

namespace Living

/-- The thread goes on at another point. -/
theorem goes
    {call : OldCall limits π}
    (living : Living procs threads)
    (staffed : Staffed procs (threads.set t { thread with call := call }))
    (isThread : threads[t]? = some thread)
    (notExited : thread.call.isExited = false)
    (goesOn : call.isExited = false)
    (child : ∀ child, call = .waitsFor child →
      thread.call = .waitsFor child ∨ procs.IsParent child thread.owner)
    (noneStranded : ∀ other ∈ threads.set t { thread with call := call },
      ∀ child, other.call = .waitsFor child → procs.pstate child ≠ .free) :
    Living procs (threads.set t { thread with call := call }) := by
  have member := List.mem_of_getElem? isThread
  refine living.of_turn staffed ?_ (fun isParent _ _ => isParent) ?_
    noneStranded
  · rw [running_set isThread notExited call goesOn]
    exact living.sound
  · apply mem_set_cases (living.owner thread member)
    intro other waits
    rcases child other waits with was | isParent
    · exact living.waits thread member other was
    · exact isParent

/-- `sys_Exec` with a null task. -/
theorem createsEmpty
    {newproc : Fin limits.maxProc}
    {argl : Int}
    {args : List UInt8}
    (living : Living procs threads)
    (staffed : Staffed (procs.created newproc
        (ProcTable.newParent newproc (some thread.owner)) none argl args)
      (threads.set t { thread with call := .own }))
    (isThread : threads[t]? = some thread)
    (notExited : thread.call.isExited = false)
    (isFree : procs.freelist = some newproc)
    (noneStranded : ∀ other ∈ threads.set t { thread with call := .own },
      ∀ child, other.call = .waitsFor child →
        (procs.created newproc (ProcTable.newParent newproc (some thread.owner))
          none argl args).pstate child ≠ .free) :
    Living (procs.created newproc
        (ProcTable.newParent newproc (some thread.owner)) none argl args)
      (threads.set t { thread with call := .own }) := by
  have member := List.mem_of_getElem? isThread
  have notSystem := living.owner thread member
  have isAlive := living.sound.alive (running_pos member notExited)
  obtain ⟨_, _, _, tree⟩ := living.sound.tree
  refine living.of_turn staffed ?_
    (keepsParents_created (tree.freelist_free isFree)) ?_ noneStranded
  · rw [running_set isThread notExited .own rfl]
    exact living.sound.created isFree isAlive notSystem none argl args
  · exact mem_set_cases notSystem (by simp)

/-- `sys_Exec` -/
theorem creates
    {newproc : Fin limits.maxProc}
    {task : Task}
    {argl : Int}
    {args : List UInt8}
    {ptcb : π}
    (living : Living procs threads)
    (staffed : Staffed ((procs.created newproc
          (ProcTable.newParent newproc (some thread.owner)) (some task) argl
            args).enter newproc)
      ((threads ++ [OldThread.mk newproc ptcb .own]).set t
        { thread with call := .own }))
    (isThread : threads[t]? = some thread)
    (notExited : thread.call.isExited = false)
    (isFree : procs.freelist = some newproc)
    (noneStranded : ∀ other ∈ (threads ++ [OldThread.mk newproc ptcb .own]).set
        t { thread with call := .own },
      ∀ child, other.call = .waitsFor child →
        ((procs.created newproc (ProcTable.newParent newproc (some thread.owner))
          (some task) argl args).enter newproc).pstate child ≠ .free) :
    Living ((procs.created newproc
          (ProcTable.newParent newproc (some thread.owner)) (some task) argl
            args).enter newproc)
      ((threads ++ [OldThread.mk newproc ptcb .own]).set t
        { thread with call := .own }) := by
  have member := List.mem_of_getElem? isThread
  have notSystem := living.owner thread member
  have isAlive := living.sound.alive (running_pos member notExited)
  obtain ⟨_, _, _, tree⟩ := living.sound.tree
  have wasFree := tree.freelist_free isFree
  have made := living.sound.created isFree isAlive notSystem (some task) argl
    args
  generalize ProcTable.newParent newproc (some thread.owner) = newParent
    at staffed noneStranded made ⊢
  refine living.of_turn staffed ?_ ?_ ?_ noneStranded
  · rw [running_append_set isThread notExited newproc ptcb]
    apply made.enter
    rw [ProcTable.created_pstate, Function.update_self]
  · intro child parent was _ _
    apply keepsParents_enter newproc
    · exact (ProcTable.created_isParent wasFree).mpr (.inr was)
    · assumption
    · assumption
  · apply mem_append_set_cases notSystem
    intro isSystem
    rw [living.sound.system isSystem] at wasFree
    cases wasFree

/-- `sys_CreateThread` -/
theorem spawns
    {ptcb : π}
    (living : Living procs threads)
    (staffed : Staffed (procs.enter thread.owner)
      ((threads ++ [OldThread.mk thread.owner ptcb .own]).set t
        { thread with call := .own }))
    (isThread : threads[t]? = some thread)
    (notExited : thread.call.isExited = false)
    (noneStranded : ∀ other ∈ (threads ++
        [OldThread.mk thread.owner ptcb .own]).set t { thread with call := .own },
      ∀ child, other.call = .waitsFor child →
        (procs.enter thread.owner).pstate child ≠ .free) :
    Living (procs.enter thread.owner)
      ((threads ++ [OldThread.mk thread.owner ptcb .own]).set t
        { thread with call := .own }) := by
  have member := List.mem_of_getElem? isThread
  have notSystem := living.owner thread member
  have isAlive := living.sound.alive (running_pos member notExited)
  refine living.of_turn staffed ?_ (keepsParents_enter thread.owner)
    (mem_append_set_cases notSystem notSystem) noneStranded
  rw [running_append_set isThread notExited thread.owner ptcb]
  exact living.sound.enter isAlive

/-- A child is reaped. -/
theorem reaps
    {child : Fin limits.maxProc}
    (living : Living procs threads)
    (staffed : Staffed (procs.cleanupZombie child).2
      (threads.set t { thread with call := .own }))
    (isThread : threads[t]? = some thread)
    (notExited : thread.call.isExited = false)
    (isZombie : procs.pstate child = .zombie)
    (isParent : procs.IsParent child thread.owner)
    (noneStranded : ∀ other ∈ threads.set t { thread with call := .own },
      ∀ other', other.call = .waitsFor other' →
        (procs.cleanupZombie child).2.pstate other' ≠ .free) :
    Living (procs.cleanupZombie child).2
      (threads.set t { thread with call := .own }) := by
  have member := List.mem_of_getElem? isThread
  have shrinks := ProcTable.Shrinks.of_cleanupZombie procs child
  refine living.of_turn staffed ?_ shrinks.parent
    (mem_set_cases (living.owner thread member) (by simp)) noneStranded
  rw [running_set isThread notExited .own rfl]
  exact living.sound.reap isZombie isParent

/-- The initial process waits in `sys_Exit`. -/
theorem exitWaits
    {exitval : Int}
    (living : Living procs threads)
    (staffed : Staffed after
      (threads.set t { thread with call := .exiting exitval }))
    (isThread : threads[t]? = some thread)
    (notExited : thread.call.isExited = false)
    (path : ProcTable.ExitPath thread.owner stored procs after)
    (noneStranded : ∀ other ∈ threads.set t
        { thread with call := .exiting exitval },
      ∀ child, other.call = .waitsFor child → after.pstate child ≠ .free) :
    Living after (threads.set t { thread with call := .exiting exitval }) := by
  have member := List.mem_of_getElem? isThread
  obtain ⟨sound, shrinks⟩ := living.sound.exitPath path
  refine living.of_turn staffed ?_ shrinks.parent
    (mem_set_cases (living.owner thread member) (by simp)) noneStranded
  rw [running_set isThread notExited (.exiting exitval) rfl]
  exact sound

/-- A thread ends, but not its process. -/
theorem leaves
    {middle : ProcTable limits}
    {exitval : Int}
    (living : Living procs threads)
    (staffed : Staffed (middle.leave thread.owner)
      (threads.set t { thread with call := .exited exitval }))
    (isThread : threads[t]? = some thread)
    (notExited : thread.call.isExited = false)
    (path : ProcTable.ExitPath thread.owner stored procs middle)
    (noneStranded : ∀ other ∈ threads.set t
        { thread with call := .exited exitval },
      ∀ child, other.call = .waitsFor child →
        (middle.leave thread.owner).pstate child ≠ .free) :
    Living (middle.leave thread.owner)
      (threads.set t { thread with call := .exited exitval }) := by
  have member := List.mem_of_getElem? isThread
  obtain ⟨sound, exiting⟩ := living.sound.exitPath path
  have shrinks := exiting.trans (.of_leave middle thread.owner)
  refine living.of_turn staffed ?_ shrinks.parent
    (mem_set_cases (living.owner thread member) (by simp)) noneStranded
  rw [running_exited isThread notExited exitval]
  exact sound.leave (running_pos member notExited)

/-- The last thread of a process ends. -/
theorem ends
    {middle : ProcTable limits}
    {exitval : Int}
    (living : Living procs threads)
    (staffed : Staffed after
      (threads.set t { thread with call := .exited exitval }))
    (isThread : threads[t]? = some thread)
    (notExited : thread.call.isExited = false)
    (path : ProcTable.ExitPath thread.owner stored procs middle)
    (last : ((middle.leave thread.owner).pcb thread.owner).threadCount = 0)
    (ended : (middle.leave thread.owner).endProcess thread.owner = .ok after)
    (noneStranded : ∀ other ∈ threads.set t
        { thread with call := .exited exitval },
      ∀ child, other.call = .waitsFor child → after.pstate child ≠ .free) :
    Living after (threads.set t { thread with call := .exited exitval }) := by
  have member := List.mem_of_getElem? isThread
  have notSystem := living.owner thread member
  have hasThread := running_pos member notExited
  obtain ⟨sound, exiting⟩ := living.sound.exitPath path
  have left := sound.leave hasThread
  have leftAlive : (middle.leave thread.owner).pstate thread.owner =
      .alive := by
    rw [(ProcTable.sameTree_leave middle thread.owner).pstate]
    exact sound.alive hasThread
  rw [left.count] at last
  obtain ⟨soundAfter, isEnd⟩ := left.endProcess leftAlive notSystem (by omega)
    ended
  have shrinks := (exiting.trans (.of_leave middle thread.owner)).trans
    (.of_ended isEnd leftAlive)
  refine living.of_turn staffed ?_ shrinks.parent
    (mem_set_cases notSystem (by simp)) noneStranded
  rw [running_exited isThread notExited exitval]
  exact soundAfter

variable {kernel : OldKernel limits π}

/-- A child that is waited for is a zombie when it is not alive. -/
theorem zombie_of_waits
    {child : Fin limits.maxProc}
    (living : Living procs threads)
    (isThread : threads[t]? = some thread)
    (isChild : thread.call = .waitsFor child ∨
      procs.IsParent child thread.owner)
    (notAlive : procs.pstate child ≠ .alive) :
    procs.pstate child = .zombie ∧ procs.IsParent child thread.owner := by
  have isParent : procs.IsParent child thread.owner := by
    rcases isChild with waits | isParent
    · exact living.waits thread (List.mem_of_getElem? isThread) child waits
    · exact isParent
  refine ⟨?_, isParent⟩
  cases state : procs.pstate child with
  | free => exact absurd state isParent.1
  | alive => exact absurd state notAlive
  | zombie => rfl

/-- Every turn keeps the tables. -/
theorem turn
    (living : Living kernel.procs kernel.threads)
    (isThread : kernel.threads[t]? = some thread)
    (notExited : thread.call.isExited = false)
    (turn : ProcTurn kernel t thread stored after changed)
    (noneStranded : ∀ other ∈ changed, ∀ child, other.call = .waitsFor child →
      after.pstate child ≠ .free) :
    Living after changed := by
  have staffed := living.staffed.turn isThread notExited turn
  cases turn with
  | goes call goesOn child notExiting =>
      exact living.goes staffed isThread notExited goesOn child noneStranded
  | createsEmpty newproc argl args isFree =>
      exact living.createsEmpty staffed isThread notExited isFree noneStranded
  | creates newproc task argl args ptcb isFree =>
      exact living.creates staffed isThread notExited isFree noneStranded
  | spawns ptcb => exact living.spawns staffed isThread notExited noneStranded
  | reapsChild child isChild notAlive =>
      obtain ⟨isZombie, isParent⟩ := living.zombie_of_waits isThread isChild
        notAlive
      exact living.reaps staffed isThread notExited isZombie isParent
        noneStranded
  | reapsAny child exitval procs polled =>
      obtain ⟨isZombie, isParent, -, rfl⟩ := living.sound.pollAny polled
      exact living.reaps staffed isThread notExited isZombie isParent
        noneStranded
  | exitWaits stored exitval procs isInit path =>
      exact living.exitWaits staffed isThread notExited path noneStranded
  | leaves stored exitval procs path others =>
      exact living.leaves staffed isThread notExited path noneStranded
  | ends stored exitval procs result path last ended =>
      exact living.ends staffed isThread notExited path last ended noneStranded

end Living

/-- A step is made by a thread that has not ended. -/
theorem exists_thread
    {kernel : OldKernel limits π}
    {action : OldAction π}
    (enabled : kernel.Enabled action) :
    ∃ thread, kernel.threads[action.thread]? = some thread ∧
      kernel.Takes thread action ∧ thread.call.isExited = false := by
  unfold Enabled at enabled
  cases isThread : kernel.threads[action.thread]? with
  | none =>
      rw [isThread] at enabled
      exact enabled.elim
  | some thread =>
      rw [isThread] at enabled
      refine ⟨thread, rfl, enabled, ?_⟩
      cases called : thread.call with
      | exited exitval =>
          exfalso
          cases action <;> simp [Takes, called, OldCall.isWaiting] at enabled
      | own | waitsFor child | waitsAny | exiting exitval | joining ptcb target
        | streaming fcb => rfl

end OldKernel
end TinierOS
