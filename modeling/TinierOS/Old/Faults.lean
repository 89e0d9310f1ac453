import TinierOS.Old.FileRuns
import TinierOS.Old.Joining
import TinierOS.Old.Lifecycle

/-!
# Where the old kernel stops

As long as nobody waits for a process that has been reaped, a step of the old
kernel fails in three cases only: the argument of a new process has a negative
length, or a positive one and a null pointer, or the initial process ends its last
thread while it has children.
-/

namespace TinierOS

variable {limits : Limits} {π : Type}

namespace ProcTable

variable {table after : ProcTable limits}
variable {running : Fin limits.maxProc → Nat}
variable {curproc child : Fin limits.maxProc}

/-- The number of processes that have exited and have not been reaped. -/
def zombies (table : ProcTable limits) : Nat :=
  countWhere (fun pstate => decide (pstate = .zombie)) table.pstate

theorem zombies_le (table : ProcTable limits) :
    table.zombies ≤ limits.maxProc := by
  have bounded := Finset.card_le_univ (Finset.univ.filter fun pid =>
    decide (table.pstate pid = .zombie) = true)
  rw [Fintype.card_fin] at bounded
  exact bounded

theorem zombies_cleanupZombie
    (isZombie : table.pstate child = .zombie) :
    (table.cleanupZombie child).2.zombies + 1 = table.zombies := by
  rw [zombies, cleanupZombie_pstate]
  exact countWhere_remove (decide_eq_true isZombie) rfl

/-- The loop of `sys_Exit` returns: either no child is left, or there are only
children that are alive. -/
theorem Sound.reapAll
    {fuel : Nat}
    (sound : table.Sound running)
    (curproc : Fin limits.maxProc)
    (enough : table.zombies < fuel) :
    ∃ ended after, reapAll curproc fuel table = .ok (ended, after) ∧
      (ended = true → ∀ child, ¬after.IsParent child curproc) := by
  induction fuel generalizing table with
  | zero => exact absurd enough (Nat.not_lt_zero _)
  | succ fuel inductionHypothesis =>
      obtain ⟨children, exited, frees, tree⟩ := sound.tree
      rw [ProcTable.reapAll]
      rcases tree.pollAny curproc with ⟨childless, polled⟩ |
        ⟨-, -, polled⟩ | ⟨child, rest, -, polled⟩
      · rw [polled]
        refine ⟨true, table, rfl, fun _ child isParent => ?_⟩
        have member := tree.mem_children.mpr isParent
        rw [childless] at member
        cases member
      · rw [polled]
        exact ⟨false, table, rfl, by simp⟩
      · obtain ⟨isZombie, isParent, -, -⟩ := sound.pollAny polled
        have fewer := zombies_cleanupZombie isZombie
        obtain ⟨ended, after, ran, childless⟩ := inductionHypothesis
          (sound.reap isZombie isParent) (by omega)
        rw [polled]
        exact ⟨ended, after, ran, childless⟩

/-- The end of a process fails for the initial process with children, and only
then. -/
theorem Sound.endProcess_cases
    (sound : table.Sound running)
    (isAlive : table.pstate curproc = .alive)
    (notSystem : curproc.val ≠ 0) :
    (curproc.val = 1 ∧ ∃ child, table.IsParent child curproc) ∧
        table.endProcess curproc = .error .assertion ∨
      ¬(curproc.val = 1 ∧ ∃ child, table.IsParent child curproc) ∧
        ∃ after, table.endProcess curproc = .ok after := by
  obtain ⟨children, exited, frees, tree⟩ := sound.tree
  by_cases isInit : curproc.val = 1
  · rcases tree.endProcess_init isInit isAlive with
      ⟨hasChild, failed⟩ | ⟨childless, ended, -, -⟩
    · obtain ⟨child, member⟩ := List.exists_mem_of_ne_nil _ hasChild
      exact .inl ⟨⟨isInit, child, tree.mem_children.mp member⟩, failed⟩
    · refine .inr ⟨?_, _, ended⟩
      rintro ⟨-, child, isParent⟩
      have member := tree.mem_children.mpr isParent
      rw [childless] at member
      cases member
  · obtain ⟨after, _, _, ended, -, -⟩ :=
      tree.endProcess_eq_ok (by omega) isAlive
    exact .inr ⟨fun both => isInit both.1, after, ended⟩

/-- The copy of an argument at the address `args` fails. -/
def CopyFails (argl : Int) (args : Nat) (fault : OldFault) : Prop :=
  argl < 0 ∧ fault = .fatal ∨ 0 < argl ∧ args = 0 ∧ fault = .nullPointer

theorem CopyFails.unique
    {argl : Int}
    {args : Nat}
    {first second : OldFault}
    (firstFails : CopyFails argl args first)
    (secondFails : CopyFails argl args second) :
    first = second := by
  rcases firstFails with ⟨negative, rfl⟩ | ⟨positive, -, rfl⟩
  · rcases secondFails with ⟨-, rfl⟩ | ⟨positive, -⟩
    · rfl
    · omega
  · rcases secondFails with ⟨negative, -⟩ | ⟨-, -, rfl⟩
    · omega
    · rfl

theorem copyArg_cases
    (argl : Int)
    (args : Nat)
    (memory : Nat → UInt8) :
    (∃ fault, CopyFails argl args fault ∧
      copyArg argl (if args = 0 then none else some memory) = .error fault) ∨
    (∀ fault, ¬CopyFails argl args fault) ∧
      ∃ bytes, copyArg argl (if args = 0 then none else some memory) =
        .ok bytes := by
  by_cases negative : argl < 0
  · refine .inl ⟨.fatal, .inl ⟨negative, rfl⟩, ?_⟩
    split_ifs
    · exact if_pos negative
    · exact if_pos negative
  by_cases isNull : args = 0
  · rw [if_pos isNull, copyArg, if_neg negative]
    split_ifs with isZero
    · refine .inr ⟨?_, _, rfl⟩
      rintro fault (⟨below, -⟩ | ⟨positive, -⟩)
      · exact negative below
      · omega
    · exact .inl ⟨.nullPointer, .inr ⟨by omega, isNull, rfl⟩, rfl⟩
  · rw [if_neg isNull, copyArg, if_neg negative]
    refine .inr ⟨?_, _, rfl⟩
    rintro fault (⟨below, -⟩ | ⟨-, null, -⟩)
    · exact negative below
    · exact isNull null

end ProcTable

namespace OldKernel

variable [DecidableEq π]
variable {kernel : OldKernel limits π}
variable {thread : OldThread limits π}
variable {t : Nat}
variable {fault : OldFault}

/-- The last thread of the initial process, which has a child. -/
def LastOfInit
    (kernel : OldKernel limits π)
    (thread : OldThread limits π) : Prop :=
  thread.owner.val = 1 ∧ running kernel.threads thread.owner = 1 ∧
    ∃ child, kernel.procs.IsParent child thread.owner

/-- The steps that fail, and how. -/
def Fails
    (kernel : OldKernel limits π) : OldAction π → OldFault → Prop
  | .exec _ _ argl args _ _, fault =>
      kernel.procs.freelist ≠ none ∧ ProcTable.CopyFails argl args fault
  | .threadExit t _, fault =>
      fault = .assertion ∧
        ∃ thread, kernel.threads[t]? = some thread ∧ kernel.LastOfInit thread
  | _, _ => False

omit [DecidableEq π] in
theorem Fails.unique
    {action : OldAction π}
    {first second : OldFault}
    (firstFails : kernel.Fails action first)
    (secondFails : kernel.Fails action second) :
    first = second := by
  cases action with
  | exec => exact firstFails.2.unique secondFails.2
  | threadExit => exact firstFails.1.trans secondFails.1.symm
  | _ => exact firstFails.elim

/-! ## Calls that return -/

/-- The PTCB of a thread that runs is in use and is listed. -/
theorem Occurs.own_ptcb
    (occurs : Occurs kernel)
    (isThread : kernel.threads[t]? = some thread)
    (notExited : thread.call.isExited = false) :
    kernel.live thread.ptcb = true ∧
      kernel.ptcbLists.isRlistEmpty (.list thread.owner) = false := by
  obtain ⟨lists, sound⟩ := occurs.ptcbs
  have listed := sound.own_listed isThread notExited
  refine ⟨sound.rings.alive listed, ?_⟩
  apply Bool.eq_false_of_not_eq_true
  intro isEmpty
  rw [(RlHeap.isRlistEmpty_iff sound.rings thread.owner).mp isEmpty] at listed
  cases listed

/-- `sys_ThreadExit` with a table that `sys_Exit` may have changed. -/
theorem sysThreadExit_cases
    (middle : OldKernel limits π)
    (exitval : Int)
    (sound : middle.procs.Sound (running kernel.threads))
    (isThread : kernel.threads[t]? = some thread)
    (notExited : thread.call.isExited = false)
    (notSystem : thread.owner.val ≠ 0)
    (isLive : middle.live thread.ptcb = true)
    (isListed : middle.ptcbLists.isRlistEmpty (.list thread.owner) = false) :
    (thread.owner.val = 1 ∧ running kernel.threads thread.owner = 1 ∧
        ∃ child, middle.procs.IsParent child thread.owner) ∧
      middle.sysThreadExit t thread.owner thread.ptcb exitval =
        .error .assertion ∨
    ¬(thread.owner.val = 1 ∧ running kernel.threads thread.owner = 1 ∧
        ∃ child, middle.procs.IsParent child thread.owner) ∧
      ∃ after, middle.sysThreadExit t thread.owner thread.ptcb exitval =
        .ok after := by
  have hasThread := running_pos (List.mem_of_getElem? isThread) notExited
  have left := sound.leave hasThread
  have same := ProcTable.sameTree_leave middle.procs thread.owner
  have count := left.count thread.owner
  rw [Function.update_self] at count
  unfold sysThreadExit
  rw [if_neg (by simp [isLive])]
  unfold endIfLast
  by_cases last : running kernel.threads thread.owner = 1
  · have isZero : ((middle.procs.leave thread.owner).pcb
        thread.owner).threadCount = 0 := by
      rw [count]
      omega
    have isAlive : (middle.procs.leave thread.owner).pstate thread.owner =
        .alive := by
      rw [same.pstate]
      exact sound.alive hasThread
    have isParent : ∀ child, (middle.procs.leave thread.owner).IsParent child
        thread.owner ↔ middle.procs.IsParent child thread.owner := by
      intro child
      rw [ProcTable.IsParent, same.pstate, same.parent]
      rfl
    have ends := left.endProcess_cases isAlive notSystem
    simp only [isParent] at ends
    have isBranch : ((middle.markExited thread.owner thread.ptcb
        exitval).procs.pcb thread.owner).threadCount = 0 := isZero
    rw [if_pos isBranch]
    rcases ends with ⟨⟨isInit, hasChild⟩, failed⟩ | ⟨fine, after, ended⟩
    · refine .inl ⟨⟨isInit, last, hasChild⟩, ?_⟩
      have failed' : (middle.markExited thread.owner thread.ptcb
          exitval).procs.endProcess thread.owner = .error .assertion := failed
      simp only [endProcess, failed', bind, Except.bind]
    · refine .inr ⟨fun both => fine ⟨both.1, both.2.2⟩, ?_⟩
      have ended' : (middle.markExited thread.owner thread.ptcb
          exitval).procs.endProcess thread.owner = .ok after := ended
      have isListed' : (middle.markExited thread.owner thread.ptcb
          exitval).ptcbLists.isRlistEmpty (.list thread.owner) = false :=
        isListed
      simp only [endProcess, ended', isListed', bind, Except.bind,
        Bool.false_eq_true, if_false]
      exact ⟨_, rfl⟩
  · have notZero : ¬((middle.markExited thread.owner thread.ptcb
        exitval).procs.pcb thread.owner).threadCount = 0 := by
      change ¬((middle.procs.leave thread.owner).pcb
        thread.owner).threadCount = 0
      rw [count]
      omega
    rw [if_neg notZero]
    exact .inr ⟨fun both => last both.2.1, _, rfl⟩

/-- The loop of `sys_Exit` ends the initial process only without children. -/
theorem exitLoop_ok
    {middle : OldKernel limits π}
    (exitval : Int)
    (sound : middle.procs.Sound (running kernel.threads))
    (isThread : kernel.threads[t]? = some thread)
    (notExited : thread.call.isExited = false)
    (notSystem : thread.owner.val ≠ 0)
    (isLive : middle.live thread.ptcb = true)
    (isListed : middle.ptcbLists.isRlistEmpty (.list thread.owner) = false) :
    ∃ after, middle.exitLoop t thread.owner thread.ptcb exitval = .ok after := by
  obtain ⟨ended, procs, reaped, childless⟩ := sound.reapAll thread.owner
    (Nat.lt_succ_of_le middle.procs.zombies_le)
  have soundAfter := (sound.exitPath (.of_reapAll reaped)).1
  have exits := sysThreadExit_cases { middle with procs := procs } exitval
    soundAfter isThread notExited notSystem isLive isListed
  unfold exitLoop
  rw [reaped]
  cases ended with
  | false => exact ⟨_, rfl⟩
  | true =>
      rcases exits with ⟨⟨-, -, child, isParent⟩, -⟩ | ⟨-, after, ran⟩
      · exact absurd isParent (childless rfl child)
      · exact ⟨after, ran⟩

/-- `sys_Exit` -/
theorem sysExit_ok
    (exitval : Int)
    (living : Living kernel.procs kernel.threads)
    (isThread : kernel.threads[t]? = some thread)
    (notExited : thread.call.isExited = false)
    (isLive : kernel.live thread.ptcb = true)
    (isListed : kernel.ptcbLists.isRlistEmpty (.list thread.owner) = false) :
    ∃ after, kernel.sysExit t thread.owner thread.ptcb exitval = .ok after := by
  have notSystem := living.owner thread (List.mem_of_getElem? isThread)
  have path : ProcTable.ExitPath thread.owner (some exitval) kernel.procs
      (kernel.procs.modifyPcb thread.owner fun block =>
        { block with exitval := exitval }) := .store .refl
  have sound := (living.sound.exitPath path).1
  unfold sysExit
  by_cases isInit : thread.owner.val = 1
  · rw [if_pos isInit]
    exact exitLoop_ok exitval sound isThread notExited notSystem isLive isListed
  · rw [if_neg isInit]
    rcases sysThreadExit_cases { kernel with
      procs := kernel.procs.modifyPcb thread.owner fun block =>
        { block with exitval := exitval } } exitval sound isThread notExited
          notSystem isLive isListed with ⟨⟨isInit', -⟩, -⟩ | ⟨-, after, ran⟩
    · exact absurd isInit' isInit
    · exact ⟨after, ran⟩

omit [DecidableEq π] in
theorem waitAnyLoop_ok
    (living : Living kernel.procs kernel.threads)
    (t : Nat)
    (curproc : Fin limits.maxProc) :
    ∃ after, kernel.waitAnyLoop t curproc = .ok after := by
  obtain ⟨children, exited, frees, tree⟩ := living.sound.tree
  unfold waitAnyLoop
  rcases tree.pollAny curproc with ⟨-, polled⟩ | ⟨-, -, polled⟩ |
    ⟨child, rest, -, polled⟩
  all_goals
    rw [polled]
    exact ⟨_, rfl⟩

omit [DecidableEq π] in
/-- `sys_WaitChild` -/
theorem sysWaitChild_ok
    (living : Living kernel.procs kernel.threads)
    (t : Nat)
    (curproc : Fin limits.maxProc)
    (cpid : Int) :
    ∃ after, kernel.sysWaitChild t curproc cpid = .ok after := by
  unfold sysWaitChild
  split_ifs
  · rcases OldPast.Reached.legalChild_spec kernel.procs curproc cpid with
      ⟨legal, -⟩ | ⟨child, legal, -⟩
    all_goals
      rw [legal]
      exact ⟨_, rfl⟩
  · exact waitAnyLoop_ok living t curproc

/-- The loop of `sys_ThreadJoin` -/
theorem joinLoop_ok
    {ptcb : π}
    (isLive : kernel.live ptcb = true)
    (t target : Nat) :
    ∃ after, kernel.joinLoop t ptcb target = .ok after := by
  unfold joinLoop
  rw [if_neg (by simp [isLive])]
  simp only
  split_ifs
  all_goals exact ⟨_, rfl⟩

/-- `rlist_find` finds a PTCB that is in use, or none. -/
theorem Occurs.findPtcb_cases
    (occurs : Occurs kernel)
    (curproc : Fin limits.maxProc)
    (tid : Option π) :
    kernel.findPtcb curproc tid = .ok none ∨
      ∃ ptcb, kernel.findPtcb curproc tid = .ok (some ptcb) ∧
        kernel.live ptcb = true := by
  obtain ⟨lists, sound⟩ := occurs.ptcbs
  unfold findPtcb
  rcases sound.find_eq curproc tid with ⟨missing, -⟩ | ⟨ptcb, listed, -, found⟩
  · rw [show kernel.ptcbLists.rlistFind (kernel.threads.length + 1)
      (.list curproc) tid none = some none from missing]
    exact .inl rfl
  · rw [show kernel.ptcbLists.rlistFind (kernel.threads.length + 1)
      (.list curproc) tid none = some (some (.node ptcb)) from found]
    have isLive : kernel.live ptcb = true := sound.rings.alive listed
    have isKey : (kernel.ptcbLists (.node ptcb)).obj = some ptcb :=
      sound.key isLive
    refine .inr ⟨ptcb, ?_, isLive⟩
    simp only [isKey]

theorem Occurs.sysThreadJoin_ok
    (occurs : Occurs kernel)
    (t : Nat)
    (curproc : Fin limits.maxProc)
    (self : π)
    (tid : Option π) :
    ∃ after, kernel.sysThreadJoin t curproc self tid = .ok after := by
  unfold sysThreadJoin
  split_ifs
  · exact ⟨_, rfl⟩
  · rcases occurs.findPtcb_cases curproc tid with missing | ⟨ptcb, found, isLive⟩
    · rw [missing]
      exact ⟨_, rfl⟩
    · rw [found]
      simp only [bind, Except.bind, isLive, Bool.true_eq_false, if_false]
      split_ifs
      · exact ⟨_, rfl⟩
      · refine joinLoop_ok ?_ t _
        exact isLive

theorem Occurs.sysThreadDetach_ok
    (occurs : Occurs kernel)
    (t : Nat)
    (curproc : Fin limits.maxProc)
    (tid : Option π) :
    ∃ after, kernel.sysThreadDetach t curproc tid = .ok after := by
  unfold sysThreadDetach
  rcases occurs.findPtcb_cases curproc tid with missing | ⟨ptcb, found, isLive⟩
  · rw [missing]
    exact ⟨_, rfl⟩
  · rw [found]
    simp only [bind, Except.bind, isLive, Bool.true_eq_false, if_false]
    split_ifs
    all_goals exact ⟨_, rfl⟩

omit [DecidableEq π] in
/-- A call that opens streams. -/
theorem returnOpened_ok
    (holds : kernel.FilesSound)
    (t : Nat)
    (cur : Fin limits.maxProc)
    (num : Nat)
    (found : Bool) :
    ∃ after, kernel.returnOpened t (kernel.files.openStreams cur num found) =
      .ok after := by
  obtain ⟨result, files, opened, -⟩ := holds.sound.openStreams cur num found
  rw [opened]
  exact ⟨_, rfl⟩

/-- `sys_Exec` fails when there is a free PCB and the argument cannot be copied. -/
theorem sysExec_cases
    (kernel : OldKernel limits π)
    (curproc : Fin limits.maxProc)
    (call : Option Task)
    (argl : Int)
    (args : Nat)
    (memory : Nat → UInt8)
    (ptcb : π) :
    (∃ fault, (kernel.procs.freelist ≠ none ∧
        ProcTable.CopyFails argl args fault) ∧
      kernel.sysExec (some curproc) call argl args memory ptcb =
        .error fault) ∨
    (∀ fault, ¬(kernel.procs.freelist ≠ none ∧
        ProcTable.CopyFails argl args fault)) ∧
      ∃ result, kernel.sysExec (some curproc) call argl args memory ptcb =
        .ok result := by
  unfold sysExec ProcTable.exec ProcTable.acquirePCB ProcTable.linkParent
  cases kernel.procs.freelist with
  | none => exact .inr ⟨fun _ fails => fails.1 rfl, _, rfl⟩
  | some newproc =>
      rcases ProcTable.copyArg_cases argl args
        (fun offset => memory (args + offset)) with
        ⟨fault, fails, failed⟩ | ⟨fine, bytes, copied⟩
      · refine .inl ⟨fault, ⟨by simp, fails⟩, ?_⟩
        simp only [failed]
        split_ifs
        all_goals rfl
      · refine .inr ⟨fun fault fails => fine fault fails.2, ?_⟩
        simp only [copied]
        cases call with
        | none =>
            split_ifs
            all_goals exact ⟨_, rfl⟩
        | some task =>
            split_ifs
            all_goals exact ⟨_, rfl⟩

/-! ## All steps -/

/-- A call that waits goes on without a failure. -/
theorem Reached.resume_ok
    (reached : Reached kernel)
    (isThread : kernel.threads[t]? = some thread)
    (notExited : thread.call.isExited = false) :
    ∃ after, kernel.threadStep t thread (.resume t) = .ok after := by
  have living := reached.living
  have member := List.mem_of_getElem? isThread
  unfold threadStep
  cases called : thread.call with
  | own | waitsFor child | streaming fcb | exited exitval => exact ⟨_, rfl⟩
  | waitsAny => exact waitAnyLoop_ok living t thread.owner
  | exiting exitval =>
      obtain ⟨isLive, isListed⟩ := reached.occurs.own_ptcb isThread notExited
      exact exitLoop_ok exitval living.sound isThread notExited
        (living.owner thread member) isLive isListed
  | joining ptcb target =>
      obtain ⟨lists, sound⟩ := reached.occurs.ptcbs
      obtain ⟨listed, -⟩ := sound.joins thread member ptcb target called
      exact joinLoop_ok (sound.rings.alive listed) t target

/-- Every step returns, or it is one of those that fail. -/
theorem Reached.step_cases
    {action : OldAction π}
    (reached : Reached kernel)
    (enabled : kernel.Enabled action) :
    (∃ fault, kernel.Fails action fault ∧ kernel.step action = .error fault) ∨
      (∀ fault, ¬kernel.Fails action fault) ∧
        ∃ after, kernel.step action = .ok after := by
  obtain ⟨thread, isThread, takes, notExited⟩ := exists_thread enabled
  have living := reached.living
  have notSystem := living.owner thread (List.mem_of_getElem? isThread)
  obtain ⟨isLive, isListed⟩ := reached.occurs.own_ptcb isThread notExited
  unfold step
  rw [isThread]
  cases action with
  | exec t call argl args memory ptcb =>
      rcases sysExec_cases kernel thread.owner call argl args memory ptcb with
        ⟨fault, fails, failed⟩ | ⟨fine, result, ran⟩
      · refine .inl ⟨fault, fails, ?_⟩
        simp only [threadStep, failed]
        rfl
      · refine .inr ⟨fine, ?_⟩
        simp only [threadStep, ran]
        exact ⟨_, rfl⟩
  | threadExit t exitval =>
      rcases sysThreadExit_cases kernel exitval living.sound isThread notExited notSystem
        isLive isListed with ⟨last, failed⟩ | ⟨fine, ran⟩
      · exact .inl ⟨.assertion, ⟨rfl, thread, isThread, last⟩, failed⟩
      · refine .inr ⟨?_, ran⟩
        rintro fault ⟨-, other, isOther, last⟩
        obtain rfl := Option.some.inj (isThread.symm.trans isOther)
        exact fine last
  | exit t exitval =>
      exact .inr ⟨fun _ => id, sysExit_ok exitval living isThread notExited isLive
        isListed⟩
  | waitChild t cpid =>
      exact .inr ⟨fun _ => id, sysWaitChild_ok living t thread.owner cpid⟩
  | threadJoin t tid =>
      exact .inr ⟨fun _ => id,
        reached.occurs.sysThreadJoin_ok t thread.owner thread.ptcb tid⟩
  | threadDetach t tid =>
      exact .inr ⟨fun _ => id,
        reached.occurs.sysThreadDetach_ok t thread.owner tid⟩
  | openNull t | openInfo t =>
      exact .inr ⟨fun _ => id, returnOpened_ok reached.files t thread.owner 1 _⟩
  | openTerminal t termno =>
      exact .inr ⟨fun _ => id, returnOpened_ok reached.files t thread.owner 1 _⟩
  | pipe t =>
      exact .inr ⟨fun _ => id, returnOpened_ok reached.files t thread.owner 2 _⟩
  | createThread | close | dup2 => exact .inr ⟨fun _ => id, _, rfl⟩
  | startTransfer t fd =>
      refine .inr ⟨fun _ => id, ?_⟩
      cases started : kernel.files.startTransfer thread.owner fd with
      | mk found files =>
          cases found with
          | none =>
              simp only [threadStep, started]
              exact ⟨_, rfl⟩
          | some fcb =>
              simp only [threadStep, started]
              exact ⟨_, rfl⟩
  | resume t => exact .inr ⟨fun _ => id, reached.resume_ok isThread notExited⟩

/-- As long as nobody waits for a process that has been reaped, a step fails
exactly when a new process gets an argument of negative length, or of positive
length at a null pointer, or the last thread of the initial process calls
`ThreadExit` while the process has children.  So no other step follows a null
pointer, and none leaves a table, uses a PTCB that has been freed or loops
forever. -/
theorem Reached.step_eq_error_iff
    {action : OldAction π}
    (reached : Reached kernel)
    (enabled : kernel.Enabled action) :
    kernel.step action = .error fault ↔ kernel.Fails action fault := by
  rcases reached.step_cases enabled with ⟨other, fails, failed⟩ |
    ⟨fine, after, ran⟩
  · rw [failed]
    constructor
    · intro same
      cases same
      exact fails
    · intro alsoFails
      rw [fails.unique alsoFails]
  · rw [ran]
    exact iff_of_false (by simp) (fine fault)

/-- The initial process calls `ThreadExit` while it has a child. -/
theorem step_eq_error_iff_init :
    ∃ kernel : OldKernel ⟨4, 4, 1, 1⟩ Nat,
      (Reached kernel ∧ kernel.Enabled (.threadExit 0 7) ∧
        kernel.step (.threadExit 0 7) = .error .assertion) ∧
      (kernel.step (.threadExit 0 7) = .error .assertion ↔
        kernel.Fails (.threadExit 0 7) .assertion) := by
  have ran : ∃ kernel : OldKernel ⟨4, 4, 1, 1⟩ Nat, Reached kernel ∧
      (decide (kernel.Enabled (.threadExit 0 7)) &&
        (match kernel.step (.threadExit 0 7) with
          | .error fault => decide (fault = .assertion)
          | .ok _ => false)) = true :=
    exists_reached_of_any (fun _ => 0) 0
      [.exec 0 (some 1) 0 0 (fun _ => 0) 1] (by decide +kernel)
  obtain ⟨kernel, reached, passed⟩ := ran
  obtain ⟨isEnabled, failed⟩ := Bool.and_eq_true_iff.mp passed
  have enabled := of_decide_eq_true isEnabled
  refine ⟨kernel, ⟨reached, enabled, ?_⟩, reached.step_eq_error_iff enabled⟩
  cases stepped : kernel.step (.threadExit 0 7) with
  | error fault =>
      rw [stepped] at failed
      rw [of_decide_eq_true failed]
  | ok after =>
      rw [stepped] at failed
      cases failed

end OldKernel
end TinierOS
