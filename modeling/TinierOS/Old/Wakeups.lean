import TinierOS.Old.FileRuns
import TinierOS.Old.PtcbTurns

/-!
# Waking up threads of the old kernel

Which condition variables each step broadcasts, and the runs in which a waiting
call goes on only after a broadcast of the one it waits on.
-/

namespace TinierOS

variable {limits : Limits} {π : Type}

/-- `child_exit` of a PCB or `exit_cv` of a PTCB. -/
inductive OldCv (limits : Limits) (π : Type)
  | childExit (pid : Fin limits.maxProc)
  | exitCv (ptcb : π)
  deriving DecidableEq

/-- The condition variable that the thread waits on; the streams have their
own. -/
def OldThread.waitsOn (thread : OldThread limits π) : Option (OldCv limits π) :=
  match thread.call with
  | .waitsFor _ | .waitsAny | .exiting _ => some (.childExit thread.owner)
  | .joining ptcb _ => some (.exitCv ptcb)
  | .own | .streaming _ | .exited _ => none

namespace OldKernel

/-- The broadcasts of `sys_ThreadExit` by a thread of process `curproc`. -/
def threadExitWakes
    (kernel : OldKernel limits π)
    (curproc : Fin limits.maxProc)
    (ptcb : π) : List (OldCv limits π) :=
  .exitCv ptcb ::
    if (kernel.procs.pcb curproc).threadCount - 1 = 0 ∧ curproc.val ≠ 1 then
      (if kernel.procs.exited.isRlistEmpty (.list curproc) then []
        else match kernel.procs.getPcb 1 with
          | .ok (some initpcb) => [.childExit initpcb]
          | _ => []) ++
      ((kernel.procs.pcb curproc).parent.toList.map .childExit)
    else []

/-- The broadcasts of `sys_Exit` by the initial process, which go with those of
`sys_ThreadExit`. -/
def exitLoopWakes
    (kernel : OldKernel limits π)
    (curproc : Fin limits.maxProc)
    (ptcb : π) : List (OldCv limits π) :=
  match ProcTable.reapAll curproc (limits.maxProc + 1) kernel.procs with
  | .ok (true, procs) =>
      { kernel with procs := procs }.threadExitWakes curproc ptcb
  | _ => []

variable [DecidableEq π]

/-- The broadcasts of `sys_ThreadDetach`. -/
def threadDetachWakes
    (kernel : OldKernel limits π)
    (curproc : Fin limits.maxProc)
    (tid : Option π) : List (OldCv limits π) :=
  match kernel.findPtcb curproc tid with
  | .ok (some ptcb) => if (kernel.ptcb ptcb).exited then [] else [.exitCv ptcb]
  | _ => []

/-- The condition variables that a step of the thread broadcasts. -/
def wakes
    (kernel : OldKernel limits π)
    (thread : OldThread limits π) : OldAction π → List (OldCv limits π)
  | .threadExit _ _ => kernel.threadExitWakes thread.owner thread.ptcb
  | .exit _ exitval =>
      let kernel := { kernel with
        procs := kernel.procs.modifyPcb thread.owner fun block =>
          { block with exitval := exitval } }
      if thread.owner.val = 1 then kernel.exitLoopWakes thread.owner thread.ptcb
      else kernel.threadExitWakes thread.owner thread.ptcb
  | .threadDetach _ tid => kernel.threadDetachWakes thread.owner tid
  | .resume _ =>
      match thread.call with
      | .exiting _ => kernel.exitLoopWakes thread.owner thread.ptcb
      | _ => []
  | _ => []

end OldKernel

/-- A kernel with the waiting threads that have been woken up. -/
structure OldWaits (limits : Limits) (π : Type) where
  kernel : OldKernel limits π
  woken : Nat → Bool

namespace OldWaits

variable [DecidableEq π]

/-- Whether the step wakes up the thread. -/
def wakesUp
    (waits : OldWaits limits π)
    (action : OldAction π)
    (u : Nat) : Bool :=
  match waits.kernel.threads[action.thread]?, waits.kernel.threads[u]? with
  | some thread, some other =>
      match other.waitsOn with
      | some cv => cv ∈ waits.kernel.wakes thread action
      | none => false
  | _, _ => false

/-- The thread that takes the step is not woken up any more; the others may be. -/
def record
    (waits : OldWaits limits π)
    (action : OldAction π)
    (after : OldKernel limits π) : OldWaits limits π where
  kernel := after
  woken := fun u =>
    if u = action.thread then false
    else waits.woken u || waits.wakesUp action u

/-- A call that waits for a process or a thread goes on only after it has been
woken up. -/
def Allowed (waits : OldWaits limits π) (action : OldAction π) : Prop :=
  waits.kernel.Allowed action ∧
    ∀ thread ∈ waits.kernel.threads[action.thread]?,
      thread.waitsOn ≠ none → waits.woken action.thread = true

instance
    (waits : OldWaits limits π)
    (action : OldAction π) :
    Decidable (waits.Allowed action) :=
  inferInstanceAs (Decidable (_ ∧ ∀ thread ∈ _, _))

/-- The states of the runs without spurious wake-ups in which nobody waits for a
process that has been reaped. -/
def Reached (waits : OldWaits limits π) : Prop :=
  ∃ ports task argl args memory ptcb start,
    OldKernel.boot limits ports task argl args memory ptcb = .ok start ∧
      Reachable (withPast kernel OldKernel.step record) Allowed
        ⟨start, fun _ => false⟩ waits

end OldWaits

/-! ## What a step makes happen -/

/-- No process is its own parent. -/
theorem ProcTable.Tree.not_isParent_self
    {table : ProcTable limits}
    {children exited : Fin limits.maxProc → List (Fin limits.maxProc)}
    {frees : List (Fin limits.maxProc)}
    (tree : table.Tree children exited frees)
    (pid : Fin limits.maxProc) :
    ¬table.IsParent pid pid := by
  intro own
  have high : 1 < pid.val := by
    by_contra low
    have orphan := (tree.orphan own.1).mpr (by omega)
    rw [own.2] at orphan
    cases orphan
  have stays : ∀ {top}, Relation.ReflTransGen table.IsParent pid top →
      top = pid := by
    intro top climbs
    induction climbs with
    | refl => rfl
    | tail _ isParent inductionHypothesis =>
        rw [inductionHypothesis] at isParent
        exact Option.some.inj (isParent.2.symm.trans own.2)
  obtain ⟨root, isRoot, descends⟩ := tree.rooted own.1 (by omega)
  rw [stays descends] at isRoot
  omega

/-- The loop of `sys_Exit` waits where `wait_for_any_child` does. -/
theorem ProcTable.waits_of_reapAll
    {table after : ProcTable limits}
    {curproc : Fin limits.maxProc}
    {fuel : Nat}
    (ran : reapAll curproc fuel table = .ok (false, after)) :
    after.pollAny curproc = .ok .waits := by
  induction fuel generalizing table with
  | zero => cases ran
  | succ fuel inductionHypothesis =>
      obtain ⟨outcome, polled, continues⟩ := exists_of_bind_eq_ok ran
      cases outcome with
      | noChild => cases continues
      | waits =>
          cases continues
          exact polled
      | reaped child exitval reaped => exact inductionHypothesis continues

namespace OldKernel

/-- What the thread waits for has not happened. -/
def Patient
    (kernel : OldKernel limits π)
    (thread : OldThread limits π) : Prop :=
  match thread.call with
  | .waitsFor child => kernel.procs.pstate child = .alive
  | .waitsAny | .exiting _ => ∀ child,
      kernel.procs.IsParent child thread.owner →
        kernel.procs.pstate child = .alive
  | .joining ptcb _ => (kernel.ptcb ptcb).exited = false ∧
      (kernel.ptcb ptcb).detached = false
  | .own | .streaming _ | .exited _ => True

/-- A zombie has been one before, as a child of the same process, or that process
is woken up. -/
def ZombiesWake
    (before after : ProcTable limits)
    (cvs : List (OldCv limits π)) : Prop :=
  ∀ child parent, after.pstate child = .zombie →
    after.parent child = some parent →
      (before.pstate child = .zombie ∧ before.parent child = some parent) ∨
        .childExit parent ∈ cvs

/-- A thread that runs and is not detached stays so, or those who wait for it are
woken up. -/
def ThreadsWake
    (before after : OldKernel limits π)
    (cvs : List (OldCv limits π)) : Prop :=
  ∀ ptcb, before.live ptcb = true → (before.ptcb ptcb).exited = false →
    (before.ptcb ptcb).detached = false →
      ((after.ptcb ptcb).exited = false ∧
        (after.ptcb ptcb).detached = false) ∨ .exitCv ptcb ∈ cvs

variable {before middle after : ProcTable limits}
variable {cvs : List (OldCv limits π)}
variable {curproc : Fin limits.maxProc}

theorem zombiesWake_refl : ZombiesWake before before cvs :=
  fun _ _ isZombie isParent => .inl ⟨isZombie, isParent⟩

theorem ZombiesWake.trans
    (first : ZombiesWake before middle ([] : List (OldCv limits π)))
    (second : ZombiesWake middle after cvs) :
    ZombiesWake before after cvs := by
  intro child parent isZombie isParent
  rcases second child parent isZombie isParent with ⟨wasZombie, wasParent⟩ | woken
  · rcases first child parent wasZombie wasParent with earlier | none
    · exact .inl earlier
    · cases none
  · exact .inr woken

theorem zombiesWake_of_same
    (same : ProcTable.SameTree before after) :
    ZombiesWake before after cvs := by
  intro child parent isZombie isParent
  rw [same.pstate] at isZombie
  rw [same.parent] at isParent
  exact .inl ⟨isZombie, isParent⟩

theorem zombiesWake_created
    (table : ProcTable limits)
    (newproc : Fin limits.maxProc)
    (newParent : Option (Fin limits.maxProc))
    (call : Option Task)
    (argl : Int)
    (args : List UInt8) :
    ZombiesWake table (table.created newproc newParent call argl args) cvs := by
  intro child parent isZombie isParent
  have different : child ≠ newproc := by
    rintro rfl
    rw [ProcTable.created_pstate, Function.update_self] at isZombie
    cases isZombie
  rw [ProcTable.created_pstate, Function.update_of_ne different] at isZombie
  rw [ProcTable.created_parent, Function.update_of_ne different] at isParent
  exact .inl ⟨isZombie, isParent⟩

theorem zombiesWake_cleanupZombie
    (table : ProcTable limits)
    (reaped : Fin limits.maxProc) :
    ZombiesWake table (table.cleanupZombie reaped).2 cvs := by
  intro child parent isZombie isParent
  have different : child ≠ reaped := by
    rintro rfl
    rw [ProcTable.cleanupZombie_pstate, Function.update_self] at isZombie
    cases isZombie
  rw [ProcTable.cleanupZombie_pstate, Function.update_of_ne different] at isZombie
  rw [ProcTable.cleanupZombie_parent, Function.update_of_ne different] at isParent
  exact .inl ⟨isZombie, isParent⟩

theorem zombiesWake_exitPath
    {stored : Option Int}
    (path : ProcTable.ExitPath curproc stored before after) :
    ZombiesWake before after ([] : List (OldCv limits π)) := by
  induction path with
  | refl => exact zombiesWake_refl
  | @store table after exitval path inductionHypothesis =>
      have same : ProcTable.SameTree table (table.modifyPcb curproc fun block =>
          { block with exitval := exitval }) :=
        ProcTable.sameTree_modifyPcb table curproc rfl rfl
      exact (zombiesWake_of_same same).trans inductionHypothesis
  | @reap table after child exitval reaped polled path inductionHypothesis =>
      obtain ⟨-, -, rfl⟩ := ProcTable.zombie_of_pollAny polled
      exact (zombiesWake_cleanupZombie table child).trans inductionHypothesis

/-- The end of a process wakes up its parent, and the initial process when it
leaves zombies behind. -/
theorem zombiesWake_endProcess
    {running : Fin limits.maxProc → Nat}
    (kernel : OldKernel limits π)
    (ptcb : π)
    (sound : (kernel.procs.leave curproc).Sound running)
    (isAlive : kernel.procs.pstate curproc = .alive)
    (notSystem : curproc.val ≠ 0)
    (last : ((kernel.procs.leave curproc).pcb curproc).threadCount = 0)
    (ended : (kernel.procs.leave curproc).endProcess curproc = .ok after) :
    ZombiesWake kernel.procs after (kernel.threadExitWakes curproc ptcb) := by
  have same := ProcTable.sameTree_leave kernel.procs curproc
  have leftAlive : (kernel.procs.leave curproc).pstate curproc = .alive := by
    rw [same.pstate]
    exact isAlive
  have noThread : running curproc = 0 := by
    have count := sound.count curproc
    omega
  obtain ⟨children, exited, frees, tree⟩ := sound.tree
  have isEnd := (sound.endProcess leftAlive notSystem noThread ended).2
  have isZero : (kernel.procs.pcb curproc).threadCount - 1 = 0 := by
    simpa [ProcTable.leave, ProcTable.modifyPcb] using last
  intro child parent isZombie isParent
  by_cases isInit : curproc.val = 1
  · -- The initial process ends without children.
    have childless : ∀ {child}, ¬(kernel.procs.leave curproc).IsParent child
        curproc := by
      intro child isParent
      have member := tree.mem_children.mpr isParent
      rcases tree.endProcess_init isInit leftAlive with ⟨-, failed⟩ | ⟨none, -⟩
      · rw [failed] at ended
        cases ended
      · rw [none] at member
        cases member
    rw [isEnd.kept childless, same.parent] at isParent
    have different : child ≠ curproc := by
      rintro rfl
      have orphan := (tree.orphan (by rw [leftAlive]; decide)).mpr
        (Nat.le_of_eq isInit)
      rw [same.parent, isParent] at orphan
      cases orphan
    rw [isEnd.pstate, Function.update_of_ne different, same.pstate] at isZombie
    exact .inl ⟨isZombie, isParent⟩
  have wakes : ∀ {cv}, cv ∈ ((if kernel.procs.exited.isRlistEmpty (.list curproc)
      then [] else match kernel.procs.getPcb 1 with
        | .ok (some initpcb) => [.childExit initpcb]
        | _ => []) ++ (kernel.procs.pcb curproc).parent.toList.map .childExit) →
      cv ∈ kernel.threadExitWakes curproc ptcb := by
    intro cv member
    rw [threadExitWakes, if_pos ⟨isZero, isInit⟩]
    exact List.mem_cons_of_mem _ member
  by_cases isCur : child = curproc
  · -- The process itself: its parent is woken up.
    subst isCur
    rw [isEnd.kept (tree.not_isParent_self child), same.parent] at isParent
    refine .inr (wakes (List.mem_append_right _ ?_))
    rw [show (kernel.procs.pcb child).parent = some parent from isParent]
    exact List.mem_singleton_self _
  rw [isEnd.pstate, Function.update_of_ne isCur] at isZombie
  by_cases adopted : (kernel.procs.leave curproc).IsParent child curproc
  · -- A zombie that the process leaves behind: the initial process is woken up.
    obtain ⟨root, isRoot, isAdopted⟩ := isEnd.adopted adopted
    obtain rfl := Option.some.inj (isAdopted.symm.trans isParent)
    have notEmpty : ¬kernel.procs.exited.isRlistEmpty (.list curproc) = true := by
      intro isEmpty
      have none := (RlHeap.isRlistEmpty_iff tree.exitedRing curproc).mp isEmpty
      have member := tree.mem_exited.mpr ⟨isZombie, adopted.2⟩
      rw [none] at member
      cases member
    obtain ⟨init, isOne, initAlive⟩ := tree.init_alive
      (by rw [leftAlive]; decide) (show 1 < curproc.val by omega)
    obtain rfl : init = root := Fin.ext (isOne.trans isRoot.symm)
    have initpcb : kernel.procs.getPcb 1 = .ok (some init) := by
      have inRange : 0 ≤ (1 : Int) ∧ (1 : Int).toNat < limits.maxProc :=
        ⟨by decide, by simpa [isOne] using init.isLt⟩
      have isIndex : (⟨(1 : Int).toNat, inRange.2⟩ : Fin limits.maxProc) = init :=
        Fin.ext isOne.symm
      rw [ProcTable.getPcb, dif_pos inRange, isIndex, if_neg]
      rw [same.pstate] at initAlive
      rw [show (kernel.procs.pcb init).pstate = .alive from initAlive]
      decide
    refine .inr (wakes (List.mem_append_left _ ?_))
    rw [if_neg notEmpty, initpcb]
    exact List.mem_singleton_self _
  · rw [isEnd.kept adopted, same.parent] at isParent
    rw [same.pstate] at isZombie
    exact .inl ⟨isZombie, isParent⟩

/-! ## Steps -/

section Steps

variable {kernel middle after : OldKernel limits π}
variable {thread : OldThread limits π}
variable {call : OldCall limits π}
variable {t : Nat}

/-- A step wakes up those for whom it makes something happen, and its thread does
not begin to wait for what has happened already. -/
structure Wakeful
    (kernel after : OldKernel limits π)
    (t : Nat)
    (cvs : List (OldCv limits π)) : Prop where
  zombies : ZombiesWake kernel.procs after.procs cvs
  threads : ThreadsWake kernel after cvs
  own : ∀ thread, after.threads[t]? = some thread → after.Patient thread

theorem threadsWake_of_same
    (ptcb : after.ptcb = kernel.ptcb) :
    ThreadsWake kernel after cvs := by
  intro other _ running attached
  rw [ptcb]
  exact .inl ⟨running, attached⟩

/-- A step that takes its thread to another point. -/
theorem wakeful_goes
    (isThread : kernel.threads[t]? = some thread)
    (zombies : ZombiesWake kernel.procs after.procs cvs)
    (threadsWake : ThreadsWake kernel after cvs)
    (threads : after.threads =
      kernel.threads.modify t fun thread => { thread with call := call })
    (patient : after.Patient { thread with call := call }) :
    Wakeful kernel after t cvs := by
  refine ⟨zombies, threadsWake, ?_⟩
  intro new isNew
  rw [threads, modify_eq_set isThread,
    List.getElem?_set_self (List.getElem?_eq_some_iff.mp isThread).1] at isNew
  rw [← Option.some.inj isNew]
  exact patient

/-- A step that changes neither processes nor PTCBs. -/
theorem wakeful_returning
    (isThread : kernel.threads[t]? = some thread)
    (procs : after.procs = kernel.procs)
    (ptcb : after.ptcb = kernel.ptcb)
    (threads : after.threads =
      kernel.threads.modify t fun thread => { thread with call := .own }) :
    Wakeful kernel after t cvs := by
  have zombies : ZombiesWake kernel.procs after.procs cvs := by
    rw [procs]
    exact zombiesWake_refl
  exact wakeful_goes isThread zombies (threadsWake_of_same ptcb) threads trivial

/-! ### Waiting for children -/

theorem wakeful_waitChildLoop
    {child : Fin limits.maxProc}
    (isThread : kernel.threads[t]? = some thread) :
    Wakeful kernel (kernel.waitChildLoop t child) t cvs := by
  unfold waitChildLoop ProcTable.pollChild
  split_ifs with isAlive
  · exact wakeful_goes isThread zombiesWake_refl (threadsWake_of_same rfl) rfl
      isAlive
  · exact wakeful_goes isThread (zombiesWake_cleanupZombie kernel.procs child)
      (threadsWake_of_same rfl) rfl trivial

/-- Without exited children all children are alive. -/
theorem alive_of_waits
    {running : Fin limits.maxProc → Nat}
    {table : ProcTable limits}
    {parent child : Fin limits.maxProc}
    (sound : table.Sound running)
    (polled : table.pollAny parent = .ok .waits)
    (isParent : table.IsParent child parent) :
    table.pstate child = .alive := by
  obtain ⟨children, exited, frees, tree⟩ := sound.tree
  cases state : table.pstate child with
  | alive => rfl
  | free => exact absurd state isParent.1
  | zombie =>
      have member := tree.mem_exited.mpr ⟨state, isParent.2⟩
      rcases tree.pollAny parent with ⟨-, none⟩ | ⟨-, noneExited, -⟩ |
        ⟨found, rest, -, reaped⟩
      · rw [none] at polled
        cases polled
      · rw [noneExited] at member
        cases member
      · rw [reaped] at polled
        cases polled

theorem wakeful_waitAnyLoop
    (isThread : kernel.threads[t]? = some thread)
    (living : Living kernel.procs kernel.threads)
    (ran : kernel.waitAnyLoop t thread.owner = .ok after) :
    Wakeful kernel after t cvs := by
  obtain ⟨outcome, polled, isAfter⟩ := exists_of_bind_eq_ok ran
  cases outcome with
  | noChild =>
      cases isAfter
      exact wakeful_returning isThread rfl rfl rfl
  | waits =>
      cases isAfter
      refine wakeful_goes isThread zombiesWake_refl (threadsWake_of_same rfl) rfl
        ?_
      intro child isParent
      exact alive_of_waits living.sound polled isParent
  | reaped child exitval procs =>
      cases isAfter
      obtain ⟨-, -, -, rfl⟩ := living.sound.pollAny polled
      exact wakeful_goes isThread (zombiesWake_cleanupZombie kernel.procs child)
        (threadsWake_of_same rfl) rfl trivial

theorem wakeful_waitChild
    {cpid : Int}
    (isThread : kernel.threads[t]? = some thread)
    (living : Living kernel.procs kernel.threads)
    (ran : kernel.sysWaitChild t thread.owner cpid = .ok after) :
    Wakeful kernel after t cvs := by
  unfold sysWaitChild at ran
  split_ifs at ran
  · obtain ⟨found, -, isAfter⟩ := exists_of_bind_eq_ok ran
    cases found with
    | none =>
        cases isAfter
        exact wakeful_returning isThread rfl rfl rfl
    | some child =>
        cases isAfter
        exact wakeful_waitChildLoop isThread
  · exact wakeful_waitAnyLoop isThread living ran

/-! ### Ending threads -/

variable [DecidableEq π]

/-- `sys_ThreadExit`, with a table that `sys_Exit` may have changed. -/
theorem wakeful_sysThreadExit
    {exitval : Int}
    (isThread : kernel.threads[t]? = some thread)
    (notExited : thread.call.isExited = false)
    (notSystem : thread.owner.val ≠ 0)
    (threads : middle.threads = kernel.threads)
    (ptcb : middle.ptcb = kernel.ptcb)
    (sound : middle.procs.Sound (running kernel.threads))
    (zombies : ZombiesWake kernel.procs middle.procs ([] : List (OldCv limits π)))
    (ran : middle.sysThreadExit t thread.owner thread.ptcb exitval =
      .ok after) :
    Wakeful kernel after t (middle.threadExitWakes thread.owner thread.ptcb) := by
  have hasThread := running_pos (List.mem_of_getElem? isThread) notExited
  have goes : ∀ call : OldCall limits π, middle.threads.modify t (fun thread =>
      { thread with call := call }) = kernel.threads.modify t fun thread =>
        { thread with call := call } := by
    intro call
    rw [threads]
  have marked : ∀ {result : OldKernel limits π}, result.ptcb = Function.update
      middle.ptcb thread.ptcb { middle.ptcb thread.ptcb with
        exitval := exitval, exited := true } →
      ThreadsWake kernel result
        (middle.threadExitWakes thread.owner thread.ptcb) := by
    intro result isMarked other _ running attached
    by_cases same : other = thread.ptcb
    · rw [same, threadExitWakes]
      exact .inr (List.mem_cons_self ..)
    · rw [isMarked, Function.update_of_ne same, ptcb]
      exact .inl ⟨running, attached⟩
  unfold sysThreadExit at ran
  split_ifs at ran with isFreed
  obtain ⟨left, isLeft, isAfter⟩ := exists_of_bind_eq_ok ran
  cases isAfter
  unfold endIfLast at isLeft
  split_ifs at isLeft with last
  · obtain ⟨procs, ended, isKernel⟩ := exists_of_bind_eq_ok isLeft
    split_ifs at isKernel
    cases isKernel
    exact wakeful_goes isThread (zombies.trans (zombiesWake_endProcess middle
      thread.ptcb (sound.leave hasThread) (sound.alive hasThread) notSystem last
        ended)) (marked rfl) (goes _) trivial
  · cases isLeft
    exact wakeful_goes isThread (zombies.trans (zombiesWake_of_same
      (ProcTable.sameTree_leave middle.procs thread.owner))) (marked rfl)
        (goes _) trivial

theorem wakeful_exitLoop
    {exitval : Int}
    (isThread : kernel.threads[t]? = some thread)
    (notExited : thread.call.isExited = false)
    (notSystem : thread.owner.val ≠ 0)
    (threads : middle.threads = kernel.threads)
    (ptcb : middle.ptcb = kernel.ptcb)
    (sound : middle.procs.Sound (running kernel.threads))
    (zombies : ZombiesWake kernel.procs middle.procs ([] : List (OldCv limits π)))
    (ran : middle.exitLoop t thread.owner thread.ptcb exitval = .ok after) :
    Wakeful kernel after t (middle.exitLoopWakes thread.owner thread.ptcb) := by
  obtain ⟨⟨ended, procs⟩, reaped, isAfter⟩ := exists_of_bind_eq_ok ran
  have path := ProcTable.ExitPath.of_reapAll reaped
  have soundAfter := (sound.exitPath path).1
  have zombiesAfter := zombies.trans (zombiesWake_exitPath path)
  unfold exitLoopWakes
  rw [reaped]
  cases ended with
  | true =>
      refine wakeful_sysThreadExit isThread notExited notSystem ?_ ?_ soundAfter
        zombiesAfter isAfter
      · exact threads
      · exact ptcb
  | false =>
      cases isAfter
      have goes : middle.threads.modify t (fun thread =>
          { thread with call := .exiting exitval }) =
            kernel.threads.modify t fun thread =>
              { thread with call := .exiting exitval } := by
        rw [threads]
      refine wakeful_goes isThread zombiesAfter (threadsWake_of_same ptcb) goes ?_
      -- The loop stops where `wait_for_any_child` waits.
      intro child isParent
      exact alive_of_waits soundAfter (ProcTable.waits_of_reapAll reaped) isParent

/-! ### Creating, joining and detaching threads -/

/-- A new thread gets a PTCB that is not in use. -/
theorem threadsWake_start
    {new : π}
    {block : OldPtcb}
    (notLive : kernel.live new = false)
    (ptcb : after.ptcb = Function.update kernel.ptcb new block) :
    ThreadsWake kernel after cvs := by
  intro other isLive running attached
  have different : other ≠ new := by
    rintro rfl
    rw [notLive] at isLive
    cases isLive
  rw [ptcb, Function.update_of_ne different]
  exact .inl ⟨running, attached⟩

omit [DecidableEq π] in
/-- A step that creates a thread, whose own call returns. -/
theorem wakeful_starts
    {new : OldThread limits π}
    (isThread : kernel.threads[t]? = some thread)
    (zombies : ZombiesWake kernel.procs after.procs cvs)
    (threadsWake : ThreadsWake kernel after cvs)
    (threads : after.threads = (kernel.threads ++ [new]).modify t
      fun thread => { thread with call := .own }) :
    Wakeful kernel after t cvs := by
  refine ⟨zombies, threadsWake, ?_⟩
  have isOld : (kernel.threads ++ [new])[t]? = some thread :=
    getElem?_append_new isThread
  intro moved isMoved
  rw [threads, modify_eq_set isOld,
    List.getElem?_set_self (List.getElem?_eq_some_iff.mp isOld).1] at isMoved
  rw [← Option.some.inj isMoved]
  trivial

theorem wakeful_exec
    {task : Option Task}
    {argl : Int}
    {args : Nat}
    {memory : Nat → UInt8}
    {ptcb : π}
    {newproc : Option (Fin limits.maxProc)}
    (isThread : kernel.threads[t]? = some thread)
    (notLive : kernel.live ptcb = false)
    (ran : kernel.sysExec (some thread.owner) task argl args memory ptcb =
      .ok (newproc, middle)) :
    Wakeful kernel (middle.returning t (.exec newproc)) t cvs := by
  obtain ⟨⟨result, procs⟩, executed, isMiddle⟩ := exists_of_bind_eq_ok ran
  rcases ProcTable.exec_eq_ok executed with
    ⟨-, rfl, rfl⟩ | ⟨pid, bytes, -, rfl, -, -, rfl⟩
  · cases isMiddle
    exact wakeful_returning isThread rfl rfl rfl
  · cases task with
    | none =>
        cases isMiddle
        exact wakeful_goes isThread (zombiesWake_created _ pid _ _ _ _)
          (threadsWake_of_same rfl) rfl trivial
    | some task =>
        cases isMiddle
        exact wakeful_starts isThread ((zombiesWake_created _ pid _ _ _ _).trans
          (zombiesWake_of_same (ProcTable.sameTree_enter _ pid)))
            (threadsWake_start notLive rfl) rfl

theorem wakeful_createThread
    (isThread : kernel.threads[t]? = some thread)
    (task : Option Task)
    (argl : Int)
    (args : Nat)
    {ptcb : π}
    (notLive : kernel.live ptcb = false)
    (reply : OldReply limits π) :
    Wakeful kernel ((kernel.sysCreateThread thread.owner task argl args
      ptcb).2.returning t reply) t cvs := by
  cases task with
  | none => exact wakeful_returning isThread rfl rfl rfl
  | some task =>
      exact wakeful_starts isThread (zombiesWake_of_same
        (ProcTable.sameTree_enter kernel.procs thread.owner))
          (threadsWake_start notLive rfl) rfl

/-- Counting the calls of `ThreadJoin` changes nothing that is waited for. -/
theorem ThreadsWake.of_refcount
    (threadsWake : ThreadsWake kernel middle cvs)
    (ptcb : π)
    (count : OldPtcb → Int)
    (changed : after.ptcb = (middle.modifyPtcb ptcb fun block =>
      { block with refcount := count block }).ptcb) :
    ThreadsWake kernel after cvs := by
  have flags : ∀ other, (after.ptcb other).exited = (middle.ptcb other).exited ∧
      (after.ptcb other).detached = (middle.ptcb other).detached := by
    intro other
    rw [changed]
    by_cases same : other = ptcb
    · subst same
      simp [modifyPtcb]
    · simp [modifyPtcb, same]
  intro other isLive running attached
  rw [(flags other).1, (flags other).2]
  exact threadsWake other isLive running attached

/-- The loop of `sys_ThreadJoin` -/
theorem wakeful_joinLoop
    {ptcb : π}
    {target : Nat}
    (isThread : kernel.threads[t]? = some thread)
    (procs : middle.procs = kernel.procs)
    (threads : middle.threads = kernel.threads)
    (threadsWake : ThreadsWake kernel middle cvs)
    (ran : middle.joinLoop t ptcb target = .ok after) :
    Wakeful kernel after t cvs := by
  have goes : ∀ call : OldCall limits π, middle.threads.modify t (fun thread =>
      { thread with call := call }) = kernel.threads.modify t fun thread =>
        { thread with call := call } := by
    intro call
    rw [threads]
  have zombies : ZombiesWake kernel.procs middle.procs cvs := by
    rw [procs]
    exact zombiesWake_refl
  unfold joinLoop at ran
  simp only at ran
  split_ifs at ran with freed detached exited last
  · cases ran
    exact wakeful_goes isThread zombies threadsWake (goes .own) trivial
  · cases ran
    exact wakeful_goes isThread zombies (threadsWake.of_refcount ptcb
      (fun block => block.refcount - 1) rfl) (goes .own) trivial
  · cases ran
    exact wakeful_goes isThread zombies (threadsWake.of_refcount ptcb
      (fun block => block.refcount - 1) rfl) (goes .own) trivial
  · cases ran
    refine wakeful_goes isThread zombies threadsWake (goes _) ?_
    exact ⟨Bool.eq_false_of_not_eq_true exited,
      Bool.eq_false_of_not_eq_true detached⟩

theorem wakeful_threadJoin
    {tid : Option π}
    (isThread : kernel.threads[t]? = some thread)
    (ran : kernel.sysThreadJoin t thread.owner thread.ptcb tid = .ok after) :
    Wakeful kernel after t cvs := by
  unfold sysThreadJoin at ran
  split_ifs at ran
  · cases ran
    exact wakeful_returning isThread rfl rfl rfl
  · obtain ⟨found, -, isAfter⟩ := exists_of_bind_eq_ok ran
    cases found with
    | none =>
        cases isAfter
        exact wakeful_returning isThread rfl rfl rfl
    | some ptcb =>
        simp only at isAfter
        split_ifs at isAfter
        · cases isAfter
          exact wakeful_returning isThread rfl rfl rfl
        · refine wakeful_joinLoop isThread ?_ ?_ ?_ isAfter
          · rfl
          · rfl
          · exact (threadsWake_of_same rfl).of_refcount ptcb
              (fun block => block.refcount + 1) rfl

/-- `sys_ThreadDetach` wakes up those who wait for the thread. -/
theorem wakeful_threadDetach
    {tid : Option π}
    (isThread : kernel.threads[t]? = some thread)
    (ran : kernel.sysThreadDetach t thread.owner tid = .ok after) :
    Wakeful kernel after t (kernel.threadDetachWakes thread.owner tid) := by
  unfold sysThreadDetach at ran
  obtain ⟨found, isFound, isAfter⟩ := exists_of_bind_eq_ok ran
  unfold threadDetachWakes
  rw [isFound]
  cases found with
  | none =>
      cases isAfter
      exact wakeful_returning isThread rfl rfl rfl
  | some ptcb =>
      simp only at isAfter
      split_ifs at isAfter with freed exited
      · cases isAfter
        exact wakeful_returning isThread rfl rfl rfl
      · cases isAfter
        simp only [if_neg exited]
        refine wakeful_goes isThread zombiesWake_refl ?_ rfl trivial
        intro other _ running attached
        by_cases same : other = ptcb
        · rw [same]
          exact .inr (List.mem_singleton_self _)
        · refine .inl ?_
          simp [returning, goto, modifyPtcb, same, running, attached]

/-! ### All steps -/

theorem wakeful_resume
    (isThread : kernel.threads[t]? = some thread)
    (living : Living kernel.procs kernel.threads)
    (waiting : thread.call.isWaiting = true)
    (notExited : thread.call.isExited = false)
    (ran : kernel.threadStep t thread (.resume t) = .ok after) :
    Wakeful kernel after t (kernel.wakes thread (.resume t)) := by
  unfold threadStep at ran
  cases called : thread.call with
  | own | exited exitval =>
      rw [called] at waiting
      cases waiting
  | waitsFor child =>
      rw [called] at ran
      cases ran
      exact wakeful_waitChildLoop isThread
  | waitsAny =>
      rw [called] at ran
      exact wakeful_waitAnyLoop isThread living ran
  | exiting exitval =>
      rw [called] at ran
      simp only [wakes, called]
      exact wakeful_exitLoop isThread notExited
        (living.owner thread (List.mem_of_getElem? isThread)) rfl rfl
          living.sound zombiesWake_refl ran
  | joining ptcb target =>
      rw [called] at ran
      exact wakeful_joinLoop isThread rfl rfl (threadsWake_of_same rfl) ran
  | streaming fcb =>
      rw [called] at ran
      cases ran
      exact wakeful_returning isThread rfl rfl rfl

/-- Every step wakes up those for whom it makes something happen. -/
theorem wakeful_of_step
    {action : OldAction π}
    (isThread : kernel.threads[action.thread]? = some thread)
    (living : Living kernel.procs kernel.threads)
    (takes : kernel.Takes thread action)
    (notExited : thread.call.isExited = false)
    (ran : kernel.step action = .ok after) :
    Wakeful kernel after action.thread (kernel.wakes thread action) := by
  have notSystem := living.owner thread (List.mem_of_getElem? isThread)
  unfold step at ran
  rw [isThread] at ran
  simp only at ran
  cases action with
  | exec t call argl args memory ptcb =>
      obtain ⟨⟨newproc, middle⟩, executed, isAfter⟩ := exists_of_bind_eq_ok ran
      cases isAfter
      exact wakeful_exec isThread takes.2 executed
  | exit t exitval =>
      change kernel.sysExit t thread.owner thread.ptcb exitval = .ok after at ran
      have stores : ProcTable.ExitPath thread.owner (some exitval) kernel.procs
          (kernel.procs.modifyPcb thread.owner fun block =>
            { block with exitval := exitval }) := .store .refl
      have sound := (living.sound.exitPath stores).1
      have zombies : ZombiesWake kernel.procs (kernel.procs.modifyPcb thread.owner
          fun block => { block with exitval := exitval })
            ([] : List (OldCv limits π)) :=
        zombiesWake_exitPath stores
      unfold sysExit at ran
      simp only at ran
      simp only [wakes]
      split_ifs at ran with isInit
      · rw [if_pos isInit]
        refine wakeful_exitLoop isThread notExited notSystem ?_ ?_ sound zombies
          ran
        · rfl
        · rfl
      · rw [if_neg isInit]
        refine wakeful_sysThreadExit isThread notExited notSystem ?_ ?_ sound
          zombies ran
        · rfl
        · rfl
  | waitChild t cpid => exact wakeful_waitChild isThread living ran
  | createThread t task argl args ptcb =>
      cases ran
      exact wakeful_createThread isThread task argl args takes.2 _
  | threadExit t exitval =>
      exact wakeful_sysThreadExit isThread notExited notSystem rfl rfl
        living.sound zombiesWake_refl ran
  | threadJoin t tid => exact wakeful_threadJoin isThread ran
  | threadDetach t tid => exact wakeful_threadDetach isThread ran
  | openNull t | openInfo t | pipe t | openTerminal t termno =>
      obtain ⟨result, -, isAfter⟩ := exists_of_bind_eq_ok ran
      cases isAfter
      exact wakeful_returning isThread rfl rfl rfl
  | close t fd | dup2 t oldfd newfd =>
      cases ran
      exact wakeful_returning isThread rfl rfl rfl
  | startTransfer t fd =>
      change Except.ok (kernel.beginTransfer t
        (kernel.files.startTransfer thread.owner fd)) = .ok after at ran
      cases started : kernel.files.startTransfer thread.owner fd with
      | mk found files =>
          rw [started] at ran
          cases found with
          | none =>
              cases ran
              exact wakeful_returning isThread rfl rfl rfl
          | some fcb =>
              cases ran
              exact wakeful_goes isThread zombiesWake_refl
                (threadsWake_of_same rfl) rfl trivial
  | resume t => exact wakeful_resume isThread living takes notExited ran

/-- A thread that is not woken up still waits for something. -/
theorem Wakeful.patient
    {other : OldThread limits π}
    {u : Nat}
    (wakeful : Wakeful kernel after t cvs)
    (reached : Reached kernel)
    (livingAfter : Living after.procs after.threads)
    (wasThread : kernel.threads[u]? = some other)
    (isThread : after.threads[u]? = some other)
    (patient : kernel.Patient other)
    (asleep : ∀ cv, other.waitsOn = some cv → cv ∉ cvs) :
    after.Patient other := by
  have childless : ∀ {child}, OldCv.childExit other.owner ∉ cvs →
      (kernel.procs.IsParent child other.owner →
        kernel.procs.pstate child = .alive) →
      after.procs.IsParent child other.owner →
        after.procs.pstate child = .alive := by
    intro child notWoken wasAlive isParent
    cases state : after.procs.pstate child with
    | alive => rfl
    | free => exact absurd state isParent.1
    | zombie =>
        rcases wakeful.zombies child other.owner state isParent.2 with
          ⟨wasZombie, wasParent⟩ | woken
        · rw [wasAlive ⟨by rw [wasZombie]; decide, wasParent⟩] at wasZombie
          cases wasZombie
        · exact absurd woken notWoken
  unfold Patient at patient ⊢
  unfold OldThread.waitsOn at asleep
  cases called : other.call with
  | own | streaming fcb | exited exitval => trivial
  | waitsFor child =>
      simp only [called] at patient asleep ⊢
      exact childless (asleep _ rfl) (fun _ => patient)
        (livingAfter.waits other (List.mem_of_getElem? isThread) child called)
  | waitsAny | exiting exitval =>
      simp only [called] at patient asleep ⊢
      exact fun child => childless (asleep _ rfl) (patient child)
  | joining ptcb target =>
      simp only [called] at patient asleep ⊢
      obtain ⟨lists, sound⟩ := reached.occurs.ptcbs
      obtain ⟨listed, -⟩ := sound.joins other (List.mem_of_getElem? wasThread)
        ptcb target called
      exact (wakeful.threads ptcb (sound.rings.alive listed) patient.1
        patient.2).resolve_right (asleep _ rfl)

end Steps

/-- Only the thread that takes the step may be elsewhere, and a new thread is in
its own code. -/
theorem ProcTurn.getElem?_cases
    {kernel : OldKernel limits π}
    {t u : Nat}
    {thread new : OldThread limits π}
    {stored : Option Int}
    {procs : ProcTable limits}
    {changed : List (OldThread limits π)}
    (turn : ProcTurn kernel t thread stored procs changed)
    (different : u ≠ t)
    (isNew : changed[u]? = some new) :
    kernel.threads[u]? = some new ∨ new.call = .own := by
  have set : ∀ call, (kernel.threads.set t
      { thread with call := call })[u]? = some new →
        kernel.threads[u]? = some new := by
    intro call isAt
    rw [List.getElem?_set_ne (Ne.symm different)] at isAt
    exact isAt
  have append : ∀ {owner ptcb} call, ((kernel.threads ++
      [OldThread.mk owner ptcb .own]).set t
        { thread with call := call })[u]? = some new →
        kernel.threads[u]? = some new ∨ new.call = .own := by
    intro owner ptcb call isAt
    rw [List.getElem?_set_ne (Ne.symm different), List.getElem?_append] at isAt
    split_ifs at isAt
    · exact .inl isAt
    · rw [List.getElem?_singleton] at isAt
      split_ifs at isAt
      rw [← Option.some.inj isAt]
      exact .inr rfl
  cases turn with
  | goes call | exitWaits stored exitval | leaves stored exitval
    | ends stored exitval => exact .inl (set _ isNew)
  | createsEmpty | reapsChild | reapsAny => exact .inl (set .own isNew)
  | creates | spawns => exact append .own isNew

end OldKernel

/-! ## Runs -/

namespace OldWaits

variable [DecidableEq π]
variable {waits : OldWaits limits π}

/-- These runs are runs of the kernel. -/
theorem Reached.kernel
    (reached : waits.Reached) :
    waits.kernel.Reached := by
  obtain ⟨ports, task, argl, args, memory, ptcb, start, ran, reachable⟩ :=
    reached
  refine ⟨ports, task, argl, args, memory, ptcb, start, ran, ?_⟩
  have weaker : Reachable (withPast OldWaits.kernel OldKernel.step record)
      (fun waits action => waits.kernel.Allowed action)
        ⟨start, fun _ => false⟩ waits :=
    reachable.of_steps fun _ allowed => allowed.1
  exact weaker.of_withPast OldKernel.Allowed fun _ _ _ => rfl

/-- No wake-up is lost: what a waiting call waits for has not happened as long as
it is not woken up.  A call of `WaitChild` then has only children that are alive,
and the thread that a call of `ThreadJoin` waits for runs and is not detached. -/
theorem Reached.noLostWakeup
    {t : Nat}
    {thread : OldThread limits π}
    (reached : waits.Reached)
    (isThread : waits.kernel.threads[t]? = some thread)
    (asleep : waits.woken t = false) :
    waits.kernel.Patient thread := by
  obtain ⟨ports, task, argl, args, memory, ptcb, start, ran, reachable⟩ :=
    reached
  have begins := OldKernel.booted_of_boot ran
  have kernelReached : ∀ {waits : OldWaits limits π},
      Reachable (withPast OldWaits.kernel OldKernel.step record) Allowed
        ⟨start, fun _ => false⟩ waits → waits.kernel.Reached :=
    fun run => Reached.kernel
      ⟨ports, task, argl, args, memory, ptcb, start, ran, run⟩
  refine (reachable.invariant (motive := fun waits =>
    Reachable (withPast OldWaits.kernel OldKernel.step record) Allowed
        ⟨start, fun _ => false⟩ waits ∧
      ∀ t thread, waits.kernel.threads[t]? = some thread →
        waits.woken t = false → waits.kernel.Patient thread)
    ⟨.refl, ?_⟩ ?_).2 t thread isThread asleep
  · intro t thread isThread _
    obtain ⟨ports, task, argl, args, ptcb, system, init, systemArgs, initArgs,
      -, -, -, -, rfl⟩ := begins
    have member := List.mem_of_getElem? isThread
    obtain rfl := List.mem_singleton.mp member
    trivial
  · rintro before after action ⟨run, patient⟩ allowed stepped
    refine ⟨run.tail allowed stepped, ?_⟩
    obtain ⟨kernel, kernelStepped, rfl⟩ := withPast_eq_ok.mp stepped
    have beforeReached := kernelReached run
    have afterReached : kernel.Reached := kernelReached (run.tail allowed stepped)
    obtain ⟨acting, isActing, takes, notExited⟩ :=
      OldKernel.exists_thread allowed.1.1
    have wakeful := OldKernel.wakeful_of_step isActing beforeReached.living takes
      notExited kernelStepped
    have turn := OldKernel.procTurn_of_step isActing takes kernelStepped
      (beforeReached.living.exiting acting (List.mem_of_getElem? isActing))
    intro u other isOther notWoken
    change kernel.threads[u]? = some other at isOther
    by_cases isOwn : u = action.thread
    · subst isOwn
      exact wakeful.own other isOther
    change (if u = action.thread then false
      else before.woken u || before.wakesUp action u) = false at notWoken
    rw [if_neg isOwn, Bool.or_eq_false_iff] at notWoken
    rcases turn.getElem?_cases isOwn isOther with wasOther | isNew
    · refine wakeful.patient beforeReached afterReached.living wasOther isOther
        (patient u other wasOther notWoken.1) ?_
      intro cv waitsOn woken
      have wakesUp := notWoken.2
      simp only [OldWaits.wakesUp, isActing, wasOther, waitsOn] at wakesUp
      exact of_decide_eq_false wakesUp woken
    · show kernel.Patient other
      unfold OldKernel.Patient
      rw [isNew]
      trivial

/-- The initial process waits for one child while another one exits. -/
theorem noLostWakeup_other :
    ∃ (waits : OldWaits ⟨4, 4, 1, 1⟩ Nat) (thread : OldThread ⟨4, 4, 1, 1⟩ Nat),
      (waits.Reached ∧ waits.kernel.threads[0]? = some thread ∧
        thread.call = .waitsFor 2 ∧ waits.woken 0 = false ∧
        waits.kernel.procs.pstate 3 = .zombie) ∧
      waits.kernel.Patient thread := by
  have ran : ∃ (start : OldKernel ⟨4, 4, 1, 1⟩ Nat)
      (waits : OldWaits ⟨4, 4, 1, 1⟩ Nat),
      OldKernel.boot ⟨4, 4, 1, 1⟩ 1 0 0 0 (fun _ => 0) 0 = .ok start ∧
      Reachable (withPast OldWaits.kernel OldKernel.step record) Allowed
        ⟨start, fun _ => false⟩ waits ∧
      decide (waits.kernel.threads[0]? = some ⟨1, 0, .waitsFor 2⟩ ∧
        waits.woken 0 = false ∧ waits.kernel.procs.pstate 3 = .zombie) = true :=
    exists_reachable_of_booted
      [OldAction.exec 0 (some 1) 0 0 (fun _ => 0) 1,
        .exec 0 (some 1) 0 0 (fun _ => 0) 2, .waitChild 0 2, .exit 2 7,
        .resume 0]
      (by decide +kernel)
  obtain ⟨start, waits, booted, reachable, passed⟩ := ran
  obtain ⟨isThread, asleep, zombie⟩ := of_decide_eq_true passed
  have reached : waits.Reached :=
    ⟨1, 0, 0, 0, fun _ => 0, 0, start, booted, reachable⟩
  exact ⟨waits, ⟨1, 0, .waitsFor 2⟩, ⟨reached, isThread, rfl, asleep, zombie⟩,
    reached.noLostWakeup isThread asleep⟩

end OldWaits
end TinierOS
