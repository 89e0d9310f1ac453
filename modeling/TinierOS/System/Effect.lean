import TinierOS.System.Turns
import TinierOS.Streams.Effect

/-!
# What a step can do

Every step of a sound system is one of the cases of `Effect`, which say all that
later proofs need to know about it.
-/

namespace TinierOS

variable {limits : Limits}

namespace System

open Kernel

/-- What holds in every run: the scheduler rests between steps, some thread has
the core, and every allocated thread belongs to a process. -/
structure Sound (system : System limits) : Prop where
  resting : system.kernel.Resting
  started : system.kernel.sched.currentThread ≠ none
  owned : ∀ slot, system.kernel.threadUsed slot = true →
    ∃ proc, system.kernel.owner slot = some proc

/-- A child that is not alive any more. -/
def deadChild
    (kernel : Kernel limits)
    (child : Fin limits.maxProc) : Option (Fin limits.maxProc) :=
  if kernel.pstate child = .alive then none else some child

/-- The first exited child of a process. -/
def exitedFront
    (kernel : Kernel limits)
    (parent : Fin limits.maxProc) : Option (Fin limits.maxProc) :=
  if kernel.exited.isRlistEmpty (.list parent) then none
  else (kernel.exited (kernel.exited (.list parent)).next).obj

/-- The child that a step of `slot` is about to clean up, as the tests of
`sys_WaitChild` find it in the state before the step. -/
def reapTarget
    (system : System limits)
    (slot : Fin limits.maxThreads) :
    Action limits → Option (Fin limits.maxProc)
  | .waitChild cpid _ _ =>
      if cpid ≠ -1 then
        (system.kernel.getPcb cpid).bind fun child =>
          if system.kernel.parent child = system.kernel.owner slot then
            deadChild system.kernel child
          else none
      else (system.kernel.owner slot).bind fun parent =>
        if system.kernel.children.isRlistEmpty (.list parent) then none
        else exitedFront system.kernel parent
  | .resume _ =>
      match system.control slot with
      | .waitChild child _ => deadChild system.kernel child
      | .waitAny parent _ => exitedFront system.kernel parent
      | _ => none
  | _ => none

theorem Reaps.reapTarget
    {before : System limits}
    {action : Action limits}
    {slot : Fin limits.maxThreads}
    {child : Fin limits.maxProc}
    {status : Bool}
    (reaps : Reaps before action slot child status) :
    before.reapTarget slot action = some child := by
  cases reaps with
  | call call specific found isParent notAlive =>
      simp [call, System.reapTarget, specific, found, isParent, deadChild,
        notAlive]
  | resume resumes suspended notAlive =>
      simp [resumes, System.reapTarget, suspended, deadChild, notAlive]
  | @any parent loop nonempty front =>
      have found : exitedFront before.kernel parent = some child := by
        simpa [exitedFront, RlHeap.isRlistEmpty, Ne.symm nonempty] using front
      cases loop with
      | call call isParent hasChildren =>
          simp [call, System.reapTarget, isParent, RlHeap.isRlistEmpty,
            Ne.symm hasChildren, found]
      | resume resumes suspended =>
          simp [resumes, System.reapTarget, suspended, found]

/-- Whether the call of `WaitChild` that `slot` is in passed a location for the
exit value. -/
def statusWanted
    (system : System limits)
    (slot : Fin limits.maxThreads) : Action limits → Bool
  | .waitChild _ status _ => status
  | .resume _ =>
      match system.control slot with
      | .waitChild _ status => status
      | .waitAny _ status => status
      | _ => false
  | _ => false

theorem Reaps.statusWanted
    {before : System limits}
    {action : Action limits}
    {slot : Fin limits.maxThreads}
    {child : Fin limits.maxProc}
    {status : Bool}
    (reaps : Reaps before action slot child status) :
    before.statusWanted slot action = status := by
  cases reaps with
  | call call specific found isParent notAlive =>
      rw [call]
      rfl
  | resume resumes suspended notAlive =>
      simp [resumes, System.statusWanted, suspended]
  | any loop nonempty front =>
      cases loop with
      | call call isParent hasChildren =>
          rw [call]
          rfl
      | resume resumes suspended =>
          simp [resumes, System.statusWanted, suspended]

theorem Reaps.notExit
    {before : System limits}
    {action : Action limits}
    {slot : Fin limits.maxThreads}
    {child : Fin limits.maxProc}
    {status : Bool}
    (reaps : Reaps before action slot child status) :
    action.exitval = none := by
  cases reaps with
  | call call specific found isParent notAlive =>
      rw [call]
      rfl
  | resume resumes suspended notAlive =>
      rw [resumes]
      rfl
  | any loop nonempty front =>
      cases loop with
      | call call isParent hasChildren =>
          rw [call]
          rfl
      | resume resumes suspended =>
          rw [resumes]
          rfl

/-- The suspended threads stay where they are and the current one is back in
its own code; a slot that was free holds a fresh thread, if any. -/
structure ControlKept (before after : System limits) : Prop where
  kept : ∀ slot, before.kernel.threadUsed slot = true →
    after.control slot = before.control slot ∨
      before.currentSlot = some slot ∧ after.control slot = .user
  fresh : ∀ slot, before.kernel.threadUsed slot = false →
    after.control slot = .fresh

/-- The cases of a step. -/
inductive Effect
    (before : System limits) : Action limits → System limits → Prop
  /-- The tables do not change. -/
  | stay
      {action : Action limits}
      {after : System limits}
      (notExit : action.exitval = none)
      (procs : SameProcs before.kernel after.kernel)
      (files : SameFiles before.kernel after.kernel)
      (threads : SameThreads before.kernel after.kernel)
      (ptcbs : SamePtcbs before.kernel after.kernel)
      (control : ∀ slot, before.kernel.threadUsed slot = true →
        after.control slot = before.control slot ∨
          before.currentSlot = some slot ∧
            Entered before action slot (after.control slot))
      (reply : after.reply.Quiet) :
      Effect before action after
  /-- `Exec` creates a process. -/
  | executed
      {call : Option Task}
      {argl : Int}
      {args : ArgPtr limits}
      {memory : Nat → UInt8}
      {after : System limits}
      (slot : Fin limits.maxThreads)
      (newproc : Fin limits.maxProc)
      (isCurrent : before.currentSlot = some slot)
      (proc : ProcCreated before.kernel after.kernel newproc .alive)
      (files : FilesInherited before.kernel after.kernel newproc)
      (threads : call = none ∧ SameThreads before.kernel after.kernel ∧
          SamePtcbs before.kernel after.kernel ∨
        call ≠ none ∧ ∃ new,
          NewThread before.kernel after.kernel new newproc ∧
          PtcbsGrown before.kernel after.kernel newproc)
      (control : ControlKept before after)
      (reply : after.reply = .exec (some newproc)) :
      Effect before (.exec call argl args memory) after
  /-- `Exec` finds no thread for the process it has linked. -/
  | execFailed
      {call : Option Task}
      {argl : Int}
      {args : ArgPtr limits}
      {memory : Nat → UInt8}
      {after : System limits}
      (slot : Fin limits.maxThreads)
      (newproc : Fin limits.maxProc)
      (isCurrent : before.currentSlot = some slot)
      (isCall : call ≠ none)
      (noSlot : before.kernel.sched.freeSlot = none)
      (proc : ProcCreated before.kernel after.kernel newproc .free)
      (files : FilesInherited before.kernel after.kernel newproc)
      (threads : SameThreads before.kernel after.kernel)
      (ptcbs : SamePtcbs before.kernel after.kernel)
      (control : ControlKept before after)
      (reply : after.reply.Quiet) :
      Effect before (.exec call argl args memory) after
  /-- `Exit` by a thread of `proc`. -/
  | exited
      {exitval : Int}
      {clock : Clock}
      {after : System limits}
      (slot : Fin limits.maxThreads)
      (proc : Fin limits.maxProc)
      (isCurrent : before.currentSlot = some slot)
      (owned : before.kernel.owner slot = some proc)
      (procs : ProcExited before.kernel after.kernel proc exitval)
      (files : SameFiles before.kernel after.kernel)
      (threads : ThreadLeft before.kernel after.kernel slot proc)
      (ptcbs : SamePtcbs before.kernel after.kernel)
      (control : ∀ other, other ≠ slot →
        after.control other = before.control other)
      (reply : after.reply.Quiet) :
      Effect before (.exit exitval clock) after
  /-- `ThreadExit` by a thread of `proc`. -/
  | threadExited
      {exitval : Int}
      {clock : Clock}
      {after : System limits}
      (slot : Fin limits.maxThreads)
      (proc : Fin limits.maxProc)
      (isCurrent : before.currentSlot = some slot)
      (owned : before.kernel.owner slot = some proc)
      (procs : SameProcs before.kernel after.kernel)
      (files : SameFiles before.kernel after.kernel)
      (threads : ThreadLeft before.kernel after.kernel slot proc)
      (ptcbs : SamePtcbs before.kernel after.kernel)
      (control : ∀ other, other ≠ slot →
        after.control other = before.control other)
      (reply : after.reply.Quiet) :
      Effect before (.threadExit exitval clock) after
  /-- `WaitChild` returns a child. -/
  | reaped
      {action : Action limits}
      {after : System limits}
      (slot : Fin limits.maxThreads)
      (child : Fin limits.maxProc)
      (status : Bool)
      (isCurrent : before.currentSlot = some slot)
      (reason : Reaps before action slot child status)
      (procs : ProcReaped before.kernel after.kernel child)
      (files : SameFiles before.kernel after.kernel)
      (threads : SameThreads before.kernel after.kernel)
      (ptcbs : SamePtcbs before.kernel after.kernel)
      (control : after.control = Function.update before.control slot .user)
      (reply : after.reply = .waitChild (some child)
        (if status then some (before.kernel.exitval child) else none)) :
      Effect before action after
  /-- `CreateThread` starts a thread. -/
  | threadCreated
      {task : Option Task}
      {argl : Int}
      {args : ArgPtr limits}
      {after : System limits}
      (slot new : Fin limits.maxThreads)
      (proc : Fin limits.maxProc)
      (isCurrent : before.currentSlot = some slot)
      (owned : before.kernel.owner slot = some proc)
      (procs : SameProcs before.kernel after.kernel)
      (files : SameFiles before.kernel after.kernel)
      (thread : NewThread before.kernel after.kernel new proc)
      (ptcbs : PtcbsGrown before.kernel after.kernel proc)
      (control : ControlKept before after)
      (reply : after.reply.Quiet) :
      Effect before (.createThread task argl args) after
  /-- A stream is opened or closed. -/
  | streams
      {action : Action limits}
      {after : System limits}
      (slot : Fin limits.maxThreads)
      (notExit : action.exitval = none)
      (isCurrent : before.currentSlot = some slot)
      (call : (∃ major minor result,
          before.kernel.openStream major minor =
            .ok (result, after.kernel)) ∨
        ∃ fd result, action = .close fd ∧
          before.kernel.sysClose fd = .ok (result, after.kernel))
      (only : OnlyFiles before.kernel after.kernel)
      (control : after.control = Function.update before.control slot .user)
      (reply : after.reply.Quiet) :
      Effect before action after

/-! ## The current thread -/

theorem currentProc_of_owned
    {system : System limits}
    {slot : Fin limits.maxThreads}
    {proc : Fin limits.maxProc}
    (isCurrent : system.currentSlot = some slot)
    (owned : system.kernel.owner slot = some proc) :
    system.kernel.currentProc = some proc := by
  rw [currentProc_of_slot (currentSlot_eq_some.mp isCurrent), owned]

theorem Sound.idle_of_currentSlot
    {system : System limits}
    (sound : system.Sound)
    (noSlot : system.currentSlot = none) :
    system.kernel.sched.currentThread = some .idle := by
  obtain ⟨current, isCurrent⟩ := Option.ne_none_iff_exists'.mp sound.started
  cases current with
  | idle => exact isCurrent
  | slot slot =>
      rw [currentSlot_eq_some.mpr isCurrent] at noSlot
      cases noSlot

theorem Sound.current_used
    {system : System limits}
    {slot : Fin limits.maxThreads}
    (sound : system.Sound)
    (isCurrent : system.currentSlot = some slot) :
    system.kernel.threadUsed slot = true := by
  obtain ⟨lists, inv⟩ := sound.resting
  exact inv.dirtyUsed slot (currentSlot_eq_some.mp isCurrent)

/-! ## Steps that change only the scheduler -/

/-- The tables after a scheduler call. -/
theorem same_of_sched
    {kernel : Kernel limits}
    {sched : Sched limits}
    (owners : Sched.SameOwners kernel.sched sched)
    (used : sched.threadUsed = kernel.sched.threadUsed) :
    SameProcs kernel { kernel with sched := sched } ∧
      SameFiles kernel { kernel with sched := sched } ∧
      SameThreads kernel { kernel with sched := sched } ∧
      SamePtcbs kernel { kernel with sched := sched } := by
  refine ⟨⟨rfl, rfl, rfl, rfl, rfl⟩, ⟨rfl, rfl, rfl⟩, ⟨used, ?_, rfl⟩,
    ⟨rfl, rfl⟩⟩
  funext slot
  exact owners.ownerPcb _

/-- A system whose threads are the same is sound with it. -/
theorem Sound.of_same
    {before after : System limits}
    (sound : before.Sound)
    (resting : after.kernel.Resting)
    (started : after.kernel.sched.currentThread ≠ none)
    (threads : SameThreads before.kernel after.kernel) :
    after.Sound := by
  refine ⟨resting, started, ?_⟩
  intro slot usedSlot
  rw [threads.used] at usedSlot
  rw [threads.owner]
  exact sound.owned slot usedSlot

/-- A `yield` of the current thread, which then waits at `control`. -/
theorem Sound.suspend
    {system after : System limits}
    {slot : Fin limits.maxThreads}
    {action : Action limits}
    {control : Control limits}
    {cause : SchedCause}
    {clock : Clock}
    (sound : system.Sound)
    (notExit : action.exitval = none)
    (isCurrent : system.currentSlot = some slot)
    (suspended : system.suspend slot control cause clock = .ok after)
    (entered : control = system.control slot ∨
      Entered system action slot control) :
    after.Sound ∧ Effect system action after := by
  obtain ⟨lists, inv⟩ := sound.resting
  obtain ⟨next, sched, lists', yielded, nextCurrent, resting, owners, used,
    -⟩ := inv.yield (currentSlot_eq_some.mp isCurrent) cause
      clock.remaining clock.curtime
  obtain ⟨procs, files, threads, ptcbs⟩ := same_of_sched owners used
  rw [System.suspend, yielded] at suspended
  cases suspended
  refine ⟨sound.of_same ⟨lists', resting⟩ ?_ threads,
    .stay notExit procs files threads ptcbs ?_ trivial⟩
  · show sched.currentThread ≠ none
    rw [nextCurrent]
    simp
  · intro other _
    by_cases same : other = slot
    · subst same
      simp only [Function.update_self]
      exact entered.imp id fun entered => ⟨isCurrent, entered⟩
    · exact .inl (Function.update_of_ne same _ _)

/-- A call that returns without changing anything. -/
theorem Sound.returning
    {system : System limits}
    {slot : Fin limits.maxThreads}
    {action : Action limits}
    {reply : Reply limits}
    (sound : system.Sound)
    (notExit : action.exitval = none)
    (isCurrent : system.currentSlot = some slot)
    (quiet : reply.Quiet) :
    (system.returning slot system.kernel reply).Sound ∧
      Effect system action (system.returning slot system.kernel reply) := by
  refine ⟨⟨sound.resting, sound.started, sound.owned⟩,
    .stay notExit ⟨rfl, rfl, rfl, rfl, rfl⟩ ⟨rfl, rfl, rfl⟩ ⟨rfl, rfl, rfl⟩
      ⟨rfl, rfl⟩ ?_ quiet⟩
  intro other _
  by_cases same : other = slot
  · subst same
    simp only [System.returning, Function.update_self]
    exact .inr ⟨isCurrent, .user⟩
  · exact .inl (Function.update_of_ne same _ _)

/-- A call that reaps a child. -/
theorem Sound.reaped
    {system : System limits}
    {slot : Fin limits.maxThreads}
    {child : Fin limits.maxProc}
    {action : Action limits}
    (sound : system.Sound)
    (isCurrent : system.currentSlot = some slot)
    (status : Bool)
    (reason : Reaps system action slot child status) :
    (system.returning slot (system.kernel.cleanupZombie child).2
        (.waitChild (some child) (if status then
          some (system.kernel.cleanupZombie child).1 else none))).Sound ∧
      Effect system action
        (system.returning slot (system.kernel.cleanupZombie child).2
          (.waitChild (some child) (if status then
            some (system.kernel.cleanupZombie child).1 else none))) := by
  obtain ⟨procs, files, threads, ptcbs⟩ :=
    system.kernel.cleanupZombie_effect child
  exact ⟨sound.of_same sound.resting sound.started threads,
    .reaped slot child status isCurrent reason procs files threads ptcbs rfl
      rfl⟩

/-! ## Calls that create or end threads -/

/-- The control of the threads after a call that may create one. -/
theorem controlKept_withNewThread
    {system : System limits}
    {slot : Fin limits.maxThreads}
    {kernel : Kernel limits}
    {reply : Reply limits}
    (isCurrent : system.currentSlot = some slot) :
    ControlKept system
      ((system.returning slot kernel reply).withNewThread system) where
  kept := by
    intro other usedOther
    have isUsed : system.kernel.sched.threadUsed other = true := usedOther
    simp only [withNewThread, isUsed, if_true, System.returning]
    by_cases same : other = slot
    · subst same
      exact .inr ⟨isCurrent, Function.update_self ..⟩
    · exact .inl (Function.update_of_ne same _ _)
  fresh := by
    intro other unused
    have isUnused : system.kernel.sched.threadUsed other = false := unused
    simp [withNewThread, isUnused]

theorem ControlKept.entered
    {before after : System limits}
    {action : Action limits}
    (control : ControlKept before after)
    (slot : Fin limits.maxThreads)
    (usedSlot : before.kernel.threadUsed slot = true) :
    after.control slot = before.control slot ∨
      before.currentSlot = some slot ∧
        Entered before action slot (after.control slot) := by
  rcases control.kept slot usedSlot with same | ⟨isCurrent, isUser⟩
  · exact .inl same
  · rw [isUser]
    exact .inr ⟨isCurrent, .user⟩

theorem Sound.of_newThread
    {before after : System limits}
    {new : Fin limits.maxThreads}
    {proc : Fin limits.maxProc}
    (sound : before.Sound)
    (resting : after.kernel.Resting)
    (started : after.kernel.sched.currentThread ≠ none)
    (thread : NewThread before.kernel after.kernel new proc) :
    after.Sound := by
  refine ⟨resting, started, ?_⟩
  intro slot usedSlot
  rw [thread.owner]
  by_cases same : slot = new
  · exact ⟨proc, by simp [same]⟩
  · rw [thread.used, Function.update_of_ne same] at usedSlot
    rw [Function.update_of_ne same]
    exact sound.owned slot usedSlot

theorem Sound.of_threadLeft
    {before after : System limits}
    {slot : Fin limits.maxThreads}
    {proc : Fin limits.maxProc}
    (sound : before.Sound)
    (resting : after.kernel.Resting)
    (started : after.kernel.sched.currentThread ≠ none)
    (left : ThreadLeft before.kernel after.kernel slot proc) :
    after.Sound := by
  refine ⟨resting, started, ?_⟩
  intro other usedOther
  rw [left.used] at usedOther
  rw [left.owner]
  by_cases same : other = slot
  · subst same
    simp at usedOther
  · rw [Function.update_of_ne same] at usedOther
    exact sound.owned other usedOther

theorem Sound.exec
    {system : System limits}
    {slot : Fin limits.maxThreads}
    {call : Option Task}
    {argl : Int}
    {args : ArgPtr limits}
    {memory : Nat → UInt8}
    {pid : Option (Fin limits.maxProc)}
    {kernel : Kernel limits}
    (sound : system.Sound)
    (isCurrent : system.currentSlot = some slot)
    (executed : system.kernel.sysExec call argl args memory =
      .ok (pid, kernel)) :
    ((system.returning slot kernel (.exec pid)).withNewThread system).Sound ∧
      Effect system (.exec call argl args memory)
        ((system.returning slot kernel (.exec pid)).withNewThread system) := by
  obtain ⟨resting, effect⟩ :=
    (sysExec_outcome sound.resting executed).effect sound.resting
  have started : kernel.sched.currentThread ≠ none := by
    rw [effect.current]
    exact sound.started
  have control : ControlKept system
      ((system.returning slot kernel (.exec pid)).withNewThread system) :=
    controlKept_withNewThread isCurrent
  cases effect with
  | full noPcb =>
      exact ⟨⟨resting, sound.started, sound.owned⟩,
        .stay rfl ⟨rfl, rfl, rfl, rfl, rfl⟩ ⟨rfl, rfl, rfl⟩ ⟨rfl, rfl, rfl⟩
          ⟨rfl, rfl⟩ control.entered trivial⟩
  | threadless newproc noCall proc files threads ptcbs sched =>
      exact ⟨sound.of_same resting started threads,
        .executed slot newproc isCurrent proc files
          (.inl ⟨noCall, threads, ptcbs⟩) control rfl⟩
  | failed newproc isCall noSlot proc files threads ptcbs sched =>
      exact ⟨sound.of_same resting started threads,
        .execFailed slot newproc isCurrent isCall noSlot proc files threads
          ptcbs control trivial⟩
  | started newproc new isCall proc files thread ptcbs current =>
      exact ⟨sound.of_newThread resting started thread,
        .executed slot newproc isCurrent proc files
          (.inr ⟨isCall, new, thread, ptcbs⟩) control rfl⟩

theorem Sound.createThread
    {system : System limits}
    {slot : Fin limits.maxThreads}
    {task : Option Task}
    {argl : Int}
    {args : ArgPtr limits}
    {tid : Option (Fin limits.maxThreads)}
    {kernel : Kernel limits}
    (sound : system.Sound)
    (isCurrent : system.currentSlot = some slot)
    (created : system.kernel.sysCreateThread task argl args =
      .ok (tid, kernel)) :
    ((system.returning slot kernel (.createThread tid)).withNewThread
        system).Sound ∧
      Effect system (.createThread task argl args)
        ((system.returning slot kernel (.createThread tid)).withNewThread
          system) := by
  obtain ⟨proc, owned⟩ := sound.owned slot (sound.current_used isCurrent)
  have control : ControlKept system
      ((system.returning slot kernel (.createThread tid)).withNewThread
        system) :=
    controlKept_withNewThread isCurrent
  cases sysCreateThread_outcome sound.resting (currentSlot_eq_some.mp isCurrent)
      owned created with
  | refused reason =>
      exact ⟨⟨sound.resting, sound.started, sound.owned⟩,
        .stay rfl ⟨rfl, rfl, rfl, rfl, rfl⟩ ⟨rfl, rfl, rfl⟩ ⟨rfl, rfl, rfl⟩
          ⟨rfl, rfl⟩ control.entered trivial⟩
  | started new isTask effect frame =>
      refine ⟨sound.of_newThread effect.resting ?_ effect.thread,
        .threadCreated slot new proc isCurrent owned ?_ ?_ effect.thread
          effect.ptcbs control trivial⟩
      · show kernel.sched.currentThread ≠ none
        rw [effect.current]
        exact sound.started
      · exact ⟨same_column_of_pcb PCB.pstate effect.pcb rfl,
          same_column_of_pcb PCB.parent effect.pcb rfl,
          same_column_of_pcb PCB.exitval effect.pcb rfl, effect.children,
          effect.exited⟩
      · exact ⟨same_column_of_pcb PCB.FIDT effect.pcb rfl, effect.fcb,
          effect.freelist⟩

theorem Sound.exit
    {system : System limits}
    {slot : Fin limits.maxThreads}
    {exitval : Int}
    {clock : Clock}
    {kernel : Kernel limits}
    (sound : system.Sound)
    (isCurrent : system.currentSlot = some slot)
    (exited : system.kernel.sysExit exitval clock.remaining clock.curtime =
      .ok kernel) :
    (system.returning slot kernel .none).Sound ∧
      Effect system (.exit exitval clock)
        (system.returning slot kernel .none) := by
  obtain ⟨proc, owned⟩ := sound.owned slot (sound.current_used isCurrent)
  obtain ⟨after, exited', resting, started, procs, files, left, ptcbs⟩ :=
    sysExit_effect sound.resting (currentSlot_eq_some.mp isCurrent) owned
      exitval clock.remaining clock.curtime
  rw [exited] at exited'
  cases exited'
  exact ⟨sound.of_threadLeft resting started left,
    .exited slot proc isCurrent owned procs files left ptcbs
      (fun other different => Function.update_of_ne different _ _) trivial⟩

theorem Sound.threadExit
    {system : System limits}
    {slot : Fin limits.maxThreads}
    {exitval : Int}
    {clock : Clock}
    {kernel : Kernel limits}
    (sound : system.Sound)
    (isCurrent : system.currentSlot = some slot)
    (exited : system.kernel.sysThreadExit exitval clock.remaining
      clock.curtime = .ok kernel) :
    (system.returning slot kernel .none).Sound ∧
      Effect system (.threadExit exitval clock)
        (system.returning slot kernel .none) := by
  obtain ⟨proc, owned⟩ := sound.owned slot (sound.current_used isCurrent)
  obtain ⟨after, exited', resting, started, procs, files, left, ptcbs⟩ :=
    sysThreadExit_effect sound.resting (currentSlot_eq_some.mp isCurrent)
      owned exitval clock.remaining clock.curtime
  rw [exited] at exited'
  cases exited'
  exact ⟨sound.of_threadLeft resting started left,
    .threadExited slot proc isCurrent owned procs files left ptcbs
      (fun other different => Function.update_of_ne different _ _) trivial⟩

/-- A stream call leaves the scheduler alone. -/
theorem Sound.streams
    {system : System limits}
    {slot : Fin limits.maxThreads}
    {kernel : Kernel limits}
    {action : Action limits}
    {reply : Reply limits}
    (sound : system.Sound)
    (notExit : action.exitval = none)
    (isCurrent : system.currentSlot = some slot)
    (call : (∃ major minor result,
        system.kernel.openStream major minor = .ok (result, kernel)) ∨
      ∃ fd result, action = .close fd ∧
        system.kernel.sysClose fd = .ok (result, kernel))
    (quiet : reply.Quiet) :
    (system.returning slot kernel reply).Sound ∧
      Effect system action (system.returning slot kernel reply) := by
  have only : OnlyFiles system.kernel kernel := by
    rcases call with ⟨major, minor, result, opened⟩ | ⟨fd, result, -, closed⟩
    · exact OnlyFiles.openStream opened
    · exact OnlyFiles.sysClose closed
  refine ⟨sound.of_same ?_ ?_ only.sameThreads,
    .streams slot notExit isCurrent call only rfl quiet⟩
  · show kernel.Resting
    rw [Kernel.Resting, only.sched]
    exact sound.resting
  · show kernel.sched.currentThread ≠ none
    rw [only.sched]
    exact sound.started

/-! ## Every step -/

theorem Sound.wakeup
    {system : System limits}
    {slot other : Fin limits.maxThreads}
    {sched : Sched limits}
    {woke : Bool}
    (sound : system.Sound)
    (isCurrent : system.currentSlot = some slot)
    (usedOther : system.kernel.sched.threadUsed other = true)
    (woken : system.kernel.sched.wakeup (.slot other) = .ok (sched, woke)) :
    (system.returning slot { system.kernel with sched := sched } .none).Sound ∧
      Effect system (.wakeup other)
        (system.returning slot { system.kernel with sched := sched }
          .none) := by
  obtain ⟨lists, inv⟩ := sound.resting
  obtain ⟨sched', lists', woke', woken', resting, frame⟩ := inv.wakeup usedOther
  rw [woken] at woken'
  cases woken'
  obtain ⟨procs, files, threads, ptcbs⟩ :=
    same_of_sched frame.toSameOwners frame.threadUsed
  refine ⟨sound.of_same ⟨lists', resting⟩ ?_ threads,
    .stay rfl procs files threads ptcbs ?_ trivial⟩
  · show sched.currentThread ≠ none
    rw [frame.currentThread]
    exact sound.started
  · intro thread _
    by_cases same : thread = slot
    · subst same
      simp only [System.returning, Function.update_self]
      exact .inr ⟨isCurrent, .user⟩
    · exact .inl (Function.update_of_ne same _ _)

theorem Sound.threadDetach
    {system : System limits}
    {slot : Fin limits.maxThreads}
    {action : Action limits}
    (sound : system.Sound)
    (notExit : action.exitval = none)
    (isCurrent : system.currentSlot = some slot)
    (tid : Option (Fin limits.maxThreads)) :
    (system.returning slot (system.kernel.sysThreadDetach tid).2
        (.threadDetach (system.kernel.sysThreadDetach tid).1)).Sound ∧
      Effect system action
        (system.returning slot (system.kernel.sysThreadDetach tid).2
          (.threadDetach (system.kernel.sysThreadDetach tid).1)) := by
  cases tid with
  | none => exact sound.returning notExit isCurrent trivial
  | some ptcb =>
      refine ⟨⟨sound.resting, sound.started, sound.owned⟩,
        .stay notExit ⟨rfl, rfl, rfl, rfl, rfl⟩ ⟨rfl, rfl, rfl⟩ ⟨rfl, rfl, rfl⟩
          ⟨rfl, rfl⟩ ?_ trivial⟩
      intro other _
      by_cases same : other = slot
      · subst same
        simp only [System.returning, Function.update_self]
        exact .inr ⟨isCurrent, .user⟩
      · exact .inl (Function.update_of_ne same _ _)

theorem Sound.idleStep
    {system after : System limits}
    {clock : Clock}
    {action : Action limits}
    (sound : system.Sound)
    (notExit : action.exitval = none)
    (noSlot : system.currentSlot = none)
    (stepped : system.idleStep clock = .ok after) :
    after.Sound ∧ Effect system action after := by
  unfold System.idleStep at stepped
  split_ifs at stepped with active
  · obtain ⟨lists, inv⟩ := sound.resting
    obtain ⟨next, sched, lists', yielded, nextCurrent, resting, owners,
      used, -⟩ := inv.yield (sound.idle_of_currentSlot noSlot) .idle
        clock.remaining clock.curtime
    obtain ⟨procs, files, threads, ptcbs⟩ := same_of_sched owners used
    rw [yielded] at stepped
    cases stepped
    refine ⟨sound.of_same ⟨lists', resting⟩ ?_ threads,
      .stay notExit procs files threads ptcbs (fun _ _ => .inl rfl) trivial⟩
    show sched.currentThread ≠ none
    rw [nextCurrent]
    simp
  · cases stepped
    exact ⟨⟨sound.resting, sound.started, sound.owned⟩,
      .stay notExit ⟨rfl, rfl, rfl, rfl, rfl⟩ ⟨rfl, rfl, rfl⟩ ⟨rfl, rfl, rfl⟩
        ⟨rfl, rfl⟩ (fun _ _ => .inl rfl) trivial⟩

/-- Every enabled step of a sound system leaves a sound system and has one of
the listed effects. -/
theorem Sound.step
    {system after : System limits}
    {action : Action limits}
    (sound : system.Sound)
    (enabled : system.Enabled action)
    (stepped : system.step action = .ok after) :
    after.Sound ∧ Effect system action after := by
  cases turn_of_step enabled stepped with
  | returns slot plain isCurrent blank =>
      exact sound.returning (Action.exitval_of_plain plain) isCurrent blank.quiet
  | suspends slot control cause clock plain isCurrent entered suspended =>
      exact sound.suspend (Action.exitval_of_plain plain) isCurrent suspended
        entered
  | idles noSlot idled => exact sound.idleStep rfl noSlot idled
  | wakes slot woke isCurrent usedOther woken =>
      exact sound.wakeup isCurrent usedOther woken
  | joined slot ptcb exitval plain isCurrent loop exited =>
      exact sound.returning (Action.exitval_of_plain plain) isCurrent trivial
  | reaped slot child status plain isCurrent reason =>
      exact sound.reaped isCurrent status reason
  | executed slot pid isCurrent executed => exact sound.exec isCurrent executed
  | exited slot isCurrent exited => exact sound.exit isCurrent exited
  | threadExited slot isCurrent exited =>
      exact sound.threadExit isCurrent exited
  | created slot tid isCurrent created =>
      exact sound.createThread isCurrent created
  | detached slot isCurrent => exact sound.threadDetach rfl isCurrent _
  | opened slot fid isCurrent opens opened =>
      exact sound.streams (Action.exitval_of_opens opens) isCurrent
        (.inl ⟨_, _, _, opened⟩) trivial
  | closed slot result isCurrent closed =>
      exact sound.streams rfl isCurrent (.inr ⟨_, _, rfl, closed⟩) trivial

end System
end TinierOS
