import TinierOS.Proc.Tables

/-!
# What a thread is started with

`start_main_thread` reads its task from the PCB, `start_main_pthread` from the
PTCB.  Starting a thread leaves the PTCBs and the arguments of all others alone.
-/

namespace TinierOS

variable {limits : Limits}

/-- The call that `start_main_thread` or `start_main_pthread` makes. -/
structure TaskCall (limits : Limits) where
  task : Option Task
  argl : Int
  args : ArgPtr limits
  deriving DecidableEq

namespace Kernel

/-- The call that the fresh thread in a slot makes. -/
def startedCall
    (kernel : Kernel limits)
    (slot : Fin limits.maxThreads) : Option (TaskCall limits) :=
  let block := kernel.sched.tcb (.slot slot)
  match block.threadFunc, block.ownerPcb, block.ptcb with
  | some .startMainThread, some pcb, _ =>
      some ⟨(kernel.pcb pcb).mainTask, (kernel.pcb pcb).argl,
        (kernel.pcb pcb).args⟩
  | some .startMainPthread, _, some ptcb =>
      some ⟨(kernel.ptcb ptcb).task, (kernel.ptcb ptcb).argl,
        (kernel.ptcb ptcb).args⟩
  | _, _, _ => none

/-- The PTCB of a thread, which is its tid. -/
def tidOf
    (kernel : Kernel limits)
    (slot : Fin limits.maxThreads) : Option (Fin limits.maxThreads) :=
  (kernel.sched.tcb (.slot slot)).ptcb

/-- The function of a thread. -/
def threadFunc
    (kernel : Kernel limits)
    (slot : Fin limits.maxThreads) : Option ThreadFunc :=
  (kernel.sched.tcb (.slot slot)).threadFunc

/-- Starting a thread writes one PTCB and the new TCB only. -/
structure StartFrame
    (before after : Kernel limits)
    (slot : Fin limits.maxThreads)
    (func : ThreadFunc) : Prop where
  procArgs : after.procArgs = before.procArgs
  ptcb : ∀ ptcb, before.freePtcb ≠ some ptcb →
    after.ptcb ptcb = before.ptcb ptcb
  tidOf : after.tidOf = Function.update before.tidOf slot before.freePtcb
  threadFunc : after.threadFunc =
    Function.update before.threadFunc slot (some func)

theorem startFrame
    {kernel after : Kernel limits}
    {slot : Fin limits.maxThreads}
    {proc : Fin limits.maxProc}
    {func : ThreadFunc}
    {task : Option Task}
    {argl : Int}
    {args : ArgPtr limits}
    (started : ({ kernel with
        sched := kernel.sched.initThread slot (some proc) func } :
      Kernel limits).startThread proc slot task argl args = .ok after) :
    StartFrame kernel after slot func := by
  have spawned : ∀ other,
      (kernel.sched.initThread slot (some proc) func).tcb (.slot other) =
        if other = slot then Sched.spawnedTCB (some proc) func
        else kernel.sched.tcb (.slot other) := by
    intro other
    split_ifs with same
    · rw [same, Sched.initThread_tcb_self]
    · exact Sched.initThread_tcb_of_ne _ _ _ _ (by simpa using same)
  obtain ⟨created, createdEq, rested⟩ := exists_of_bind_eq_ok started
  obtain ⟨⟨woken, woke⟩, wokenEq, returned⟩ := exists_of_bind_eq_ok rested
  cases returned
  have owners := Sched.wakeup_sameOwners wokenEq
  have linked : StartFrame kernel created slot func := by
    simp only [createPtcb] at createdEq
    split at createdEq
    · rename_i full
      cases createdEq
      have noPtcb : kernel.freePtcb = none := full
      refine ⟨rfl, fun _ _ => rfl, ?_, ?_⟩
      · funext other
        simp only [tidOf, spawned, noPtcb, Function.update_apply]
        split_ifs <;> rfl
      · funext other
        simp only [threadFunc, spawned, Function.update_apply]
        split_ifs <;> rfl
    · rename_i ptcb found
      split at createdEq
      · cases createdEq
      · cases createdEq
        have free : kernel.freePtcb = some ptcb := found
        refine ⟨rfl, ?_, ?_, ?_⟩
        · intro other different
          rw [free] at different
          exact Function.update_of_ne (by simpa [eq_comm] using different) ..
        · funext other
          simp only [tidOf, linkPtcb, Function.update_apply, free]
          split_ifs with same
          · simp [same]
          · rw [Sched.modifyTcb_of_ne (by simpa using same), spawned,
              if_neg same]
        · funext other
          simp only [threadFunc, linkPtcb, Function.update_apply]
          split_ifs with same
          · simp [same, Sched.spawnedTCB]
          · rw [Sched.modifyTcb_of_ne (by simpa using same), spawned,
              if_neg same]
  refine ⟨linked.procArgs, linked.ptcb, ?_, ?_⟩
  · rw [← linked.tidOf]
    funext other
    exact owners.ptcb _
  · rw [← linked.threadFunc]
    funext other
    exact owners.threadFunc _

/-! ## The calls that start threads -/

/-- The outcomes of `sys_CreateThread`. -/
inductive CreateOutcome
    (before : Kernel limits)
    (proc : Fin limits.maxProc)
    (task : Option Task)
    (argl : Int)
    (args : ArgPtr limits) :
    Option (Fin limits.maxThreads) → Kernel limits → Prop
  /-- There is no task or no free slot. -/
  | refused
      (reason : task = none ∨ before.sched.freeSlot = none) :
      CreateOutcome before proc task argl args none before
  | started
      {after : Kernel limits}
      (slot : Fin limits.maxThreads)
      (isTask : task ≠ none)
      (started : ThreadStarted before after slot proc task argl args)
      (frame : StartFrame before after slot .startMainPthread) :
      CreateOutcome before proc task argl args before.freePtcb after

/-- `sys_CreateThread` returns, with one of these outcomes. -/
theorem sysCreateThread_returns
    {kernel : Kernel limits}
    {current : Fin limits.maxThreads}
    {proc : Fin limits.maxProc}
    (resting : kernel.Resting)
    (isCurrent : kernel.sched.currentThread = some (.slot current))
    (owned : kernel.owner current = some proc)
    (task : Option Task)
    (argl : Int)
    (args : ArgPtr limits) :
    ∃ tid after, kernel.sysCreateThread task argl args = .ok (tid, after) ∧
      CreateOutcome kernel proc task argl args tid after := by
  have owns : (kernel.sched.tcb (.slot current)).ownerPcb = some proc := owned
  unfold sysCreateThread
  split_ifs with noTask
  · exact ⟨none, kernel, rfl, .refused (.inl noTask)⟩
  · cases free : kernel.sched.freeSlot with
    | none =>
        refine ⟨none, kernel, ?_, .refused (.inr free)⟩
        simp [isCurrent, Sched.spawnThread_of_full free]
    | some slot =>
        obtain ⟨after, started, effect⟩ := startThread_initThread resting free
          proc .startMainPthread task argl args
        refine ⟨kernel.freePtcb, after, ?_,
          .started slot noTask effect (startFrame started)⟩
        simp only [isCurrent, owns, Sched.spawnThread_of_free free, started,
          bind, Except.bind, pure, Except.pure, effect.ptcb]

theorem sysCreateThread_outcome
    {kernel after : Kernel limits}
    {current : Fin limits.maxThreads}
    {proc : Fin limits.maxProc}
    {task : Option Task}
    {argl : Int}
    {args : ArgPtr limits}
    {tid : Option (Fin limits.maxThreads)}
    (resting : kernel.Resting)
    (isCurrent : kernel.sched.currentThread = some (.slot current))
    (owned : kernel.owner current = some proc)
    (created : kernel.sysCreateThread task argl args = .ok (tid, after)) :
    CreateOutcome kernel proc task argl args tid after := by
  obtain ⟨tid', after', created', outcome⟩ :=
    sysCreateThread_returns resting isCurrent owned task argl args
  rw [created] at created'
  cases created'
  exact outcome

theorem spawnMain_of_full
    {kernel : Kernel limits}
    (full : kernel.sched.freeSlot = none)
    (newproc : Fin limits.maxProc)
    (call : Option Task)
    (argl : Int) :
    kernel.spawnMain newproc call argl = .ok (none,
      (kernel.modifyPcb newproc fun block =>
        { block with mainThread := none }).releasePCB newproc) := by
  simp [spawnMain, Sched.spawnThread_of_full full]

theorem spawnMain_of_free
    {kernel after : Kernel limits}
    {slot : Fin limits.maxThreads}
    {newproc : Fin limits.maxProc}
    {call : Option Task}
    {argl : Int}
    (found : kernel.sched.freeSlot = some slot)
    (started : (({ kernel with
        sched := kernel.sched.initThread slot (some newproc)
          .startMainThread } : Kernel limits).modifyPcb newproc
        fun block => { block with mainThread := some slot }).startThread
          newproc slot call argl (kernel.pcb newproc).args = .ok after) :
    kernel.spawnMain newproc call argl = .ok (some newproc, after) := by
  have args : ((({ kernel with
        sched := kernel.sched.initThread slot (some newproc)
          .startMainThread } : Kernel limits).modifyPcb newproc
        fun block => { block with mainThread := some slot }).pcb
          newproc).args = (kernel.pcb newproc).args := by
    simp [modifyPcb]
  simp only [spawnMain, Sched.spawnThread_of_free found, args, started]
  rfl

/-- The outcomes of `sys_Exec`, with the whole kernel after the call. -/
inductive ExecOutcome
    (before : Kernel limits)
    (call : Option Task)
    (argl : Int)
    (args : ArgPtr limits)
    (memory : Nat → UInt8) :
    Option (Fin limits.maxProc) → Kernel limits → Prop
  /-- No PCB is free. -/
  | full
      (noPcb : before.freePcb = none) :
      ExecOutcome before call argl args memory none before
  /-- A process without a thread. -/
  | threadless
      (newproc : Fin limits.maxProc)
      (free : before.freePcb = some newproc)
      (noCall : call = none) :
      ExecOutcome before call argl args memory (some newproc)
        (before.prepared newproc call argl args memory)
  /-- No thread is free: the PCB is released again. -/
  | failed
      (newproc : Fin limits.maxProc)
      (free : before.freePcb = some newproc)
      (isCall : call ≠ none)
      (noSlot : before.sched.freeSlot = none) :
      ExecOutcome before call argl args memory none
        (((before.prepared newproc call argl args memory).modifyPcb newproc
          fun block => { block with mainThread := none }).releasePCB newproc)
  /-- The main thread is ready. -/
  | started
      {after : Kernel limits}
      (newproc : Fin limits.maxProc)
      (slot : Fin limits.maxThreads)
      (free : before.freePcb = some newproc)
      (isCall : call ≠ none)
      (started : ThreadStarted
        ((before.prepared newproc call argl args memory).modifyPcb newproc
          fun block => { block with mainThread := some slot }) after slot
          newproc call argl
          ((before.prepared newproc call argl args memory).pcb newproc).args)
      (frame : StartFrame
        ((before.prepared newproc call argl args memory).modifyPcb newproc
          fun block => { block with mainThread := some slot }) after slot
          .startMainThread) :
      ExecOutcome before call argl args memory (some newproc) after

/-- `sys_Exec` returns, with one of these outcomes. -/
theorem sysExec_returns
    {kernel : Kernel limits}
    (resting : kernel.Resting)
    (call : Option Task)
    (argl : Int)
    (args : ArgPtr limits)
    (memory : Nat → UInt8) :
    ∃ pid after, kernel.sysExec call argl args memory = .ok (pid, after) ∧
      ExecOutcome kernel call argl args memory pid after := by
  cases found : kernel.freePcb with
  | none =>
      exact ⟨none, kernel, sysExec_of_full found _ _ _ _, .full found⟩
  | some newproc =>
      have sched := kernel.prepared_sched newproc call argl args memory
      rw [sysExec_of_free found]
      split_ifs with noCall
      · exact ⟨some newproc, _, rfl, .threadless newproc found noCall⟩
      · cases free : kernel.sched.freeSlot with
        | none =>
            exact ⟨none, _, spawnMain_of_full (sched ▸ free) ..,
              .failed newproc found noCall free⟩
        | some slot =>
            have free' : ((kernel.prepared newproc call argl args
                memory).modifyPcb newproc fun block =>
                  { block with mainThread := some slot }).sched.freeSlot =
                    some slot := by
              rw [← free, ← sched]
              rfl
            have markedResting : ((kernel.prepared newproc call argl args
                memory).modifyPcb newproc fun block =>
                  { block with mainThread := some slot }).Resting := by
              show (kernel.prepared newproc call argl args memory).Resting
              rw [Resting, sched]
              exact resting
            obtain ⟨after, started, effect⟩ := startThread_initThread
              markedResting free' newproc .startMainThread call argl
              ((kernel.prepared newproc call argl args memory).pcb newproc).args
            exact ⟨some newproc, after,
              spawnMain_of_free (sched ▸ free) started,
              .started newproc slot found noCall effect (startFrame started)⟩

theorem sysExec_outcome
    {kernel after : Kernel limits}
    {call : Option Task}
    {argl : Int}
    {args : ArgPtr limits}
    {memory : Nat → UInt8}
    {pid : Option (Fin limits.maxProc)}
    (resting : kernel.Resting)
    (executed : kernel.sysExec call argl args memory = .ok (pid, after)) :
    ExecOutcome kernel call argl args memory pid after := by
  obtain ⟨pid', after', executed', outcome⟩ :=
    sysExec_returns resting call argl args memory
  rw [executed] at executed'
  cases executed'
  exact outcome

end Kernel
end TinierOS
