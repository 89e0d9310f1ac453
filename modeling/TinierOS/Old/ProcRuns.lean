import TinierOS.Old.Processes
import TinierOS.Old.ProcStart

/-!
# Processes in the runs of the old kernel

The threads of the processes are counted in all runs.  The process table fits the
threads in every state of the runs in which nobody waits for a process that has
been reaped.
-/

namespace TinierOS

variable {limits : Limits} {π : Type}

namespace OldKernel

/-! ## Start-up -/

/-- The first two processes have no parent. -/
theorem newParent_none
    (newproc : Fin limits.maxProc) :
    ProcTable.newParent newproc none = none := by
  rw [ProcTable.newParent]
  split_ifs <;> rfl

section

variable [DecidableEq π]
variable {kernel after : OldKernel limits π}
variable {argl : Int}
variable {args pid : Nat}
variable {memory : Nat → UInt8}
variable {ptcb : π}
variable {newproc : Option (Fin limits.maxProc)}

/-- `sys_Exec` with a null task, before there is a process. -/
theorem sysExec_empty
    (ran : kernel.sysExec none none argl args memory ptcb =
      .ok (newproc, after))
    (isPid : newproc.map Fin.val = some pid) :
    ∃ (new : Fin limits.maxProc) (bytes : List UInt8), new.val = pid ∧
      kernel.procs.freelist = some new ∧
      after = { kernel with
        procs := kernel.procs.created new none none argl bytes } := by
  obtain ⟨⟨result, procs⟩, executed, isAfter⟩ := exists_of_bind_eq_ok ran
  rcases ProcTable.exec_eq_ok executed with
    ⟨-, rfl, -⟩ | ⟨new, bytes, isFree, rfl, -, -, rfl⟩
  · cases isAfter
    cases isPid
  · simp only [newParent_none] at isAfter
    cases isAfter
    exact ⟨new, bytes, Option.some.inj isPid, isFree, rfl⟩

/-- `sys_Exec`, before there is a process. -/
theorem sysExec_task
    {task : Task}
    (ran : kernel.sysExec none (some task) argl args memory ptcb =
      .ok (newproc, after))
    (isPid : newproc.map Fin.val = some pid) :
    ∃ (new : Fin limits.maxProc) (bytes : List UInt8), new.val = pid ∧
      kernel.procs.freelist = some new ∧
      after = { kernel with
        procs := kernel.procs.created new none (some task) argl
          bytes }.startThread new (some task) argl args ptcb := by
  obtain ⟨⟨result, procs⟩, executed, isAfter⟩ := exists_of_bind_eq_ok ran
  rcases ProcTable.exec_eq_ok executed with
    ⟨-, rfl, -⟩ | ⟨new, bytes, isFree, rfl, -, -, rfl⟩
  · cases isAfter
    cases isPid
  · simp only [newParent_none] at isAfter
    cases isAfter
    exact ⟨new, bytes, Option.some.inj isPid, isFree, rfl⟩

end

variable [DecidableEq π]

/-- The kernel in which the scheduler starts. -/
def Booted (start : OldKernel limits π) : Prop :=
  ∃ (ports : Nat) (task : Task) (argl : Int) (args : Nat) (ptcb : π)
    (system init : Fin limits.maxProc) (systemArgs initArgs : List UInt8),
    system.val = 0 ∧ init.val = 1 ∧
    (initial limits π ports).procs.freelist = some system ∧
    ((initial limits π ports).procs.created system none none 0
      systemArgs).freelist = some init ∧
    start = { initial limits π ports with
      procs := ((initial limits π ports).procs.created system none none 0
        systemArgs).created init none (some task) argl initArgs
      files := (FileTable.zero limits).initializeFiles }.startThread init
        (some task) argl args ptcb

theorem booted_of_boot
    {ports : Nat}
    {task : Task}
    {argl : Int}
    {args : Nat}
    {memory : Nat → UInt8}
    {ptcb : π}
    {start : OldKernel limits π}
    (ran : boot limits ports task argl args memory ptcb = .ok start) :
    Booted start := by
  obtain ⟨⟨scheduler, kernel⟩, first, checked⟩ := exists_of_bind_eq_ok ran
  simp only at checked
  split_ifs at checked with isScheduler
  obtain ⟨⟨init, after⟩, second, isInit⟩ := exists_of_bind_eq_ok checked
  simp only at isInit
  split_ifs at isInit with isOne
  cases isInit
  obtain ⟨system, systemArgs, isSystem, firstFree, rfl⟩ :=
    sysExec_empty first (not_not.mp isScheduler)
  obtain ⟨init, initArgs, isInit, secondFree, rfl⟩ :=
    sysExec_task second (not_not.mp isOne)
  exact ⟨ports, task, argl, args, ptcb, system, init, systemArgs, initArgs,
    isSystem, isInit, firstFree, secondFree, rfl⟩

end OldKernel

namespace ProcTable

/-- The table with the first two processes. -/
theorem Fresh.booted
    {table : ProcTable limits}
    {system init : Fin limits.maxProc}
    {systemArgs : List UInt8}
    (fresh : table.Fresh)
    (isSystem : system.val = 0)
    (isInit : init.val = 1)
    (firstFree : table.freelist = some system)
    (secondFree : (table.created system none none 0 systemArgs).freelist =
      some init)
    (task : Task)
    (argl : Int)
    (initArgs : List UInt8) :
    ((table.created system none none 0 systemArgs).created init none (some task)
      argl initArgs).Sound (fun _ => 0) ∧
    ∀ pid, ((table.created system none none 0 systemArgs).created init none
      (some task) argl initArgs).pstate pid = .alive →
        pid = system ∨ pid = init := by
  obtain ⟨children, frees, tree⟩ : ∃ children frees,
      (table.created system (newParent system none) none 0 systemArgs).Tree
        children (fun _ => []) frees :=
    fresh.tree.created firstFree none 0 systemArgs fun high => by omega
  rw [OldKernel.newParent_none] at tree
  obtain ⟨children, frees, tree⟩ : ∃ children frees,
      ((table.created system none none 0 systemArgs).created init
        (newParent init none) (some task) argl initArgs).Tree children
          (fun _ => []) frees :=
    tree.created secondFree (some task) argl initArgs fun high => by omega
  rw [OldKernel.newParent_none] at tree
  have pstate : ((table.created system none none 0 systemArgs).created init none
      (some task) argl initArgs).pstate = Function.update (Function.update
        table.pstate system .alive) init .alive := by
    rw [created_pstate, created_pstate]
  have zero : table.Counts fun _ => 0 := ⟨fresh.count, by simp⟩
  have counts := (zero.created system none none 0 systemArgs).created init none
    (some task) argl initArgs
  refine ⟨⟨counts, ⟨children, _, frees, tree⟩, ?_, ?_⟩, ?_⟩
  · intro pid isZero
    obtain rfl : pid = system := Fin.ext (isZero.trans isSystem.symm)
    rw [pstate, Function.update_apply]
    simp
  · intro pid isOne
    obtain rfl : pid = init := Fin.ext (isOne.trans isInit.symm)
    rw [pstate, Function.update_self]
    simp
  · intro pid isAlive
    rw [pstate, Function.update_apply, Function.update_apply] at isAlive
    split_ifs at isAlive with isOne isZero
    · exact .inr isOne
    · exact .inl isZero
    · rw [fresh.unused] at isAlive
      cases isAlive

end ProcTable

namespace OldKernel

variable [DecidableEq π]

/-- The first processes and their thread. -/
theorem Booted.living
    {start : OldKernel limits π}
    (booted : Booted start) :
    Living start.procs start.threads := by
  obtain ⟨ports, task, argl, args, ptcb, system, init, systemArgs, initArgs,
    isSystem, isInit, firstFree, secondFree, rfl⟩ := booted
  have fresh : (initial limits π ports).procs.Fresh :=
    ProcTable.initializeProcesses_fresh
  obtain ⟨sound, only⟩ := fresh.booted isSystem isInit firstFree secondFree task
    argl initArgs
  have one : running [OldThread.mk init ptcb .own] =
      Function.update (fun _ => 0) init 1 := by
    funext pid
    by_cases same : pid = init
    · subst same
      simp [running, OldThread.runsIn, OldCall.isExited]
    · simp [running, OldThread.runsIn, same, Ne.symm same]
  have initAlive : (((initial limits π ports).procs.created system none none 0
      systemArgs).created init none (some task) argl initArgs).pstate init =
        .alive := by
    rw [ProcTable.created_pstate, Function.update_self]
  show Living (ProcTable.enter _ init) [OldThread.mk init ptcb .own]
  constructor
  case sound =>
    rw [one]
    exact sound.enter initAlive
  case runs =>
    rw [one]
    intro pid isAlive hasTask
    rw [(ProcTable.sameTree_enter _ init).pstate] at isAlive
    rcases only pid isAlive with rfl | rfl
    · have different : pid ≠ init := by
        rintro rfl
        omega
      simp [ProcTable.enter, ProcTable.modifyPcb, ProcTable.created, different]
        at hasTask
    · simp
  case owner =>
    intro thread member
    obtain rfl := List.mem_singleton.mp member
    show init.val ≠ 0
    omega
  case waits =>
    intro thread member child waiting
    obtain rfl := List.mem_singleton.mp member
    cases waiting
  case exiting =>
    intro thread member exitval isExiting
    obtain rfl := List.mem_singleton.mp member
    cases isExiting

/-! ## Runs -/

/-- Every step that leaves nobody waiting for a reaped process keeps the tables. -/
theorem Living.step
    {before after : OldKernel limits π}
    {action : OldAction π}
    (living : Living before.procs before.threads)
    (enabled : before.Enabled action)
    (stepped : before.step action = .ok after)
    (noneStranded : after.NoneStranded) :
    Living after.procs after.threads := by
  obtain ⟨thread, isThread, takes, notExited⟩ := exists_thread enabled
  have turn := procTurn_of_step isThread takes stepped
    (living.exiting thread (List.mem_of_getElem? isThread))
  exact living.turn isThread notExited turn noneStranded

/-- What holds when the scheduler starts and is kept by every step holds in the
states of all runs. -/
theorem Occurs.invariant
    {motive : OldKernel limits π → Prop}
    {kernel : OldKernel limits π}
    (occurs : Occurs kernel)
    (booted : ∀ {start}, Booted start → motive start)
    (preserved : ∀ {before action after}, motive before →
      before.Enabled action → before.step action = .ok after →
        motive after) :
    motive kernel := by
  obtain ⟨ports, task, argl, args, memory, ptcb, start, ran, reachable⟩ :=
    occurs
  exact reachable.invariant (booted (booted_of_boot ran)) preserved

/-- What holds when the scheduler starts and is kept by every step that keeps the
process table sound holds in every reached state. -/
theorem Reached.invariant
    {motive : OldKernel limits π → Prop}
    {kernel : OldKernel limits π}
    (reached : Reached kernel)
    (booted : ∀ {start}, Booted start → motive start)
    (preserved : ∀ {before action after},
      Living before.procs before.threads → motive before →
        before.Enabled action → before.step action = .ok after →
          Living after.procs after.threads → motive after) :
    Living kernel.procs kernel.threads ∧ motive kernel := by
  obtain ⟨ports, task, argl, args, memory, ptcb, start, ran, reachable⟩ :=
    reached
  have begins := booted_of_boot ran
  refine reachable.invariant
    (motive := fun kernel => Living kernel.procs kernel.threads ∧ motive kernel)
    ⟨begins.living, booted begins⟩ ?_
  rintro before after action ⟨living, holds⟩ ⟨enabled, noneStranded⟩ stepped
  have livingAfter := living.step enabled stepped (noneStranded after stepped)
  exact ⟨livingAfter, preserved living holds enabled stepped livingAfter⟩

/-- A run whose last state passes a test exhibits a reached state. -/
theorem exists_reached_of_any
    {test : OldKernel limits π → Bool}
    (memory : Nat → UInt8)
    (ptcb : π)
    (actions : List (OldAction π))
    (ran : (runBooted (boot limits 1 0 0 0 memory ptcb) id step Allowed
      actions).any test = true) :
    ∃ kernel : OldKernel limits π, Reached kernel ∧ test kernel = true := by
  obtain ⟨start, kernel, booted, reachable, passed⟩ :=
    exists_reachable_of_booted actions ran
  exact ⟨kernel, ⟨1, 0, 0, 0, memory, ptcb, start, booted, reachable⟩, passed⟩

/-- The threads are counted in all runs. -/
theorem Occurs.staffed
    {kernel : OldKernel limits π}
    (occurs : Occurs kernel) :
    Staffed kernel.procs kernel.threads := by
  refine occurs.invariant
    (motive := fun kernel => Staffed kernel.procs kernel.threads)
    (fun booted => booted.living.staffed) ?_
  intro before action after staffed enabled stepped
  obtain ⟨thread, isThread, takes, notExited⟩ := exists_thread enabled
  exact staffed.turn isThread notExited (procTurn_of_step isThread takes stepped
    (staffed.exiting thread (List.mem_of_getElem? isThread)))

theorem Reached.living
    {kernel : OldKernel limits π}
    (reached : Reached kernel) :
    Living kernel.procs kernel.threads :=
  (reached.invariant (motive := fun _ => True) (fun _ => trivial)
    fun _ _ _ _ _ => trivial).1

end OldKernel
end TinierOS
