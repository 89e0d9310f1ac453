import TinierOS.System.Steps

/-!
# The argument of a process

`sys_Exec` copies the argument into the row of `proc_args` that belongs to the
new pid, but at most `MAX_ARG_SIZE` bytes of it, while the task is told the full
length.
-/

namespace TinierOS

variable {limits : Limits}

namespace Kernel

/-! ## Bytes -/

/-- The byte at `args + offset`: the rows of `proc_args` follow each other. -/
def argByteAt
    (kernel : Kernel limits)
    (memory : Nat → UInt8)
    (args : ArgPtr limits)
    (offset : Nat) : UInt8 :=
  match args with
  | .null => 0
  | .row pid =>
      let index := pid.val * maxArgSize + offset
      if inside : index / maxArgSize < limits.maxProc then
        kernel.procArgs ⟨index / maxArgSize, inside⟩
          ⟨index % maxArgSize, Nat.mod_lt _ (by decide)⟩
      else 0
  | .user address => memory (address + offset)

/-- The byte at `args + offset`, if that address is in the row of `pid`. -/
def rowByte
    (kernel : Kernel limits)
    (pid : Fin limits.maxProc)
    (args : ArgPtr limits)
    (offset : Nat) : Option UInt8 :=
  match args with
  | .row owner =>
      if inside : owner = pid ∧ offset < maxArgSize then
        some (kernel.procArgs pid ⟨offset, inside.2⟩)
      else none
  | _ => none

/-- Inside one row this is what `sys_Exec` copies. -/
theorem argByteAt_of_lt
    (kernel : Kernel limits)
    (memory : Nat → UInt8)
    (args : ArgPtr limits)
    (offset : Fin maxArgSize) :
    kernel.argByteAt memory args offset = kernel.argByte memory args offset := by
  cases args with
  | null => rfl
  | row pid =>
      have small := offset.isLt
      have row : (pid.val * maxArgSize + offset.val) / maxArgSize = pid.val := by
        simp only [maxArgSize] at small ⊢
        omega
      have column : (pid.val * maxArgSize + offset.val) % maxArgSize =
          offset.val := by
        simp only [maxArgSize] at small ⊢
        omega
      simp only [argByteAt, argByte, row, column]
      exact dif_pos pid.isLt
  | user address => rfl

theorem rowByte_of_ge
    {kernel : Kernel limits}
    {pid : Fin limits.maxProc}
    {args : ArgPtr limits}
    {offset : Nat}
    (outside : maxArgSize ≤ offset) :
    kernel.rowByte pid args offset = none := by
  cases args with
  | null => rfl
  | row owner => exact dif_neg fun inside => absurd inside.2 (by omega)
  | user address => rfl

/-! ## What `sys_Exec` promises -/

/-- The thread in a slot runs `start_main_thread` for a process. -/
structure IsMainThread
    (kernel : Kernel limits)
    (slot : Fin limits.maxThreads)
    (pid : Fin limits.maxProc) : Prop where
  used : kernel.threadUsed slot = true
  func : kernel.threadFunc slot = some .startMainThread
  owner : kernel.owner slot = some pid

/-- In a later state the main thread makes the call that `sys_Exec` was asked
for: the length is the one given to it, and that many bytes lie in the row of
the process and are those the caller had. -/
structure PrivateCopy
    (before : Kernel limits)
    (call : Option Task)
    (argl : Int)
    (args : ArgPtr limits)
    (memory : Nat → UInt8)
    (pid : Fin limits.maxProc)
    (later : Kernel limits) : Prop where
  starts : ∀ slot, later.IsMainThread slot pid →
    later.startedCall slot =
      some ⟨call, (later.pcb pid).argl, (later.pcb pid).args⟩
  argl : (later.pcb pid).argl = argl
  bytes : ∀ offset : Nat, (offset : Int) < (later.pcb pid).argl →
    later.rowByte pid (later.pcb pid).args offset =
      some (before.argByteAt memory args offset)

/-- The task and the argument of a process are as before. -/
structure SameArgument
    (before after : Kernel limits)
    (pid : Fin limits.maxProc) : Prop where
  mainTask : (after.pcb pid).mainTask = (before.pcb pid).mainTask
  argl : (after.pcb pid).argl = (before.pcb pid).argl
  args : (after.pcb pid).args = (before.pcb pid).args
  row : after.procArgs pid = before.procArgs pid

namespace SameArgument

variable {pid : Fin limits.maxProc}

theorem trans
    {first second third : Kernel limits}
    (before : SameArgument first second pid)
    (after : SameArgument second third pid) :
    SameArgument first third pid where
  mainTask := after.mainTask.trans before.mainTask
  argl := after.argl.trans before.argl
  args := after.args.trans before.args
  row := after.row.trans before.row

theorem of_eq
    {before after : Kernel limits}
    (pcb : after.pcb pid = before.pcb pid)
    (row : after.procArgs pid = before.procArgs pid) :
    SameArgument before after pid :=
  ⟨by rw [pcb], by rw [pcb], by rw [pcb], row⟩

/-- Assigning to other fields of one PCB. -/
theorem of_update
    {before after : Kernel limits}
    {proc : Fin limits.maxProc}
    {block : PCB limits}
    (pcb : after.pcb = Function.update before.pcb proc block)
    (mainTask : block.mainTask = (before.pcb proc).mainTask)
    (argl : block.argl = (before.pcb proc).argl)
    (args : block.args = (before.pcb proc).args)
    (row : after.procArgs pid = before.procArgs pid) :
    SameArgument before after pid := by
  by_cases same : pid = proc
  · subst same
    refine ⟨?_, ?_, ?_, row⟩
    · rw [pcb, Function.update_self, mainTask]
    · rw [pcb, Function.update_self, argl]
    · rw [pcb, Function.update_self, args]
  · exact of_eq (by rw [pcb, Function.update_of_ne same]) row

theorem of_mainThread
    (kernel : Kernel limits)
    (proc : Fin limits.maxProc)
    (slot : Option (Fin limits.maxThreads)) :
    SameArgument kernel
      (kernel.modifyPcb proc fun block => { block with mainThread := slot })
      pid :=
  of_update rfl rfl rfl rfl rfl

/-- `sys_Exec` writes only into the slot it takes. -/
theorem of_prepared
    {kernel : Kernel limits}
    {newproc : Fin limits.maxProc}
    (different : pid ≠ newproc)
    (call : Option Task)
    (argl : Int)
    (args : ArgPtr limits)
    (memory : Nat → UInt8) :
    SameArgument kernel (kernel.prepared newproc call argl args memory) pid := by
  refine of_eq ?_ ?_
  · rw [prepared_pcb, Function.update_of_ne different]
  · rw [prepared_procArgs]
    split_ifs
    · exact Function.update_of_ne different ..
    · rfl

theorem of_threadStarted
    {before after : Kernel limits}
    {slot : Fin limits.maxThreads}
    {proc : Fin limits.maxProc}
    {func : ThreadFunc}
    {task : Option Task}
    {argl : Int}
    {args : ArgPtr limits}
    (started : ThreadStarted before after slot proc task argl args)
    (frame : StartFrame before after slot func) :
    SameArgument before after pid :=
  of_update started.pcb rfl rfl rfl (by rw [frame.procArgs])

theorem of_createOutcome
    {before after : Kernel limits}
    {proc : Fin limits.maxProc}
    {task : Option Task}
    {argl : Int}
    {args : ArgPtr limits}
    {tid : Option (Fin limits.maxThreads)}
    (outcome : CreateOutcome before proc task argl args tid after) :
    SameArgument before after pid := by
  cases outcome with
  | refused reason => exact of_eq rfl rfl
  | started slot isTask started frame => exact of_threadStarted started frame

theorem of_execOutcome
    {before after : Kernel limits}
    {call : Option Task}
    {argl : Int}
    {args : ArgPtr limits}
    {memory : Nat → UInt8}
    {result : Option (Fin limits.maxProc)}
    (outcome : ExecOutcome before call argl args memory result after)
    (occupied : before.pstate pid ≠ .free) :
    SameArgument before after pid := by
  have taken : ∀ {newproc}, before.freePcb = some newproc → pid ≠ newproc := by
    rintro newproc free rfl
    exact occupied (by simpa [pstate] using firstIndex_test free)
  cases outcome with
  | full noPcb => exact of_eq rfl rfl
  | threadless newproc free noCall =>
      exact of_prepared (taken free) call argl args memory
  | failed newproc free isCall noSlot =>
      exact (of_prepared (taken free) call argl args memory).trans
        ((of_mainThread _ newproc none).trans (of_update rfl rfl rfl rfl rfl))
  | started newproc slot free isCall started frame =>
      exact (of_prepared (taken free) call argl args memory).trans
        ((of_mainThread _ newproc slot).trans (of_threadStarted started frame))

end SameArgument

/-- The task and the argument that `sys_Exec` has written for a new process with
a thread. -/
theorem ExecOutcome.argument
    {before after : Kernel limits}
    {call : Option Task}
    {argl : Int}
    {args : ArgPtr limits}
    {memory : Nat → UInt8}
    {pid : Fin limits.maxProc}
    (outcome : ExecOutcome before call argl args memory (some pid) after)
    (isCall : call ≠ none)
    (positive : 1 ≤ argl)
    (notNull : args ≠ .null) :
    (∃ slot, (after.pcb pid).mainThread = some slot ∧
        after.IsMainThread slot pid) ∧
      after.pstate pid = .alive ∧
      (after.pcb pid).mainTask = call ∧ (after.pcb pid).argl = argl ∧
      (after.pcb pid).args = .row pid ∧
      ∀ offset : Fin maxArgSize, (offset : Int) < argl →
        after.procArgs pid offset = before.argByte memory args offset := by
  have copied : 0 < argl ∧ args ≠ .null := ⟨by omega, notNull⟩
  cases outcome with
  | threadless newproc free noCall => exact absurd noCall isCall
  | started newproc slot free isCall started frame =>
      have block := started.pcb
      rw [modifyPcb_of_pcb (prepared_pcb ..), Function.update_idem,
        Function.update_self] at block
      have rows := frame.procArgs
      have prepared := before.prepared_procArgs pid call argl args memory
      rw [if_pos copied] at prepared
      refine ⟨⟨slot, ?_, ?_, ?_, ?_⟩, ?_, ?_, ?_, ?_, ?_⟩
      · rw [block, Function.update_self]
      · rw [started.thread.used, Function.update_self]
      · rw [frame.threadFunc, Function.update_self]
      · rw [started.thread.owner, Function.update_self]
      · rw [pstate, block, Function.update_self]
      · rw [block, Function.update_self]
      · rw [block, Function.update_self]
      · rw [block, Function.update_self, if_pos copied]
      · intro offset inside
        have row : after.procArgs pid =
            (before.prepared pid call argl args memory).procArgs pid :=
          congrFun rows pid
        rw [row, prepared, Function.update_self, if_pos inside]

end Kernel

namespace System

open Kernel

variable {before after : System limits}
variable {action : Action limits}

/-- No step changes the task or the argument of a process whose slot is
taken. -/
theorem Performs.sameArgument
    {pid : Fin limits.maxProc}
    (performs : Performs before action after)
    (sound : before.Sound)
    (occupied : before.kernel.pstate pid ≠ .free) :
    SameArgument before.kernel after.kernel pid := by
  have streams : ((∃ major minor result, before.kernel.openStream major minor =
        .ok (result, after.kernel)) ∨
      ∃ fd result, before.kernel.sysClose fd = .ok (result, after.kernel)) →
      SameArgument before.kernel after.kernel pid := by
    intro call
    obtain ⟨FIDT, fcb, freelist, kernel⟩ := streams_withFiles call
    rw [kernel]
    exact ⟨rfl, rfl, rfl, rfl⟩
  cases performs with
  | passes sched plain kernel owners used reply =>
      rw [kernel]
      exact .of_eq rfl rfl
  | joined slot ptcb exitval plain isCurrent loop exited kernel reply =>
      rw [kernel]
      exact .of_eq rfl rfl
  | reaped child status plain kernel reply =>
      rw [kernel]
      exact .of_update rfl rfl rfl rfl rfl
  | executed result executed reply =>
      exact .of_execOutcome (sysExec_outcome sound.resting executed) occupied
  | @exited exitval clock after slot proc sched isCurrent owned kernel owners
      used reply =>
      have marked : SameArgument before.kernel
          (before.kernel.markExit proc exitval) pid :=
        .of_update rfl rfl rfl rfl rfl
      rw [kernel]
      exact marked.trans (.of_update rfl rfl rfl rfl rfl)
  | threadExited slot proc sched isCurrent owned kernel owners used reply =>
      rw [kernel]
      exact .of_update rfl rfl rfl rfl rfl
  | created slot tid isCurrent created reply =>
      obtain ⟨proc, owned⟩ := sound.owned slot (sound.current_used isCurrent)
      exact .of_createOutcome (sysCreateThread_outcome sound.resting
        (currentSlot_eq_some.mp isCurrent) owned created)
  | detached kernel reply =>
      rw [kernel]
      unfold sysThreadDetach
      split <;> exact .of_eq rfl rfl
  | opened fid opens opened reply =>
      exact streams (.inl ⟨_, _, _, opened⟩)
  | closed result closed reply => exact streams (.inr ⟨_, _, closed⟩)

/-- An `Exec` is a call of `sys_Exec`. -/
theorem Performs.of_exec
    {call : Option Task}
    {argl : Int}
    {args : ArgPtr limits}
    {memory : Nat → UInt8}
    (performs : Performs before (.exec call argl args memory) after) :
    ∃ pid, before.kernel.sysExec call argl args memory =
        .ok (pid, after.kernel) ∧ after.reply = .exec pid := by
  cases performs with
  | passes sched plain kernel owners used reply => cases plain
  | joined slot ptcb exitval plain isCurrent loop exited kernel reply =>
      cases plain
  | reaped child status plain kernel reply => cases plain
  | executed pid executed reply => exact ⟨pid, executed, reply⟩
  | opened fid opens opened reply => cases opens

/-! ## While the process is alive -/

/-- The states after `Exec` up to which the process has been alive all the
time. -/
structure AliveSince
    (after : System limits)
    (pid : Fin limits.maxProc)
    (later : System limits) : Prop where
  continues : Reachable System.step
    (fun system action =>
      system.Enabled action ∧ system.kernel.pstate pid = .alive) after later
  alive : later.kernel.pstate pid = .alive

/-- `Exec` hands its task a faithful private copy of the argument: a main thread
is there, and until the process ends it finds the copy. -/
structure ExecsPrivately
    (before after : System limits)
    (call : Option Task)
    (argl : Int)
    (args : ArgPtr limits)
    (memory : Nat → UInt8)
    (pid : Fin limits.maxProc) : Prop where
  main : ∃ slot, (after.kernel.pcb pid).mainThread = some slot ∧
    after.kernel.IsMainThread slot pid
  copy : ∀ later, AliveSince after pid later →
    PrivateCopy before.kernel call argl args memory pid later.kernel

/-- While the process is alive its task and its argument stay as they are. -/
theorem AliveSince.sameArgument
    {later : System limits}
    {pid : Fin limits.maxProc}
    (since : AliveSince after pid later)
    (sound : after.Sound) :
    SameArgument after.kernel later.kernel pid := by
  refine (since.continues.invariant
    (motive := fun later =>
      later.Sound ∧ SameArgument after.kernel later.kernel pid)
    ⟨sound, .of_eq rfl rfl⟩ ?_).2
  rintro first second action ⟨firstSound, same⟩ ⟨enabled, isAlive⟩ stepped
  have occupied : first.kernel.pstate pid ≠ .free := by
    rw [isAlive]
    decide
  refine ⟨(firstSound.step enabled stepped).1, same.trans ?_⟩
  exact (firstSound.performs enabled stepped).sameArgument firstSound occupied

/-- What the task is told to read has to fit into its row. -/
theorem ExecsPrivately.fits
    {call : Option Task}
    {argl : Int}
    {args : ArgPtr limits}
    {memory : Nat → UInt8}
    {pid : Fin limits.maxProc}
    (privately : ExecsPrivately before after call argl args memory pid)
    (isAlive : after.kernel.pstate pid = .alive) :
    argl ≤ maxArgSize := by
  by_contra tooLong
  have copy := privately.copy after ⟨.refl, isAlive⟩
  have outside := copy.bytes maxArgSize (by rw [copy.argl]; omega)
  rw [rowByte_of_ge (le_refl _)] at outside
  cases outside

/-- Every successful `Exec` of a task with an argument hands over a faithful
private copy if and only if the argument is not longer than a row. -/
theorem exec_private_copy
    {call : Option Task}
    {argl : Int}
    {args : ArgPtr limits}
    {memory : Nat → UInt8}
    {pid : Fin limits.maxProc}
    (reached : Reached (fun _ _ => True) before)
    (enabled : before.Enabled (.exec call argl args memory))
    (stepped : before.step (.exec call argl args memory) = .ok after)
    (succeeds : after.reply = .exec (some pid))
    (isCall : call ≠ none)
    (positive : 1 ≤ argl)
    (notNull : args ≠ .null) :
    ExecsPrivately before after call argl args memory pid ↔
      argl ≤ maxArgSize := by
  have sound := reached.sound
  obtain ⟨soundAfter, -⟩ := sound.step enabled stepped
  obtain ⟨result, executed, reply⟩ :=
    (sound.performs enabled stepped).of_exec
  rw [succeeds] at reply
  cases reply
  obtain ⟨main, isAlive, mainTask, argl', args', bytes⟩ :=
    (sysExec_outcome sound.resting executed).argument isCall positive notNull
  constructor
  · intro privately
    exact privately.fits isAlive
  · intro fits
    refine ⟨main, fun later since => ?_⟩
    have same := since.sameArgument soundAfter
    have laterArgs := same.args.trans args'
    refine ⟨?_, same.argl.trans argl', ?_⟩
    · intro slot isMain
      have func : (later.kernel.sched.tcb (.slot slot)).threadFunc =
          some .startMainThread := isMain.func
      have owner : (later.kernel.sched.tcb (.slot slot)).ownerPcb =
          some pid := isMain.owner
      simp only [startedCall, func, owner, same.mainTask.trans mainTask]
    · intro offset inside
      rw [same.argl.trans argl'] at inside
      have small : offset < maxArgSize := by omega
      rw [laterArgs]
      have row : later.kernel.rowByte pid (.row pid) offset =
          some (later.kernel.procArgs pid ⟨offset, small⟩) :=
        dif_pos ⟨rfl, small⟩
      rw [row, same.row, bytes ⟨offset, small⟩ inside]
      exact congrArg some (argByteAt_of_lt _ _ _ ⟨offset, small⟩).symm

/-- A reached state in which `Exec` can be called, and what it then returns. -/
theorem exists_exec_of_any
    {call : Option Task}
    {argl : Int}
    {args : ArgPtr limits}
    {memory : Nat → UInt8}
    {pid : Fin limits.maxProc}
    {test : System limits → Bool}
    (actions : List (Action limits))
    (ran : (System.run (fun _ _ => True) actions).any (fun before =>
      decide (before.Enabled (.exec call argl args memory)) &&
        (before.step (.exec call argl args memory)).toOption.any
          fun after => decide (after.reply = .exec (some pid)) &&
            test after) = true) :
    ∃ before after : System limits, Reached (fun _ _ => True) before ∧
      before.Enabled (.exec call argl args memory) ∧
      before.step (.exec call argl args memory) = .ok after ∧
      after.reply = .exec (some pid) ∧ test after = true := by
  obtain ⟨before, reached, passed⟩ := exists_reached_of_any actions ran
  obtain ⟨enabled, executes⟩ := Bool.and_eq_true_iff.mp passed
  obtain ⟨after, stepped, result⟩ := exists_of_toOption_any executes
  obtain ⟨succeeds, tested⟩ := Bool.and_eq_true_iff.mp result
  exact ⟨before, after, reached, of_decide_eq_true enabled, stepped,
    of_decide_eq_true succeeds, tested⟩

/-- The first process starts a second one with an argument of four bytes. -/
theorem exec_private_copy_four_bytes :
    ∃ before after : System ⟨3, 2, 1, 1⟩,
      (Reached (fun _ _ => True) before ∧
        before.Enabled (.exec (some 1) 4 (.user 100) Nat.toUInt8) ∧
        before.step (.exec (some 1) 4 (.user 100) Nat.toUInt8) = .ok after ∧
        after.reply = .exec (some 2)) ∧
      (ExecsPrivately before after (some 1) 4 (.user 100) Nat.toUInt8 2 ↔
        4 ≤ (maxArgSize : Int)) := by
  have ran : ∃ before after : System ⟨3, 2, 1, 1⟩,
      Reached (fun _ _ => True) before ∧
      before.Enabled (.exec (some 1) 4 (.user 100) Nat.toUInt8) ∧
      before.step (.exec (some 1) 4 (.user 100) Nat.toUInt8) = .ok after ∧
      after.reply = .exec (some 2) ∧ true = true :=
    exists_exec_of_any [.idle .zero, .start] (by decide +kernel)
  obtain ⟨before, after, reached, enabled, stepped, succeeds, -⟩ := ran
  exact ⟨before, after, ⟨reached, enabled, stepped, succeeds⟩,
    exec_private_copy reached enabled stepped succeeds (by decide)
      (by decide) (by decide)⟩

/-- With 33 bytes the task is told to read one byte past its row. -/
theorem exec_argument_past_row :
    ∃ before after : System ⟨3, 2, 1, 1⟩,
      Reached (fun _ _ => True) before ∧
      before.Enabled (.exec (some 1) 33 (.user 100) Nat.toUInt8) ∧
      before.step (.exec (some 1) 33 (.user 100) Nat.toUInt8) = .ok after ∧
      after.reply = .exec (some 2) ∧
      after.kernel.startedCall 1 = some ⟨some 1, 33, .row 2⟩ ∧
      after.kernel.rowByte 2 (.row 2) 32 = none ∧
      ¬ExecsPrivately before after (some 1) 33 (.user 100) Nat.toUInt8 2 := by
  have ran : ∃ before after : System ⟨3, 2, 1, 1⟩,
      Reached (fun _ _ => True) before ∧
      before.Enabled (.exec (some 1) 33 (.user 100) Nat.toUInt8) ∧
      before.step (.exec (some 1) 33 (.user 100) Nat.toUInt8) = .ok after ∧
      after.reply = .exec (some 2) ∧
      decide (after.kernel.startedCall 1 = some ⟨some 1, 33, .row 2⟩ ∧
        after.kernel.pstate 2 = .alive) = true :=
    exists_exec_of_any [.idle .zero, .start] (by decide +kernel)
  obtain ⟨before, after, reached, enabled, stepped, succeeds, test⟩ := ran
  obtain ⟨starts, isAlive⟩ := of_decide_eq_true test
  refine ⟨before, after, reached, enabled, stepped, succeeds, starts,
    rowByte_of_ge (le_refl _), fun privately => ?_⟩
  have fits := privately.fits isAlive
  exact absurd fits (by decide)

end System
end TinierOS
