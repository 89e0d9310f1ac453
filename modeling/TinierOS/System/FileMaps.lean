import TinierOS.System.Files
import TinierOS.System.Steps
import TinierOS.Streams.FileMap

/-!
# The streams of one process

The running system with the calls of `Read` and `Write`, which may be suspended
in the loop of the serial device while other threads open and close files.
Without `Exec` only one process has threads, and its streams behave like one
partial map from file ids to devices.
-/

namespace TinierOS

variable {limits : Limits}

/-- What the last step returned: the reply of a system call, or the result of
`Read` or `Write` and the buffer it leaves. -/
inductive StreamReply (limits : Limits)
  | none
  | call (reply : Reply limits)
  | io (result : Int) (buf : Nat → UInt8)

/-- The steps of the system with reading and writing. -/
inductive StreamAction (limits : Limits)
  | call (action : Action limits)
  | read (fd : Int) (buf : Nat → UInt8) (size : Nat)
  | write (fd : Int) (buf : Nat → UInt8) (size : Nat)
  /-- One pass of the loop that the current thread is in. -/
  | poll (lines : SerialLines) (clock : Clock)

/-- The system and the transfer that each thread is in. -/
structure StreamSystem (limits : Limits) where
  system : System limits
  transfers : Fin limits.maxThreads → Option Transfer
  reply : StreamReply limits

/-- The steps by which a thread gives up the core without a call of its own. -/
def Action.isYield : Action limits → Bool
  | .yield _ _ => true
  | _ => false

namespace StreamSystem

/-- The transfer of the current thread. -/
def currentTransfer (streams : StreamSystem limits) : Option Transfer :=
  streams.system.currentSlot.bind streams.transfers

/-- A call of `Read` or `Write` that has looked up its device. -/
def dispatched
    (streams : StreamSystem limits)
    (slot : Fin limits.maxThreads) : Dispatch → StreamSystem limits
  | .returns result buf => { streams with reply := .io result buf }
  | .transfers transfer =>
      { streams with
        transfers := Function.update streams.transfers slot (some transfer)
        reply := .none }

/-- One pass of the loop of the serial device by `slot`. -/
def pollStep
    (streams : StreamSystem limits)
    (slot : Fin limits.maxThreads)
    (transfer : Transfer)
    (lines : SerialLines)
    (clock : Clock) : Except Fault (StreamSystem limits) :=
  match transfer.pass lines with
  | .finished => .ok { streams with
      transfers := Function.update streams.transfers slot none
      reply := .io (intOfUnsigned transfer.count) transfer.buf }
  | .moved moved => .ok { streams with
      transfers := Function.update streams.transfers slot (some moved)
      reply := .none }
  | .blocked => do
      let system ← streams.system.suspend slot .user .io clock
      return { streams with system := system, reply := .none }

/-- One step of the current thread. -/
def step
    (streams : StreamSystem limits) :
    StreamAction limits → Except Fault (StreamSystem limits)
  | .call action => do
      let system ← streams.system.step action
      return { streams with system := system, reply := .call system.reply }
  | .read fd buf size =>
      match streams.system.currentSlot with
      | none => .ok streams
      | some slot => do
          let dispatch ← streams.system.kernel.sysRead fd buf size
          return streams.dispatched slot dispatch
  | .write fd buf size =>
      match streams.system.currentSlot with
      | none => .ok streams
      | some slot => do
          let dispatch ← streams.system.kernel.sysWrite fd buf size
          return streams.dispatched slot dispatch
  | .poll lines clock =>
      match streams.system.currentSlot with
      | none => .ok streams
      | some slot =>
          match streams.transfers slot with
          | none => .ok streams
          | some transfer => streams.pollStep slot transfer lines clock

/-- A thread in a transfer goes on with it, or is preempted. -/
def Enabled (streams : StreamSystem limits) : StreamAction limits → Prop
  | .call action => streams.system.Enabled action ∧
      (streams.currentTransfer.isNone ∨ action.isYield)
  | .read _ _ _ | .write _ _ _ =>
      streams.system.currentControl = some .user ∧
        streams.currentTransfer.isNone
  | .poll _ _ => streams.currentTransfer.isSome

instance (streams : StreamSystem limits) (action : StreamAction limits) :
    Decidable (streams.Enabled action) :=
  match action with
  | .call _ | .read _ _ _ | .write _ _ _ => inferInstanceAs (Decidable (_ ∧ _))
  | .poll _ _ => inferInstanceAs (Decidable (_ = _))

/-- No process is created, and sizes are at most `INT_MAX`. -/
def OneProcess : StreamAction limits → Prop
  | .call (.exec _ _ _ _) => False
  | .call _ | .poll _ _ => True
  | .read _ _ size | .write _ _ size => size ≤ intMax

instance (action : StreamAction limits) : Decidable (OneProcess action) :=
  match action with
  | .call (.exec _ _ _ _) => inferInstanceAs (Decidable False)
  | .read _ _ size | .write _ _ size =>
      inferInstanceAs (Decidable (size ≤ intMax))
  | .poll _ _ => inferInstanceAs (Decidable True)
  | .call (.idle _) | .call .start | .call (.yield _ _) | .call (.wakeup _)
  | .call (.exit _ _) | .call (.waitChild _ _ _) | .call (.createThread _ _ _)
  | .call (.threadExit _ _) | .call (.threadJoin _ _ _)
  | .call (.threadDetach _) | .call .openNull | .call (.openTerminal _)
  | .call (.close _) | .call (.resume _) => inferInstanceAs (Decidable True)

end StreamSystem

/-! ## The abstract machine -/

/-- The same calls on a map from file ids to devices. -/
structure MapSystem (limits : Limits) where
  map : FileMap limits
  transfers : Fin limits.maxThreads → Option Transfer

namespace MapSystem

/-- No id is bound and no transfer is in progress. -/
def start (limits : Limits) : MapSystem limits where
  map := fun _ => none
  transfers := fun _ => none

/-- A call of `Read` or `Write`, and what it returns if it does. -/
def dispatched
    (files : MapSystem limits)
    (slot : Fin limits.maxThreads) :
    Dispatch → MapSystem limits × Option (StreamReply limits)
  | .returns result buf => (files, some (.io result buf))
  | .transfers transfer =>
      ({ files with
        transfers := Function.update files.transfers slot (some transfer) },
        some .none)

/-- One pass of the loop of the serial device. -/
def pollStep
    (files : MapSystem limits)
    (slot : Fin limits.maxThreads)
    (transfer : Transfer)
    (lines : SerialLines) :
    MapSystem limits × Option (StreamReply limits) :=
  match transfer.pass lines with
  | .finished => ({ files with
      transfers := Function.update files.transfers slot none },
      some (.io (intOfUnsigned transfer.count) transfer.buf))
  | .moved moved => ({ files with
      transfers := Function.update files.transfers slot (some moved) },
      some .none)
  | .blocked => (files, some .none)

/-- A step of `slot`: what becomes of the map, and the reply of every call that
concerns files. -/
def step
    (files : MapSystem limits)
    (slot : Fin limits.maxThreads) :
    StreamAction limits → MapSystem limits × Option (StreamReply limits)
  | .call .openNull =>
      let opened := files.map.openDevice (Device.find .null 0)
      ({ files with map := opened.2 }, some (.call (.openStream opened.1)))
  | .call (.openTerminal termno) =>
      let opened := files.map.openDevice (Device.find .serial termno)
      ({ files with map := opened.2 }, some (.call (.openStream opened.1)))
  | .call (.close fd) =>
      ({ files with map := files.map.closeFid fd }, some (.call (.close 0)))
  | .call _ => (files, none)
  | .read fd buf size => files.dispatched slot
      (Dispatch.of false buf size (files.map.deviceAt fd))
  | .write fd buf size => files.dispatched slot
      (Dispatch.of true buf size (files.map.deviceAt fd))
  | .poll lines _ =>
      match files.transfers slot with
      | none => (files, none)
      | some transfer => files.pollStep slot transfer lines

/-- The map after a step of the current thread; the idle thread has no files. -/
def after
    (files : MapSystem limits)
    (streams : StreamSystem limits)
    (action : StreamAction limits) : MapSystem limits :=
  match streams.system.currentSlot with
  | none => files
  | some slot => (files.step slot action).1

end MapSystem

namespace StreamSystem

/-- The system when the scheduler starts. -/
def start (system : System limits) : StreamSystem limits where
  system := system
  transfers := fun _ => none
  reply := .none

/-- One step of the system and of the map beside it. -/
def stepBoth
    (both : StreamSystem limits × MapSystem limits)
    (action : StreamAction limits) :
    Except Fault (StreamSystem limits × MapSystem limits) :=
  (both.1.step action).map fun after => (after, both.2.after both.1 action)

/-- The states of all runs of the system beside those of the map. -/
def Reached
    (streams : StreamSystem limits)
    (files : MapSystem limits) : Prop :=
  ∃ system, System.boot limits = .ok system ∧
    Reachable stepBoth
      (fun both action => both.1.Enabled action ∧ OneProcess action)
      (start system, MapSystem.start limits) (streams, files)

/-! ## Threads of one process -/

open TinierOS.System TinierOS.Kernel

/-- All threads belong to the same process. -/
def SameOwner (system : System limits) : Prop :=
  ∀ first second, system.kernel.threadUsed first = true →
    system.kernel.threadUsed second = true →
      system.kernel.owner first = system.kernel.owner second

/-- Without `Exec` every thread has the process of a thread that was there
before. -/
theorem owner_before
    {before after : System limits}
    {action : Action limits}
    {slot : Fin limits.maxThreads}
    (sound : before.Sound)
    (notExec : OneProcess (.call action))
    (effect : Effect before action after)
    (usedSlot : after.kernel.threadUsed slot = true) :
    ∃ other, before.kernel.threadUsed other = true ∧
      after.kernel.owner slot = before.kernel.owner other := by
  have ofSame : SameThreads before.kernel after.kernel →
      ∃ other, before.kernel.threadUsed other = true ∧
        after.kernel.owner slot = before.kernel.owner other := by
    intro same
    exact ⟨slot, same.used ▸ usedSlot, by rw [same.owner]⟩
  have ofLeft : ∀ {leaver proc},
      ThreadLeft before.kernel after.kernel leaver proc →
      ∃ other, before.kernel.threadUsed other = true ∧
        after.kernel.owner slot = before.kernel.owner other := by
    intro leaver proc left
    refine ⟨slot, ?_, by rw [left.owner]⟩
    rw [left.used] at usedSlot
    by_cases isLeaver : slot = leaver
    · rw [isLeaver, Function.update_self] at usedSlot
      cases usedSlot
    · rwa [Function.update_of_ne isLeaver] at usedSlot
  cases effect with
  | stay notExit procs files threads ptcbs control reply => exact ofSame threads
  | executed caller newproc isCurrent proc files threads control reply =>
      exact notExec.elim
  | execFailed caller newproc isCurrent isCall noSlot proc files threads ptcbs
      control reply => exact notExec.elim
  | exited leaver proc isCurrent owned procs files threads ptcbs control
      reply => exact ofLeft threads
  | threadExited leaver proc isCurrent owned procs files threads ptcbs control
      reply => exact ofLeft threads
  | reaped reaper reaped status isCurrent reason procs files threads ptcbs
      control reply => exact ofSame threads
  | threadCreated caller new proc isCurrent owned procs files thread ptcbs
      control reply =>
      by_cases isNew : slot = new
      · refine ⟨caller, sound.current_used isCurrent, ?_⟩
        rw [isNew, thread.owner, Function.update_self, owned]
      · rw [thread.used, Function.update_of_ne isNew] at usedSlot
        exact ⟨slot, usedSlot, by rw [thread.owner, Function.update_of_ne isNew]⟩
  | streams caller notExit isCurrent call only control reply =>
      exact ofSame only.sameThreads

/-- The first process is the only one with a thread when the scheduler
starts. -/
theorem sameOwner_of_booted
    {start : System limits}
    (booted : start.Booted) :
    SameOwner start := by
  have unused := (initial_fresh : (initial limits).Fresh).unused
  obtain ⟨pid, kernel, effect, -, -, threads, -⟩ := booted.tables
  intro first second usedFirst usedSecond
  rw [threads.used] at usedFirst usedSecond
  cases effect with
  | full noPcb => simp [unused] at usedFirst
  | threadless newproc noCall proc files same ptcbs sched =>
      simp [same.used, unused] at usedFirst
  | failed newproc isCall noSlot proc files same ptcbs sched =>
      simp [same.used, unused] at usedFirst
  | started newproc slot isCall proc files thread ptcbs current =>
      have only : ∀ other, kernel.threadUsed other = true → other = slot := by
        intro other usedOther
        by_contra different
        rw [thread.used, Function.update_of_ne different, unused] at usedOther
        cases usedOther
      rw [only first usedFirst, only second usedSecond]

/-! ## The simulation -/

/-- The tables of the process that has threads hold the map. -/
def HoldsMap (system : System limits) (map : FileMap limits) : Prop :=
  ∃ table free, system.kernel.Mapped table map free ∧
    ∀ slot cur, system.kernel.threadUsed slot = true →
      system.kernel.owner slot = some cur → system.kernel.FIDT cur = table

/-- The relation between the system and the map. -/
structure Refines
    (streams : StreamSystem limits)
    (files : MapSystem limits) : Prop where
  sound : streams.system.Sound
  sameOwner : SameOwner streams.system
  holds : HoldsMap streams.system files.map
  transfers : streams.transfers = files.transfers
  fits : ∀ slot transfer, streams.transfers slot = some transfer →
    transfer.Fits

/-- `sys_ThreadExit` leaves the files open. -/
theorem sameFiles_of_threadExit
    {before marked : Kernel limits}
    (same : SameFiles before marked)
    (tcb : TcbPtr limits)
    (proc : Fin limits.maxProc)
    (exitval : Int)
    (sched : Sched limits) :
    SameFiles before
      { marked.markThreadExit tcb proc exitval with sched := sched } := by
  have pcb : (marked.markThreadExit tcb proc exitval).pcb =
      Function.update marked.pcb proc { marked.pcb proc with
        threadCount := (marked.pcb proc).threadCount - 1 } := rfl
  exact ⟨(same_column_of_pcb PCB.FIDT pcb rfl).trans same.FIDT, same.fcb,
    same.freelist⟩

/-- No file table changes in a step that makes no stream call. -/
theorem sameFiles_of_performs
    {before after : System limits}
    {action : Action limits}
    (sound : before.Sound)
    (notExec : OneProcess (.call action))
    (notOpen : action.opens = none)
    (notClose : ∀ fd, action ≠ .close fd)
    (performs : Performs before action after) :
    SameFiles before.kernel after.kernel := by
  cases performs with
  | passes sched plain kernel owners used reply =>
      rw [kernel]
      exact ⟨rfl, rfl, rfl⟩
  | joined slot ptcb exitval plain isCurrent loop exited kernel reply =>
      rw [kernel]
      exact ⟨rfl, rfl, rfl⟩
  | reaped child status plain kernel reply =>
      rw [kernel]
      exact (before.kernel.cleanupZombie_effect child).2.1
  | executed pid executed reply => exact notExec.elim
  | @exited exitval clock after slot proc sched isCurrent owned kernel owners
      used reply =>
      have pcb : (before.kernel.markExit proc exitval).pcb =
          Function.update before.kernel.pcb proc { before.kernel.pcb proc with
            exitval := exitval, pstate := .zombie } := rfl
      rw [kernel]
      exact sameFiles_of_threadExit
        ⟨same_column_of_pcb PCB.FIDT pcb rfl, rfl, rfl⟩ _ _ _ _
  | threadExited slot proc sched isCurrent owned kernel owners used reply =>
      rw [kernel]
      exact sameFiles_of_threadExit ⟨rfl, rfl, rfl⟩ _ _ _ _
  | @created task argl args after slot tid isCurrent created reply =>
      obtain ⟨proc, owned⟩ := sound.owned slot (sound.current_used isCurrent)
      rcases sysCreateThread_effect sound.resting
        (currentSlot_eq_some.mp isCurrent) owned task argl args with
        ⟨-, failed⟩ | ⟨new, kernel, -, succeeded, started⟩
      · rw [failed] at created
        rw [← (Prod.mk.inj (Except.ok.inj created)).2]
        exact ⟨rfl, rfl, rfl⟩
      · rw [succeeded] at created
        rw [← (Prod.mk.inj (Except.ok.inj created)).2]
        exact ⟨same_column_of_pcb PCB.FIDT started.pcb rfl, started.fcb,
          started.freelist⟩
  | @detached tid after kernel reply =>
      rw [kernel]
      cases tid <;> exact ⟨rfl, rfl, rfl⟩
  | opened fid opens opened reply =>
      rw [notOpen] at opens
      cases opens
  | closed result closed reply => exact absurd rfl (notClose _)

/-- The tables hold a map over steps that leave the files alone. -/
theorem HoldsMap.of_sameFiles
    {before after : System limits}
    {action : Action limits}
    {map : FileMap limits}
    (holds : HoldsMap before map)
    (sound : before.Sound)
    (notExec : OneProcess (.call action))
    (effect : Effect before action after)
    (same : SameFiles before.kernel after.kernel) :
    HoldsMap after map := by
  obtain ⟨table, free, mapped, owners⟩ := holds
  refine ⟨table, free, mapped.of_same same.fcb same.freelist, ?_⟩
  intro slot cur usedSlot owned
  obtain ⟨other, usedOther, sameOwner⟩ :=
    owner_before sound notExec effect usedSlot
  rw [same.FIDT]
  exact owners other cur usedOther (sameOwner ▸ owned)

/-- A stream call of the current thread changes the map of its process, which
is the map of every thread. -/
theorem HoldsMap.of_call
    {before after : System limits}
    {action : Action limits}
    {map : FileMap limits}
    {slot : Fin limits.maxThreads}
    {cur : Fin limits.maxProc}
    {free : List (Fin limits.maxFiles)}
    (sameOwner : SameOwner before)
    (sound : before.Sound)
    (notExec : OneProcess (.call action))
    (isCurrent : before.currentSlot = some slot)
    (owned : before.kernel.owner slot = some cur)
    (effect : Effect before action after)
    (mapped : after.kernel.Mapped (after.kernel.FIDT cur) map free) :
    HoldsMap after map := by
  refine ⟨_, free, mapped, ?_⟩
  intro other pid usedOther ownedOther
  obtain ⟨first, usedFirst, isOwner⟩ :=
    owner_before sound notExec effect usedOther
  have same := sameOwner first slot usedFirst (sound.current_used isCurrent)
  rw [← isOwner, ownedOther, owned] at same
  rw [Option.some.inj same]

theorem SameOwner.step
    {before after : System limits}
    {action : Action limits}
    (sameOwner : SameOwner before)
    (sound : before.Sound)
    (notExec : OneProcess (.call action))
    (effect : Effect before action after) :
    SameOwner after := by
  intro first second usedFirst usedSecond
  obtain ⟨wasFirst, used, isFirst⟩ :=
    owner_before sound notExec effect usedFirst
  obtain ⟨wasSecond, used', isSecond⟩ :=
    owner_before sound notExec effect usedSecond
  rw [isFirst, isSecond]
  exact sameOwner wasFirst wasSecond used used'

/-- The tables of the caller. -/
theorem HoldsMap.caller
    {system : System limits}
    {map : FileMap limits}
    {slot : Fin limits.maxThreads}
    (holds : HoldsMap system map)
    (sound : system.Sound)
    (isCurrent : system.currentSlot = some slot) :
    ∃ cur free, system.kernel.owner slot = some cur ∧
      system.kernel.currentProc = some cur ∧
      system.kernel.Mapped (system.kernel.FIDT cur) map free := by
  obtain ⟨table, free, mapped, owners⟩ := holds
  have usedSlot := sound.current_used isCurrent
  obtain ⟨cur, owned⟩ := sound.owned slot usedSlot
  refine ⟨cur, free, owned, ?_, ?_⟩
  · exact currentProc_of_owned isCurrent owned
  · rw [owners slot cur usedSlot owned]
    exact mapped

/-- A system call by the current thread of the pool. -/
theorem Refines.call
    {before after : StreamSystem limits}
    {files : MapSystem limits}
    {action : Action limits}
    {slot : Fin limits.maxThreads}
    (refines : before.Refines files)
    (isCurrent : before.system.currentSlot = some slot)
    (enabled : before.system.Enabled action)
    (notExec : OneProcess (.call action))
    (stepped : before.step (.call action) = .ok after) :
    after.Refines (files.step slot (.call action)).1 ∧
      ∀ reply ∈ (files.step slot (.call action)).2, after.reply = reply := by
  obtain ⟨system, systemStepped, rfl⟩ :
      ∃ system, before.system.step action = .ok system ∧
        after = { before with system := system, reply := .call system.reply } := by
    cases systemStepped : before.system.step action with
    | error fault =>
        simp only [StreamSystem.step, systemStepped] at stepped
        cases stepped
    | ok system =>
        simp only [StreamSystem.step, systemStepped] at stepped
        cases stepped
        exact ⟨system, rfl, rfl⟩
  have sound := refines.sound
  obtain ⟨soundAfter, effect⟩ := sound.step enabled systemStepped
  have performs := sound.performs enabled systemStepped
  have sameOwner := refines.sameOwner.step sound notExec effect
  obtain ⟨cur, free, owned, isCaller, mapped⟩ :=
    refines.holds.caller sound isCurrent
  have ofFiles : action.opens = none → (∀ fd, action ≠ .close fd) →
      HoldsMap system files.map := fun notOpen notClose =>
    refines.holds.of_sameFiles sound notExec effect
      (sameFiles_of_performs sound notExec notOpen notClose performs)
  have ofOpen : ∀ {major minor}, action.opens = some (major, minor) →
      HoldsMap system (files.map.openDevice (Device.find major minor)).2 ∧
        system.reply = .openStream
          (files.map.openDevice (Device.find major minor)).1 := by
    intro major minor opens
    obtain ⟨kernel, again, opened, mapped'⟩ :=
      mapped.openStream isCaller major minor
    obtain ⟨fid, opened', reply⟩ := performs.of_opens opens
    rw [opened] at opened'
    obtain ⟨rfl, rfl⟩ := Prod.mk.inj (Except.ok.inj opened')
    exact ⟨.of_call refines.sameOwner sound notExec isCurrent owned effect
      mapped', reply⟩
  cases action with
  | openNull =>
      obtain ⟨holds, reply⟩ := ofOpen rfl
      refine ⟨⟨soundAfter, sameOwner, holds, refines.transfers, refines.fits⟩,
        ?_⟩
      rintro - ⟨⟩
      rw [reply]
  | openTerminal termno =>
      obtain ⟨holds, reply⟩ := ofOpen rfl
      refine ⟨⟨soundAfter, sameOwner, holds, refines.transfers, refines.fits⟩,
        ?_⟩
      rintro - ⟨⟩
      rw [reply]
  | close fd =>
      obtain ⟨kernel, again, closed, mapped'⟩ := mapped.sysClose isCaller fd
      obtain ⟨result, closed', reply⟩ := performs.of_close
      rw [closed] at closed'
      obtain ⟨rfl, rfl⟩ := Prod.mk.inj (Except.ok.inj closed')
      refine ⟨⟨soundAfter, sameOwner, .of_call refines.sameOwner sound notExec
        isCurrent owned effect mapped', refines.transfers, refines.fits⟩, ?_⟩
      rintro - ⟨⟩
      rw [reply]
  | exec call argl args memory => exact notExec.elim
  | _ => exact ⟨⟨soundAfter, sameOwner, ofFiles rfl nofun, refines.transfers,
      refines.fits⟩, nofun⟩

/-- A call of `Read` or `Write` reaches the device that the map names. -/
theorem Refines.dispatched
    {streams : StreamSystem limits}
    {files : MapSystem limits}
    {device : Option Device}
    {size : Nat}
    (refines : streams.Refines files)
    (slot : Fin limits.maxThreads)
    (write : Bool)
    (buf : Nat → UInt8)
    (small : size ≤ intMax) :
    (streams.dispatched slot (Dispatch.of write buf size device)).Refines
        (files.dispatched slot (Dispatch.of write buf size device)).1 ∧
      ∀ reply ∈ (files.dispatched slot (Dispatch.of write buf size device)).2,
        (streams.dispatched slot
          (Dispatch.of write buf size device)).reply = reply := by
  have returns : ∀ result buffer,
      (streams.dispatched slot (.returns result buffer)).Refines
          (files.dispatched slot (.returns result buffer)).1 ∧
        ∀ reply ∈ (files.dispatched slot (.returns result buffer)).2,
          (streams.dispatched slot (.returns result buffer)).reply =
            reply := by
    intro result buffer
    refine ⟨⟨refines.sound, refines.sameOwner, refines.holds,
      refines.transfers, refines.fits⟩, ?_⟩
    rintro - ⟨⟩
    rfl
  match device with
  | none => exact returns _ _
  | some .null => exact returns _ _
  | some (.serial devno) =>
      refine ⟨⟨refines.sound, refines.sameOwner, refines.holds, ?_, ?_⟩, ?_⟩
      · exact congrArg (Function.update · slot _) refines.transfers
      · intro other transfer isTransfer
        by_cases same : other = slot
        · subst same
          simp only [Dispatch.of, StreamSystem.dispatched,
            Function.update_self, Option.some.injEq] at isTransfer
          subst isTransfer
          exact ⟨Nat.zero_le _, small⟩
        · simp only [Dispatch.of, StreamSystem.dispatched,
            Function.update_of_ne same] at isTransfer
          exact refines.fits other transfer isTransfer
      · rintro - ⟨⟩
        rfl

/-- One pass of the loop of the serial device. -/
theorem Refines.pollStep
    {before after : StreamSystem limits}
    {files : MapSystem limits}
    {slot : Fin limits.maxThreads}
    {transfer : Transfer}
    {lines : SerialLines}
    {clock : Clock}
    (refines : before.Refines files)
    (isCurrent : before.system.currentSlot = some slot)
    (isTransfer : before.transfers slot = some transfer)
    (stepped : before.pollStep slot transfer lines clock = .ok after) :
    after.Refines (files.pollStep slot transfer lines).1 ∧
      ∀ reply ∈ (files.pollStep slot transfer lines).2,
        after.reply = reply := by
  have fits := refines.fits slot transfer isTransfer
  have fitsUpdated : ∀ {next : Option Transfer},
      (∀ moved, next = some moved → moved.Fits) →
      ∀ other found, Function.update before.transfers slot next other =
        some found → found.Fits := by
    intro next fitsNext other found isFound
    by_cases same : other = slot
    · rw [same, Function.update_self] at isFound
      exact fitsNext found isFound
    · rw [Function.update_of_ne same] at isFound
      exact refines.fits other found isFound
  unfold StreamSystem.pollStep at stepped
  unfold MapSystem.pollStep
  cases passed : transfer.pass lines with
  | finished =>
      simp only [passed] at stepped
      cases stepped
      refine ⟨⟨refines.sound, refines.sameOwner, refines.holds,
        congrArg (Function.update · slot none) refines.transfers,
        fitsUpdated nofun⟩, ?_⟩
      rintro - ⟨⟩
      rfl
  | moved moved =>
      simp only [passed] at stepped
      cases stepped
      refine ⟨⟨refines.sound, refines.sameOwner, refines.holds,
        congrArg (Function.update · slot (some moved)) refines.transfers,
        fitsUpdated fun _ same => Option.some.inj same ▸ fits.pass passed⟩, ?_⟩
      rintro - ⟨⟩
      rfl
  | blocked =>
      simp only [passed] at stepped
      cases suspended : before.system.suspend slot .user .io clock with
      | error fault =>
          rw [suspended] at stepped
          cases stepped
      | ok system =>
          rw [suspended] at stepped
          cases stepped
          -- The pass ends in a `yield` of the thread.
          have notExec : OneProcess
            (.call (.yield .io clock) : StreamAction limits) := trivial
          have notExit : (Action.yield .io clock : Action limits).exitval =
            none := rfl
          obtain ⟨soundAfter, effect⟩ :=
            refines.sound.suspend notExit isCurrent suspended (Or.inr .user)
          have performs : Performs before.system (.yield .io clock) system :=
            refines.sound.performs_of_suspend rfl isCurrent suspended
          refine ⟨⟨soundAfter, refines.sameOwner.step refines.sound notExec
            effect, refines.holds.of_sameFiles refines.sound notExec effect
              (sameFiles_of_performs refines.sound notExec rfl nofun
                performs), refines.transfers, refines.fits⟩, ?_⟩
          rintro - ⟨⟩
          rfl

/-- One step of the system is one step of the map, and the reply is the one of
the map wherever that has one. -/
theorem Refines.step
    {before after : StreamSystem limits}
    {files : MapSystem limits}
    {action : StreamAction limits}
    {slot : Fin limits.maxThreads}
    (refines : before.Refines files)
    (isCurrent : before.system.currentSlot = some slot)
    (enabled : before.Enabled action)
    (allowed : OneProcess action)
    (stepped : before.step action = .ok after) :
    after.Refines (files.step slot action).1 ∧
      ∀ reply ∈ (files.step slot action).2, after.reply = reply := by
  obtain ⟨cur, free, owned, isCaller, mapped⟩ :=
    refines.holds.caller refines.sound isCurrent
  cases action with
  | call action =>
      exact refines.call isCurrent enabled.1 allowed stepped
  | read fd buf size =>
      simp only [StreamSystem.step, isCurrent, sysRead,
        mapped.streamDevice isCaller, Except.map, bind, Except.bind, pure,
        Except.pure] at stepped
      cases stepped
      exact refines.dispatched slot false buf allowed
  | write fd buf size =>
      simp only [StreamSystem.step, isCurrent, sysWrite,
        mapped.streamDevice isCaller, Except.map, bind, Except.bind, pure,
        Except.pure] at stepped
      cases stepped
      exact refines.dispatched slot true buf allowed
  | poll lines clock =>
      simp only [StreamSystem.step, isCurrent] at stepped
      cases isTransfer : before.transfers slot with
      | none =>
          simp only [Enabled, currentTransfer, isCurrent, Option.bind_some,
            isTransfer] at enabled
          cases enabled
      | some transfer =>
          simp only [isTransfer] at stepped
          simp only [MapSystem.step, ← refines.transfers, isTransfer]
          exact refines.pollStep isCurrent isTransfer stepped

/-- The idle thread opens no files. -/
theorem Refines.idle
    {before after : StreamSystem limits}
    {files : MapSystem limits}
    {action : StreamAction limits}
    (refines : before.Refines files)
    (noSlot : before.system.currentSlot = none)
    (enabled : before.Enabled action)
    (stepped : before.step action = .ok after) :
    after.Refines files := by
  have noControl : before.system.currentControl = none := by
    rw [currentControl, noSlot]
    rfl
  cases action with
  | call action =>
      have isIdle : ∃ clock, action = .idle clock := by
        by_contra other
        rw [not_exists] at other
        exact not_enabled_of_idle noSlot other enabled.1
      obtain ⟨clock, rfl⟩ := isIdle
      have notExec : OneProcess
        (.call (.idle clock) : StreamAction limits) := trivial
      cases systemStepped : before.system.step (.idle clock) with
      | error fault =>
          simp only [StreamSystem.step, systemStepped] at stepped
          cases stepped
      | ok system =>
          simp only [StreamSystem.step, systemStepped] at stepped
          cases stepped
          obtain ⟨soundAfter, effect⟩ :=
            refines.sound.step enabled.1 systemStepped
          have same : SameFiles before.system.kernel system.kernel := by
            cases effect with
            | stay notExit procs files threads ptcbs control reply =>
                exact files
            | reaped reaper reaped status isCurrent => 
                rw [noSlot] at isCurrent
                cases isCurrent
            | streams caller notExit isCurrent =>
                rw [noSlot] at isCurrent
                cases isCurrent
          exact ⟨soundAfter, refines.sameOwner.step refines.sound notExec
            effect, refines.holds.of_sameFiles refines.sound notExec effect
              same, refines.transfers, refines.fits⟩
  | read fd buf size =>
      rw [Enabled, noControl] at enabled
      cases enabled.1
  | write fd buf size =>
      rw [Enabled, noControl] at enabled
      cases enabled.1
  | poll lines clock =>
      simp only [Enabled, currentTransfer, noSlot, Option.bind_none] at enabled
      cases enabled

theorem Refines.boot
    {system : System limits}
    (booted : System.boot limits = .ok system) :
    (start system).Refines (MapSystem.start limits) := by
  have begins := booted_of_boot booted
  have closed := booted_FIDT begins
  refine ⟨begins.sound, sameOwner_of_booted begins, ?_, rfl, nofun⟩
  obtain ⟨free, counted⟩ := counted_of_booted begins
  have allFree : ∀ fcb, fcb ∈ free := by
    intro fcb
    by_contra inUse
    obtain ⟨⟨pid, fid⟩, isRef⟩ :=
      Finset.card_pos.mp (counted.counted inUse).1
    have entry := (mem_refSet.mp isRef).2
    rw [closed] at entry
    cases entry
  refine ⟨fun _ => none, free, ⟨counted.freeList, fun _ => rfl, nofun, nofun,
    fun inUse => absurd (allFree _) inUse⟩, ?_⟩
  intro slot cur _ _
  funext fid
  exact closed cur fid

theorem Reached.refines
    {streams : StreamSystem limits}
    {files : MapSystem limits}
    (reached : Reached streams files) :
    streams.Refines files := by
  obtain ⟨system, booted, reachable⟩ := reached
  refine reachable.invariant (motive := fun both => both.1.Refines both.2)
    (.boot booted) ?_
  rintro ⟨before, files⟩ both action refines ⟨enabled, allowed⟩ stepped
  cases next : before.step action with
  | error fault =>
      simp only [stepBoth, next, Except.map] at stepped
      cases stepped
  | ok after =>
      simp only [stepBoth, next, Except.map] at stepped
      cases stepped
      show after.Refines (files.after before action)
      unfold MapSystem.after
      cases isCurrent : before.system.currentSlot with
      | none => exact refines.idle isCurrent enabled next
      | some slot => exact (refines.step isCurrent enabled allowed next).1

/-- Every call that concerns files returns. -/
theorem Refines.returns
    {streams : StreamSystem limits}
    {files : MapSystem limits}
    {action : StreamAction limits}
    {slot : Fin limits.maxThreads}
    {reply : StreamReply limits}
    (refines : streams.Refines files)
    (isCurrent : streams.system.currentSlot = some slot)
    (replies : (files.step slot action).2 = some reply) :
    ∃ after, streams.step action = .ok after := by
  obtain ⟨cur, free, owned, isCaller, mapped⟩ :=
    refines.holds.caller refines.sound isCurrent
  have stepCall : ∀ {call system}, streams.system.step call = .ok system →
      ∃ after, streams.step (.call call) = .ok after := by
    intro call system stepped
    refine ⟨{ streams with system := system, reply := .call system.reply }, ?_⟩
    simp only [StreamSystem.step, stepped, bind, Except.bind, pure,
      Except.pure]
  cases action with
  | call call =>
      cases call with
      | openNull =>
          obtain ⟨kernel, again, opened, -⟩ := mapped.openStream isCaller .null 0
          apply stepCall
          simp only [step_of_slot isCurrent, threadStep, opened, bind,
            Except.bind, pure, Except.pure]
          rfl
      | openTerminal termno =>
          obtain ⟨kernel, again, opened, -⟩ :=
            mapped.openStream isCaller .serial termno
          apply stepCall
          simp only [step_of_slot isCurrent, threadStep, opened, bind,
            Except.bind, pure, Except.pure]
          rfl
      | close fd =>
          obtain ⟨kernel, again, closed, -⟩ := mapped.sysClose isCaller fd
          apply stepCall
          simp only [step_of_slot isCurrent, threadStep, closed, bind,
            Except.bind, pure, Except.pure]
          rfl
      | _ => cases replies
  | read fd buf size =>
      refine ⟨streams.dispatched slot
        (Dispatch.of false buf size (files.map.deviceAt fd)), ?_⟩
      simp only [StreamSystem.step, isCurrent, sysRead,
        mapped.streamDevice isCaller, Except.map, bind, Except.bind, pure,
        Except.pure]
  | write fd buf size =>
      refine ⟨streams.dispatched slot
        (Dispatch.of true buf size (files.map.deviceAt fd)), ?_⟩
      simp only [StreamSystem.step, isCurrent, sysWrite,
        mapped.streamDevice isCaller, Except.map, bind, Except.bind, pure,
        Except.pure]
  | poll lines clock =>
      simp only [StreamSystem.step, isCurrent]
      cases isTransfer : streams.transfers slot with
      | none => exact ⟨_, rfl⟩
      | some transfer =>
          simp only [StreamSystem.pollStep]
          cases transfer.pass lines with
          | finished => exact ⟨_, rfl⟩
          | moved moved => exact ⟨_, rfl⟩
          | blocked =>
              obtain ⟨lists, inv⟩ := refines.sound.resting
              obtain ⟨next, sched, lists', yielded, -⟩ :=
                inv.yield (currentSlot_eq_some.mp isCurrent) .io
                  clock.remaining clock.curtime
              simp only [suspend, yielded, bind, Except.bind, pure,
                Except.pure]
              exact ⟨_, rfl⟩

/-- The results that a map promises.  An open fails for one of three reasons and
binds the smallest free id otherwise; `Read` and `Write` return -1 exactly when
the id is not bound, also after a transfer. -/
structure Results (files : MapSystem limits) : Prop where
  opens : ∀ device, (files.map.openDevice device).1 = none ↔
    device = none ∨ (∀ fid, files.map fid ≠ none) ∨
      limits.maxFiles ≤ files.map.boundFids.card
  unchanged : ∀ device, (files.map.openDevice device).1 = none →
    (files.map.openDevice device).2 = files.map
  smallest : ∀ device fid, (files.map.openDevice device).1 = some fid →
    files.map fid = none ∧ (∀ other < fid, files.map other ≠ none) ∧
      (files.map.openDevice device).2 = Function.update files.map fid device
  io : ∀ fd write buf size result buffer, size ≤ intMax →
    Dispatch.of write buf size (files.map.deviceAt fd) =
      .returns result buffer →
    (result = -1 ↔ files.map.deviceAt fd = none)
  transfers : ∀ slot transfer, files.transfers slot = some transfer →
    intOfUnsigned transfer.count ≠ -1

theorem Refines.results
    {streams : StreamSystem limits}
    {files : MapSystem limits}
    (refines : streams.Refines files) :
    Results files where
  opens := files.map.openDevice_eq_none_iff
  unchanged := files.map.openDevice_of_none
  smallest := files.map.openDevice_of_some
  io := by
    intro fd write buf size result buffer small returns
    match device : files.map.deviceAt fd with
    | none =>
        rw [device] at returns
        cases returns
        simp
    | some .null =>
        rw [device] at returns
        cases returns
        rw [intOfUnsigned_of_le small]
        refine ⟨fun negative => ?_, nofun⟩
        omega
    | some (.serial devno) =>
        rw [device] at returns
        cases returns
  transfers := by
    intro slot transfer isTransfer
    rw [← refines.transfers] at isTransfer
    rw [(refines.fits slot transfer isTransfer).result]
    omega

/-- In every run of the threads of one process without `Exec`, the stream calls
return what a partial map from file ids to devices returns, and as many FCBs are
free as streams may still be opened. -/
theorem streams_refine_map
    {streams : StreamSystem limits}
    {files : MapSystem limits}
    (reached : Reached streams files) :
    (∀ slot action reply, streams.system.currentSlot = some slot →
      streams.Enabled action → OneProcess action →
      (files.step slot action).2 = some reply →
      ∃ after, streams.step action = .ok after ∧ after.reply = reply ∧
        Reached after (files.step slot action).1) ∧
      streams.transfers = files.transfers ∧ Results files ∧
      ∃ free, streams.system.kernel.FreeList free ∧
        free.length = limits.maxFiles - files.map.boundFids.card ∧
        files.map.boundFids.card ≤ limits.maxFiles := by
  have refines := reached.refines
  refine ⟨?_, refines.transfers, refines.results, ?_⟩
  · intro slot action reply isCurrent enabled allowed replies
    obtain ⟨after, stepped⟩ := refines.returns isCurrent replies
    have steppedBoth : stepBoth (streams, files) action =
        .ok (after, (files.step slot action).1) := by
      simp only [stepBoth, stepped, Except.map, MapSystem.after, isCurrent]
    obtain ⟨system, booted, reachable⟩ := reached
    exact ⟨after, stepped,
      (refines.step isCurrent enabled allowed stepped).2 reply replies,
      system, booted, reachable.tail ⟨enabled, allowed⟩ steppedBoth⟩
  · obtain ⟨table, free, mapped, -⟩ := refines.holds
    have counted := mapped.card_free
    exact ⟨free, mapped.freeList, by omega, by omega⟩

/-- The first process has closed the null device and writes to the terminal. -/
theorem streams_refine_map_terminal :
    ∃ (streams : StreamSystem Limits.tinier)
        (files : MapSystem Limits.tinier),
      (Reached streams files ∧ files.map 0 = none ∧
        files.map 1 = some (.serial 0) ∧ streams.currentTransfer.isSome) ∧
      (∀ slot action reply, streams.system.currentSlot = some slot →
        streams.Enabled action → OneProcess action →
        (files.step slot action).2 = some reply →
        ∃ after, streams.step action = .ok after ∧ after.reply = reply ∧
          Reached after (files.step slot action).1) ∧
      streams.transfers = files.transfers ∧ Results files ∧
      ∃ free, streams.system.kernel.FreeList free ∧
        free.length = 4 - files.map.boundFids.card ∧
        files.map.boundFids.card ≤ 4 := by
  obtain ⟨system, ⟨streams, files⟩, booted, reachable, test⟩ :
      ∃ (system : System Limits.tinier)
          (both : StreamSystem Limits.tinier × MapSystem Limits.tinier),
        System.boot Limits.tinier = .ok system ∧
        Reachable stepBoth
          (fun both action => both.1.Enabled action ∧ OneProcess action)
          (start system, MapSystem.start Limits.tinier) both ∧
        decide (both.2.map 0 = none ∧ both.2.map 1 = some (.serial 0) ∧
          both.1.currentTransfer.isSome) = true :=
    exists_reachable_of_booted
      [.call (.idle .zero), .call .start, .call .openNull,
        .call (.openTerminal 0), .call (.close 0),
        .write 1 (fun _ => 65) 3,
        .poll { received := fun _ => none, ready := fun _ => true } .zero]
      (by decide +kernel)
  have reached : Reached streams files := ⟨system, booted, reachable⟩
  exact ⟨streams, files, ⟨reached, of_decide_eq_true test⟩,
    streams_refine_map reached⟩

end StreamSystem
end TinierOS
