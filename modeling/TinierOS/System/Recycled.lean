import TinierOS.System.Single
import TinierOS.System.Threads

/-!
# Recycled PCBs

`initialize_PCB` runs at boot only.  A slot that `acquire_PCB` hands out again
keeps the lists, the PTCBs and the thread count its last process has left.
-/

namespace TinierOS

variable {limits : Limits}

namespace Kernel

/-! ## The PCB that `sys_Exec` leaves -/

/-- The bytes of the argument of a process, as far as its buffer goes. -/
def argBytes
    (kernel : Kernel limits)
    (pid : Fin limits.maxProc)
    (offset : Fin maxArgSize) : Option UInt8 :=
  if (kernel.pcb pid).args ≠ .null ∧ (offset : Int) < (kernel.pcb pid).argl then
    some (kernel.procArgs pid offset)
  else none

/-- The PTCB of the main thread of a process. -/
def mainPtcb
    (kernel : Kernel limits)
    (pid : Fin limits.maxProc) : Option (Fin limits.maxThreads) :=
  (kernel.pcb pid).mainThread.bind fun slot =>
    (kernel.sched.tcb (.slot slot)).ptcb

/-- The bytes of an argument that `sys_Exec` has copied. -/
theorem argBytes_of_copied
    {kernel after : Kernel limits}
    {newproc : Fin limits.maxProc}
    {call : Option Task}
    {argl : Int}
    {args : ArgPtr limits}
    {memory : Nat → UInt8}
    (sameArgl : (after.pcb newproc).argl = argl)
    (sameArgs : (after.pcb newproc).args =
      if 0 < argl ∧ args ≠ .null then .row newproc else .null)
    (procArgs : after.procArgs =
      (kernel.prepared newproc call argl args memory).procArgs)
    (offset : Fin maxArgSize) :
    after.argBytes newproc offset =
      if args ≠ .null ∧ (offset : Int) < argl then
        some (kernel.argByte memory args offset)
      else none := by
  rw [argBytes, sameArgl, sameArgs, procArgs, prepared_procArgs]
  by_cases copied : 0 < argl ∧ args ≠ .null
  · rw [if_pos copied, if_pos copied, Function.update_self]
    by_cases inside : (offset : Int) < argl
    · simp [inside, copied.2]
    · simp [inside]
  · rw [if_neg copied, if_neg (by simp)]
    symm
    apply if_neg
    rintro ⟨notNull, inside⟩
    exact copied ⟨by omega, notNull⟩

/-- The argument and the main thread of the process that `sys_Exec` creates. -/
theorem sysExec_created
    {kernel after : Kernel limits}
    {newproc : Fin limits.maxProc}
    {call : Option Task}
    {argl : Int}
    {args : ArgPtr limits}
    {memory : Nat → UInt8}
    (resting : kernel.Resting)
    (executed : kernel.sysExec call argl args memory =
      .ok (some newproc, after)) :
    (∀ offset, after.argBytes newproc offset =
      if args ≠ .null ∧ (offset : Int) < argl then
        some (kernel.argByte memory args offset)
      else none) ∧
      (call ≠ none → after.mainPtcb newproc = kernel.freePtcb) := by
  cases sysExec_outcome resting executed with
  | threadless newproc free noCall =>
      have pcb := kernel.prepared_pcb newproc call argl args memory
      refine ⟨?_, fun isCall => absurd noCall isCall⟩
      exact argBytes_of_copied (by rw [pcb]; simp) (by rw [pcb]; simp) rfl
  | started newproc slot free isCall started frame =>
      have marked := modifyPcb_of_pcb
        (kernel.prepared_pcb newproc call argl args memory)
        fun block => { block with mainThread := some slot }
      have block := started.pcb
      rw [marked, Function.update_idem, Function.update_self] at block
      refine ⟨argBytes_of_copied (by rw [block]; simp)
        (by rw [block]; simp) frame.procArgs, fun _ => ?_⟩
      have ptcbUsed :=
        (kernel.prepared_rest newproc call argl args memory).2.2.2.1
      have samePtcb : ((kernel.prepared newproc call argl args
          memory).modifyPcb newproc fun block =>
            { block with mainThread := some slot }).freePtcb =
              kernel.freePtcb := by
        simp only [freePtcb, ← ptcbUsed]
        rfl
      rw [mainPtcb, block, Function.update_self, ← samePtcb]
      exact started.ptcb

end Kernel
namespace System

open Kernel

variable {before after system : System limits}
variable {action : Action limits}

/-! ## The first two pids -/

/-- Pids 0 and 1 have no parent, so nobody reaps them and their slots are never
free. -/
structure InitKept (system : System limits) : Prop where
  orphan : ∀ {pid}, pid.val ≤ 1 → system.kernel.parent pid = none
  occupied : 0 < limits.maxThreads → ∀ {pid}, pid.val ≤ 1 →
    system.kernel.pstate pid ≠ .free
  awaited : ∀ {slot child status}, system.kernel.threadUsed slot = true →
    system.control slot = .waitChild child status → 1 < child.val

namespace InitKept

theorem of_parent
    {child parent : Fin limits.maxProc}
    (init : system.InitKept)
    (isParent : system.kernel.parent child = some parent) :
    1 < child.val := by
  by_contra small
  rw [init.orphan (by omega)] at isParent
  cases isParent

theorem of_reaps
    {slot : Fin limits.maxThreads}
    {child : Fin limits.maxProc}
    {status : Bool}
    (init : before.InitKept)
    (sound : before.Sound)
    (rings : before.kernel.ExitedRings)
    (isCurrent : before.currentSlot = some slot)
    (reaps : Reaps before action slot child status) :
    1 < child.val := by
  have usedSlot := sound.current_used isCurrent
  obtain ⟨proc, owned⟩ := sound.owned slot usedSlot
  cases reaps with
  | call call specific found isParent notAlive =>
      exact init.of_parent (isParent.trans owned)
  | resume resumes suspended notAlive =>
      exact init.awaited usedSlot suspended
  | any loop nonempty front =>
      exact init.of_parent (rings.isChild_of_front nonempty front).2

/-- `acquire_PCB` takes neither of the two slots while a thread runs. -/
theorem newproc
    {pid : Fin limits.maxProc}
    (init : system.InitKept)
    (slot : Fin limits.maxThreads)
    (free : system.kernel.freePcb = some pid) :
    1 < pid.val := by
  by_contra small
  refine init.occupied (Fin.pos slot) (by omega : pid.val ≤ 1) ?_
  simpa [pstate] using firstIndex_test free

/-- A new process leaves the two slots as they are. -/
theorem occupied_of_created
    {newproc pid : Fin limits.maxProc}
    {state : PidState}
    (init : before.InitKept)
    (slot : Fin limits.maxThreads)
    (created : ProcCreated before.kernel after.kernel newproc state)
    (small : pid.val ≤ 1) :
    after.kernel.pstate pid ≠ .free := by
  have large := init.newproc slot created.free
  have different : pid ≠ newproc := by
    rintro rfl
    omega
  rw [created.pstate, Function.update_of_ne different]
  exact init.occupied (Fin.pos slot) small

theorem orphan_of_created
    {newproc pid : Fin limits.maxProc}
    {state : PidState}
    (init : before.InitKept)
    (created : ProcCreated before.kernel after.kernel newproc state)
    (small : pid.val ≤ 1) :
    after.kernel.parent pid = none := by
  rw [created.parent, Function.update_apply]
  split_ifs with isNew
  · rw [execParent, if_pos (isNew ▸ small)]
  · exact init.orphan small

theorem awaited_step
    {slot : Fin limits.maxThreads}
    {child : Fin limits.maxProc}
    {status : Bool}
    (init : before.InitKept)
    (sound : before.Sound)
    (effect : Effect before action after)
    (usedSlot : after.kernel.threadUsed slot = true)
    (suspended : after.control slot = .waitChild child status) :
    1 < child.val := by
  obtain ⟨wasUsed, same | ⟨isCurrent, entered⟩⟩ := effect.suspended usedSlot
    (by simp [suspended]) (by simp [suspended])
  · exact init.awaited wasUsed (same.symm.trans suspended)
  · rw [suspended] at entered
    obtain ⟨proc, owned⟩ := sound.owned slot wasUsed
    cases entered with
    | waitChild call found isParent isAlive =>
        exact init.of_parent (isParent.trans owned)

theorem step
    (init : before.InitKept)
    (sound : before.Sound)
    (rings : before.kernel.ExitedRings)
    (effect : Effect before action after) :
    after.InitKept := by
  have awaited : ∀ {slot child status}, after.kernel.threadUsed slot = true →
      after.control slot = .waitChild child status → 1 < child.val :=
    init.awaited_step sound effect
  have same : SameProcs before.kernel after.kernel → after.InitKept := by
    intro procs
    refine ⟨?_, ?_, awaited⟩
    · rw [procs.parent]
      exact init.orphan
    · rw [procs.pstate]
      exact init.occupied
  cases effect with
  | stay notExit procs files threads ptcbs control reply => exact same procs
  | executed caller newproc isCurrent proc files threads control reply =>
      exact ⟨init.orphan_of_created proc,
        fun _ => init.occupied_of_created caller proc, awaited⟩
  | execFailed caller newproc isCurrent isCall noSlot proc files threads ptcbs
      control reply =>
      exact ⟨init.orphan_of_created proc,
        fun _ => init.occupied_of_created caller proc, awaited⟩
  | exited leaver proc isCurrent owned procs files threads ptcbs control
      reply =>
      refine ⟨?_, ?_, awaited⟩
      · rw [procs.parent]
        exact init.orphan
      · intro threadsExist pid small
        rw [procs.pstate, Function.update_apply]
        split_ifs
        · simp
        · exact init.occupied threadsExist small
  | threadExited leaver proc isCurrent owned procs files threads ptcbs control
      reply => exact same procs
  | reaped reaper reaped status isCurrent reason procs files threads ptcbs
      control reply =>
      have large := init.of_reaps sound rings isCurrent reason
      refine ⟨?_, ?_, awaited⟩
      · rw [procs.parent]
        exact init.orphan
      · intro threadsExist pid small
        have different : pid ≠ reaped := by
          rintro rfl
          omega
        rw [procs.pstate, Function.update_of_ne different]
        exact init.occupied threadsExist small
  | threadCreated caller new proc isCurrent owned procs files thread ptcbs
      control reply => exact same procs
  | streams caller notExit isCurrent call only control reply =>
      exact same only.procs

/-- The first `Exec` gives pid 1 to the first process. -/
theorem occupied_of_firstExec
    {kernel : Kernel limits}
    {first : Option (Fin limits.maxProc)}
    {pid : Fin limits.maxProc}
    (effect : ExecEffect (initial limits) (some testProcess) first kernel)
    (threadsExist : 0 < limits.maxThreads)
    (small : pid.val ≤ 1) :
    kernel.pstate pid ≠ .free := by
  have fresh : (initial limits).Fresh := initial_fresh
  cases effect with
  | full noPcb =>
      have occupied := firstIndex_eq_none_iff.mp noPcb pid
      simpa [pstate] using occupied
  | threadless newproc noCall proc files threads ptcbs sched => cases noCall
  | failed newproc isCall noSlot proc files threads ptcbs sched =>
      have usedSlot := firstIndex_eq_none_iff.mp noSlot ⟨0, threadsExist⟩
      have unused := fresh.unused ⟨0, threadsExist⟩
      rw [threadUsed] at unused
      simp [unused] at usedSlot
  | started newproc slot isCall proc files thread ptcbs current =>
      rw [proc.pstate, Function.update_apply]
      split_ifs with isNew
      · simp
      · rw [fresh.pstate]
        obtain ⟨-, smallest⟩ := firstIndex_eq_some_iff.mp proc.free
        have newFree := proc.wasFree
        rw [fresh.pstate] at newFree
        have notZero : newproc.val ≠ 0 := by
          intro isZero
          rw [if_pos isZero] at newFree
          cases newFree
        by_cases isZero : pid.val = 0
        · simp [isZero]
        · have earlier : pid < newproc := by
            have different : pid.val ≠ newproc.val := fun same =>
              isNew (Fin.ext same)
            exact Fin.lt_def.mpr (by omega)
          have notFree := smallest pid earlier
          rw [← fresh.pstate]
          simpa [pstate] using notFree

theorem of_booted
    {start : System limits}
    (booted : start.Booted) :
    start.InitKept := by
  have fresh : (initial limits).Fresh := initial_fresh
  obtain ⟨first, kernel, effect, procs, -⟩ := booted.tables
  refine ⟨?_, ?_, ?_⟩
  · intro pid small
    have created : ∀ {newproc state},
        ProcCreated (initial limits) kernel newproc state →
          kernel.parent pid = none := by
      intro newproc state proc
      rw [proc.parent, Function.update_apply, fresh.execParent, fresh.parent,
        ite_self]
    rw [procs.parent]
    cases effect with
    | full noPcb => exact fresh.parent pid
    | threadless newproc noCall proc files threads ptcbs sched =>
        exact created proc
    | failed newproc isCall noSlot proc files threads ptcbs sched =>
        exact created proc
    | started newproc slot isCall proc files thread ptcbs current =>
        exact created proc
  · intro threadsExist pid small
    rw [procs.pstate]
    exact occupied_of_firstExec effect threadsExist small
  · intro slot child status usedSlot suspended
    rw [booted.control] at suspended
    cases suspended

end InitKept

theorem Reached.initKept
    {allowed : System limits → Action limits → Prop}
    (reached : Reached allowed system) :
    system.InitKept := by
  refine (reached.invariant_with_rings (motive := InitKept) ?_ ?_).2.2
  · exact fun booted => .of_booted booted
  · intro before action after sound rings init enabled isAllowed effect
    exact init.step sound rings effect

/-! ## The new process -/

/-- What a successful `sys_Exec` by a thread of `cur` makes of the slot. -/
structure ExecResult
    (before after : Kernel limits)
    (cur newproc : Fin limits.maxProc)
    (call : Option Task) : Prop where
  pstate : after.pstate newproc = .alive
  parent : after.parent newproc = some cur
  FIDT : after.FIDT newproc = before.FIDT cur
  children : after.children.links =
    before.children.links.splice (.list cur) (.node newproc)
  exited : after.exited = before.exited
  threads : call = none ∧ after.threadCount newproc =
        before.threadCount newproc ∧ SamePtcbs before after ∨
    call ≠ none ∧ after.threadCount newproc =
        before.threadCount newproc + 1 ∧ PtcbsGrown before after newproc

theorem Reached.execResult
    {allowed : System limits → Action limits → Prop}
    {slot : Fin limits.maxThreads}
    {after : Kernel limits}
    {newproc : Fin limits.maxProc}
    {call : Option Task}
    {argl : Int}
    {args : ArgPtr limits}
    {memory : Nat → UInt8}
    (reached : Reached allowed system)
    (isCurrent : system.currentSlot = some slot)
    (executed : system.kernel.sysExec call argl args memory =
      .ok (some newproc, after)) :
    ∃ cur, system.kernel.currentProc = some cur ∧
      ExecResult system.kernel after cur newproc call := by
  obtain ⟨sound, -⟩ := reached.rings
  have init := reached.initKept
  obtain ⟨cur, owned⟩ := sound.owned slot (sound.current_used isCurrent)
  have isCaller : system.kernel.currentProc = some cur := by
    exact currentProc_of_owned isCurrent owned
  refine ⟨cur, isCaller, ?_⟩
  obtain ⟨pid, result, executed', -, effect⟩ :=
    sysExec_effect sound.resting call argl args memory
  rw [executed] at executed'
  cases executed'
  have common : ProcCreated system.kernel after newproc .alive →
      FilesInherited system.kernel after newproc →
      (call = none ∧ after.threadCount newproc =
            system.kernel.threadCount newproc ∧
            SamePtcbs system.kernel after ∨
        call ≠ none ∧ after.threadCount newproc =
            system.kernel.threadCount newproc + 1 ∧
            PtcbsGrown system.kernel after newproc) →
      ExecResult system.kernel after cur newproc call := by
    intro proc files threads
    have hasParent : system.kernel.execParent newproc = some cur := by
      have large := init.newproc slot proc.free
      rw [execParent, if_neg (by omega), isCaller]
    refine ⟨?_, ?_, ?_, ?_, proc.exited, threads⟩
    · rw [proc.pstate, Function.update_self]
    · rw [proc.parent, Function.update_self, hasParent]
    · rw [files.FIDT, Function.update_self]
      funext fid
      rw [inheritedFIDT, hasParent]
      rfl
    · rw [proc.children, linkedChildren, hasParent]
      exact RlHeap.rlistPushFront_links ..
  cases effect with
  | threadless newproc noCall proc files threads ptcbs sched =>
      refine common proc files (.inl ⟨noCall, ?_, ptcbs⟩)
      rw [threads.threadCount]
  | started newproc slot isCall proc files thread ptcbs current =>
      refine common proc files (.inr ⟨isCall, ?_, ptcbs⟩)
      rw [thread.threadCount, Function.update_self]

/-- A process that carries nothing over from an earlier one. -/
structure NewProcess
    (kernel : Kernel limits)
    (pid : Fin limits.maxProc)
    (call : Option Task) : Prop where
  children : kernel.children.links.IsRing (.list pid) []
  exited : kernel.exited.links.IsRing (.list pid) []
  threadCount : call ≠ none → kernel.threadCount pid = 1
  ptcbs : call ≠ none → ∃ ptcb, kernel.mainPtcb pid = some ptcb ∧
    kernel.ptcbLists.links.IsRing (.list pid) [.node ptcb]

/-- The slot is as at boot, and there is a PTCB for the main thread.  When the
slot is that of the caller's own process, the new process becomes a child of
itself; it has no children if it was its own last child before. -/
structure CleanSlot
    (kernel : Kernel limits)
    (pid : Fin limits.maxProc)
    (call : Option Task) : Prop where
  children : kernel.children.links.next
    (if kernel.currentProc = some pid then .node pid else .list pid) =
      .list pid
  exited : kernel.exited.links.next (.list pid) = .list pid
  threadCount : call ≠ none → kernel.threadCount pid = 0
  ptcbs : call ≠ none → kernel.freePtcb ≠ none ∧
    kernel.ptcbLists.links.next (.list pid) = .list pid

/-- The ring of PTCBs of the new process. -/
theorem ptcbs_iff
    {before after : Kernel limits}
    {newproc : Fin limits.maxProc}
    (rings : before.PtcbRings)
    (mainPtcb : after.mainPtcb newproc = before.freePtcb)
    (grown : PtcbsGrown before after newproc) :
    (∃ ptcb, after.mainPtcb newproc = some ptcb ∧
      after.ptcbLists.links.IsRing (.list newproc) [.node ptcb]) ↔
      before.freePtcb ≠ none ∧
        before.ptcbLists.links.next (.list newproc) = .list newproc := by
  rw [mainPtcb]
  obtain ⟨lists, rings⟩ := rings
  have emptyIff : before.ptcbLists.links.next (.list newproc) =
      .list newproc ↔ lists newproc = [] :=
    rings.next_sentinel_eq_iff newproc
  rw [emptyIff]
  rcases grown with ⟨full, -⟩ | ⟨ptcb, new⟩
  · simp [full]
  · have ring := (ptcbs_of_new rings new).ring newproc
    rw [Function.update_self, List.map_append, List.map_singleton] at ring
    constructor
    · rintro ⟨other, -, isOnly⟩
      refine ⟨by simp [new.free], ?_⟩
      have lengths := congrArg List.length (ring.unique isOnly)
      simpa using lengths
    · rintro ⟨-, isEmpty⟩
      rw [isEmpty] at ring
      exact ⟨ptcb, new.free, ring⟩

theorem ExecResult.newProcess_iff
    {before after : Kernel limits}
    {cur newproc : Fin limits.maxProc}
    {call : Option Task}
    (result : ExecResult before after cur newproc call)
    (isCaller : before.currentProc = some cur)
    (mainPtcb : call ≠ none → after.mainPtcb newproc = before.freePtcb)
    (childrenInverse : before.children.links.Inverse)
    (exitedInverse : before.exited.links.Inverse)
    (rings : before.PtcbRings) :
    NewProcess after newproc call ↔ CleanSlot before newproc call := by
  have childrenIff : after.children.links.IsRing (.list newproc) [] ↔
      before.children.links.next (if before.currentProc = some newproc then
        .node newproc else .list newproc) = .list newproc := by
    rw [result.children, (childrenInverse.splice _ _).isRing_nil_iff, isCaller]
    by_cases isOwn : cur = newproc
    · subst isOwn
      rw [Links.splice_next_left, if_pos rfl]
    · rw [Links.splice_next_of_ne _ (by simpa using Ne.symm isOwn) (by simp),
        if_neg (by simpa using isOwn)]
  have exitedIff : after.exited.links.IsRing (.list newproc) [] ↔
      before.exited.links.next (.list newproc) = .list newproc := by
    rw [result.exited]
    exact exitedInverse.isRing_nil_iff _
  have counted : call ≠ none →
      after.threadCount newproc = before.threadCount newproc + 1 ∧
        PtcbsGrown before after newproc := by
    intro isCall
    rcases result.threads with ⟨noCall, -⟩ | ⟨-, counts⟩
    · exact absurd noCall isCall
    · exact counts
  constructor
  · intro new
    refine ⟨childrenIff.mp new.children, exitedIff.mp new.exited, ?_, ?_⟩
    · intro isCall
      have one := new.threadCount isCall
      rw [(counted isCall).1] at one
      omega
    · intro isCall
      exact (ptcbs_iff rings (mainPtcb isCall) (counted isCall).2).mp
        (new.ptcbs isCall)
  · intro clean
    refine ⟨childrenIff.mpr clean.children, exitedIff.mpr clean.exited, ?_, ?_⟩
    · intro isCall
      rw [(counted isCall).1, clean.threadCount isCall]
      rfl
    · intro isCall
      exact (ptcbs_iff rings (mainPtcb isCall) (counted isCall).2).mpr
        (clean.ptcbs isCall)

/-! ## Two histories -/

/-- The same call of `sys_Exec` in two states: the caller's process and its
descriptors, the PCB and the PTCB it will take and the bytes of the argument are
the same. -/
structure SameCall
    (first second : Kernel limits)
    (argl : Int)
    (args : ArgPtr limits)
    (memory : Nat → UInt8) : Prop where
  caller : first.currentProc = second.currentProc
  FIDT : ∀ cur, first.currentProc = some cur → first.FIDT cur = second.FIDT cur
  freePcb : first.freePcb = second.freePcb
  freePtcb : first.freePtcb = second.freePtcb
  bytes : ∀ offset : Fin maxArgSize, (offset : Int) < argl →
    first.argByte memory args offset = second.argByte memory args offset

/-- A process looks the same in two states. -/
structure SameProcess
    (first second : Kernel limits)
    (pid : Fin limits.maxProc) : Prop where
  pstate : first.pstate pid = second.pstate pid
  parent : first.parent pid = second.parent pid
  FIDT : first.FIDT pid = second.FIDT pid
  args : first.argBytes pid = second.argBytes pid
  children : ∃ nodes, first.children.links.IsRing (.list pid) nodes ∧
    second.children.links.IsRing (.list pid) nodes
  exited : ∃ nodes, first.exited.links.IsRing (.list pid) nodes ∧
    second.exited.links.IsRing (.list pid) nodes
  ptcbs : ∃ nodes, first.ptcbLists.links.IsRing (.list pid) nodes ∧
    second.ptcbLists.links.IsRing (.list pid) nodes
  threadCount : first.threadCount pid = second.threadCount pid

/-- The slot counts the same threads and has the same PTCBs in two states. -/
def SameSlot
    (first second : Kernel limits)
    (pid : Fin limits.maxProc) : Prop :=
  first.threadCount pid = second.threadCount pid ∧
    ∃ nodes, first.ptcbLists.links.IsRing (.list pid) nodes ∧
      second.ptcbLists.links.IsRing (.list pid) nodes

/-- A process without a thread keeps what the slot counts. -/
theorem ExecResult.sameSlot_iff
    {first second firstAfter secondAfter : Kernel limits}
    {cur newproc : Fin limits.maxProc}
    (firstResult : ExecResult first firstAfter cur newproc none)
    (secondResult : ExecResult second secondAfter cur newproc none) :
    SameSlot firstAfter secondAfter newproc ↔
      SameSlot first second newproc := by
  rcases firstResult.threads with ⟨-, firstCount, firstPtcbs⟩ | ⟨isCall, -⟩
  · rcases secondResult.threads with
      ⟨-, secondCount, secondPtcbs⟩ | ⟨isCall, -⟩
    · rw [SameSlot, SameSlot, firstCount, secondCount, firstPtcbs.ptcbLists,
        secondPtcbs.ptcbLists]
    · exact absurd rfl isCall
  · exact absurd rfl isCall

/-- Two new processes have the same main thread and nothing else. -/
theorem NewProcess.sameSlot
    {first second : Kernel limits}
    {newproc : Fin limits.maxProc}
    {call : Option Task}
    (firstNew : NewProcess first newproc call)
    (secondNew : NewProcess second newproc call)
    (isCall : call ≠ none)
    (sameMain : first.mainPtcb newproc = second.mainPtcb newproc) :
    SameSlot first second newproc := by
  obtain ⟨ptcb, isMain, ring⟩ := firstNew.ptcbs isCall
  obtain ⟨other, isOther, otherRing⟩ := secondNew.ptcbs isCall
  have same : some ptcb = some other := by
    rw [← isMain, sameMain, isOther]
  cases same
  refine ⟨?_, _, ring, otherRing⟩
  rw [firstNew.threadCount isCall, secondNew.threadCount isCall]

/-- After the same successful `sys_Exec` in two states that are reached by any
two runs, the new process is the same in both and carries nothing over, exactly
when the slot was clean in both; a process without a thread keeps the thread
count and the PTCBs of its slot. -/
theorem recycled_pcb_carries_nothing
    {first second : System limits}
    {firstAfter secondAfter : Kernel limits}
    {firstSlot secondSlot : Fin limits.maxThreads}
    {newproc : Fin limits.maxProc}
    {call : Option Task}
    {argl : Int}
    {args : ArgPtr limits}
    {memory : Nat → UInt8}
    (firstReached : Reached (fun _ _ => True) first)
    (secondReached : Reached (fun _ _ => True) second)
    (firstCurrent : first.currentSlot = some firstSlot)
    (secondCurrent : second.currentSlot = some secondSlot)
    (same : SameCall first.kernel second.kernel argl args memory)
    (firstExecuted : first.kernel.sysExec call argl args memory =
      .ok (some newproc, firstAfter))
    (secondExecuted : second.kernel.sysExec call argl args memory =
      .ok (some newproc, secondAfter)) :
    SameProcess firstAfter secondAfter newproc ∧
        NewProcess firstAfter newproc call ∧
        NewProcess secondAfter newproc call ↔
      CleanSlot first.kernel newproc call ∧
        CleanSlot second.kernel newproc call ∧
        (call = none → SameSlot first.kernel second.kernel newproc) := by
  obtain ⟨firstSound, firstInverse, firstRings⟩ := firstReached.rings
  obtain ⟨secondSound, secondInverse, secondRings⟩ := secondReached.rings
  obtain ⟨-, firstPtcbs⟩ := firstReached.ptcbRings
  obtain ⟨-, secondPtcbs⟩ := secondReached.ptcbRings
  obtain ⟨cur, isCaller, firstResult⟩ :=
    firstReached.execResult firstCurrent firstExecuted
  obtain ⟨other, isOther, secondResult⟩ :=
    secondReached.execResult secondCurrent secondExecuted
  have sameCaller : some cur = some other := by
    rw [← isCaller, same.caller, isOther]
  cases sameCaller
  obtain ⟨firstBytes, firstMain⟩ :=
    sysExec_created firstSound.resting firstExecuted
  obtain ⟨secondBytes, secondMain⟩ :=
    sysExec_created secondSound.resting secondExecuted
  have firstIff := firstResult.newProcess_iff isCaller firstMain firstInverse
    firstRings.inverse firstPtcbs
  have secondIff := secondResult.newProcess_iff isOther secondMain
    secondInverse secondRings.inverse secondPtcbs
  constructor
  · rintro ⟨sameProcess, firstNew, secondNew⟩
    refine ⟨firstIff.mp firstNew, secondIff.mp secondNew, ?_⟩
    rintro rfl
    exact (firstResult.sameSlot_iff secondResult).mp
      ⟨sameProcess.threadCount, sameProcess.ptcbs⟩
  · rintro ⟨firstClean, secondClean, sameSlot⟩
    have firstNew := firstIff.mpr firstClean
    have secondNew := secondIff.mpr secondClean
    refine ⟨?_, firstNew, secondNew⟩
    have slots : SameSlot firstAfter secondAfter newproc := by
      by_cases noCall : call = none
      · subst noCall
        exact (firstResult.sameSlot_iff secondResult).mpr (sameSlot rfl)
      · refine firstNew.sameSlot secondNew noCall ?_
        rw [firstMain noCall, secondMain noCall, same.freePtcb]
    refine ⟨?_, ?_, ?_, ?_, ⟨[], firstNew.children, secondNew.children⟩,
      ⟨[], firstNew.exited, secondNew.exited⟩, slots.2, slots.1⟩
    · rw [firstResult.pstate, secondResult.pstate]
    · rw [firstResult.parent, secondResult.parent]
    · rw [firstResult.FIDT, secondResult.FIDT, same.FIDT cur isCaller]
    · funext offset
      rw [firstBytes, secondBytes]
      split_ifs with copied
      · rw [same.bytes offset copied.2]
      · rfl

/-- A thread of `cur`, which has no descriptor open, is about to take the PCB
`newproc`. -/
structure ExecState
    (system : System limits)
    (cur newproc : Fin limits.maxProc)
    (slot ptcb : Fin limits.maxThreads) : Prop where
  isCurrent : system.currentSlot = some slot
  caller : system.kernel.currentProc = some cur
  freePcb : system.kernel.freePcb = some newproc
  freePtcb : system.kernel.freePtcb = some ptcb
  closed : ∀ fid, system.kernel.FIDT cur fid = none

theorem ExecState.sameCall
    {first second : System limits}
    {cur newproc : Fin limits.maxProc}
    {firstSlot secondSlot ptcb : Fin limits.maxThreads}
    (firstState : ExecState first cur newproc firstSlot ptcb)
    (secondState : ExecState second cur newproc secondSlot ptcb)
    (memory : Nat → UInt8) :
    SameCall first.kernel second.kernel 0 .null memory := by
  refine ⟨firstState.caller.trans secondState.caller.symm, ?_,
    firstState.freePcb.trans secondState.freePcb.symm,
    firstState.freePtcb.trans secondState.freePtcb.symm, ?_⟩
  · intro other isOther
    rw [firstState.caller] at isOther
    cases isOther
    funext fid
    rw [firstState.closed, secondState.closed]
  · intro offset inside
    omega

/-- A run whose last state is such a state, and in which the process that
`Exec` then creates passes a test. -/
theorem exists_execState_of_any
    {cur newproc : Fin limits.maxProc}
    {slot ptcb : Fin limits.maxThreads}
    {test : Kernel limits → Bool}
    (actions : List (Action limits))
    (ran : (System.run (fun _ _ => True) actions).any (fun system =>
      decide (system.currentSlot = some slot ∧
        system.kernel.currentProc = some cur ∧
        system.kernel.freePcb = some newproc ∧
        system.kernel.freePtcb = some ptcb ∧
        ∀ fid, system.kernel.FIDT cur fid = none) &&
      (system.kernel.sysExec (some 1) 0 .null fun _ => 0).toOption.any
        fun result => decide (result.1 = some newproc) &&
          test result.2) = true) :
    ∃ (system : System limits) (after : Kernel limits),
      Reached (fun _ _ => True) system ∧
      ExecState system cur newproc slot ptcb ∧
      system.kernel.sysExec (some 1) 0 .null (fun _ => 0) =
        .ok (some newproc, after) ∧
      test after = true := by
  obtain ⟨system, reached, passed⟩ := exists_reached_of_any actions ran
  obtain ⟨state, executes⟩ := Bool.and_eq_true_iff.mp passed
  obtain ⟨isCurrent, caller, freePcb, freePtcb, closed⟩ :=
    of_decide_eq_true state
  obtain ⟨⟨pid, after⟩, executed, result⟩ := exists_of_toOption_any executes
  obtain ⟨isPid, passed⟩ := Bool.and_eq_true_iff.mp result
  cases of_decide_eq_true isPid
  exact ⟨system, after, reached,
    ⟨isCurrent, caller, freePcb, freePtcb, closed⟩, executed, passed⟩

/-- The first process calls `Exec` for a second one, before and after it has
yielded. -/
theorem recycled_pcb_carries_nothing_first_child :
    ∃ first second : System ⟨3, 2, 1, 1⟩, ∃ firstAfter secondAfter,
      (Reached (fun _ _ => True) first ∧ Reached (fun _ _ => True) second ∧
        SameCall first.kernel second.kernel 0 .null (fun _ => 0) ∧
        first.kernel.sysExec (some 1) 0 .null (fun _ => 0) =
          .ok (some 2, firstAfter) ∧
        second.kernel.sysExec (some 1) 0 .null (fun _ => 0) =
          .ok (some 2, secondAfter)) ∧
      (SameProcess firstAfter secondAfter 2 ∧
          NewProcess firstAfter 2 (some 1) ∧
          NewProcess secondAfter 2 (some 1) ↔
        CleanSlot first.kernel 2 (some 1) ∧
          CleanSlot second.kernel 2 (some 1) ∧
          (some 1 = none → SameSlot first.kernel second.kernel 2)) := by
  have beforeYield : ∃ (system : System ⟨3, 2, 1, 1⟩) (after : Kernel _),
      Reached (fun _ _ => True) system ∧ ExecState system 1 2 0 1 ∧
      system.kernel.sysExec (some 1) 0 .null (fun _ => 0) =
        .ok (some 2, after) ∧ true = true :=
    exists_execState_of_any [.idle .zero, .start] (by decide +kernel)
  have afterYield : ∃ (system : System ⟨3, 2, 1, 1⟩) (after : Kernel _),
      Reached (fun _ _ => True) system ∧ ExecState system 1 2 0 1 ∧
      system.kernel.sysExec (some 1) 0 .null (fun _ => 0) =
        .ok (some 2, after) ∧ true = true :=
    exists_execState_of_any [.idle .zero, .start, .yield .user .zero]
      (by decide +kernel)
  obtain ⟨first, firstAfter, firstReached, firstState, firstExecuted, -⟩ :=
    beforeYield
  obtain ⟨second, secondAfter, secondReached, secondState, secondExecuted,
    -⟩ := afterYield
  have same := firstState.sameCall secondState fun _ => 0
  exact ⟨first, second, firstAfter, secondAfter,
    ⟨firstReached, secondReached, same, firstExecuted, secondExecuted⟩,
    recycled_pcb_carries_nothing firstReached secondReached
      firstState.isCurrent secondState.isCurrent same firstExecuted
      secondExecuted⟩

/-- The second process exits and is reaped, in one run with a child of its own
and in the other without.  The process that gets its slot has that child in the
first run and no child in the second. -/
theorem recycled_pcb_inherits_orphan :
    ∃ first second : System ⟨4, 4, 1, 1⟩, ∃ firstAfter secondAfter,
      Reached (fun _ _ => True) first ∧ Reached (fun _ _ => True) second ∧
      SameCall first.kernel second.kernel 0 .null (fun _ => 0) ∧
      first.kernel.sysExec (some 1) 0 .null (fun _ => 0) =
        .ok (some 2, firstAfter) ∧
      second.kernel.sysExec (some 1) 0 .null (fun _ => 0) =
        .ok (some 2, secondAfter) ∧
      firstAfter.children.links.next (.list 2) = .node 3 ∧
      secondAfter.children.links.next (.list 2) = .list 2 ∧
      ¬SameProcess firstAfter secondAfter 2 := by
  have withChild : ∃ (system : System ⟨4, 4, 1, 1⟩) (after : Kernel _),
      Reached (fun _ _ => True) system ∧ ExecState system 1 2 0 3 ∧
      system.kernel.sysExec (some 1) 0 .null (fun _ => 0) =
        .ok (some 2, after) ∧
      decide (after.children.links.next (.list 2) = .node 3) = true :=
    exists_execState_of_any
      [.idle .zero, .start, .exec (some 1) 0 .null fun _ => 0,
        .yield .user .zero, .start, .exec (some 1) 0 .null fun _ => 0,
        .exit 0 .zero, .waitChild 2 false .zero]
      (by decide +kernel)
  have withoutChild : ∃ (system : System ⟨4, 4, 1, 1⟩) (after : Kernel _),
      Reached (fun _ _ => True) system ∧ ExecState system 1 2 0 3 ∧
      system.kernel.sysExec (some 1) 0 .null (fun _ => 0) =
        .ok (some 2, after) ∧
      decide (after.children.links.next (.list 2) = .list 2) = true :=
    exists_execState_of_any
      [.idle .zero, .start, .exec (some 1) 0 .null fun _ => 0,
        .exec (some 1) 0 .null fun _ => 0, .yield .user .zero, .start,
        .exit 0 .zero, .yield .user .zero, .waitChild 2 false .zero]
      (by decide +kernel)
  obtain ⟨first, firstAfter, firstReached, firstState, firstExecuted,
    hasChild⟩ := withChild
  obtain ⟨second, secondAfter, secondReached, secondState, secondExecuted,
    hasNone⟩ := withoutChild
  have hasChild := of_decide_eq_true hasChild
  have hasNone := of_decide_eq_true hasNone
  refine ⟨first, second, firstAfter, secondAfter, firstReached, secondReached,
    firstState.sameCall secondState _, firstExecuted, secondExecuted,
    hasChild, hasNone, ?_⟩
  intro same
  obtain ⟨nodes, firstRing, secondRing⟩ := same.children
  have isEmpty := secondRing.next_head_eq_head_iff.mp hasNone
  have isHead := firstRing.next_head_eq_head_iff.mpr isEmpty
  rw [hasChild] at isHead
  cases isHead

end System
end TinierOS
