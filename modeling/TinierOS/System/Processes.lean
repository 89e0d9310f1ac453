import TinierOS.System.Single
import Mathlib.Data.Fintype.Card

/-!
# Lists of processes

The process table in runs without `CreateThread`: with a thread slot for every
process both rings of every process are right in every state, and `WaitChild`
returns a zombie of the caller with the value it passed to `Exit`.
-/

namespace TinierOS

variable {limits : Limits}

namespace Kernel

/-- Both rings of every process hold exactly its children, each once, and the
nodes of free PCBs are in no ring. -/
structure ProcessLists (kernel : Kernel limits) : Prop where
  children : ∀ pid, ∃ ring : List (Fin limits.maxProc),
    kernel.children.links.IsRing (.list pid) (ring.map .node) ∧
    ∀ child, child ∈ ring ↔ kernel.IsChild .alive child pid
  exited : ∀ pid, ∃ ring : List (Fin limits.maxProc),
    kernel.exited.links.IsRing (.list pid) (ring.map .node) ∧
    ∀ child, child ∈ ring ↔ kernel.IsChild .zombie child pid
  free : ∀ pid, kernel.pstate pid = .free →
    kernel.children.links.IsRing (.node pid) [] ∧
      kernel.exited.links.IsRing (.node pid) []

theorem RingsOf.alone
    {kernel : Kernel limits}
    {links : Links (PcbNode limits)}
    {state : PidState}
    {lists : Fin limits.maxProc → List (Fin limits.maxProc)}
    {pid : Fin limits.maxProc}
    (rings : kernel.RingsOf links state lists)
    (outside : kernel.pstate pid ≠ state) :
    links.IsRing (.node pid) [] :=
  rings.represents.alone trivial (rings.unlisted outside)

theorem processLists_of_rings
    {kernel : Kernel limits}
    (children : kernel.ChildrenRings)
    (zombies : kernel.ZombieRings) :
    kernel.ProcessLists := by
  obtain ⟨alive, aliveRings⟩ := children
  obtain ⟨exited, exitedRings⟩ := zombies
  refine ⟨?_, ?_, ?_⟩
  · intro pid
    exact ⟨alive pid, aliveRings.represents.ring pid, fun _ => aliveRings.mem⟩
  · intro pid
    exact ⟨exited pid, exitedRings.represents.ring pid,
      fun _ => exitedRings.mem⟩
  · intro pid isFree
    exact ⟨aliveRings.alone (by simp [isFree]),
      exitedRings.alone (by simp [isFree])⟩

/-- Every ring of one family loses exactly the node of `child`. -/
def Unlinked
    (before after : RlHeap (PcbNode limits) (Option (Fin limits.maxProc)))
    (child : Fin limits.maxProc) : Prop :=
  (∀ pid, ∃ ring : List (Fin limits.maxProc),
    before.links.IsRing (.list pid) (ring.map .node) ∧
    after.links.IsRing (.list pid) ((ring.erase child).map .node)) ∧
  after.links.IsRing (.node child) []

theorem RingsOf.unlinked
    {kernel : Kernel limits}
    {before after : RlHeap (PcbNode limits) (Option (Fin limits.maxProc))}
    {state : PidState}
    {lists : Fin limits.maxProc → List (Fin limits.maxProc)}
    {child : Fin limits.maxProc}
    (rings : kernel.RingsOf before.links state lists)
    (removed : after = before.rlistRemove (.node child)) :
    Unlinked before after child := by
  have unlinked : (pcbLayout limits).Represents
      (before.links.splice (.node child) (before.links.prev (.node child)))
      (fun pid => (lists pid).erase child) fun _ => True :=
    rings.represents.unlink trivial
  rw [removed, Unlinked, RlHeap.rlistRemove_links]
  refine ⟨fun pid => ⟨lists pid, rings.represents.ring pid,
    unlinked.ring pid⟩, unlinked.alone trivial ?_⟩
  intro pid
  rw [(rings.represents.nodup pid).mem_erase_iff]
  simp

/-- With a thread slot for every process, `Exec` finds a thread whenever it
finds a PCB. -/
theorem OwnersAlive.freeSlot_ne_none
    {kernel : Kernel limits}
    {newproc : Fin limits.maxProc}
    (owners : kernel.OwnersAlive)
    (owned : ∀ slot, kernel.threadUsed slot = true →
      ∃ proc, kernel.owner slot = some proc)
    (enough : limits.maxProc ≤ limits.maxThreads)
    (isFree : kernel.pstate newproc = .free) :
    kernel.sched.freeSlot ≠ none := by
  intro full
  have allUsed : ∀ slot, kernel.threadUsed slot = true :=
    Sched.freeSlot_eq_none_iff.mp full
  choose owner isOwner using fun slot => owned slot (allUsed slot)
  have injective : Function.Injective owner := by
    intro first second same
    refine owners.distinct (allUsed first) (allUsed second) ?_
    rw [isOwner, isOwner, same]
  have missed : newproc ∉ Set.range owner := by
    rintro ⟨slot, rfl⟩
    have isAlive := owners.alive (allUsed slot) (isOwner slot)
    rw [isFree] at isAlive
    cases isAlive
  have fewer := Fintype.card_lt_of_injective_of_notMem owner injective missed
  rw [Fintype.card_fin, Fintype.card_fin] at fewer
  omega

end Kernel

namespace System

open Kernel

/-- So every `Exec` keeps the rings. -/
theorem Reached.execSafe_of_single
    {allowed : System limits → Action limits → Prop}
    {system : System limits}
    (reached : Reached allowed system)
    (enough : limits.maxProc ≤ limits.maxThreads)
    (singleThreaded : ∀ {before action}, allowed before action →
      before.SingleThreaded action) :
    Reached ExecSafe system := by
  refine reached.of_steps ?_
  intro before action reachedBefore isAllowed
  cases action with
  | exec call argl args memory =>
      show before.kernel.ExecKeepsRings call
      cases free : before.kernel.freePcb with
      | none =>
          refine .inl ?_
          rw [free, Option.bind_none]
      | some newproc =>
          have isFree : before.kernel.pstate newproc = .free := by
            simpa [Kernel.pstate] using firstIndex_test free
          have single := reachedBefore.single singleThreaded
          exact .inr (.inr (single.owners.freeSlot_ne_none
            reachedBefore.rings.1.owned enough isFree))
  | _ => trivial

end System

namespace History

open TinierOS.System TinierOS.Kernel

/-- A zombie keeps the value it passed to `Exit`. -/
def ExitValues (history : History limits) : Prop :=
  ∀ pid, history.system.kernel.pstate pid = .zombie →
    history.exitValue pid = some (history.system.kernel.exitval pid)

/-- Steps that change neither zombies nor exit values. -/
theorem ExitValues.of_same
    {before : History limits}
    {action : Action limits}
    {after : System limits}
    (values : before.ExitValues)
    (procs : SameProcs before.system.kernel after.kernel)
    (quiet : after.reply.Quiet)
    (notExit : action.exitval = none) :
    (before.record action after).ExitValues := by
  intro pid isZombie
  have wasZombie : after.kernel.pstate pid = .zombie := isZombie
  rw [procs.pstate] at wasZombie
  rw [exitValue_of_notExit quiet.newPid notExit]
  show before.exitValue pid = some (after.kernel.exitval pid)
  rw [procs.exitval]
  exact values pid wasZombie

theorem ExitValues.step
    {before : History limits}
    {action : Action limits}
    {after : System limits}
    (values : before.ExitValues)
    (effect : Effect before.system action after) :
    (before.record action after).ExitValues := by
  cases effect with
  | stay notExit procs files threads ptcbs control reply =>
      exact values.of_same procs reply notExit
  | executed caller newproc isCurrent proc files threads control reply =>
      intro pid isZombie
      have different : pid ≠ newproc := by
        rintro rfl
        have isAlive : after.kernel.pstate pid = .alive := by
          rw [proc.pstate, Function.update_self]
        have isZombie : after.kernel.pstate pid = .zombie := isZombie
        rw [isAlive] at isZombie
        cases isZombie
      have wasZombie : after.kernel.pstate pid = .zombie := isZombie
      rw [proc.pstate, Function.update_of_ne different] at wasZombie
      rw [(record_of_exec reply).2.2.1, Function.update_of_ne different]
      show before.exitValue pid = some (after.kernel.exitval pid)
      rw [proc.exitval]
      exact values pid wasZombie
  | execFailed caller newproc isCurrent isCall noSlot proc files threads ptcbs
      control reply =>
      intro pid isZombie
      have wasZombie : after.kernel.pstate pid = .zombie := isZombie
      have different : pid ≠ newproc := by
        rintro rfl
        rw [proc.pstate, Function.update_self] at wasZombie
        cases wasZombie
      rw [proc.pstate, Function.update_of_ne different] at wasZombie
      rw [exitValue_of_notExit reply.newPid rfl]
      show before.exitValue pid = some (after.kernel.exitval pid)
      rw [proc.exitval]
      exact values pid wasZombie
  | exited leaver proc isCurrent owned procs files threads ptcbs control
      reply =>
      have isCaller : before.system.kernel.currentProc = some proc := by
        exact currentProc_of_owned isCurrent owned
      intro pid isZombie
      have wasZombie : after.kernel.pstate pid = .zombie := isZombie
      rw [exitValue_of_exit reply.newPid isCaller rfl]
      show _ = some (after.kernel.exitval pid)
      rw [procs.exitval]
      by_cases same : pid = proc
      · rw [same, Function.update_self, Function.update_self]
      · rw [procs.pstate, Function.update_of_ne same] at wasZombie
        rw [Function.update_of_ne same, Function.update_of_ne same]
        exact values pid wasZombie
  | threadExited leaver proc isCurrent owned procs files threads ptcbs control
      reply => exact values.of_same procs reply rfl
  | reaped reaper reaped status isCurrent reason procs files threads ptcbs
      control reply =>
      intro pid isZombie
      have wasZombie : after.kernel.pstate pid = .zombie := isZombie
      have different : pid ≠ reaped := by
        rintro rfl
        rw [procs.pstate, Function.update_self] at wasZombie
        cases wasZombie
      rw [procs.pstate, Function.update_of_ne different] at wasZombie
      have noExec : after.reply.newPid = none := by
        rw [reply]
        rfl
      rw [exitValue_of_notExit noExec reason.notExit]
      show before.exitValue pid = some (after.kernel.exitval pid)
      rw [procs.exitval]
      exact values pid wasZombie
  | threadCreated caller new proc isCurrent owned procs files thread ptcbs
      control reply => exact values.of_same procs reply rfl
  | streams caller notExit isCurrent call only control reply =>
      exact values.of_same only.procs reply notExit

/-- No process has exited when the scheduler starts. -/
theorem ExitValues.of_booted
    {system : System limits}
    (booted : system.Booted) :
    (start system).ExitValues := by
  intro pid isZombie
  obtain ⟨first, kernel, effect, procs, -⟩ := booted.tables
  have isZombie : system.kernel.pstate pid = .zombie := isZombie
  have notZombie : (initial limits).pstate pid ≠ .zombie := by
    rw [initial_fresh.pstate]
    split_ifs <;> simp
  rw [procs.pstate] at isZombie
  have created : ∀ {newproc state},
      ProcCreated (initial limits) kernel newproc state →
        state ≠ .zombie → False := by
    intro newproc state proc other
    rw [proc.pstate, Function.update_apply] at isZombie
    split_ifs at isZombie with same
    · exact other isZombie
    · exact notZombie isZombie
  cases effect with
  | full noPcb => exact absurd isZombie notZombie
  | threadless newproc noCall proc files threads ptcbs sched =>
      exact (created proc (by simp)).elim
  | failed newproc isCall noSlot proc files threads ptcbs sched =>
      exact (created proc (by simp)).elim
  | started newproc slot isCall proc files thread ptcbs current =>
      exact (created proc (by simp)).elim

theorem Reached.exitValues
    {allowed : System limits → Action limits → Prop}
    {history : History limits}
    (reached : Reached allowed history) :
    history.ExitValues := by
  refine reached.invariant (motive := ExitValues) ?_ ?_
  · exact fun booted => .of_booted booted
  · intro before action after sound rings values enabled isAllowed effect
    exact values.step effect

/-- What a call of `WaitChild` that returns `child` has done. -/
structure WaitReturns
    (before : History limits)
    (action : Action limits)
    (after : System limits)
    (child : Fin limits.maxProc)
    (status : Option Int) : Prop where
  zombie : ∃ parent, before.system.kernel.currentProc = some parent ∧
    before.system.kernel.IsChild .zombie child parent
  status : ∃ slot value, before.system.currentSlot = some slot ∧
    before.exitValue child = some value ∧
    status = if before.system.statusWanted slot action then some value
      else none
  freed : after.kernel.pstate =
    Function.update before.system.kernel.pstate child .free
  children : Unlinked before.system.kernel.children after.kernel.children child
  exited : Unlinked before.system.kernel.exited after.kernel.exited child

theorem waitReturns_of_effect
    {before : History limits}
    {action : Action limits}
    {after : System limits}
    {child : Fin limits.maxProc}
    {status : Option Int}
    (sound : before.system.Sound)
    (rings : before.system.kernel.ExitedRings)
    (single : before.system.Single)
    (children : before.system.kernel.ChildrenRings)
    (values : before.ExitValues)
    (effect : Effect before.system action after)
    (returned : after.reply = .waitChild (some child) status) :
    WaitReturns before action after child status := by
  have notQuiet : ¬after.reply.Quiet := by
    rw [returned]
    exact id
  cases effect with
  | reaped reaper reaped wanted isCurrent reason procs files threads ptcbs
      control reply =>
      rw [returned] at reply
      injection reply with sameChild sameStatus
      cases sameChild
      obtain ⟨parent, owned, isChild⟩ :=
        single.isChild_of_reaps sound rings isCurrent reason
      obtain ⟨alive, aliveRings⟩ := children
      obtain ⟨exited, exitedRings⟩ := single.zombies
      refine ⟨⟨parent, ?_, isChild⟩, ⟨reaper, _, isCurrent,
        values child isChild.1, ?_⟩, procs.pstate,
        aliveRings.unlinked procs.children, exitedRings.unlinked procs.exited⟩
      · exact currentProc_of_owned isCurrent owned
      · rw [reason.statusWanted]
        exact sameStatus
  | executed caller newproc isCurrent proc files threads control reply =>
      rw [returned] at reply
      cases reply
  | stay notExit procs files threads ptcbs control reply =>
      exact absurd reply notQuiet
  | execFailed caller newproc isCurrent isCall noSlot proc files threads ptcbs
      control reply => exact absurd reply notQuiet
  | exited leaver proc isCurrent owned procs files threads ptcbs control
      reply => exact absurd reply notQuiet
  | threadExited leaver proc isCurrent owned procs files threads ptcbs control
      reply => exact absurd reply notQuiet
  | threadCreated caller new proc isCurrent owned procs files thread ptcbs
      control reply => exact absurd reply notQuiet
  | streams caller notExit isCurrent call only control reply =>
      exact absurd reply notQuiet

/-- With a thread slot for every process and no `CreateThread`, the rings of all
processes are right in every state of every run, and whenever `WaitChild`
returns a child, it has reaped a zombie of the caller and nothing else. -/
theorem process_lists
    {history : History limits}
    (enough : limits.maxProc ≤ limits.maxThreads)
    (reached : Reached SingleThreaded history) :
    history.system.kernel.ProcessLists ∧
      ∀ action after child status, history.system.Enabled action →
        history.system.step action = .ok after →
        after.reply = .waitChild (some child) status →
          WaitReturns history action after child status := by
  have systemReached := reached.system
  obtain ⟨sound, -, rings⟩ := systemReached.rings
  have single := systemReached.single id
  have children := (systemReached.execSafe_of_single enough id).childrenRings
  refine ⟨processLists_of_rings children single.zombies, ?_⟩
  intro action after child status enabled stepped returned
  exact waitReturns_of_effect sound rings single children reached.exitValues
    (sound.step enabled stepped).2 returned

/-- A child has exited with 7 and its parent waits for it. -/
theorem process_lists_one_child :
    ∃ history : History ⟨3, 3, 4, 4⟩,
      ((⟨3, 3, 4, 4⟩ : Limits).maxProc ≤ (⟨3, 3, 4, 4⟩ : Limits).maxThreads ∧
        Reached SingleThreaded history ∧
        history.system.kernel.IsChild .zombie 2 1) ∧
      history.system.kernel.ProcessLists ∧
        ∀ action after child status, history.system.Enabled action →
            history.system.step action = .ok after →
          after.reply = .waitChild (some child) status →
            WaitReturns history action after child status := by
  have ran : ∃ history : History ⟨3, 3, 4, 4⟩,
      Reached SingleThreaded history ∧
        decide (history.system.kernel.pstate 2 = .zombie ∧
          history.system.kernel.parent 2 = some 1) = true :=
    exists_reached_of_any
      [.idle .zero, .start, .exec (some 1) 0 .null fun _ => 0,
        .waitChild 2 true .zero, .start, .exit 7 .zero] (by decide +kernel)
  obtain ⟨history, reached, test⟩ := ran
  obtain ⟨isZombie, isParent⟩ := of_decide_eq_true test
  exact ⟨history, ⟨by decide, reached, isZombie, isParent⟩,
    process_lists (by decide) reached⟩

end History
end TinierOS
