import TinierOS.System.Boot
import TinierOS.Proc.Rings

/-!
# Children of a process

`Exec` links a new process to its parent before it asks for a thread, and
`WaitChild(NOPROC)` looks for children in one of the two rings only.  Both calls
are described here exactly, in every state of every run.
-/

namespace TinierOS

variable {limits : Limits}

namespace Kernel

/-! ## A failed `Exec` -/

/-- The ring that starts at the list head of a process is the same, in both
directions. -/
structure SameRing
    (before after : RlHeap (PcbNode limits) (Option (Fin limits.maxProc)))
    (pid : Fin limits.maxProc) : Prop where
  forward : ∀ steps, after.links.next^[steps] (.list pid) =
    before.links.next^[steps] (.list pid)
  backward : ∀ steps, after.links.prev^[steps] (.list pid) =
    before.links.prev^[steps] (.list pid)

/-- Nothing that a call of `Exec` could have changed is different: processes,
rings, files, threads and queues. -/
structure NoTrace (before after : Kernel limits) : Prop where
  pstate : after.pstate = before.pstate
  fields : ∀ pid, before.pstate pid ≠ .free → after.pcb pid = before.pcb pid
  children : ∀ pid, SameRing before.children after.children pid
  exited : ∀ pid, SameRing before.exited after.exited pid
  fcb : after.fcb = before.fcb
  freelist : after.freelist = before.freelist
  sched : after.sched = before.sched

/-- `Exec` does not link a process that it then has no thread for: there is no
parent to link it to, or no task, or some thread slot is free. -/
def ExecKeepsRings
    (kernel : Kernel limits)
    (call : Option Task) : Prop :=
  kernel.freePcb.bind kernel.execParent = none ∨ call = none ∨
    kernel.sched.freeSlot ≠ none

instance (kernel : Kernel limits) (call : Option Task) :
    Decidable (kernel.ExecKeepsRings call) :=
  inferInstanceAs (Decidable (_ ∨ _ ∨ _))

theorem NoTrace.refl (kernel : Kernel limits) : NoTrace kernel kernel :=
  ⟨rfl, fun _ _ => rfl, fun _ => ⟨fun _ => rfl, fun _ => rfl⟩,
    fun _ => ⟨fun _ => rfl, fun _ => rfl⟩, rfl, rfl, rfl⟩

/-- The front of the parent's ring has changed, whatever was in the ring. -/
theorem linkedChildren_front_ne
    {kernel : Kernel limits}
    {newproc parent : Fin limits.maxProc}
    (inverse : kernel.children.links.Inverse)
    (isParent : kernel.execParent newproc = some parent) :
    (kernel.linkedChildren newproc).links.next (.list parent) ≠
      kernel.children.links.next (.list parent) := by
  rw [linkedChildren, isParent, RlHeap.rlistPushFront_links,
    Links.splice_next_left]
  intro same
  cases inverse.next_injective same

theorem ExecEffect.noTrace_iff
    {before after : Kernel limits}
    {call : Option Task}
    {pid : Option (Fin limits.maxProc)}
    (inverse : before.children.links.Inverse)
    (effect : ExecEffect before call pid after) :
    (pid = none → NoTrace before after) ↔ before.ExecKeepsRings call := by
  cases effect with
  | full noPcb =>
      refine ⟨fun _ => .inl ?_, fun _ _ => NoTrace.refl _⟩
      rw [noPcb, Option.bind_none]
  | threadless newproc noCall proc files threads ptcbs sched =>
      exact ⟨fun _ => .inr (.inl noCall), nofun⟩
  | started newproc slot isCall proc files thread ptcbs current =>
      refine ⟨fun _ => .inr (.inr ?_), nofun⟩
      rw [thread.free]
      simp
  | failed newproc isCall noSlot proc files threads ptcbs sched =>
      have keeps_iff : before.ExecKeepsRings call ↔
          before.execParent newproc = none := by
        simp [ExecKeepsRings, proc.free, isCall, noSlot]
      rw [keeps_iff]
      constructor
      · intro noTrace
        cases isParent : before.execParent newproc with
        | none => rfl
        | some parent =>
            have front := ((noTrace rfl).children parent).forward 1
            rw [proc.children] at front
            exact absurd front (linkedChildren_front_ne inverse isParent)
      · intro noParent _
        have children : after.children = before.children := by
          rw [proc.children, linkedChildren, noParent]
        refine ⟨?_, ?_, ?_, ?_, files.fcb, files.freelist, sched⟩
        · rw [proc.pstate, ← proc.wasFree, Function.update_eq_self]
        · intro other notFree
          refine proc.others other ?_
          rintro rfl
          exact notFree proc.wasFree
        · rw [children]
          exact fun _ => ⟨fun _ => rfl, fun _ => rfl⟩
        · rw [proc.exited]
          exact fun _ => ⟨fun _ => rfl, fun _ => rfl⟩

/-- The rings of all processes hold the new process exactly once, with its
parent. -/
def LinkedOnce
    (kernel : Kernel limits)
    (newproc parent : Fin limits.maxProc) : Prop :=
  ∃ lists : Fin limits.maxProc → List (Fin limits.maxProc),
    (∀ pid, kernel.children.links.IsRing (.list pid)
      ((lists pid).map .node)) ∧
    (lists parent).count newproc = 1 ∧
    ∀ other, other ≠ parent → newproc ∉ lists other

theorem ExecEffect.linkedOnce
    {before after : Kernel limits}
    {call : Option Task}
    {newproc parent : Fin limits.maxProc}
    (rings : before.ChildrenRings)
    (effect : ExecEffect before call (some newproc) after)
    (isParent : before.execParent newproc = some parent) :
    after.LinkedOnce newproc parent := by
  have created : ProcCreated before after newproc .alive := by
    cases effect with
    | threadless newproc noCall proc files threads ptcbs sched => exact proc
    | started newproc slot isCall proc files thread ptcbs current => exact proc
  obtain ⟨lists, ringsAfter, member⟩ := rings.of_created_alive created
  have represents := ringsAfter.represents
  refine ⟨lists, represents.ring, ?_, ?_⟩
  · exact List.count_eq_one_of_mem (represents.nodup parent)
      (member parent isParent)
  · intro other different again
    exact different (represents.unique again (member parent isParent))

end Kernel

namespace System

open Kernel

theorem Effect.procChange
    {before after : System limits}
    {action : Action limits}
    (effect : Effect before action after) :
    ProcChange before.kernel after.kernel := by
  cases effect with
  | stay notExit procs files threads ptcbs control reply => exact .same procs
  | executed slot newproc isCurrent proc files threads control reply =>
      exact .created proc
  | execFailed slot newproc isCurrent isCall noSlot proc files threads ptcbs
      control reply => exact .created proc
  | exited slot proc isCurrent owned procs files threads ptcbs control reply =>
      exact .exited procs
  | threadExited slot proc isCurrent owned procs files threads ptcbs control
      reply => exact .same procs
  | reaped slot child status isCurrent reason procs files threads ptcbs control
      reply => exact .reaped procs
  | threadCreated slot new proc isCurrent owned procs files thread ptcbs
      control reply => exact .same procs
  | streams slot notExit isCurrent call only control reply => exact .same only.procs

end System

namespace Kernel

theorem ExecEffect.procChange
    {before after : Kernel limits}
    {call : Option Task}
    {pid : Option (Fin limits.maxProc)}
    (effect : ExecEffect before call pid after) :
    ProcChange before after := by
  cases effect with
  | full noPcb => exact .same ⟨rfl, rfl, rfl, rfl, rfl⟩
  | threadless newproc noCall proc files threads ptcbs sched =>
      exact .created proc
  | failed newproc isCall noSlot proc files threads ptcbs sched =>
      exact .created proc
  | started newproc slot isCall proc files thread ptcbs current =>
      exact .created proc

theorem Fresh.children_inverse
    {kernel : Kernel limits}
    (fresh : kernel.Fresh) :
    kernel.children.links.Inverse := by
  constructor <;> intro node <;> cases node <;>
    simp [fresh.childrenNull, fresh.childrenList, fresh.childrenNode, singleton]

theorem Fresh.exitedRings
    {kernel : Kernel limits}
    (fresh : kernel.Fresh) :
    kernel.ExitedRings := by
  have alone : ∀ node, kernel.exited.links.next node = node ∧
      kernel.exited.links.prev node = node := by
    intro node
    cases node <;>
      simp [fresh.exitedNull, fresh.exitedList, fresh.exitedNode, singleton]
  constructor
  · constructor <;> intro node
    · rw [(alone node).1, (alone node).2]
    · rw [(alone node).2, (alone node).1]
  · intro node
    rw [(alone node).1]
  · intro pid
    rw [fresh.exitedNode]
    rfl
  · intro pid isLinked
    exact absurd (alone _).1 isLinked

theorem Fresh.childrenRings
    {kernel : Kernel limits}
    (fresh : kernel.Fresh) :
    kernel.ChildrenRings := by
  refine ⟨fun _ => [], Layout.Represents.of_singletons ?_ ?_, ?_⟩
  · intro pid
    simp [Links.Follows, pcbLayout, fresh.childrenList, singleton]
  · intro pid _
    simp [Links.Follows, pcbLayout, fresh.childrenNode, singleton]
  · intro pid parent
    simp [IsChild, fresh.parent]

/-- The first process has no parent. -/
theorem ChildrenRings.of_firstExec
    {before after : Kernel limits}
    {call : Option Task}
    {pid : Option (Fin limits.maxProc)}
    (fresh : before.Fresh)
    (effect : ExecEffect before call pid after) :
    after.ChildrenRings := by
  have rings := fresh.childrenRings
  cases effect with
  | full noPcb => exact rings
  | threadless newproc noCall proc files threads ptcbs sched =>
      obtain ⟨lists, rings, -⟩ := rings.of_created_alive proc
      exact ⟨lists, rings⟩
  | failed newproc isCall noSlot proc files threads ptcbs sched =>
      exact rings.of_created_free proc (fresh.execParent newproc)
  | started newproc slot isCall proc files thread ptcbs current =>
      obtain ⟨lists, rings, -⟩ := rings.of_created_alive proc
      exact ⟨lists, rings⟩

end Kernel

namespace System

open Kernel

theorem Booted.exitedRings
    {start : System limits}
    (booted : start.Booted) :
    start.kernel.ExitedRings := by
  obtain ⟨pid, kernel, effect, procs, -⟩ := booted.tables
  exact (initial_fresh.exitedRings.of_change effect.procChange).of_same procs

/-- The exited children are with their parents in every run, so an invariant
may rely on it. -/
theorem Reached.invariant_with_rings
    {allowed : System limits → Action limits → Prop}
    {motive : System limits → Prop}
    {system : System limits}
    (reached : Reached allowed system)
    (booted : ∀ {start}, Booted start → motive start)
    (preserved : ∀ {before action after}, before.Sound →
      before.kernel.ExitedRings → motive before → before.Enabled action →
        allowed before action → Effect before action after → motive after) :
    system.Sound ∧ system.kernel.ExitedRings ∧ motive system := by
  refine reached.invariant (motive := fun system =>
    system.kernel.ExitedRings ∧ motive system) ?_ ?_
  · exact fun begins => ⟨begins.exitedRings, booted begins⟩
  · rintro before action after sound ⟨rings, holds⟩ enabled isAllowed effect
    exact ⟨rings.of_change effect.procChange,
      preserved sound rings holds enabled isAllowed effect⟩

/-- In every run both families of nodes lie on rings, and the exited children
are with their parents. -/
theorem Reached.rings
    {allowed : System limits → Action limits → Prop}
    {system : System limits}
    (reached : Reached allowed system) :
    system.Sound ∧ system.kernel.children.links.Inverse ∧
      system.kernel.ExitedRings := by
  obtain ⟨sound, rings, inverse⟩ := reached.invariant_with_rings
    (motive := fun system => system.kernel.children.links.Inverse)
    (by
      intro start booted
      obtain ⟨pid, kernel, effect, procs, -⟩ := booted.tables
      exact children_inverse_of_change (children_inverse_of_change
        initial_fresh.children_inverse effect.procChange) (.same procs))
    (by
      intro before action after sound rings inverse enabled isAllowed effect
      exact children_inverse_of_change inverse effect.procChange)
  exact ⟨sound, inverse, rings⟩

/-- Every `Exec` either finds a thread or fails before it links the process. -/
def ExecSafe (system : System limits) : Action limits → Prop
  | .exec call _ _ _ => system.kernel.ExecKeepsRings call
  | _ => True

instance (system : System limits) (action : Action limits) :
    Decidable (system.ExecSafe action) :=
  match action with
  | .exec call _ _ _ =>
      inferInstanceAs (Decidable (system.kernel.ExecKeepsRings call))
  | .idle _ | .start | .yield _ _ | .wakeup _ | .exit _ _ | .waitChild _ _ _
  | .createThread _ _ _ | .threadExit _ _ | .threadJoin _ _ _
  | .threadDetach _ | .openNull | .openTerminal _ | .close _ | .resume _ =>
      inferInstanceAs (Decidable True)

/-- When every `Exec` does so, `children_list` holds the living children. -/
theorem Reached.childrenRings
    {system : System limits}
    (reached : Reached ExecSafe system) :
    system.kernel.ChildrenRings := by
  refine (reached.invariant (motive := fun system =>
    system.kernel.ChildrenRings) ?_ ?_).2
  · intro start booted
    obtain ⟨pid, kernel, effect, procs, -⟩ := booted.tables
    exact (ChildrenRings.of_firstExec initial_fresh effect).of_same procs
  · intro before action after sound rings enabled isAllowed effect
    cases effect with
    | stay notExit procs files threads ptcbs control reply => exact rings.of_same procs
    | executed slot newproc isCurrent proc files threads control reply =>
        obtain ⟨lists, rings, -⟩ := rings.of_created_alive proc
        exact ⟨lists, rings⟩
    | execFailed slot newproc isCurrent isCall noSlot proc files threads ptcbs
        control reply =>
        refine rings.of_created_free proc ?_
        have keeps : before.kernel.ExecKeepsRings _ := isAllowed
        simpa [ExecKeepsRings, proc.free, isCall, noSlot] using keeps
    | exited slot proc isCurrent owned procs files threads ptcbs control
        reply => exact rings.of_exited procs
    | threadExited slot proc isCurrent owned procs files threads ptcbs control
        reply => exact rings.of_same procs
    | reaped slot child status isCurrent reason procs files threads ptcbs
        control reply => exact rings.of_reaped procs
    | threadCreated slot new proc isCurrent owned procs files thread ptcbs
        control reply => exact rings.of_same procs
    | streams slot notExit isCurrent call only control reply =>
        exact rings.of_same only.procs

/-- In every state of every run, a failed `Exec` leaves no trace if and only if
it failed before it linked the process.  In runs where it always does, a
successful `Exec` puts the process in its parent's ring exactly once. -/
theorem exec_leaves_no_trace
    {system : System limits}
    (reached : Reached (fun _ _ => True) system)
    (call : Option Task)
    (argl : Int)
    (args : ArgPtr limits)
    (memory : Nat → UInt8) :
    ∃ pid after,
      system.kernel.sysExec call argl args memory = .ok (pid, after) ∧
      ((pid = none → NoTrace system.kernel after) ↔
        system.kernel.ExecKeepsRings call) ∧
      (Reached ExecSafe system → ∀ newproc parent, pid = some newproc →
        system.kernel.execParent newproc = some parent →
          after.LinkedOnce newproc parent) := by
  obtain ⟨sound, inverse, -⟩ := reached.rings
  obtain ⟨pid, after, executed, -, effect⟩ :=
    sysExec_effect sound.resting call argl args memory
  refine ⟨pid, after, executed, effect.noTrace_iff inverse, ?_⟩
  intro safe newproc parent isPid isParent
  subst isPid
  exact effect.linkedOnce safe.childrenRings isParent

/-- The first process creates a child. -/
theorem exec_leaves_no_trace_first_child :
    ∃ system : System ⟨3, 2, 4, 4⟩,
      (Reached (fun _ _ => True) system ∧ Reached ExecSafe system ∧
        system.currentControl = some .user) ∧
      ∃ pid after,
        system.kernel.sysExec (some 1) 0 .null (fun _ => 0) =
          .ok (pid, after) ∧
        ((pid = none → NoTrace system.kernel after) ↔
          system.kernel.ExecKeepsRings (some 1)) ∧
        (Reached ExecSafe system → ∀ newproc parent, pid = some newproc →
          system.kernel.execParent newproc = some parent →
            after.LinkedOnce newproc parent) := by
  have ran : ∃ system : System ⟨3, 2, 4, 4⟩, Reached ExecSafe system ∧
      decide (system.currentControl = some .user) = true :=
    exists_reached_of_any [.idle .zero, .start] (by decide +kernel)
  obtain ⟨system, safe, calls⟩ := ran
  have calls := of_decide_eq_true calls
  have reached : Reached (fun _ _ => True) system :=
    safe.mono fun _ => trivial
  exact ⟨system, ⟨reached, safe, calls⟩,
    exec_leaves_no_trace reached (some 1) 0 .null fun _ => 0⟩

/-- With one thread slot, the first process is refused a child and keeps the
PCB it did not get in its ring of children. -/
theorem exec_failed_links_free_process :
    ∃ (system : System ⟨3, 1, 4, 4⟩) (after : Kernel ⟨3, 1, 4, 4⟩),
      Reached (fun _ _ => True) system ∧
      system.currentControl = some .user ∧
      system.kernel.sysExec (some 1) 0 .null (fun _ => 0) =
        .ok (none, after) ∧
      ¬NoTrace system.kernel after := by
  have ran : ∃ system : System ⟨3, 1, 4, 4⟩,
      Reached (fun _ _ => True) system ∧
        decide (system.currentControl = some .user ∧
          system.kernel.sched.freeSlot = none ∧
          ¬system.kernel.ExecKeepsRings (some 1)) = true :=
    exists_reached_of_any [.idle .zero, .start] (by decide +kernel)
  obtain ⟨system, reached, test⟩ := ran
  obtain ⟨calls, noSlot, trace⟩ := of_decide_eq_true test
  obtain ⟨sound, inverse, -⟩ := reached.rings
  obtain ⟨pid, after, executed, -, effect⟩ :=
    sysExec_effect sound.resting (some 1) 0 .null fun _ => 0
  have failed : pid = none := by
    cases effect with
    | full noPcb => rfl
    | threadless newproc noCall proc files threads ptcbs sched => cases noCall
    | failed newproc isCall noSlot proc files threads ptcbs sched => rfl
    | started newproc slot isCall proc files thread ptcbs current =>
        have found := thread.free
        rw [noSlot] at found
        cases found
  subst failed
  refine ⟨system, after, reached, calls, executed, fun noTrace => trace ?_⟩
  exact (effect.noTrace_iff inverse).mp fun _ => noTrace

/-! ## `WaitChild(NOPROC)` -/

/-- What `WaitChild(NOPROC)` promises about its answer: `NOPROC` exactly when
`parent` has no child, and a zombie with its exit value when all its children
have exited. -/
structure SeesChildren
    (kernel : Kernel limits)
    (parent : Fin limits.maxProc)
    (status : Bool)
    (reply : Reply limits) : Prop where
  noproc : reply = .waitChild none none ↔
    ∀ pid, kernel.parent pid = some parent → kernel.pstate pid = .free
  allExited : (∃ pid, kernel.IsChild .zombie pid parent) →
    (∀ pid, ¬kernel.IsChild .alive pid parent) →
      ∃ pid, kernel.IsChild .zombie pid parent ∧
        reply = .waitChild (some pid)
          (if status then some (kernel.exitval pid) else none)

/-- One test of the second loop: it yields when no child has exited, else it
returns one that has. -/
theorem Sound.waitAnyLoop_returns
    {system : System limits}
    {slot : Fin limits.maxThreads}
    {parent : Fin limits.maxProc}
    (sound : system.Sound)
    (rings : system.kernel.ExitedRings)
    (isCurrent : system.currentSlot = some slot)
    (status : Bool)
    (clock : Clock) :
    ∃ after, system.waitAnyLoop slot parent status clock = .ok after ∧
      (system.kernel.exited.isRlistEmpty (.list parent) = true ∧
          after.reply = .none ∨
        system.kernel.exited.isRlistEmpty (.list parent) = false ∧
          ∃ child, system.kernel.IsChild .zombie child parent ∧
            after.reply = .waitChild (some child)
              (if status then some (system.kernel.exitval child)
                else none)) := by
  unfold System.waitAnyLoop pollAny
  by_cases empty : system.kernel.exited.isRlistEmpty (.list parent) = true
  · obtain ⟨lists, inv⟩ := sound.resting
    obtain ⟨next, sched, lists', yielded, -⟩ :=
      inv.yield (currentSlot_eq_some.mp isCurrent) .user clock.remaining
        clock.curtime
    rw [if_pos empty, System.suspend, yielded]
    exact ⟨_, rfl, .inl ⟨empty, rfl⟩⟩
  · have nonempty :
        (system.kernel.exited (.list parent)).next ≠ .list parent := by
      intro same
      exact empty (by simp [RlHeap.isRlistEmpty, same])
    obtain ⟨child, -, front, isChild⟩ := rings.front nonempty
    rw [if_neg empty, front]
    exact ⟨_, rfl, .inr ⟨Bool.eq_false_of_not_eq_true empty, child, isChild,
      rfl⟩⟩

theorem sysWaitChild_any
    {system : System limits}
    {slot : Fin limits.maxThreads}
    {parent : Fin limits.maxProc}
    (owned : system.kernel.owner slot = some parent)
    (status : Bool)
    (clock : Clock) :
    system.sysWaitChild slot (-1) status clock =
      if system.kernel.children.isRlistEmpty (.list parent) = true then
        .ok (system.returning slot system.kernel (.waitChild none none))
      else system.waitAnyLoop slot parent status clock := by
  have owns : (system.kernel.sched.tcb (.slot slot)).ownerPcb = some parent :=
    owned
  simp [sysWaitChild, owns]

/-- The two rings of a process say about its children what `WaitChild` takes them
to say: the first one is empty when there is no child, and else there is a living
child or one in the second ring. -/
def TellsChildren
    (kernel : Kernel limits)
    (parent : Fin limits.maxProc) : Prop :=
  if kernel.children.isRlistEmpty (.list parent) = true then
    ∀ pid, kernel.parent pid = some parent → kernel.pstate pid = .free
  else (∃ pid, kernel.IsChild .alive pid parent) ∨
    kernel.exited.isRlistEmpty (.list parent) = false

/-- When the first ring holds the living children, the caller needs one of these
or no child at all. -/
theorem tellsChildren_iff
    {kernel : Kernel limits}
    (childrenRings : kernel.ChildrenRings)
    (parent : Fin limits.maxProc) :
    TellsChildren kernel parent ↔
      (∃ pid, kernel.IsChild .alive pid parent) ∨
        ∀ pid, kernel.parent pid = some parent → kernel.pstate pid = .free := by
  obtain ⟨lists, rings⟩ := childrenRings
  have empty_iff : kernel.children.isRlistEmpty (.list parent) = true ↔
      ∀ pid, ¬kernel.IsChild .alive pid parent := by
    have test := RlHeap.isRlistEmpty_iff rings.represents parent
    rw [show (pcbLayout limits).sentinel parent = .list parent from rfl] at test
    rw [test, List.eq_nil_iff_forall_not_mem]
    simp only [rings.mem]
  unfold TellsChildren
  split_ifs with empty
  · have noneAlive := empty_iff.mp empty
    constructor
    · exact .inr
    · rintro (⟨pid, isAlive⟩ | childless)
      · exact absurd isAlive (noneAlive pid)
      · exact childless
  · have hasAlive : ∃ pid, kernel.IsChild .alive pid parent := by
      by_contra noneAlive
      exact empty (empty_iff.mpr (not_exists.mp noneAlive))
    exact iff_of_true (.inl hasAlive) (.inl hasAlive)

/-- The first answer of `WaitChild(NOPROC)` is right if and only if the rings of
the caller say what it takes them to say. -/
theorem Sound.sysWaitChild_any_sees
    {system : System limits}
    {slot : Fin limits.maxThreads}
    {parent : Fin limits.maxProc}
    (sound : system.Sound)
    (exitedRings : system.kernel.ExitedRings)
    (isCurrent : system.currentSlot = some slot)
    (owned : system.kernel.owner slot = some parent)
    (status : Bool)
    (clock : Clock) :
    ∃ after, system.sysWaitChild slot (-1) status clock = .ok after ∧
      (SeesChildren system.kernel parent status after.reply ↔
        TellsChildren system.kernel parent) := by
  rw [sysWaitChild_any owned]
  unfold TellsChildren
  by_cases empty : system.kernel.children.isRlistEmpty (.list parent) = true
  · rw [if_pos empty, if_pos empty]
    refine ⟨_, rfl, ?_⟩
    constructor
    · intro sees
      exact sees.noproc.mp rfl
    · intro childless
      refine ⟨⟨fun _ => childless, fun _ => rfl⟩, ?_⟩
      rintro ⟨pid, isZombie, isParent⟩ -
      rw [childless pid isParent] at isZombie
      cases isZombie
  rw [if_neg empty, if_neg empty]
  obtain ⟨after, waited, answer⟩ :=
    sound.waitAnyLoop_returns exitedRings isCurrent status clock
  refine ⟨after, waited, ?_⟩
  rcases answer with ⟨noneExited, isNone⟩ | ⟨hasExited, child, isChild, isPid⟩
  · -- The call waits, so some child has to be alive.
    rw [isNone, noneExited]
    constructor
    · intro sees
      refine .inl ?_
      by_contra noneAlive
      obtain ⟨pid, hasParent, inUse⟩ : ∃ pid,
          system.kernel.parent pid = some parent ∧
            system.kernel.pstate pid ≠ .free := by
        by_contra none
        have isNoproc := sees.noproc.mpr fun pid hasParent =>
          not_not.mp fun inUse => none ⟨pid, hasParent, inUse⟩
        cases isNoproc
      have isZombie : system.kernel.pstate pid = .zombie := by
        cases state : system.kernel.pstate pid with
        | free => exact absurd state inUse
        | alive => exact absurd ⟨pid, state, hasParent⟩ noneAlive
        | zombie => rfl
      obtain ⟨found, -, isReply⟩ := sees.allExited ⟨pid, isZombie, hasParent⟩
        (not_exists.mp noneAlive)
      cases isReply
    · rintro (⟨pid, isAlive⟩ | isFalse)
      · refine ⟨⟨by simp, fun childless => ?_⟩,
          fun _ noneAlive => absurd isAlive (noneAlive pid)⟩
        have isFree := childless pid isAlive.2
        rw [isAlive.1] at isFree
        cases isFree
      · cases isFalse
  · -- The call returns a child that has exited.
    rw [isPid]
    refine iff_of_true ⟨⟨by simp, fun childless => ?_⟩,
      fun _ _ => ⟨child, isChild, rfl⟩⟩ (.inr hasExited)
    have isFree := childless child isChild.2
    rw [isChild.1] at isFree
    cases isFree

/-- In every run `WaitChild(NOPROC)` sees every child if and only if the rings of
the caller say what it takes them to say.  In the runs whose `Exec` calls keep the
rings this is when the caller has a living child or none at all.  A call that waits
never returns `NOPROC` later. -/
theorem waitChild_any_sees_children
    {system : System limits}
    {slot : Fin limits.maxThreads}
    {parent : Fin limits.maxProc}
    (reached : Reached (fun _ _ => True) system)
    (isCurrent : system.currentSlot = some slot)
    (owned : system.kernel.owner slot = some parent)
    (status : Bool)
    (clock : Clock) :
    (∃ after, system.step (.waitChild (-1) status clock) = .ok after ∧
      (SeesChildren system.kernel parent status after.reply ↔
        TellsChildren system.kernel parent) ∧
      (Reached ExecSafe system →
        (SeesChildren system.kernel parent status after.reply ↔
          (∃ pid, system.kernel.IsChild .alive pid parent) ∨
            ∀ pid, system.kernel.parent pid = some parent →
              system.kernel.pstate pid = .free))) ∧
    ∀ waited, system.control slot = .waitAny waited status →
      ∃ after, system.step (.resume clock) = .ok after ∧
        (after.reply = .none ∨
          ∃ child, system.kernel.IsChild .zombie child waited ∧
            after.reply = .waitChild (some child)
              (if status then some (system.kernel.exitval child)
                else none)) := by
  obtain ⟨sound, -, exitedRings⟩ := reached.rings
  constructor
  · rw [step_of_slot isCurrent]
    obtain ⟨after, called, sees⟩ := sound.sysWaitChild_any_sees exitedRings
      isCurrent owned status clock
    exact ⟨after, called, sees, fun safe =>
      sees.trans (tellsChildren_iff safe.childrenRings parent)⟩
  · intro waited suspended
    rw [step_of_slot isCurrent]
    simp only [threadStep, suspended]
    obtain ⟨after, waits, answer⟩ :=
      sound.waitAnyLoop_returns exitedRings isCurrent status clock
    exact ⟨after, waits, answer.imp And.right And.right⟩

/-- The first process waits while its child is alive. -/
theorem waitChild_any_sees_children_one_child :
    ∃ system : System ⟨3, 2, 4, 4⟩,
      (Reached ExecSafe system ∧ system.currentSlot = some 0 ∧
        system.kernel.owner 0 = some 1) ∧
      (∃ after, system.step (.waitChild (-1) true .zero) = .ok after ∧
        (SeesChildren system.kernel 1 true after.reply ↔
          TellsChildren system.kernel 1) ∧
        (Reached ExecSafe system →
          (SeesChildren system.kernel 1 true after.reply ↔
            (∃ pid, system.kernel.IsChild .alive pid 1) ∨
              ∀ pid, system.kernel.parent pid = some 1 →
                system.kernel.pstate pid = .free))) ∧
      ∀ waited, system.control 0 = .waitAny waited true →
        ∃ after, system.step (.resume .zero) = .ok after ∧
          (after.reply = .none ∨
            ∃ child, system.kernel.IsChild .zombie child waited ∧
              after.reply = .waitChild (some child)
                (if true then some (system.kernel.exitval child)
                  else none)) := by
  have ran : ∃ system : System ⟨3, 2, 4, 4⟩, Reached ExecSafe system ∧
      decide (system.currentSlot = some 0 ∧
        system.kernel.owner 0 = some 1) = true :=
    exists_reached_of_any
      [.idle .zero, .start, .exec (some 1) 0 .null fun _ => 0] (by decide +kernel)
  obtain ⟨system, reached, test⟩ := ran
  obtain ⟨isCurrent, owned⟩ := of_decide_eq_true test
  exact ⟨system, ⟨reached, isCurrent, owned⟩,
    waitChild_any_sees_children (reached.mono fun _ => trivial) isCurrent owned
      true .zero⟩

/-- A child that exits before its parent waits for it is not seen. -/
theorem waitChild_any_misses_exited_child :
    ∃ system after : System ⟨3, 2, 4, 4⟩,
      Reached (fun _ _ => True) system ∧
      system.currentControl = some .user ∧
      system.kernel.currentProc = some 1 ∧
      system.kernel.IsChild .zombie 2 1 ∧
      system.step (.waitChild (-1) true .zero) = .ok after ∧
      after.reply = .waitChild none none ∧
      ¬SeesChildren system.kernel 1 true after.reply := by
  have ran : ∃ system : System ⟨3, 2, 4, 4⟩,
      Reached (fun _ _ => True) system ∧
        decide (system.currentControl = some .user ∧
          system.kernel.currentProc = some 1 ∧
          system.kernel.pstate 2 = .zombie ∧
          system.kernel.parent 2 = some 1 ∧
          (system.step (.waitChild (-1) true .zero)).toOption.map
            System.reply = some (.waitChild none none)) = true :=
    exists_reached_of_any
      [.idle .zero, .start, .exec (some 1) 0 .null fun _ => 0,
        .yield .quantum .zero, .start, .exit 7 .zero] (by decide +kernel)
  obtain ⟨system, reached, test⟩ := ran
  obtain ⟨calls, isParent, isZombie, hasParent, answer⟩ :=
    of_decide_eq_true test
  cases stepped : system.step (.waitChild (-1) true .zero) with
  | error fault =>
      rw [stepped] at answer
      cases answer
  | ok after =>
      rw [stepped] at answer
      have noproc : after.reply = .waitChild none none :=
        Option.some.inj answer
      refine ⟨system, after, reached, calls, isParent, ⟨isZombie, hasParent⟩,
        stepped, noproc, fun sees => ?_⟩
      have isFree := sees.noproc.mp noproc 2 hasParent
      rw [isZombie] at isFree
      cases isFree

end System
end TinierOS
