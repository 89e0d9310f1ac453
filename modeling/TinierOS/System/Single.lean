import TinierOS.System.History
import TinierOS.System.Zombies

/-!
# Processes with one thread

When no process calls `CreateThread`, every thread belongs to a living process
of its own.  Then a child cannot be reaped while its parent waits for it, and
both rings of every process hold exactly its children.
-/

namespace TinierOS

variable {limits : Limits}

namespace Kernel

/-! ## One thread for each living process -/

/-- Every thread belongs to a living process, and no two to the same one. -/
structure OwnersAlive (kernel : Kernel limits) : Prop where
  alive : ∀ {slot proc}, kernel.threadUsed slot = true →
    kernel.owner slot = some proc → kernel.pstate proc = .alive
  distinct : ∀ {first second}, kernel.threadUsed first = true →
    kernel.threadUsed second = true →
      kernel.owner first = kernel.owner second → first = second

namespace OwnersAlive

variable {before after : Kernel limits}

/-- The threads are the same and no living process has ended. -/
theorem of_same
    (owners : before.OwnersAlive)
    (threads : SameThreads before after)
    (kept : ∀ pid, before.pstate pid = .alive → after.pstate pid = .alive) :
    after.OwnersAlive := by
  constructor
  · intro slot proc usedSlot owned
    rw [threads.used] at usedSlot
    rw [threads.owner] at owned
    exact kept proc (owners.alive usedSlot owned)
  · intro first second usedFirst usedSecond same
    rw [threads.used] at usedFirst usedSecond
    rw [threads.owner] at same
    exact owners.distinct usedFirst usedSecond same

/-- A thread leaves, and its process may end. -/
theorem of_left
    {slot : Fin limits.maxThreads}
    {proc : Fin limits.maxProc}
    (owners : before.OwnersAlive)
    (usedSlot : before.threadUsed slot = true)
    (owned : before.owner slot = some proc)
    (left : ThreadLeft before after slot proc)
    (kept : ∀ pid, pid ≠ proc → before.pstate pid = .alive →
      after.pstate pid = .alive) :
    after.OwnersAlive := by
  have stays : ∀ {other}, after.threadUsed other = true →
      other ≠ slot ∧ before.threadUsed other = true := by
    intro other usedOther
    rw [left.used] at usedOther
    by_cases same : other = slot
    · simp [same] at usedOther
    · rw [Function.update_of_ne same] at usedOther
      exact ⟨same, usedOther⟩
  constructor
  · intro other owner usedOther ownedOther
    obtain ⟨different, wasUsed⟩ := stays usedOther
    rw [left.owner] at ownedOther
    refine kept owner ?_ (owners.alive wasUsed ownedOther)
    rintro rfl
    exact different (owners.distinct wasUsed usedSlot
      (ownedOther.trans owned.symm))
  · intro first second usedFirst usedSecond same
    rw [left.owner] at same
    exact owners.distinct (stays usedFirst).2 (stays usedSecond).2 same

/-- A process that was not alive gets its main thread. -/
theorem of_new
    {new : Fin limits.maxThreads}
    {proc : Fin limits.maxProc}
    (owners : before.OwnersAlive)
    (thread : NewThread before after new proc)
    (wasNotAlive : before.pstate proc ≠ .alive)
    (isAlive : after.pstate proc = .alive)
    (kept : ∀ pid, before.pstate pid = .alive → after.pstate pid = .alive) :
    after.OwnersAlive := by
  have cases : ∀ {slot owner}, after.threadUsed slot = true →
      after.owner slot = some owner →
        slot = new ∧ owner = proc ∨ slot ≠ new ∧
          before.threadUsed slot = true ∧ before.owner slot = some owner ∧
          owner ≠ proc := by
    intro slot owner usedSlot owned
    rw [thread.used] at usedSlot
    rw [thread.owner] at owned
    by_cases same : slot = new
    · rw [same, Function.update_self] at owned
      exact .inl ⟨same, (Option.some.inj owned).symm⟩
    · rw [Function.update_of_ne same] at usedSlot owned
      refine .inr ⟨same, usedSlot, owned, ?_⟩
      rintro rfl
      exact wasNotAlive (owners.alive usedSlot owned)
  constructor
  · intro slot owner usedSlot owned
    rcases cases usedSlot owned with ⟨-, rfl⟩ | ⟨-, wasUsed, wasOwned, -⟩
    · exact isAlive
    · exact kept owner (owners.alive wasUsed wasOwned)
  · intro first second usedFirst usedSecond same
    rw [thread.used] at usedFirst usedSecond
    rw [thread.owner] at same
    by_cases firstNew : first = new <;> by_cases secondNew : second = new
    · rw [firstNew, secondNew]
    · rw [Function.update_of_ne secondNew] at usedSecond
      rw [firstNew, Function.update_self,
        Function.update_of_ne secondNew] at same
      exact absurd (owners.alive usedSecond same.symm) wasNotAlive
    · rw [Function.update_of_ne firstNew] at usedFirst
      rw [secondNew, Function.update_self,
        Function.update_of_ne firstNew] at same
      exact absurd (owners.alive usedFirst same) wasNotAlive
    · rw [Function.update_of_ne firstNew] at usedFirst same
      rw [Function.update_of_ne secondNew] at usedSecond same
      exact owners.distinct usedFirst usedSecond same

end OwnersAlive

/-- Creating a process ends no other. -/
theorem ProcCreated.alive_kept
    {before after : Kernel limits}
    {newproc : Fin limits.maxProc}
    {state : PidState}
    (created : ProcCreated before after newproc state)
    (pid : Fin limits.maxProc)
    (isAlive : before.pstate pid = .alive) :
    after.pstate pid = .alive := by
  have different : pid ≠ newproc := by
    rintro rfl
    rw [created.wasFree] at isAlive
    cases isAlive
  rw [created.pstate, Function.update_of_ne different]
  exact isAlive

theorem OwnersAlive.of_created
    {before after : Kernel limits}
    {newproc : Fin limits.maxProc}
    {new : Fin limits.maxThreads}
    (owners : before.OwnersAlive)
    (created : ProcCreated before after newproc .alive)
    (thread : NewThread before after new newproc) :
    after.OwnersAlive := by
  refine owners.of_new thread ?_ ?_ created.alive_kept
  · rw [created.wasFree]
    simp
  · rw [created.pstate, Function.update_self]

theorem OwnersAlive.of_execEffect
    {before after : Kernel limits}
    {call : Option Task}
    {pid : Option (Fin limits.maxProc)}
    (owners : before.OwnersAlive)
    (effect : ExecEffect before call pid after) :
    after.OwnersAlive := by
  cases effect with
  | full noPcb => exact owners
  | threadless newproc noCall proc files threads ptcbs sched =>
      exact owners.of_same threads proc.alive_kept
  | failed newproc isCall noSlot proc files threads ptcbs sched =>
      exact owners.of_same threads proc.alive_kept
  | started newproc slot isCall proc files thread ptcbs current =>
      exact owners.of_created proc thread

theorem Fresh.ownersAlive
    {kernel : Kernel limits}
    (fresh : kernel.Fresh) :
    kernel.OwnersAlive := by
  constructor
  · intro slot proc usedSlot
    rw [fresh.unused] at usedSlot
    cases usedSlot
  · intro first second usedFirst
    rw [fresh.unused] at usedFirst
    cases usedFirst

/-! ## The rings of zombies -/

theorem getPcb_eq_some
    {kernel : Kernel limits}
    {pid : Int}
    {proc : Fin limits.maxProc}
    (found : kernel.getPcb pid = some proc) :
    kernel.pstate proc ≠ .free := by
  unfold getPcb at found
  split_ifs at found with inRange isFree
  cases found
  exact isFree

end Kernel
namespace System

open Kernel

/-! ## Waiting threads -/

/-- A thread that waits after a step has waited before or begins to wait. -/
theorem Effect.suspended
    {before after : System limits}
    {action : Action limits}
    {slot : Fin limits.maxThreads}
    (effect : Effect before action after)
    (usedSlot : after.kernel.threadUsed slot = true)
    (notUser : after.control slot ≠ .user)
    (notFresh : after.control slot ≠ .fresh) :
    before.kernel.threadUsed slot = true ∧
      (after.control slot = before.control slot ∨
        before.currentSlot = some slot ∧
          Entered before action slot (after.control slot)) := by
  have kept : ControlKept before after →
      before.kernel.threadUsed slot = true ∧
        (after.control slot = before.control slot ∨
          before.currentSlot = some slot ∧
            Entered before action slot (after.control slot)) := by
    intro control
    cases wasUsed : before.kernel.threadUsed slot with
    | false => exact absurd (control.fresh slot wasUsed) notFresh
    | true => exact ⟨rfl, control.entered slot wasUsed⟩
  have left : ∀ {leaver proc}, ThreadLeft before.kernel after.kernel leaver
      proc → (∀ other, other ≠ leaver →
        after.control other = before.control other) →
      before.kernel.threadUsed slot = true ∧
        (after.control slot = before.control slot ∨
          before.currentSlot = some slot ∧
            Entered before action slot (after.control slot)) := by
    intro leaver proc left control
    rw [left.used] at usedSlot
    have different : slot ≠ leaver := by
      rintro rfl
      simp at usedSlot
    rw [Function.update_of_ne different] at usedSlot
    exact ⟨usedSlot, .inl (control slot different)⟩
  cases effect with
  | stay notExit procs files threads ptcbs control reply =>
      rw [threads.used] at usedSlot
      exact ⟨usedSlot, control slot usedSlot⟩
  | executed caller newproc isCurrent proc files threads control reply =>
      exact kept control
  | execFailed caller newproc isCurrent isCall noSlot proc files threads ptcbs
      control reply => exact kept control
  | exited leaver proc isCurrent owned procs files threads ptcbs control
      reply => exact left threads control
  | threadExited leaver proc isCurrent owned procs files threads ptcbs control
      reply => exact left threads control
  | reaped reaper child status isCurrent reason procs files threads ptcbs
      control reply =>
      rw [threads.used] at usedSlot
      rw [control] at notUser ⊢
      have different : slot ≠ reaper := by
        rintro rfl
        simp at notUser
      rw [Function.update_of_ne different]
      exact ⟨usedSlot, .inl rfl⟩
  | threadCreated caller new proc isCurrent owned procs files thread ptcbs
      control reply => exact kept control
  | streams caller notExit isCurrent call only control reply =>
      rw [only.sameThreads.used] at usedSlot
      rw [control] at notUser ⊢
      have different : slot ≠ caller := by
        rintro rfl
        simp at notUser
      rw [Function.update_of_ne different]
      exact ⟨usedSlot, .inl rfl⟩

/-- No thread is created besides the main threads of processes. -/
def SingleThreaded (_ : System limits) : Action limits → Prop
  | .createThread _ _ _ => False
  | _ => True

instance (system : System limits) (action : Action limits) :
    Decidable (system.SingleThreaded action) :=
  match action with
  | .createThread _ _ _ => inferInstanceAs (Decidable False)
  | .idle _ | .start | .yield _ _ | .wakeup _ | .exec _ _ _ _ | .exit _ _
  | .waitChild _ _ _ | .threadExit _ _ | .threadJoin _ _ _
  | .threadDetach _ | .openNull | .openTerminal _ | .close _ | .resume _ =>
      inferInstanceAs (Decidable True)

/-- The state of a system whose processes have one thread each: a thread waits
only for children of its own process, and these are still there. -/
structure Single (system : System limits) : Prop where
  owners : system.kernel.OwnersAlive
  zombies : system.kernel.ZombieRings
  waits : ∀ {slot child status}, system.kernel.threadUsed slot = true →
    system.control slot = .waitChild child status →
      system.kernel.pstate child ≠ .free ∧
        system.kernel.parent child = system.kernel.owner slot
  waitsAny : ∀ {slot parent status}, system.kernel.threadUsed slot = true →
    system.control slot = .waitAny parent status →
      system.kernel.owner slot = some parent

namespace Single

variable {before after : System limits}
variable {action : Action limits}
variable {slot : Fin limits.maxThreads}
variable {child : Fin limits.maxProc}

/-- The process of the current thread is alive. -/
theorem caller_alive
    {proc : Fin limits.maxProc}
    (single : before.Single)
    (sound : before.Sound)
    (isCurrent : before.currentSlot = some slot)
    (owned : before.kernel.owner slot = some proc) :
    before.kernel.pstate proc = .alive :=
  single.owners.alive (sound.current_used isCurrent) owned

/-- `WaitChild` reaps zombies of the caller's process only. -/
theorem isChild_of_reaps
    {status : Bool}
    (single : before.Single)
    (sound : before.Sound)
    (rings : before.kernel.ExitedRings)
    (isCurrent : before.currentSlot = some slot)
    (reaps : Reaps before action slot child status) :
    ∃ parent, before.kernel.owner slot = some parent ∧
      before.kernel.IsChild .zombie child parent := by
  have usedSlot := sound.current_used isCurrent
  obtain ⟨proc, owned⟩ := sound.owned slot usedSlot
  have zombie : ∀ {state : PidState}, state ≠ .free → state ≠ .alive →
      state = .zombie := by
    intro state notFree notAlive
    cases state with
    | free => exact absurd rfl notFree
    | alive => exact absurd rfl notAlive
    | zombie => rfl
  cases reaps with
  | call call specific found isParent notAlive =>
      exact ⟨proc, owned, zombie (getPcb_eq_some found) notAlive,
        isParent.trans owned⟩
  | resume resumes suspended notAlive =>
      obtain ⟨notFree, isParent⟩ := single.waits usedSlot suspended
      exact ⟨proc, owned, zombie notFree notAlive, isParent.trans owned⟩
  | @any parent loop nonempty front =>
      refine ⟨parent, ?_, rings.isChild_of_front nonempty front⟩
      cases loop with
      | call call isParent hasChildren => exact isParent
      | resume resumes suspended => exact single.waitsAny usedSlot suspended

/-- What a thread waits for at the end of a step was there at its start. -/
theorem waits_before
    {status : Bool}
    (single : before.Single)
    (effect : Effect before action after)
    (usedSlot : after.kernel.threadUsed slot = true)
    (suspended : after.control slot = .waitChild child status) :
    before.kernel.threadUsed slot = true ∧
      before.kernel.pstate child ≠ .free ∧
      before.kernel.parent child = before.kernel.owner slot := by
  obtain ⟨wasUsed, control⟩ := effect.suspended usedSlot
    (by simp [suspended]) (by simp [suspended])
  rw [suspended] at control
  refine ⟨wasUsed, ?_⟩
  rcases control with same | ⟨-, entered⟩
  · exact single.waits wasUsed same.symm
  · cases entered with
    | waitChild call found isParent isAlive =>
        exact ⟨getPcb_eq_some found, isParent⟩

theorem waitsAny_before
    {parent : Fin limits.maxProc}
    {status : Bool}
    (single : before.Single)
    (effect : Effect before action after)
    (usedSlot : after.kernel.threadUsed slot = true)
    (suspended : after.control slot = .waitAny parent status) :
    before.kernel.threadUsed slot = true ∧
      before.kernel.owner slot = some parent := by
  obtain ⟨wasUsed, control⟩ := effect.suspended usedSlot
    (by simp [suspended]) (by simp [suspended])
  rw [suspended] at control
  refine ⟨wasUsed, ?_⟩
  rcases control with same | ⟨-, entered⟩
  · exact single.waitsAny wasUsed same.symm
  · cases entered with
    | waitAny call isParent => exact isParent

/-- Owners of threads that exist before a step do not change. -/
theorem owner_of_used
    (effect : Effect before action after)
    (wasUsed : before.kernel.threadUsed slot = true) :
    after.kernel.owner slot = before.kernel.owner slot := by
  have new : ∀ {new proc}, NewThread before.kernel after.kernel new proc →
      after.kernel.owner slot = before.kernel.owner slot := by
    intro new proc thread
    have different : slot ≠ new := by
      rintro rfl
      have unused : before.kernel.threadUsed slot = false :=
        Sched.freeSlot_eq_some thread.free
      rw [wasUsed] at unused
      cases unused
    rw [thread.owner, Function.update_of_ne different]
  cases effect with
  | stay notExit procs files threads ptcbs control reply => rw [threads.owner]
  | executed caller newproc isCurrent proc files threads control reply =>
      rcases threads with ⟨-, same, -⟩ | ⟨-, slot, thread, -⟩
      · rw [same.owner]
      · exact new thread
  | execFailed caller newproc isCurrent isCall noSlot proc files threads ptcbs
      control reply => rw [threads.owner]
  | exited leaver proc isCurrent owned procs files threads ptcbs control
      reply => rw [threads.owner]
  | threadExited leaver proc isCurrent owned procs files threads ptcbs control
      reply => rw [threads.owner]
  | reaped reaper child status isCurrent reason procs files threads ptcbs
      control reply => rw [threads.owner]
  | threadCreated caller new' proc isCurrent owned procs files thread ptcbs
      control reply => exact new thread
  | streams caller notExit isCurrent call only control reply =>
      rw [only.sameThreads.owner]

/-- The child a thread waits for is not reaped by another thread. -/
theorem awaited_not_reaped
    {status : Bool}
    {reaper : Fin limits.maxThreads}
    {reaped : Fin limits.maxProc}
    (single : before.Single)
    (sound : before.Sound)
    (rings : before.kernel.ExitedRings)
    (isCurrent : before.currentSlot = some reaper)
    (reaps : Reaps before action reaper reaped status)
    (wasUsed : before.kernel.threadUsed slot = true)
    (isParent : before.kernel.parent child = before.kernel.owner slot)
    (different : slot ≠ reaper) :
    child ≠ reaped := by
  rintro rfl
  obtain ⟨parent, owned, isChild⟩ :=
    single.isChild_of_reaps sound rings isCurrent reaps
  refine different (single.owners.distinct wasUsed
    (sound.current_used isCurrent) ?_)
  rw [owned, ← isParent, isChild.2]

/-- A child that is waited for is neither reaped nor replaced by a step. -/
theorem awaited_kept
    {status : Bool}
    (single : before.Single)
    (sound : before.Sound)
    (rings : before.kernel.ExitedRings)
    (effect : Effect before action after)
    (usedSlot : after.kernel.threadUsed slot = true)
    (suspended : after.control slot = .waitChild child status) :
    after.kernel.pstate child ≠ .free ∧
      after.kernel.parent child = before.kernel.parent child := by
  obtain ⟨wasUsed, notFree, isParent⟩ :=
    single.waits_before effect usedSlot suspended
  have same : SameProcs before.kernel after.kernel →
      after.kernel.pstate child ≠ .free ∧
        after.kernel.parent child = before.kernel.parent child := by
    intro procs
    rw [procs.pstate, procs.parent]
    exact ⟨notFree, rfl⟩
  have created : ∀ {newproc state},
      ProcCreated before.kernel after.kernel newproc state →
      after.kernel.pstate child ≠ .free ∧
        after.kernel.parent child = before.kernel.parent child := by
    intro newproc state proc
    have different : child ≠ newproc := by
      rintro rfl
      exact notFree proc.wasFree
    rw [proc.pstate, proc.parent, Function.update_of_ne different,
      Function.update_of_ne different]
    exact ⟨notFree, rfl⟩
  cases effect with
  | stay notExit procs files threads ptcbs control reply => exact same procs
  | executed caller newproc isCurrent proc files threads control reply =>
      exact created proc
  | execFailed caller newproc isCurrent isCall noSlot proc files threads ptcbs
      control reply => exact created proc
  | exited leaver proc isCurrent owned procs files threads ptcbs control
      reply =>
      rw [procs.pstate, procs.parent]
      refine ⟨?_, rfl⟩
      by_cases isProc : child = proc
      · simp [isProc]
      · rwa [Function.update_of_ne isProc]
  | threadExited leaver proc isCurrent owned procs files threads ptcbs control
      reply => exact same procs
  | reaped reaper reaped status isCurrent reason procs files threads ptcbs
      control reply =>
      have different : slot ≠ reaper := by
        rintro rfl
        simp [control] at suspended
      have kept := single.awaited_not_reaped sound rings isCurrent reason
        wasUsed isParent different
      rw [procs.pstate, procs.parent, Function.update_of_ne kept]
      exact ⟨notFree, rfl⟩
  | threadCreated caller new proc isCurrent owned procs files thread ptcbs
      control reply => exact same procs
  | streams caller notExit isCurrent call only control reply =>
      exact same only.procs

theorem owners_step
    (single : before.Single)
    (sound : before.Sound)
    (rings : before.kernel.ExitedRings)
    (isAllowed : before.SingleThreaded action)
    (effect : Effect before action after) :
    after.kernel.OwnersAlive := by
  have owners := single.owners
  have same : SameProcs before.kernel after.kernel →
      SameThreads before.kernel after.kernel → after.kernel.OwnersAlive := by
    intro procs threads
    refine owners.of_same threads ?_
    intro pid isAlive
    rw [procs.pstate]
    exact isAlive
  cases effect with
  | stay notExit procs files threads ptcbs control reply =>
      exact same procs threads
  | executed caller newproc isCurrent proc files threads control reply =>
      rcases threads with ⟨-, threads, -⟩ | ⟨-, new, thread, -⟩
      · exact owners.of_same threads proc.alive_kept
      · exact owners.of_created proc thread
  | execFailed caller newproc isCurrent isCall noSlot proc files threads ptcbs
      control reply => exact owners.of_same threads proc.alive_kept
  | exited leaver proc isCurrent owned procs files threads ptcbs control
      reply =>
      refine owners.of_left (sound.current_used isCurrent) owned threads ?_
      intro pid different isAlive
      rw [procs.pstate, Function.update_of_ne different]
      exact isAlive
  | threadExited leaver proc isCurrent owned procs files threads ptcbs control
      reply =>
      refine owners.of_left (sound.current_used isCurrent) owned threads ?_
      intro pid _ isAlive
      rw [procs.pstate]
      exact isAlive
  | reaped reaper reaped status isCurrent reason procs files threads ptcbs
      control reply =>
      refine owners.of_same threads ?_
      intro pid isAlive
      obtain ⟨parent, -, isZombie, -⟩ :=
        single.isChild_of_reaps sound rings isCurrent reason
      have different : pid ≠ reaped := by
        rintro rfl
        rw [isAlive] at isZombie
        cases isZombie
      rw [procs.pstate, Function.update_of_ne different]
      exact isAlive
  | threadCreated caller new proc isCurrent owned procs files thread ptcbs
      control reply => exact isAllowed.elim
  | streams caller notExit isCurrent call only control reply =>
      exact same only.procs only.sameThreads

/-- A process that calls `Exit` has not exited before. -/
theorem exitsOnce
    (single : before.Single)
    (sound : before.Sound) :
    before.ExitsOnce action := by
  cases action with
  | exit exitval clock =>
      intro slot proc isCurrent owned isZombie
      rw [single.caller_alive sound isCurrent owned] at isZombie
      cases isZombie
  | _ => trivial

/-- Every step without `CreateThread` keeps one thread for each process. -/
theorem step
    (single : before.Single)
    (sound : before.Sound)
    (rings : before.kernel.ExitedRings)
    (isAllowed : before.SingleThreaded action)
    (effect : Effect before action after) :
    after.Single where
  owners := single.owners_step sound rings isAllowed effect
  zombies := by
    refine (zombieRings_step single.zombies effect).mpr ?_
    exact single.exitsOnce sound
  waits := by
    intro slot child status usedSlot suspended
    obtain ⟨wasUsed, -, isParent⟩ :=
      single.waits_before effect usedSlot suspended
    obtain ⟨notFree, sameParent⟩ :=
      single.awaited_kept sound rings effect usedSlot suspended
    refine ⟨notFree, ?_⟩
    rw [sameParent, isParent, owner_of_used effect wasUsed]
  waitsAny := by
    intro slot parent status usedSlot suspended
    obtain ⟨wasUsed, owned⟩ :=
      single.waitsAny_before effect usedSlot suspended
    rw [owner_of_used effect wasUsed, owned]

theorem of_booted
    {start : System limits}
    (booted : start.Booted) :
    start.Single := by
  obtain ⟨pid, kernel, effect, procs, -, threads, -⟩ := booted.tables
  refine ⟨?_, zombieRings_of_booted booted, ?_, ?_⟩
  · refine (initial_fresh.ownersAlive.of_execEffect effect).of_same threads ?_
    intro pid isAlive
    rw [procs.pstate]
    exact isAlive
  · intro slot child status usedSlot suspended
    rw [booted.control] at suspended
    cases suspended
  · intro slot parent status usedSlot suspended
    rw [booted.control] at suspended
    cases suspended

end Single

/-- In every run without `CreateThread`, each thread has a living process of
its own. -/
theorem Reached.single
    {allowed : System limits → Action limits → Prop}
    {system : System limits}
    (reached : Reached allowed system)
    (singleThreaded : ∀ {before action}, allowed before action →
      before.SingleThreaded action) :
    system.Single := by
  refine (reached.invariant_with_rings (motive := Single) ?_ ?_).2.2
  · exact fun booted => .of_booted booted
  · intro before action after sound rings single enabled isAllowed effect
    exact single.step sound rings (singleThreaded isAllowed) effect

end System
end TinierOS
