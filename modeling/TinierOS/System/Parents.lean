import TinierOS.System.Processes

/-!
# Parent pointers

A child keeps the address of its parent's PCB.  The pointer stays right as long
as no process exits before its children have been reaped, because nothing moves
the children of a process that exits to another parent.
-/

namespace TinierOS

variable {limits : Limits}

namespace System

open Kernel

/-- `Exit` is called by processes that have no child left, living or exited. -/
def ExitsChildless (system : System limits) : Action limits → Prop
  | .exit _ _ => ∀ pid, system.kernel.pstate pid ≠ .free →
      system.kernel.parent pid ≠ system.kernel.currentProc
  | _ => True

instance (system : System limits) (action : Action limits) :
    Decidable (system.ExitsChildless action) :=
  match action with
  | .exit _ _ => inferInstanceAs (Decidable (∀ _, _ → _))
  | .idle _ | .start | .yield _ _ | .wakeup _ | .exec _ _ _ _
  | .waitChild _ _ _ | .createThread _ _ _ | .threadExit _ _
  | .threadJoin _ _ _ | .threadDetach _ | .openNull | .openTerminal _
  | .close _ | .resume _ => inferInstanceAs (Decidable True)

end System

namespace History

open TinierOS.System TinierOS.Kernel

/-- Every parent pointer names the living process that created the child, and
every child was reaped by that process. -/
structure ParentsLive (history : History limits) : Prop where
  parents : ∀ {pid parent}, history.system.kernel.pstate pid ≠ .free →
    history.system.kernel.parent pid = some parent →
      history.system.kernel.pstate parent = .alive ∧
        history.creator pid = some (parent, history.born parent)
  reapers : ∀ {reap}, reap ∈ history.reaps →
    reap.reaper ≠ none ∧ reap.creator = reap.reaper

namespace ParentsLive

variable {before : History limits}
variable {action : Action limits}
variable {after : System limits}

/-- Steps that leave processes, parents and the past as they are. -/
theorem of_same
    (live : before.ParentsLive)
    (procs : SameProcs before.system.kernel after.kernel)
    (quiet : after.reply.Quiet) :
    (before.record action after).ParentsLive := by
  obtain ⟨sameBorn, sameCreator, sameReaps⟩ :
    (before.record action after).born = before.born ∧ _ ∧ _ :=
      record_of_quiet quiet
  constructor
  · intro pid parent notFree isParent
    have notFree : after.kernel.pstate pid ≠ .free := notFree
    have isParent : after.kernel.parent pid = some parent := isParent
    rw [procs.pstate] at notFree
    rw [procs.parent] at isParent
    obtain ⟨isAlive, created⟩ := live.parents notFree isParent
    rw [sameBorn, sameCreator]
    refine ⟨?_, created⟩
    show after.kernel.pstate parent = .alive
    rw [procs.pstate]
    exact isAlive
  · intro reap member
    rw [sameReaps] at member
    exact live.reapers member

/-- A new process names its creator, which is alive. -/
theorem of_executed
    {slot : Fin limits.maxThreads}
    {newproc : Fin limits.maxProc}
    (live : before.ParentsLive)
    (sound : before.system.Sound)
    (single : before.system.Single)
    (isCurrent : before.system.currentSlot = some slot)
    (created : ProcCreated before.system.kernel after.kernel newproc .alive)
    (reply : after.reply = .exec (some newproc)) :
    (before.record action after).ParentsLive := by
  obtain ⟨bornAfter, creatorAfter, -, sameReaps⟩ :
    (before.record action after).born = _ ∧ _ ∧ _ ∧ _ := record_of_exec reply
  have different : ∀ {pid}, before.system.kernel.pstate pid = .alive →
      pid ≠ newproc := by
    rintro pid isAlive rfl
    rw [created.wasFree] at isAlive
    cases isAlive
  constructor
  · intro pid parent notFree isParent
    have notFree : after.kernel.pstate pid ≠ .free := notFree
    have isParent : after.kernel.parent pid = some parent := isParent
    rw [created.pstate] at notFree
    rw [created.parent] at isParent
    rw [bornAfter, creatorAfter]
    by_cases isNew : pid = newproc
    · rw [isNew, Function.update_self] at isParent
      have isCaller : before.system.kernel.currentProc = some parent := by
        unfold execParent at isParent
        split_ifs at isParent
        exact isParent
      have owned := isCaller
      rw [currentProc_of_slot (currentSlot_eq_some.mp isCurrent)] at owned
      have isAlive := single.caller_alive sound isCurrent owned
      refine ⟨created.alive_kept parent isAlive, ?_⟩
      rw [isNew, Function.update_self, Function.update_of_ne
        (different isAlive), caller, isCaller]
      rfl
    · rw [Function.update_of_ne isNew] at notFree isParent
      obtain ⟨isAlive, wasCreated⟩ := live.parents notFree isParent
      refine ⟨created.alive_kept parent isAlive, ?_⟩
      rw [Function.update_of_ne isNew, Function.update_of_ne
        (different isAlive), wasCreated]
  · intro reap member
    rw [sameReaps] at member
    exact live.reapers member

theorem of_execFailed
    {newproc : Fin limits.maxProc}
    (live : before.ParentsLive)
    (created : ProcCreated before.system.kernel after.kernel newproc .free)
    (quiet : after.reply.Quiet) :
    (before.record action after).ParentsLive := by
  obtain ⟨sameBorn, sameCreator, sameReaps⟩ :
    (before.record action after).born = before.born ∧ _ ∧ _ :=
      record_of_quiet quiet
  constructor
  · intro pid parent notFree isParent
    have notFree : after.kernel.pstate pid ≠ .free := notFree
    have isParent : after.kernel.parent pid = some parent := isParent
    have different : pid ≠ newproc := by
      rintro rfl
      rw [created.pstate, Function.update_self] at notFree
      exact notFree rfl
    rw [created.pstate, Function.update_of_ne different] at notFree
    rw [created.parent, Function.update_of_ne different] at isParent
    obtain ⟨isAlive, wasCreated⟩ := live.parents notFree isParent
    rw [sameBorn, sameCreator]
    exact ⟨created.alive_kept parent isAlive, wasCreated⟩
  · intro reap member
    rw [sameReaps] at member
    exact live.reapers member

/-- A process without children exits. -/
theorem of_exited
    {proc : Fin limits.maxProc}
    {exitval : Int}
    (live : before.ParentsLive)
    (wasAlive : before.system.kernel.pstate proc = .alive)
    (exited : ProcExited before.system.kernel after.kernel proc exitval)
    (childless : ∀ pid, before.system.kernel.pstate pid ≠ .free →
      before.system.kernel.parent pid ≠ some proc)
    (quiet : after.reply.Quiet) :
    (before.record action after).ParentsLive := by
  obtain ⟨sameBorn, sameCreator, sameReaps⟩ :
    (before.record action after).born = before.born ∧ _ ∧ _ :=
      record_of_quiet quiet
  constructor
  · intro pid parent notFree isParent
    have notFree : after.kernel.pstate pid ≠ .free := notFree
    have isParent : after.kernel.parent pid = some parent := isParent
    have wasNotFree : before.system.kernel.pstate pid ≠ .free := by
      by_cases same : pid = proc
      · rw [same, wasAlive]
        simp
      · rwa [exited.pstate, Function.update_of_ne same] at notFree
    rw [exited.parent] at isParent
    obtain ⟨isAlive, wasCreated⟩ := live.parents wasNotFree isParent
    have other : parent ≠ proc := by
      rintro rfl
      exact childless pid wasNotFree isParent
    rw [sameBorn, sameCreator]
    refine ⟨?_, wasCreated⟩
    show after.kernel.pstate parent = .alive
    rw [exited.pstate, Function.update_of_ne other]
    exact isAlive
  · intro reap member
    rw [sameReaps] at member
    exact live.reapers member

/-- A zombie is reaped by its parent, which is its creator. -/
theorem of_reaped
    {slot : Fin limits.maxThreads}
    {child parent : Fin limits.maxProc}
    {status : Option Int}
    (live : before.ParentsLive)
    (isCurrent : before.system.currentSlot = some slot)
    (owned : before.system.kernel.owner slot = some parent)
    (isChild : before.system.kernel.IsChild .zombie child parent)
    (reaped : ProcReaped before.system.kernel after.kernel child)
    (reply : after.reply = .waitChild (some child) status) :
    (before.record action after).ParentsLive := by
  obtain ⟨sameBorn, sameCreator, reapsAfter⟩ :
    (before.record action after).born = before.born ∧ _ ∧ _ :=
      record_of_reaped reply
  constructor
  · intro pid other notFree isParent
    have notFree : after.kernel.pstate pid ≠ .free := notFree
    have isParent : after.kernel.parent pid = some other := isParent
    have different : pid ≠ child := by
      rintro rfl
      rw [reaped.pstate, Function.update_self] at notFree
      exact notFree rfl
    rw [reaped.pstate, Function.update_of_ne different] at notFree
    rw [reaped.parent] at isParent
    obtain ⟨isAlive, wasCreated⟩ := live.parents notFree isParent
    have notReaped : other ≠ child := by
      rintro rfl
      rw [isChild.1] at isAlive
      cases isAlive
    rw [sameBorn, sameCreator]
    refine ⟨?_, wasCreated⟩
    show after.kernel.pstate other = .alive
    rw [reaped.pstate, Function.update_of_ne notReaped]
    exact isAlive
  · intro reap member
    rw [reapsAfter, List.mem_cons] at member
    rcases member with rfl | earlier
    · have created := (live.parents (by simp [isChild.1]) isChild.2).2
      have isCaller : before.caller = some (parent, before.born parent) := by
        rw [caller, currentProc_of_slot (currentSlot_eq_some.mp isCurrent),
          owned]
        rfl
      simp [isCaller, created]
    · exact live.reapers earlier

/-- Every step without orphans keeps the parent pointers right. -/
theorem step
    (live : before.ParentsLive)
    (sound : before.system.Sound)
    (rings : before.system.kernel.ExitedRings)
    (single : before.system.Single)
    (childless : before.system.ExitsChildless action)
    (effect : Effect before.system action after) :
    (before.record action after).ParentsLive := by
  cases effect with
  | stay notExit procs files threads ptcbs control reply =>
      exact live.of_same procs reply
  | executed caller newproc isCurrent proc files threads control reply =>
      exact live.of_executed sound single isCurrent proc reply
  | execFailed caller newproc isCurrent isCall noSlot proc files threads ptcbs
      control reply => exact live.of_execFailed proc reply
  | exited leaver proc isCurrent owned procs files threads ptcbs control
      reply =>
      have wasAlive := single.caller_alive sound isCurrent owned
      refine live.of_exited wasAlive procs ?_ reply
      intro pid notFree
      rw [← owned, ← currentProc_of_slot (currentSlot_eq_some.mp isCurrent)]
      exact childless pid notFree
  | threadExited leaver proc isCurrent owned procs files threads ptcbs control
      reply => exact live.of_same procs reply
  | reaped reaper reaped status isCurrent reason procs files threads ptcbs
      control reply =>
      obtain ⟨parent, owned, isChild⟩ :=
        single.isChild_of_reaps sound rings isCurrent reason
      exact live.of_reaped isCurrent owned isChild procs reply
  | threadCreated caller new proc isCurrent owned procs files thread ptcbs
      control reply => exact live.of_same procs reply
  | streams caller notExit isCurrent call only control reply =>
      exact live.of_same only.procs reply

/-- No process has a parent when the scheduler starts. -/
theorem of_booted
    {system : System limits}
    (booted : system.Booted) :
    (start system).ParentsLive := by
  refine ⟨?_, fun member => absurd member List.not_mem_nil⟩
  intro pid parent _ isParent
  obtain ⟨first, kernel, effect, procs, -⟩ := booted.tables
  have isParent : system.kernel.parent pid = some parent := isParent
  have noParent : ∀ {newproc state},
      ProcCreated (initial limits) kernel newproc state →
        kernel.parent pid = none := by
    intro newproc state proc
    rw [proc.parent, initial_fresh.execParent, Function.update_apply,
      initial_fresh.parent, ite_self]
  rw [procs.parent] at isParent
  cases effect with
  | full noPcb =>
      rw [initial_fresh.parent] at isParent
      cases isParent
  | threadless newproc noCall proc files threads ptcbs sched =>
      rw [noParent proc] at isParent
      cases isParent
  | failed newproc isCall noSlot proc files threads ptcbs sched =>
      rw [noParent proc] at isParent
      cases isParent
  | started newproc slot isCall proc files thread ptcbs current =>
      rw [noParent proc] at isParent
      cases isParent

end ParentsLive

/-- In every run without `CreateThread` in which only processes without
children exit, parent pointers name the living creators, `GetPPid` returns
them, and every child is reaped by its creator. -/
theorem parents_never_stale
    {history : History limits}
    (reached : Reached (fun system action => system.SingleThreaded action ∧
      system.ExitsChildless action) history) :
    history.ParentsLive ∧
      ∀ slot parent, history.system.currentSlot = some slot →
        history.system.kernel.sysGetPPid = .ok (some parent) →
          history.system.kernel.pstate parent = .alive ∧
          ∃ proc, history.system.kernel.currentProc = some proc ∧
            history.creator proc = some (parent, history.born parent) := by
  obtain ⟨single, live⟩ : history.system.Single ∧ history.ParentsLive := by
    refine reached.invariant (motive := fun history =>
      history.system.Single ∧ history.ParentsLive) ?_ ?_
    · exact fun booted => ⟨.of_booted booted, .of_booted booted⟩
    · rintro before action after sound rings ⟨single, live⟩ enabled
        ⟨singleThreaded, childless⟩ effect
      exact ⟨single.step sound rings singleThreaded effect,
        live.step sound rings single childless effect⟩
  refine ⟨live, ?_⟩
  intro slot parent isCurrent asked
  obtain ⟨sound, -⟩ := reached.system.rings
  obtain ⟨proc, owned⟩ := sound.owned slot (sound.current_used isCurrent)
  have isCaller : history.system.kernel.currentProc = some proc := by
    exact currentProc_of_owned isCurrent owned
  have isAlive := single.caller_alive sound isCurrent owned
  simp only [sysGetPPid, isCaller] at asked
  have isParent : history.system.kernel.parent proc = some parent :=
    Except.ok.inj asked
  obtain ⟨parentAlive, created⟩ :=
    live.parents (by simp [isAlive]) isParent
  exact ⟨parentAlive, proc, isCaller, created⟩

/-- A child of the first process runs. -/
theorem parents_never_stale_one_child :
    ∃ history : History ⟨3, 2, 4, 4⟩,
      (Reached (fun system action => system.SingleThreaded action ∧
          system.ExitsChildless action) history ∧
        history.system.kernel.currentProc = some 2) ∧
      history.ParentsLive ∧
        ∀ slot parent, history.system.currentSlot = some slot →
          history.system.kernel.sysGetPPid = .ok (some parent) →
            history.system.kernel.pstate parent = .alive ∧
            ∃ proc, history.system.kernel.currentProc = some proc ∧
              history.creator proc = some (parent, history.born parent) := by
  have ran : ∃ history : History ⟨3, 2, 4, 4⟩,
      Reached (fun system action => system.SingleThreaded action ∧
        system.ExitsChildless action) history ∧
        decide (history.system.kernel.currentProc = some 2) = true :=
    exists_reached_of_any
      [.idle .zero, .start, .exec (some 1) 0 .null fun _ => 0,
        .waitChild 2 true .zero, .start] (by decide +kernel)
  obtain ⟨history, reached, test⟩ := ran
  exact ⟨history, ⟨reached, of_decide_eq_true test⟩,
    parents_never_stale reached⟩

/-- Process 3 survives its parent 2, which is reaped; then slot 2 is given to a
process that did not create 3 and that its parent pointer now names. -/
theorem parent_of_orphan_is_stale :
    ∃ history : History ⟨4, 3, 4, 4⟩, Reached SingleThreaded history ∧
      history.system.kernel.pstate 3 = .alive ∧
      history.system.kernel.parent 3 = some 2 ∧
      history.creator 3 = some (2, 1) ∧ history.born 2 = 2 ∧
      ¬history.ParentsLive := by
  have ran : ∃ history : History ⟨4, 3, 4, 4⟩,
      Reached SingleThreaded history ∧
        decide (history.system.kernel.pstate 3 = .alive ∧
          history.system.kernel.parent 3 = some 2 ∧
          history.creator 3 = some (2, 1) ∧ history.born 2 = 2) = true :=
    exists_reached_of_any
      [.idle .zero, .start, .exec (some 1) 0 .null fun _ => 0,
        .waitChild 2 true .zero, .start, .exec (some 1) 0 .null fun _ => 0,
        .exit 5 .zero, .resume .zero, .exec (some 1) 0 .null fun _ => 0]
      (by decide +kernel)
  obtain ⟨history, reached, test⟩ := ran
  obtain ⟨isAlive, isParent, created, born⟩ := of_decide_eq_true test
  refine ⟨history, reached, isAlive, isParent, created, born, fun live => ?_⟩
  have current := (live.parents (by simp [isAlive]) isParent).2
  rw [created, born] at current
  simp at current

end History
end TinierOS
