import TinierOS.System.Single
import TinierOS.System.Steps
import TinierOS.Streams.Refcount

/-!
# Files of processes

`Exec` copies the descriptors of the parent without counting them, and no exit
path closes them.  The counts of the file table are right as long as no process
inherits an open descriptor and none is released with one.  FCBs are given back
also when descriptors are inherited, as long as each FCB in use stays open in a
process that has a thread and none is released twice.
-/

namespace TinierOS

variable {limits : Limits}

namespace Kernel

/-- A process has no descriptor open. -/
def Closed (kernel : Kernel limits) (pid : Fin limits.maxProc) : Prop :=
  ∀ fid, kernel.FIDT pid fid = none

instance (kernel : Kernel limits) (pid : Fin limits.maxProc) :
    Decidable (kernel.Closed pid) :=
  inferInstanceAs (Decidable (∀ _, _))

end Kernel

namespace System

open Kernel

/-- A process that `Exec` creates inherits no open descriptor; the call creates
one when a PCB is free and, for a task, a thread slot too. -/
def InheritsNothing (system : System limits) : Action limits → Prop
  | .exec call _ _ _ => ∀ newproc, system.kernel.freePcb = some newproc →
      call = none ∨ system.kernel.sched.freeSlot ≠ none →
        ∀ fid, system.kernel.inheritedFIDT newproc fid = none
  | _ => True

instance (system : System limits) (action : Action limits) :
    Decidable (system.InheritsNothing action) :=
  match action with
  | .exec _ _ _ _ => inferInstanceAs (Decidable (∀ _, _ → _ → ∀ _, _))
  | .idle _ | .start | .yield _ _ | .wakeup _ | .exit _ _ | .waitChild _ _ _
  | .createThread _ _ _ | .threadExit _ _ | .threadJoin _ _ _
  | .threadDetach _ | .openNull | .openTerminal _ | .close _ | .resume _ =>
      inferInstanceAs (Decidable True)

/-- `WaitChild` cleans up processes that have closed their descriptors. -/
def ReapsClosed (system : System limits) (action : Action limits) : Prop :=
  ∀ slot child, system.currentSlot = some slot →
    system.reapTarget slot action = some child → system.kernel.Closed child

instance (system : System limits) (action : Action limits) :
    Decidable (system.ReapsClosed action) :=
  inferInstanceAs (Decidable (∀ _, _))

/-- `Exit` and `ThreadExit` are called by processes that have closed their
descriptors. -/
def ExitsClosed (system : System limits) : Action limits → Prop
  | .exit _ _ | .threadExit _ _ => ∀ proc,
      system.kernel.currentProc = some proc → system.kernel.Closed proc
  | _ => True

instance (system : System limits) (action : Action limits) :
    Decidable (system.ExitsClosed action) :=
  match action with
  | .exit _ _ | .threadExit _ _ => inferInstanceAs (Decidable (∀ _, _ → _))
  | .idle _ | .start | .yield _ _ | .wakeup _ | .exec _ _ _ _
  | .waitChild _ _ _ | .createThread _ _ _ | .threadJoin _ _ _
  | .threadDetach _ | .openNull | .openTerminal _ | .close _ | .resume _ =>
      inferInstanceAs (Decidable True)

/-- A created process has inherited nothing. -/
theorem inherits_nothing_of_executed
    {before after : System limits}
    {call : Option Task}
    {argl : Int}
    {args : ArgPtr limits}
    {memory : Nat → UInt8}
    {newproc : Fin limits.maxProc}
    (inherits : before.InheritsNothing (.exec call argl args memory))
    (created : ProcCreated before.kernel after.kernel newproc .alive)
    (files : FilesInherited before.kernel after.kernel newproc)
    (threads : call = none ∧ SameThreads before.kernel after.kernel ∧
        SamePtcbs before.kernel after.kernel ∨
      call ≠ none ∧ ∃ new, NewThread before.kernel after.kernel new newproc ∧
        PtcbsGrown before.kernel after.kernel newproc) :
    after.kernel.Closed newproc := by
  have succeeds : call = none ∨ before.kernel.sched.freeSlot ≠ none := by
    rcases threads with ⟨noCall, -⟩ | ⟨-, new, thread, -⟩
    · exact .inl noCall
    · rw [thread.free]
      exact .inr (by simp)
  intro fid
  rw [files.FIDT, Function.update_self]
  exact inherits newproc created.free succeeds fid

theorem counted_step
    {before after : System limits}
    {action : Action limits}
    (counts : before.kernel.RefCounts)
    (sound : before.Sound)
    (single : before.Single)
    (inherits : before.InheritsNothing action)
    (closed : ∀ {slot child status}, before.currentSlot = some slot →
      Reaps before action slot child status → before.kernel.Closed child)
    (effect : Effect before action after) :
    after.kernel.RefCounts := by
  obtain ⟨free, counted⟩ := counts
  have same : SameProcs before.kernel after.kernel →
      SameFiles before.kernel after.kernel → after.kernel.RefCounts := by
    intro procs files
    refine ⟨free, counted.of_same files.fcb files.freelist
      (refSet_congr fun pid fid fcb => ?_)⟩
    rw [procs.pstate, files.FIDT]
  cases effect with
  | stay notExit procs files threads ptcbs control reply =>
      exact same procs files
  | executed caller newproc isCurrent proc files threads control reply =>
      have nothing := inherits_nothing_of_executed inherits proc files threads
      refine ⟨free, counted.of_same files.fcb files.freelist
        (refSet_congr fun pid fid fcb => ?_)⟩
      by_cases isNew : pid = newproc
      · subst isNew
        simp [nothing fid, proc.wasFree]
      · rw [proc.pstate, files.FIDT, Function.update_of_ne isNew,
          Function.update_of_ne isNew]
  | execFailed caller newproc isCurrent isCall noSlot proc files threads ptcbs
      control reply =>
      refine ⟨free, counted.of_same files.fcb files.freelist
        (refSet_congr fun pid fid fcb => ?_)⟩
      by_cases isNew : pid = newproc
      · subst isNew
        simp [proc.pstate, proc.wasFree]
      · rw [proc.pstate, files.FIDT, Function.update_of_ne isNew,
          Function.update_of_ne isNew]
  | exited leaver proc isCurrent owned procs files threads ptcbs control
      reply =>
      have wasAlive := single.caller_alive sound isCurrent owned
      refine ⟨free, counted.of_same files.fcb files.freelist
        (refSet_congr fun pid fid fcb => ?_)⟩
      rw [procs.pstate, files.FIDT]
      by_cases isProc : pid = proc
      · subst isProc
        simp [wasAlive]
      · rw [Function.update_of_ne isProc]
  | threadExited leaver proc isCurrent owned procs files threads ptcbs control
      reply => exact same procs files
  | reaped reaper reaped status isCurrent reason procs files threads ptcbs
      control reply =>
      have nothing := closed isCurrent reason
      refine ⟨free, counted.of_same files.fcb files.freelist
        (refSet_congr fun pid fid fcb => ?_)⟩
      rw [procs.pstate, files.FIDT]
      by_cases isReaped : pid = reaped
      · subst isReaped
        simp [nothing fid]
      · rw [Function.update_of_ne isReaped]
  | threadCreated caller new proc isCurrent owned procs files thread ptcbs
      control reply => exact same procs files
  | streams caller notExit isCurrent call only control reply =>
      obtain ⟨cur, owned⟩ := sound.owned caller (sound.current_used isCurrent)
      have isCaller := currentProc_of_owned isCurrent owned
      have notFree : before.kernel.pstate cur ≠ .free := by
        simp [single.caller_alive sound isCurrent owned]
      rcases call with ⟨major, minor, result, opened⟩ | ⟨fd, result, -, closed⟩
      · obtain ⟨result', kernel, opened', counts, -⟩ :=
          counted.openStream isCaller notFree major minor
        rw [opened] at opened'
        cases opened'
        exact counts
      · obtain ⟨result', kernel, closed', counts⟩ :=
          counted.sysClose isCaller notFree fd
        rw [closed] at closed'
        cases closed'
        exact counts

/-- No descriptor is open when the scheduler starts. -/
theorem booted_FIDT
    {start : System limits}
    (booted : start.Booted)
    (pid : Fin limits.maxProc)
    (fid : Fin limits.maxFileid) :
    start.kernel.FIDT pid fid = none := by
  have fresh : (initial limits).Fresh := initial_fresh
  obtain ⟨first, kernel, effect, procs, files, -⟩ := booted.tables
  rw [files.FIDT]
  have inherited : ∀ {newproc},
      FilesInherited (initial limits) kernel newproc →
        kernel.FIDT pid fid = none := by
    intro newproc files
    rw [files.FIDT, Function.update_apply]
    split_ifs with isNew
    · rw [inheritedFIDT, fresh.execParent]
      exact fresh.FIDT newproc fid
    · exact fresh.FIDT pid fid
  cases effect with
  | full noPcb => exact fresh.FIDT pid fid
  | threadless newproc noCall proc files threads ptcbs sched =>
      exact inherited files
  | failed newproc isCall noSlot proc files threads ptcbs sched =>
      exact inherited files
  | started newproc slot isCall proc files thread ptcbs current =>
      exact inherited files

/-- The file table when the scheduler starts. -/
theorem counted_of_booted
    {start : System limits}
    (booted : start.Booted) :
    start.kernel.RefCounts := by
  have fresh : (initial limits).Fresh := initial_fresh
  obtain ⟨first, kernel, effect, procs, files, -⟩ := booted.tables
  have initially : (initial limits).Counted
      (List.finRange limits.maxFiles) := counted_initializeFiles fresh.FIDT
  have tables : kernel.fcb = (initial limits).fcb ∧
      kernel.freelist = (initial limits).freelist := by
    cases effect with
    | full noPcb => exact ⟨rfl, rfl⟩
    | threadless newproc noCall proc files threads ptcbs sched =>
        exact ⟨files.fcb, files.freelist⟩
    | failed newproc isCall noSlot proc files threads ptcbs sched =>
        exact ⟨files.fcb, files.freelist⟩
    | started newproc slot isCall proc files thread ptcbs current =>
        exact ⟨files.fcb, files.freelist⟩
  refine ⟨_, initially.of_same (files.fcb.trans tables.1)
    (files.freelist.trans tables.2) (refSet_congr fun pid fid fcb => ?_)⟩
  simp [booted_FIDT booted, fresh.FIDT]

/-- Runs without `CreateThread` in which no process inherits an open descriptor
and none is reaped with one. -/
def CountsFiles (system : System limits) (action : Action limits) : Prop :=
  system.SingleThreaded action ∧ system.InheritsNothing action ∧
    system.ReapsClosed action

instance (system : System limits) (action : Action limits) :
    Decidable (system.CountsFiles action) :=
  inferInstanceAs (Decidable (_ ∧ _ ∧ _))

theorem Reached.refCounts
    {system : System limits}
    (reached : Reached CountsFiles system) :
    system.kernel.RefCounts := by
  have both := reached.invariant_with_rings
    (motive := fun system => system.Single ∧ system.kernel.RefCounts)
    (fun booted => ⟨.of_booted booted, counted_of_booted booted⟩)
    (by
      rintro before action after sound rings ⟨single, counts⟩ enabled
        ⟨singleThreaded, inherits, closed⟩ effect
      exact ⟨single.step sound rings singleThreaded effect,
        counted_step counts sound single inherits
          (fun isCurrent reaps => closed _ _ isCurrent reaps.reapTarget)
          effect⟩)
  exact both.2.2.2

/-- The current process is one whose descriptors count. -/
theorem Sound.caller_occupied
    {system : System limits}
    {slot : Fin limits.maxThreads}
    (sound : system.Sound)
    (single : system.Single)
    (isCurrent : system.currentSlot = some slot) :
    ∃ cur, system.kernel.currentProc = some cur ∧
      system.kernel.pstate cur ≠ .free := by
  obtain ⟨cur, owned⟩ := sound.owned slot (sound.current_used isCurrent)
  exact ⟨cur, currentProc_of_owned isCurrent owned,
    by simp [single.caller_alive sound isCurrent owned]⟩

/-- In such runs every FCB is free and unreferenced, or counted by the
descriptors that point to it.  An FCB that a thread is given by `OpenNull` or
`OpenTerminal` is referenced by nobody, and after `Close` too the free FCBs are
the ones that no process has open. -/
theorem files_counted
    {system : System limits}
    (reached : Reached CountsFiles system) :
    system.kernel.RefCounts ∧
      (∀ slot major minor, system.currentSlot = some slot →
        ∃ cur result after, system.kernel.currentProc = some cur ∧
          system.kernel.openStream major minor = .ok (result, after) ∧
          ∀ fid, result = some fid → ∃ fcb, after.FIDT cur fid = some fcb ∧
            system.kernel.refSet fcb = ∅) ∧
      ∀ slot fd, system.currentSlot = some slot →
        ∃ result after, system.kernel.sysClose fd = .ok (result, after) ∧
          after.RefCounts := by
  obtain ⟨free, counted⟩ := reached.refCounts
  obtain ⟨sound, -⟩ := reached.rings
  have single : system.Single := reached.single fun allowed => allowed.1
  refine ⟨⟨free, counted⟩, ?_, ?_⟩
  · intro slot major minor isCurrent
    obtain ⟨cur, isCaller, notFree⟩ := sound.caller_occupied single isCurrent
    obtain ⟨result, after, opened, -, fresh⟩ :=
      counted.openStream isCaller notFree major minor
    exact ⟨cur, result, after, isCaller, opened, fresh⟩
  · intro slot fd isCurrent
    obtain ⟨cur, isCaller, notFree⟩ := sound.caller_occupied single isCurrent
    exact counted.sysClose isCaller notFree fd

/-- The first process has opened a stream. -/
theorem files_counted_one_stream :
    ∃ system : System Limits.tinier,
      (Reached CountsFiles system ∧ system.kernel.FIDT 1 0 = some 0) ∧
      system.kernel.RefCounts ∧
        (∀ slot major minor, system.currentSlot = some slot →
          ∃ cur result after, system.kernel.currentProc = some cur ∧
            system.kernel.openStream major minor = .ok (result, after) ∧
            ∀ fid, result = some fid →
              ∃ fcb, after.FIDT cur fid = some fcb ∧
                system.kernel.refSet fcb = ∅) ∧
        ∀ slot fd, system.currentSlot = some slot →
          ∃ result after, system.kernel.sysClose fd = .ok (result, after) ∧
            after.RefCounts := by
  have ran : ∃ system : System Limits.tinier, Reached CountsFiles system ∧
      decide (system.kernel.FIDT 1 0 = some 0) = true :=
    exists_reached_of_any [.idle .zero, .start, .openNull] (by decide +kernel)
  obtain ⟨system, reached, test⟩ := ran
  exact ⟨system, ⟨reached, of_decide_eq_true test⟩, files_counted reached⟩

/-- The first process opens a stream and creates a child: two descriptors point
to an FCB that is counted once. -/
theorem inherited_stream_not_counted :
    ∃ system : System ⟨3, 2, 4, 4⟩, Reached SingleThreaded system ∧
      system.kernel.FIDT 1 0 = some 0 ∧ system.kernel.FIDT 2 0 = some 0 ∧
      (system.kernel.fcb 0).refcount = 1 ∧ ¬system.kernel.RefCounts := by
  have ran : ∃ system : System ⟨3, 2, 4, 4⟩,
      Reached SingleThreaded system ∧
        decide (system.kernel.FIDT 1 0 = some 0 ∧
          system.kernel.FIDT 2 0 = some 0 ∧
          (system.kernel.fcb 0).refcount = 1 ∧
          system.kernel.pstate 1 ≠ .free ∧
          system.kernel.pstate 2 ≠ .free) = true :=
    exists_reached_of_any
      [.idle .zero, .start, .openNull, .exec (some 1) 0 .null fun _ => 0]
      (by decide +kernel)
  obtain ⟨system, reached, test⟩ := ran
  obtain ⟨first, second, one, firstOccupied, secondOccupied⟩ :=
    of_decide_eq_true test
  refine ⟨system, reached, first, second, one, ?_⟩
  rintro ⟨free, counted⟩
  have inUse := counted.not_free_of_entry firstOccupied first
  have count := (counted.counted inUse).2
  have both : ({(1, 0), (2, 0)} : Finset (Fin 3 × Fin 4)) ⊆
      system.kernel.refSet 0 := by
    intro entry member
    rcases Finset.mem_insert.mp member with rfl | member
    · exact mem_refSet.mpr ⟨firstOccupied, first⟩
    · rw [Finset.mem_singleton] at member
      rw [member]
      exact mem_refSet.mpr ⟨secondOccupied, second⟩
  have atLeast := Finset.card_le_card both
  rw [Finset.card_pair (by decide)] at atLeast
  rw [one] at count
  omega

/-! ## Processes that have ended -/

/-- A process has a thread. -/
def HasThread
    (kernel : Kernel limits)
    (pid : Fin limits.maxProc) : Prop :=
  ∃ slot, kernel.threadUsed slot = true ∧ kernel.owner slot = some pid

instance (kernel : Kernel limits) (pid : Fin limits.maxProc) :
    Decidable (HasThread kernel pid) :=
  inferInstanceAs (Decidable (∃ _, _))

/-- A process without threads has no descriptor open. -/
def EndedClosed (kernel : Kernel limits) : Prop :=
  ∀ pid, kernel.pstate pid ≠ .free → ¬HasThread kernel pid →
    kernel.Closed pid

/-- The threads of `pid` are the same. -/
theorem hasThread_of_same
    {before after : Kernel limits}
    {pid : Fin limits.maxProc}
    (threads : SameThreads before after) :
    HasThread after pid ↔ HasThread before pid := by
  unfold HasThread
  rw [threads.used, threads.owner]

theorem hasThread_of_new
    {before after : Kernel limits}
    {new : Fin limits.maxThreads}
    {proc pid : Fin limits.maxProc}
    (thread : NewThread before after new proc)
    (has : HasThread before pid) :
    HasThread after pid := by
  obtain ⟨slot, usedSlot, owned⟩ := has
  have different : slot ≠ new := by
    rintro rfl
    have unused : before.threadUsed slot = false :=
      Sched.freeSlot_eq_some thread.free
    rw [usedSlot] at unused
    cases unused
  refine ⟨slot, ?_, ?_⟩
  · rw [thread.used, Function.update_of_ne different]
    exact usedSlot
  · rw [thread.owner, Function.update_of_ne different]
    exact owned

/-- Only the process of a thread that leaves can be without one. -/
theorem hasThread_of_left
    {before after : Kernel limits}
    {slot : Fin limits.maxThreads}
    {proc pid : Fin limits.maxProc}
    (owned : before.owner slot = some proc)
    (left : ThreadLeft before after slot proc)
    (different : pid ≠ proc)
    (has : HasThread before pid) :
    HasThread after pid := by
  obtain ⟨other, usedOther, ownedOther⟩ := has
  have stays : other ≠ slot := by
    rintro rfl
    rw [owned] at ownedOther
    exact different (Option.some.inj ownedOther).symm
  refine ⟨other, ?_, ?_⟩
  · rw [left.used, Function.update_of_ne stays]
    exact usedOther
  · rw [left.owner]
    exact ownedOther

theorem endedClosed_step
    {before after : System limits}
    {action : Action limits}
    (ended : EndedClosed before.kernel)
    (sound : before.Sound)
    (inherits : before.InheritsNothing action)
    (closed : before.ExitsClosed action)
    (effect : Effect before action after) :
    EndedClosed after.kernel := by
  have same : SameProcs before.kernel after.kernel →
      SameFiles before.kernel after.kernel →
      (∀ pid, HasThread before.kernel pid → HasThread after.kernel pid) →
        EndedClosed after.kernel := by
    intro procs files threads pid notFree noThread fid
    rw [procs.pstate] at notFree
    rw [files.FIDT]
    exact ended pid notFree (fun has => noThread (threads pid has)) fid
  cases effect with
  | stay notExit procs files threads ptcbs control reply =>
      exact same procs files fun pid => (hasThread_of_same threads).mpr
  | executed caller newproc isCurrent proc files threads control reply =>
      have nothing := inherits_nothing_of_executed inherits proc files threads
      intro pid notFree noThread
      by_cases isNew : pid = newproc
      · rw [isNew]
        exact nothing
      · intro fid
        rw [proc.pstate, Function.update_of_ne isNew] at notFree
        rw [files.FIDT, Function.update_of_ne isNew]
        refine ended pid notFree (fun has => noThread ?_) fid
        rcases threads with ⟨-, threads, -⟩ | ⟨-, new, thread, -⟩
        · exact (hasThread_of_same threads).mpr has
        · exact hasThread_of_new thread has
  | execFailed caller newproc isCurrent isCall noSlot proc files threads ptcbs
      control reply =>
      intro pid notFree noThread fid
      have different : pid ≠ newproc := by
        rintro rfl
        rw [proc.pstate, Function.update_self] at notFree
        exact notFree rfl
      rw [proc.pstate, Function.update_of_ne different] at notFree
      rw [files.FIDT, Function.update_of_ne different]
      exact ended pid notFree
        (fun has => noThread ((hasThread_of_same threads).mpr has)) fid
  | exited leaver proc isCurrent owned procs files threads ptcbs control
      reply =>
      intro pid notFree noThread fid
      rw [files.FIDT]
      by_cases isProc : pid = proc
      · rw [isProc]
        exact closed proc (currentProc_of_owned isCurrent owned) fid
      · rw [procs.pstate, Function.update_of_ne isProc] at notFree
        exact ended pid notFree (fun has => noThread
          (hasThread_of_left owned threads isProc has)) fid
  | threadExited leaver proc isCurrent owned procs files threads ptcbs control
      reply =>
      intro pid notFree noThread fid
      rw [files.FIDT]
      by_cases isProc : pid = proc
      · rw [isProc]
        exact closed proc (currentProc_of_owned isCurrent owned) fid
      · rw [procs.pstate] at notFree
        exact ended pid notFree (fun has => noThread
          (hasThread_of_left owned threads isProc has)) fid
  | reaped reaper reaped status isCurrent reason procs files threads ptcbs
      control reply =>
      intro pid notFree noThread fid
      have different : pid ≠ reaped := by
        rintro rfl
        rw [procs.pstate, Function.update_self] at notFree
        exact notFree rfl
      rw [procs.pstate, Function.update_of_ne different] at notFree
      rw [files.FIDT]
      exact ended pid notFree
        (fun has => noThread ((hasThread_of_same threads).mpr has)) fid
  | threadCreated caller new proc isCurrent owned procs files thread ptcbs
      control reply =>
      exact same procs files fun pid => hasThread_of_new thread
  | streams caller notExit isCurrent call only control reply =>
      have usedSlot := sound.current_used isCurrent
      obtain ⟨cur, owned⟩ := sound.owned caller usedSlot
      intro pid notFree noThread fid
      rw [hasThread_of_same only.sameThreads] at noThread
      have different : pid ≠ cur := by
        rintro rfl
        exact noThread ⟨caller, usedSlot, owned⟩
      rw [only.procs.pstate] at notFree
      rw [streams_FIDT_of_ne (currentProc_of_owned isCurrent owned)
        (call.imp_right fun ⟨fd, result, _, closed⟩ => ⟨fd, result, closed⟩)
        different]
      exact ended pid notFree noThread fid

/-- Runs without `CreateThread` in which no process inherits an open descriptor
and processes close their descriptors before they exit. -/
def ClosesFiles (system : System limits) (action : Action limits) : Prop :=
  system.SingleThreaded action ∧ system.InheritsNothing action ∧
    system.ExitsClosed action

instance (system : System limits) (action : Action limits) :
    Decidable (system.ClosesFiles action) :=
  inferInstanceAs (Decidable (_ ∧ _ ∧ _))

/-- A zombie has no thread, so it has closed its descriptors. -/
theorem Single.reaps_closed
    {before : System limits}
    {action : Action limits}
    {slot : Fin limits.maxThreads}
    {child : Fin limits.maxProc}
    {status : Bool}
    (single : before.Single)
    (sound : before.Sound)
    (rings : before.kernel.ExitedRings)
    (ended : EndedClosed before.kernel)
    (isCurrent : before.currentSlot = some slot)
    (reaps : Reaps before action slot child status) :
    before.kernel.Closed child := by
  obtain ⟨parent, -, isZombie, -⟩ :=
    single.isChild_of_reaps sound rings isCurrent reaps
  refine ended child (by simp [isZombie]) ?_
  rintro ⟨other, usedOther, owned⟩
  have isAlive := single.owners.alive usedOther owned
  rw [isZombie] at isAlive
  cases isAlive

theorem Reached.closesFiles
    {system : System limits}
    (reached : Reached ClosesFiles system) :
    EndedClosed system.kernel ∧ system.kernel.RefCounts := by
  have both := reached.invariant_with_rings
    (motive := fun system => system.Single ∧ EndedClosed system.kernel ∧
      system.kernel.RefCounts)
    (fun booted => ⟨.of_booted booted,
      fun pid _ _ fid => booted_FIDT booted pid fid,
      counted_of_booted booted⟩)
    (by
      rintro before action after sound rings ⟨single, ended, counts⟩ enabled
        ⟨singleThreaded, inherits, closed⟩ effect
      exact ⟨single.step sound rings singleThreaded effect,
        endedClosed_step ended sound inherits closed effect,
        counted_step counts sound single inherits
          (single.reaps_closed sound rings ended) effect⟩)
  exact both.2.2.2

/-! ## Descriptors that are shared -/

/-- `Close` does not give back an FCB that is free: a descriptor that a process
has inherited may be left over from an FCB that another has closed and that a
failed open has counted again. -/
def ClosesOnce (system : System limits) : Action limits → Prop
  | .close fd => ∀ cur, system.kernel.currentProc = some cur →
      ∀ fid fcb, (fid.val : Int) = fd →
        system.kernel.FIDT cur fid = some fcb →
          (system.kernel.fcb fcb).refcount = 1 →
            system.kernel.freelist.isRlistEmpty (.node fcb) = true
  | _ => True

instance (system : System limits) (action : Action limits) :
    Decidable (system.ClosesOnce action) :=
  match action with
  | .close _ => inferInstanceAs (Decidable (∀ _, _ → ∀ _ _, _ → _ → _ → _))
  | .idle _ | .start | .yield _ _ | .wakeup _ | .exec _ _ _ _ | .exit _ _
  | .waitChild _ _ _ | .createThread _ _ _ | .threadExit _ _
  | .threadJoin _ _ _ | .threadDetach _ | .openNull | .openTerminal _
  | .resume _ =>
      inferInstanceAs (Decidable True)

/-- The FCBs of a process that are in use are also open in another process, one
that has a thread. -/
def Shared (kernel : Kernel limits) (proc : Fin limits.maxProc) : Prop :=
  ∀ fid fcb, kernel.FIDT proc fid = some fcb →
    kernel.freelist.isRlistEmpty (.node fcb) = true →
      ∃ pid, pid ≠ proc ∧ HasThread kernel pid ∧
        ∃ other, kernel.FIDT pid other = some fcb

instance (kernel : Kernel limits) (proc : Fin limits.maxProc) :
    Decidable (Shared kernel proc) :=
  inferInstanceAs (Decidable (∀ _ _, _ → _ → ∃ _, _))

/-- `Exit` and `ThreadExit` are called by processes whose descriptors are closed
or shared. -/
def ExitsShared (system : System limits) : Action limits → Prop
  | .exit _ _ | .threadExit _ _ => ∀ proc,
      system.kernel.currentProc = some proc → Shared system.kernel proc
  | _ => True

instance (system : System limits) (action : Action limits) :
    Decidable (system.ExitsShared action) :=
  match action with
  | .exit _ _ | .threadExit _ _ => inferInstanceAs (Decidable (∀ _, _ → _))
  | .idle _ | .start | .yield _ _ | .wakeup _ | .exec _ _ _ _
  | .waitChild _ _ _ | .createThread _ _ _ | .threadJoin _ _ _
  | .threadDetach _ | .openNull | .openTerminal _ | .close _ | .resume _ =>
      inferInstanceAs (Decidable True)

/-- Every FCB is free or lent to processes that have a thread. -/
def FilesLent (kernel : Kernel limits) : Prop :=
  ∃ free, kernel.Lent (HasThread kernel) free

section FilesLent

variable {before after : Kernel limits}
variable {free : List (Fin limits.maxFiles)}

theorem filesLent_of_sameFiles
    (lent : before.Lent (HasThread before) free)
    (files : SameFiles before after)
    (threads : ∀ {pid}, HasThread before pid → HasThread after pid) :
    FilesLent after := by
  refine ⟨free, lent.of_same files.fcb files.freelist ?_⟩
  intro pid fid fcb inUse has entry
  exact ⟨pid, fid, threads has, by rw [files.FIDT, entry]⟩

/-- A new process has copies of descriptors, and holds no FCB before. -/
theorem filesLent_of_inherited
    {newproc : Fin limits.maxProc}
    (lent : before.Lent (HasThread before) free)
    (threadless : ¬HasThread before newproc)
    (files : FilesInherited before after newproc)
    (threads : ∀ {pid}, HasThread before pid → HasThread after pid) :
    FilesLent after := by
  refine ⟨free, lent.of_same files.fcb files.freelist ?_⟩
  intro pid fid fcb inUse has entry
  have different : pid ≠ newproc := by
    rintro rfl
    exact threadless has
  refine ⟨pid, fid, threads has, ?_⟩
  rw [files.FIDT, Function.update_of_ne different, entry]

theorem filesLent_of_left
    {slot : Fin limits.maxThreads}
    {proc : Fin limits.maxProc}
    (lent : before.Lent (HasThread before) free)
    (owned : before.owner slot = some proc)
    (files : SameFiles before after)
    (left : ThreadLeft before after slot proc)
    (shared : Shared before proc) :
    FilesLent after := by
  refine ⟨free, lent.of_same files.fcb files.freelist ?_⟩
  intro pid fid fcb inUse has entry
  rw [files.FIDT]
  by_cases isProc : pid = proc
  · rw [isProc] at entry
    obtain ⟨holder, different, hasThread, other, isOpen⟩ := shared fid fcb
      entry (lent.freeList.isRlistEmpty_node_iff.mpr inUse)
    exact ⟨holder, other, hasThread_of_left owned left different hasThread,
      isOpen⟩
  · exact ⟨pid, fid, hasThread_of_left owned left isProc has, entry⟩

end FilesLent

theorem filesLent_step
    {before after : System limits}
    {action : Action limits}
    (files : FilesLent before.kernel)
    (sound : before.Sound)
    (single : before.Single)
    (once : before.ClosesOnce action)
    (exits : before.ExitsShared action)
    (effect : Effect before action after) :
    FilesLent after.kernel := by
  obtain ⟨free, lent⟩ := files
  have threadless : ∀ {pid}, before.kernel.pstate pid = .free →
      ¬HasThread before.kernel pid := by
    rintro pid isFree ⟨slot, usedSlot, owned⟩
    have isAlive := single.owners.alive usedSlot owned
    rw [isFree] at isAlive
    cases isAlive
  cases effect with
  | stay notExit procs files threads ptcbs control reply =>
      exact filesLent_of_sameFiles lent files (hasThread_of_same threads).mpr
  | executed caller newproc isCurrent proc files threads control reply =>
      refine filesLent_of_inherited lent (threadless proc.wasFree) files
        fun has => ?_
      rcases threads with ⟨-, threads, -⟩ | ⟨-, new, thread, -⟩
      · exact (hasThread_of_same threads).mpr has
      · exact hasThread_of_new thread has
  | execFailed caller newproc isCurrent isCall noSlot proc files threads ptcbs
      control reply =>
      exact filesLent_of_inherited lent (threadless proc.wasFree) files
        (hasThread_of_same threads).mpr
  | exited leaver proc isCurrent owned procs files threads ptcbs control
      reply =>
      exact filesLent_of_left lent owned files threads
        (exits proc (currentProc_of_owned isCurrent owned))
  | threadExited leaver proc isCurrent owned procs files threads ptcbs control
      reply =>
      exact filesLent_of_left lent owned files threads
        (exits proc (currentProc_of_owned isCurrent owned))
  | reaped reaper reaped status isCurrent reason procs files threads ptcbs
      control reply =>
      exact filesLent_of_sameFiles lent files (hasThread_of_same threads).mpr
  | threadCreated caller new proc isCurrent owned procs files thread ptcbs
      control reply =>
      exact filesLent_of_sameFiles lent files (hasThread_of_new thread)
  | streams caller notExit isCurrent call only control reply =>
      have usedSlot := sound.current_used isCurrent
      obtain ⟨cur, owned⟩ := sound.owned caller usedSlot
      have isCaller := currentProc_of_owned isCurrent owned
      have lentAfter :
          ∃ again, after.kernel.Lent (HasThread before.kernel) again := by
        rcases call with ⟨major, minor, result, opened⟩ |
          ⟨fd, result, rfl, closed⟩
        · obtain ⟨result', kernel, again, opened', lentAfter⟩ :=
            lent.openStream isCaller ⟨caller, usedSlot, owned⟩ major minor
          rw [opened] at opened'
          cases opened'
          exact ⟨again, lentAfter⟩
        · refine lent.sysClose isCaller closed ?_
          intro fid fcb isFid entry one
          exact lent.freeList.isRlistEmpty_node_iff.mp
            (once cur isCaller fid fcb isFid entry one)
      obtain ⟨again, lentAfter⟩ := lentAfter
      refine ⟨again, lentAfter.of_same rfl rfl ?_⟩
      intro pid fid fcb inUse has entry
      exact ⟨pid, fid, (hasThread_of_same only.sameThreads).mpr has, entry⟩

/-- Runs without `CreateThread` in which `Close` gives back no FCB that is free
and processes close or share their descriptors before they exit. -/
def ReturnsFiles (system : System limits) (action : Action limits) : Prop :=
  system.SingleThreaded action ∧ system.ClosesOnce action ∧
    system.ExitsShared action

instance (system : System limits) (action : Action limits) :
    Decidable (system.ReturnsFiles action) :=
  inferInstanceAs (Decidable (_ ∧ _ ∧ _))

/-- No FCB is in use when the scheduler starts. -/
theorem filesLent_of_booted
    {start : System limits}
    (booted : start.Booted) :
    FilesLent start.kernel := by
  obtain ⟨free, counted⟩ := counted_of_booted booted
  have allFree : ∀ fcb, fcb ∈ free := by
    intro fcb
    by_contra inUse
    obtain ⟨entry, member⟩ := Finset.card_pos.mp (counted.counted inUse).1
    have isOpen := (mem_refSet.mp member).2
    rw [booted_FIDT booted] at isOpen
    cases isOpen
  exact ⟨free, counted.freeList, fun inUse => absurd (allFree _) inUse,
    fun inUse => absurd (allFree _) inUse⟩

theorem Reached.filesLent
    {system : System limits}
    (reached : Reached ReturnsFiles system) :
    FilesLent system.kernel := by
  have both := reached.invariant_with_rings
    (motive := fun system => system.Single ∧ FilesLent system.kernel)
    (fun booted => ⟨.of_booted booted, filesLent_of_booted booted⟩)
    (by
      rintro before action after sound rings ⟨single, files⟩ enabled
        ⟨singleThreaded, once, shared⟩ effect
      exact ⟨single.step sound rings singleThreaded effect,
        filesLent_step files sound single once shared effect⟩)
  exact both.2.2.2

/-- Without inherited descriptors every open FCB is in use, so processes that
close their descriptors before they exit give all FCBs back. -/
theorem Reached.returnsFiles
    {system : System limits}
    (reached : Reached ClosesFiles system) :
    Reached ReturnsFiles system := by
  obtain ⟨start, booted, reachable⟩ := reached
  refine ⟨start, booted, reachable.of_steps ?_⟩
  rintro before action reachable ⟨enabled, singleThreaded, inherits, closed⟩
  have reached : Reached ClosesFiles before := ⟨start, booted, reachable⟩
  refine ⟨enabled, singleThreaded, ?_, ?_⟩
  · cases action with
    | close fd =>
        intro cur isCaller fid fcb isFid entry one
        obtain ⟨slot, isCurrent, -⟩ := Option.map_eq_some_iff.mp
          (show before.currentControl = some .user from enabled)
        obtain ⟨-, free, counted⟩ := reached.closesFiles
        obtain ⟨cur', isCaller', notFree⟩ := reached.rings.1.caller_occupied
          (reached.single fun allowed => allowed.1) isCurrent
        rw [isCaller] at isCaller'
        cases isCaller'
        exact counted.freeList.isRlistEmpty_node_iff.mpr
          (counted.not_free_of_entry notFree entry)
    | _ => trivial
  · cases action with
    | exit exitval clock | threadExit exitval clock =>
        intro proc isCaller fid fcb entry
        rw [closed proc isCaller fid] at entry
        cases entry
    | _ => trivial

/-- The FCBs that are not in `FCB_freelist` are open in processes that have a
thread. -/
structure GivenBack
    (kernel : Kernel limits)
    (free : List (Fin limits.maxFiles)) : Prop where
  freeList : kernel.FreeList free
  held : ∀ {fcb}, fcb ∉ free → ∃ pid fid, kernel.pstate pid ≠ .free ∧
    HasThread kernel pid ∧ kernel.FIDT pid fid = some fcb

/-- The FCBs that are open in a process that has a thread. -/
def openFiles (kernel : Kernel limits) : Finset (Fin limits.maxFiles) :=
  Finset.univ.filter fun fcb => ∃ pid fid, kernel.pstate pid ≠ .free ∧
    HasThread kernel pid ∧ kernel.FIDT pid fid = some fcb

theorem Single.givenBack
    {system : System limits}
    {free : List (Fin limits.maxFiles)}
    (single : system.Single)
    (lent : system.kernel.Lent (HasThread system.kernel) free) :
    GivenBack system.kernel free := by
  refine ⟨lent.freeList, ?_⟩
  intro fcb inUse
  obtain ⟨pid, fid, hasThread, entry⟩ := lent.held inUse
  obtain ⟨slot, usedSlot, owned⟩ := hasThread
  exact ⟨pid, fid, by simp [single.owners.alive usedSlot owned],
    ⟨slot, usedSlot, owned⟩, entry⟩

/-- Fewer open FCBs than there are leave one free. -/
theorem GivenBack.ne_nil
    {kernel : Kernel limits}
    {free : List (Fin limits.maxFiles)}
    (givenBack : GivenBack kernel free)
    (fewer : (openFiles kernel).card < limits.maxFiles) :
    free ≠ [] := by
  rintro rfl
  have allOpen : openFiles kernel = Finset.univ := by
    refine Finset.eq_univ_iff_forall.mpr fun fcb => ?_
    exact Finset.mem_filter.mpr
      ⟨Finset.mem_univ fcb, givenBack.held List.not_mem_nil⟩
  rw [allOpen, Finset.card_univ, Fintype.card_fin] at fewer
  exact lt_irrefl _ fewer

/-- Without its caller's thread, an FCB in use that the caller has open must be
open in another process. -/
theorem shared_of_left
    {before after : Kernel limits}
    {slot : Fin limits.maxThreads}
    {proc : Fin limits.maxProc}
    {free : List (Fin limits.maxFiles)}
    (owners : before.OwnersAlive)
    (usedSlot : before.threadUsed slot = true)
    (owned : before.owner slot = some proc)
    (files : SameFiles before after)
    (left : ThreadLeft before after slot proc)
    (givenBack : GivenBack after free) :
    Shared before proc := by
  intro fid fcb entry alone
  have inUse : fcb ∉ free := by
    rw [← files.freelist] at alone
    exact givenBack.freeList.isRlistEmpty_node_iff.mp alone
  obtain ⟨pid, other, -, ⟨holder, usedAfter, ownedAfter⟩, isOpen⟩ :=
    givenBack.held inUse
  rw [files.FIDT] at isOpen
  rw [left.owner] at ownedAfter
  have stays : holder ≠ slot := by
    rintro rfl
    rw [left.used, Function.update_self] at usedAfter
    cases usedAfter
  rw [left.used, Function.update_of_ne stays] at usedAfter
  refine ⟨pid, ?_, ⟨holder, usedAfter, ownedAfter⟩, other, isOpen⟩
  rintro rfl
  exact stays (owners.distinct usedAfter usedSlot (ownedAfter.trans owned.symm))

theorem exitsShared_of_givenBack
    {before after : System limits}
    {action : Action limits}
    {free : List (Fin limits.maxFiles)}
    (sound : before.Sound)
    (single : before.Single)
    (enabled : before.Enabled action)
    (stepped : before.step action = .ok after)
    (givenBack : GivenBack after.kernel free) :
    before.ExitsShared action := by
  obtain ⟨-, effect⟩ := sound.step enabled stepped
  have exits : ∀ {exitval clock}, action = .exit exitval clock ∨
      action = .threadExit exitval clock →
        ∀ caller, before.kernel.currentProc = some caller →
          Shared before.kernel caller := by
    intro exitval clock isExit caller isCaller
    obtain ⟨slot, isCurrent, unused⟩ :=
      (sound.performs enabled stepped).caller_unused isExit
    have wasUsed := sound.current_used isCurrent
    have left : ∀ {leaver proc}, before.currentSlot = some leaver →
        before.kernel.owner leaver = some proc →
        SameFiles before.kernel after.kernel →
        ThreadLeft before.kernel after.kernel leaver proc →
          Shared before.kernel caller := by
      intro leaver proc isLeaver owned files threads
      rw [currentProc_of_owned isLeaver owned] at isCaller
      cases isCaller
      exact shared_of_left single.owners (sound.current_used isLeaver) owned
        files threads givenBack
    have same : ¬SameThreads before.kernel after.kernel := by
      intro threads
      rw [threads.used, wasUsed] at unused
      cases unused
    cases effect with
    | stay notExit procs files threads => exact absurd threads same
    | executed | execFailed | threadCreated =>
        rcases isExit with isExit | isExit <;> cases isExit
    | exited leaver proc isLeaver owned procs files threads =>
        exact left isLeaver owned files threads
    | threadExited leaver proc isLeaver owned procs files threads =>
        exact left isLeaver owned files threads
    | reaped reaper reaped status isReaper reason procs files threads =>
        exact absurd threads same
    | streams opener notExit isOpener call only =>
        exact absurd only.sameThreads same
  cases action with
  | exit exitval clock => exact exits (.inl rfl)
  | threadExit exitval clock => exact exits (.inr rfl)
  | _ => trivial

/-- In such runs the files of a process that has ended are given back: once no
thread is left every FCB is free, and while fewer than all FCBs are open a
process that has a descriptor left can open a stream.  The next `Exit` or
`ThreadExit` keeps this exactly when its caller closed or shared its files. -/
theorem files_given_back
    {system : System limits}
    (reached : Reached ReturnsFiles system) :
    ∃ free, GivenBack system.kernel free ∧
      ((∀ slot, system.kernel.threadUsed slot = false) →
        ∀ fcb, fcb ∈ free) ∧
      (∀ slot major minor, system.currentSlot = some slot →
        deviceOpen major minor ≠ none →
        (openFiles system.kernel).card < limits.maxFiles →
        ∃ cur, system.kernel.currentProc = some cur ∧
          ((∃ fid, system.kernel.FIDT cur fid = none) →
            ∃ fid after, system.kernel.openStream major minor =
              .ok (some fid, after))) ∧
      ∀ action after, system.Enabled action → system.SingleThreaded action →
        system.ClosesOnce action → system.step action = .ok after →
          ((∃ free, GivenBack after.kernel free) ↔
            system.ExitsShared action) := by
  obtain ⟨free, lent⟩ := reached.filesLent
  obtain ⟨sound, rings⟩ := reached.rings
  have single : system.Single := reached.single fun allowed => allowed.1
  have givenBack := single.givenBack lent
  refine ⟨free, givenBack, ?_, ?_, ?_⟩
  · intro noThreads fcb
    by_contra inUse
    obtain ⟨pid, fid, -, ⟨slot, usedSlot, -⟩, -⟩ := givenBack.held inUse
    rw [noThreads slot] at usedSlot
    cases usedSlot
  · intro slot major minor isCurrent device fewer
    obtain ⟨cur, isCaller, -⟩ := sound.caller_occupied single isCurrent
    refine ⟨cur, isCaller, ?_⟩
    rintro ⟨fid, isNone⟩
    obtain ⟨result, after, opened, -, fails⟩ :=
      lent.freeList.openStream isCaller major minor
    cases result with
    | some fid => exact ⟨fid, after, opened⟩
    | none =>
        rcases fails.mp rfl with noFid | isEmpty | noDevice
        · have isSome := firstIndex_eq_none_iff.mp noFid fid
          rw [FIDT] at isNone
          simp [isNone] at isSome
        · exact absurd isEmpty (givenBack.ne_nil fewer)
        · exact absurd noDevice device
  · intro action after enabled singleThreaded once stepped
    constructor
    · rintro ⟨again, givenBackAfter⟩
      exact exitsShared_of_givenBack sound single enabled stepped
        givenBackAfter
    · intro exits
      obtain ⟨-, effect⟩ := sound.step enabled stepped
      obtain ⟨again, lentAfter⟩ :=
        filesLent_step ⟨free, lent⟩ sound single once exits effect
      exact ⟨again, (single.step sound rings.2 singleThreaded
        effect).givenBack lentAfter⟩

/-- A child inherits a stream of the first process, which closes it; both exit,
the child with the descriptor it has inherited. -/
theorem files_given_back_one_stream :
    ∃ system : System ⟨3, 2, 4, 4⟩,
      (Reached ReturnsFiles system ∧ system.kernel.FIDT 2 0 = some 0 ∧
        ∀ slot, system.kernel.threadUsed slot = false) ∧
      ∃ free, GivenBack system.kernel free ∧ ∀ fcb, fcb ∈ free := by
  have ran : ∃ system : System ⟨3, 2, 4, 4⟩, Reached ReturnsFiles system ∧
      decide (system.kernel.FIDT 2 0 = some 0 ∧
        ∀ slot, system.kernel.threadUsed slot = false) = true :=
    exists_reached_of_any
      [.idle .zero, .start, .openNull, .exec (some 1) 0 .null fun _ => 0,
        .close 0, .exit 0 .zero, .start, .exit 0 .zero]
      (by decide +kernel)
  obtain ⟨system, reached, test⟩ := ran
  obtain ⟨inherited, noThreads⟩ := of_decide_eq_true test
  obtain ⟨free, givenBack, allFree, -⟩ := files_given_back reached
  exact ⟨system, ⟨reached, inherited, noThreads⟩, free, givenBack,
    allFree noThreads⟩

/-- The first process opens a stream and exits: no thread is left and the FCB is
not free. -/
theorem exited_process_keeps_stream :
    ∃ system : System Limits.tinier, Reached SingleThreaded system ∧
      (∀ slot, system.kernel.threadUsed slot = false) ∧
      ∀ free, system.kernel.FreeList free → 0 ∉ free := by
  have ran : ∃ system : System Limits.tinier,
      Reached SingleThreaded system ∧
        decide ((∀ slot, system.kernel.threadUsed slot = false) ∧
          (system.kernel.freelist (.node 0)).next = .node 0) = true :=
    exists_reached_of_any [.idle .zero, .start, .openNull, .exit 0 .zero]
      (by decide +kernel)
  obtain ⟨system, reached, test⟩ := ran
  obtain ⟨noThreads, alone⟩ := of_decide_eq_true test
  refine ⟨system, reached, noThreads, ?_⟩
  intro free freeList isFree
  exact freeList.isRing.next_ne_of_mem (List.mem_map_of_mem isFree) alone

end System
end TinierOS
