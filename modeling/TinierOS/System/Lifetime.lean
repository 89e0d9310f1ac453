import TinierOS.System.Single

/-!
# The end of a process

`Exit` ends the process and the calling thread, `ThreadExit` the calling thread
only.  Neither looks at the other threads, so a process and its threads end
together only if the right thread makes the right call.
-/

namespace TinierOS

variable {limits : Limits}

namespace Kernel

/-- A thread of `pid` that has not exited. -/
def LiveThread
    (kernel : Kernel limits)
    (slot : Fin limits.maxThreads)
    (pid : Fin limits.maxProc) : Prop :=
  kernel.threadUsed slot = true ∧ kernel.owner slot = some pid ∧
    (kernel.sched.tcb (.slot slot)).state ≠ .exited

/-- A process that `Exec` created is alive exactly while it has a thread, and no
other PCB has one.  Pid 0 is reserved and never created. -/
structure EndsWithLastThread (kernel : Kernel limits) : Prop where
  alive_iff : ∀ pid : Fin limits.maxProc, pid.val ≠ 0 →
    (kernel.pstate pid = .alive ↔ ∃ slot, kernel.LiveThread slot pid)
  ended : ∀ pid slot, kernel.pstate pid ≠ .alive →
    ¬kernel.LiveThread slot pid

/-- Between steps no allocated thread has exited. -/
theorem Resting.liveThread_iff
    {kernel : Kernel limits}
    {slot : Fin limits.maxThreads}
    {pid : Fin limits.maxProc}
    (resting : kernel.Resting) :
    kernel.LiveThread slot pid ↔
      kernel.threadUsed slot = true ∧ kernel.owner slot = some pid := by
  obtain ⟨lists, inv⟩ := resting
  refine ⟨fun live => ⟨live.1, live.2.1⟩, ?_⟩
  rintro ⟨usedSlot, owned⟩
  refine ⟨usedSlot, owned, fun hasExited => ?_⟩
  rcases inv.exited slot usedSlot hasExited with isCurrent | hidden
  · have isRunning := (inv.isRunning (.slot slot)).mpr isCurrent
    rw [hasExited] at isRunning
    cases isRunning
  · exact hidden

/-- The invariant, without the states of the threads. -/
structure Lifetimes (kernel : Kernel limits) : Prop where
  owner_alive : ∀ {slot pid}, kernel.threadUsed slot = true →
    kernel.owner slot = some pid → kernel.pstate pid = .alive
  has_thread : ∀ {pid : Fin limits.maxProc}, pid.val ≠ 0 →
    kernel.pstate pid = .alive →
      ∃ slot, kernel.threadUsed slot = true ∧ kernel.owner slot = some pid

namespace Lifetimes

variable {before after : Kernel limits}

theorem endsWithLastThread
    {kernel : Kernel limits}
    (lifetimes : kernel.Lifetimes)
    (resting : kernel.Resting) :
    kernel.EndsWithLastThread := by
  constructor
  · intro pid created
    simp only [resting.liveThread_iff]
    refine ⟨lifetimes.has_thread created, ?_⟩
    rintro ⟨slot, usedSlot, owned⟩
    exact lifetimes.owner_alive usedSlot owned
  · intro pid slot notAlive live
    exact notAlive (lifetimes.owner_alive live.1 live.2.1)

/-- The threads are the same, and so are the living processes. -/
theorem of_same
    (lifetimes : before.Lifetimes)
    (threads : SameThreads before after)
    (alive : ∀ pid, after.pstate pid = .alive ↔ before.pstate pid = .alive) :
    after.Lifetimes := by
  constructor
  · intro slot pid usedSlot owned
    rw [threads.used] at usedSlot
    rw [threads.owner] at owned
    exact (alive pid).mpr (lifetimes.owner_alive usedSlot owned)
  · intro pid created isAlive
    rw [threads.used, threads.owner]
    exact lifetimes.has_thread created ((alive pid).mp isAlive)

/-- A thread is added to a process that is alive afterwards. -/
theorem of_new
    {new : Fin limits.maxThreads}
    {proc : Fin limits.maxProc}
    (lifetimes : before.Lifetimes)
    (thread : NewThread before after new proc)
    (isAlive : after.pstate proc = .alive)
    (others : ∀ pid, pid ≠ proc →
      (after.pstate pid = .alive ↔ before.pstate pid = .alive))
    (kept : ∀ pid, before.pstate pid = .alive → after.pstate pid = .alive) :
    after.Lifetimes := by
  constructor
  · intro slot pid usedSlot owned
    rw [thread.used] at usedSlot
    rw [thread.owner] at owned
    by_cases same : slot = new
    · rw [same, Function.update_self] at owned
      rw [← Option.some.inj owned]
      exact isAlive
    · rw [Function.update_of_ne same] at usedSlot owned
      exact kept pid (lifetimes.owner_alive usedSlot owned)
  · intro pid created pidAlive
    rw [thread.used, thread.owner]
    by_cases same : pid = proc
    · exact ⟨new, by simp, by simp [same]⟩
    · obtain ⟨slot, usedSlot, owned⟩ :=
        lifetimes.has_thread created ((others pid same).mp pidAlive)
      have different : slot ≠ new := by
        rintro rfl
        have unused : before.threadUsed slot = false :=
          Sched.freeSlot_eq_some thread.free
        rw [usedSlot] at unused
        cases unused
      exact ⟨slot, by rwa [Function.update_of_ne different],
        by rwa [Function.update_of_ne different]⟩

/-- The last thread of a process ends it. -/
theorem of_exited
    {slot : Fin limits.maxThreads}
    {proc : Fin limits.maxProc}
    {exitval : Int}
    (lifetimes : before.Lifetimes)
    (owned : before.owner slot = some proc)
    (exited : ProcExited before after proc exitval)
    (left : ThreadLeft before after slot proc)
    (isLast : ∀ other, other ≠ slot → before.threadUsed other = true →
      before.owner other ≠ some proc) :
    after.Lifetimes := by
  constructor
  · intro other pid usedOther ownedOther
    rw [left.used] at usedOther
    rw [left.owner] at ownedOther
    have different : other ≠ slot := by
      rintro rfl
      simp at usedOther
    rw [Function.update_of_ne different] at usedOther
    have stays : pid ≠ proc := by
      rintro rfl
      exact isLast other different usedOther ownedOther
    rw [exited.pstate, Function.update_of_ne stays]
    exact lifetimes.owner_alive usedOther ownedOther
  · intro pid created isAlive
    have stays : pid ≠ proc := by
      rintro rfl
      rw [exited.pstate, Function.update_self] at isAlive
      cases isAlive
    rw [exited.pstate, Function.update_of_ne stays] at isAlive
    obtain ⟨other, usedOther, ownedOther⟩ :=
      lifetimes.has_thread created isAlive
    have different : other ≠ slot := by
      rintro rfl
      rw [owned] at ownedOther
      exact stays (Option.some.inj ownedOther).symm
    rw [left.used, left.owner]
    exact ⟨other, by rwa [Function.update_of_ne different], ownedOther⟩

/-- A thread that is not the last one leaves its process. -/
theorem of_threadExited
    {slot : Fin limits.maxThreads}
    {proc : Fin limits.maxProc}
    (lifetimes : before.Lifetimes)
    (owned : before.owner slot = some proc)
    (procs : SameProcs before after)
    (left : ThreadLeft before after slot proc)
    (notLast : ∃ other, other ≠ slot ∧ before.threadUsed other = true ∧
      before.owner other = some proc) :
    after.Lifetimes := by
  constructor
  · intro other pid usedOther ownedOther
    rw [left.used] at usedOther
    rw [left.owner] at ownedOther
    have different : other ≠ slot := by
      rintro rfl
      simp at usedOther
    rw [Function.update_of_ne different] at usedOther
    rw [procs.pstate]
    exact lifetimes.owner_alive usedOther ownedOther
  · intro pid created isAlive
    rw [procs.pstate] at isAlive
    rw [left.used, left.owner]
    obtain ⟨other, different, usedOther, ownedOther⟩ :
        ∃ other, other ≠ slot ∧ before.threadUsed other = true ∧
          before.owner other = some pid := by
      by_cases same : pid = proc
      · rw [same]
        exact notLast
      · obtain ⟨other, usedOther, ownedOther⟩ :=
          lifetimes.has_thread created isAlive
        refine ⟨other, ?_, usedOther, ownedOther⟩
        rintro rfl
        rw [owned] at ownedOther
        exact same (Option.some.inj ownedOther).symm
    exact ⟨other, by rwa [Function.update_of_ne different], ownedOther⟩

/-- A process is created together with its main thread. -/
theorem of_created
    {new : Fin limits.maxThreads}
    {newproc : Fin limits.maxProc}
    (lifetimes : before.Lifetimes)
    (created : ProcCreated before after newproc .alive)
    (thread : NewThread before after new newproc) :
    after.Lifetimes := by
  refine lifetimes.of_new thread ?_ ?_ created.alive_kept
  · rw [created.pstate, Function.update_self]
  · intro pid different
    rw [created.pstate, Function.update_of_ne different]

/-- A process is given up for want of a thread. -/
theorem of_givenUp
    {newproc : Fin limits.maxProc}
    (lifetimes : before.Lifetimes)
    (created : ProcCreated before after newproc .free)
    (threads : SameThreads before after) :
    after.Lifetimes := by
  refine lifetimes.of_same threads fun pid => ?_
  rw [created.pstate, ← created.wasFree, Function.update_eq_self]

/-- `Exec` with a task. -/
theorem of_execEffect
    {call : Option Task}
    {pid : Option (Fin limits.maxProc)}
    (lifetimes : before.Lifetimes)
    (isCall : call ≠ none)
    (effect : ExecEffect before call pid after) :
    after.Lifetimes := by
  cases effect with
  | full noPcb => exact lifetimes
  | threadless newproc noCall proc files threads ptcbs sched =>
      exact absurd noCall isCall
  | failed newproc isCall noSlot proc files threads ptcbs sched =>
      exact lifetimes.of_givenUp proc threads
  | started newproc slot isCall proc files thread ptcbs current =>
      exact lifetimes.of_created proc thread

theorem of_fresh
    {kernel : Kernel limits}
    (fresh : kernel.Fresh) :
    kernel.Lifetimes := by
  constructor
  · intro slot pid usedSlot
    rw [fresh.unused] at usedSlot
    cases usedSlot
  · intro pid created isAlive
    rw [fresh.pstate, if_neg created] at isAlive
    cases isAlive

end Lifetimes
end Kernel

namespace System

open Kernel

/-- `slot` is the only thread of its process. -/
def IsLastThread
    (system : System limits)
    (slot : Fin limits.maxThreads) : Prop :=
  ∀ other, other ≠ slot → system.kernel.threadUsed other = true →
    system.kernel.owner other ≠ system.kernel.owner slot

instance (system : System limits) (slot : Fin limits.maxThreads) :
    Decidable (system.IsLastThread slot) :=
  inferInstanceAs (Decidable (∀ _, _))

/-- `Exit` is called by the last thread of a process, `ThreadExit` by the others,
and `Exec` with a task. -/
def LastThreadExits (system : System limits) : Action limits → Prop
  | .exit _ _ => ∀ slot, system.currentSlot = some slot →
      system.IsLastThread slot
  | .threadExit _ _ => ∀ slot, system.currentSlot = some slot →
      ¬system.IsLastThread slot
  | .exec call _ _ _ => call ≠ none
  | _ => True

instance (system : System limits) (action : Action limits) :
    Decidable (system.LastThreadExits action) :=
  match action with
  | .exit _ _ => inferInstanceAs (Decidable (∀ _, _ → _))
  | .threadExit _ _ => inferInstanceAs (Decidable (∀ _, _ → _))
  | .exec call _ _ _ => inferInstanceAs (Decidable (call ≠ none))
  | .idle _ | .start | .yield _ _ | .wakeup _ | .waitChild _ _ _
  | .createThread _ _ _ | .threadJoin _ _ _ | .threadDetach _ | .openNull
  | .openTerminal _ | .close _ | .resume _ => inferInstanceAs (Decidable True)

/-- `WaitChild` never reaps a living process. -/
theorem Reaps.not_alive
    {before : System limits}
    {action : Action limits}
    {slot : Fin limits.maxThreads}
    {child : Fin limits.maxProc}
    {status : Bool}
    (reaps : Reaps before action slot child status)
    (rings : before.kernel.ExitedRings) :
    before.kernel.pstate child ≠ .alive := by
  cases reaps with
  | call call specific found isParent notAlive => exact notAlive
  | resume resumes suspended notAlive => exact notAlive
  | any loop nonempty front =>
      rw [(rings.isChild_of_front nonempty front).1]
      simp

theorem lifetimes_step
    {before after : System limits}
    {action : Action limits}
    (lifetimes : before.kernel.Lifetimes)
    (sound : before.Sound)
    (rings : before.kernel.ExitedRings)
    (isAllowed : before.LastThreadExits action)
    (effect : Effect before action after) :
    after.kernel.Lifetimes := by
  have same : SameProcs before.kernel after.kernel →
      SameThreads before.kernel after.kernel → after.kernel.Lifetimes := by
    intro procs threads
    refine lifetimes.of_same threads fun pid => ?_
    rw [procs.pstate]
  cases effect with
  | stay notExit procs files threads ptcbs control reply =>
      exact same procs threads
  | executed caller newproc isCurrent proc files threads control reply =>
      rcases threads with ⟨noCall, -⟩ | ⟨-, new, thread, -⟩
      · exact absurd noCall isAllowed
      · exact lifetimes.of_created proc thread
  | execFailed caller newproc isCurrent isCall noSlot proc files threads ptcbs
      control reply => exact lifetimes.of_givenUp proc threads
  | exited leaver proc isCurrent owned procs files threads ptcbs control
      reply =>
      refine lifetimes.of_exited owned procs threads ?_
      rw [← owned]
      exact isAllowed leaver isCurrent
  | threadExited leaver proc isCurrent owned procs files threads ptcbs control
      reply =>
      refine lifetimes.of_threadExited owned procs threads ?_
      have notLast := isAllowed leaver isCurrent
      simpa only [IsLastThread, owned, not_forall, not_not, exists_prop,
        ne_eq] using notLast
  | reaped reaper reaped status isCurrent reason procs files threads ptcbs
      control reply =>
      refine lifetimes.of_same threads fun pid => ?_
      rw [procs.pstate, Function.update_apply]
      split_ifs with isReaped
      · simp [isReaped, reason.not_alive rings]
      · rfl
  | threadCreated caller new proc isCurrent owned procs files thread ptcbs
      control reply =>
      have isAlive :=
        lifetimes.owner_alive (sound.current_used isCurrent) owned
      refine lifetimes.of_new thread ?_ ?_ ?_
      · rw [procs.pstate]
        exact isAlive
      · intro pid _
        rw [procs.pstate]
      · intro pid pidAlive
        rw [procs.pstate]
        exact pidAlive
  | streams caller notExit isCurrent call only control reply =>
      exact same only.procs only.sameThreads

/-- Only `Exec` and `WaitChild` touch a process that has ended. -/
theorem Effect.ended_kept
    {before after : System limits}
    {action : Action limits}
    {pid : Fin limits.maxProc}
    (effect : Effect before action after)
    (sound : before.Sound)
    (lifetimes : before.kernel.Lifetimes)
    (notAlive : before.kernel.pstate pid ≠ .alive) :
    after.kernel.exitval pid = before.kernel.exitval pid ∧
      (after.kernel.pstate pid = before.kernel.pstate pid ∨
        after.reply = .exec (some pid) ∨
        ∃ status, after.reply = .waitChild (some pid) status) := by
  have same : SameProcs before.kernel after.kernel →
      after.kernel.exitval pid = before.kernel.exitval pid ∧
        (after.kernel.pstate pid = before.kernel.pstate pid ∨
          after.reply = .exec (some pid) ∨
          ∃ status, after.reply = .waitChild (some pid) status) := by
    intro procs
    rw [procs.exitval, procs.pstate]
    exact ⟨rfl, .inl rfl⟩
  cases effect with
  | stay notExit procs files threads ptcbs control reply => exact same procs
  | executed caller newproc isCurrent proc files threads control reply =>
      rw [proc.exitval, proc.pstate]
      refine ⟨rfl, ?_⟩
      by_cases isNew : pid = newproc
      · rw [isNew]
        exact .inr (.inl reply)
      · exact .inl (Function.update_of_ne isNew _ _)
  | execFailed caller newproc isCurrent isCall noSlot proc files threads ptcbs
      control reply =>
      rw [proc.exitval, proc.pstate, ← proc.wasFree, Function.update_eq_self]
      exact ⟨rfl, .inl rfl⟩
  | exited leaver proc isCurrent owned procs files threads ptcbs control
      reply =>
      have different : pid ≠ proc := by
        rintro rfl
        exact notAlive
          (lifetimes.owner_alive (sound.current_used isCurrent) owned)
      rw [procs.exitval, procs.pstate, Function.update_of_ne different,
        Function.update_of_ne different]
      exact ⟨rfl, .inl rfl⟩
  | threadExited leaver proc isCurrent owned procs files threads ptcbs control
      reply => exact same procs
  | reaped reaper reaped status isCurrent reason procs files threads ptcbs
      control reply =>
      rw [procs.exitval, procs.pstate]
      refine ⟨rfl, ?_⟩
      by_cases isReaped : pid = reaped
      · rw [isReaped]
        exact .inr (.inr ⟨_, reply⟩)
      · exact .inl (Function.update_of_ne isReaped _ _)
  | threadCreated caller new proc isCurrent owned procs files thread ptcbs
      control reply => exact same procs
  | streams caller notExit isCurrent call only control reply =>
      exact same only.procs

/-- In every run in which the last thread of each process calls `Exit` and the
others `ThreadExit`, processes end with their last threads, and afterwards only
`Exec` and `WaitChild` touch their PCBs. -/
theorem process_ends_with_last_thread
    {system : System limits}
    (reached : Reached LastThreadExits system) :
    system.kernel.EndsWithLastThread ∧
      ∀ action after pid, system.Enabled action →
        system.step action = .ok after →
        system.kernel.pstate pid ≠ .alive →
          after.kernel.exitval pid = system.kernel.exitval pid ∧
            (after.kernel.pstate pid = system.kernel.pstate pid ∨
              after.reply = .exec (some pid) ∨
              ∃ status, after.reply = .waitChild (some pid) status) := by
  obtain ⟨sound, rings, lifetimes⟩ := reached.invariant_with_rings
    (motive := fun system => system.kernel.Lifetimes)
    (by
      intro start booted
      obtain ⟨pid, kernel, effect, procs, -, threads, -⟩ := booted.tables
      have first := (Lifetimes.of_fresh initial_fresh).of_execEffect
        (by simp) effect
      refine first.of_same threads fun pid => ?_
      rw [procs.pstate])
    (by
      intro before action after sound rings lifetimes enabled isAllowed effect
      exact lifetimes_step lifetimes sound rings isAllowed effect)
  refine ⟨lifetimes.endsWithLastThread sound.resting, ?_⟩
  intro action after pid enabled stepped notAlive
  exact (sound.step enabled stepped).2.ended_kept sound lifetimes notAlive

/-- The second thread of the first process has left it. -/
theorem process_ends_with_last_thread_two_threads :
    ∃ system : System Limits.tinier,
      (Reached LastThreadExits system ∧
        system.kernel.threadUsed 1 = false) ∧
      system.kernel.EndsWithLastThread ∧
        ∀ action after pid, system.Enabled action →
          system.step action = .ok after →
          system.kernel.pstate pid ≠ .alive →
            after.kernel.exitval pid = system.kernel.exitval pid ∧
              (after.kernel.pstate pid = system.kernel.pstate pid ∨
                after.reply = .exec (some pid) ∨
                ∃ status, after.reply = .waitChild (some pid) status) := by
  have ran : ∃ system : System Limits.tinier,
      Reached LastThreadExits system ∧
        decide (system.kernel.threadUsed 1 = false) = true :=
    exists_reached_of_any
      [.idle .zero, .start, .createThread (some 1) 5 .null,
        .yield .quantum .zero, .start, .threadExit 0 .zero] (by decide +kernel)
  obtain ⟨system, reached, test⟩ := ran
  exact ⟨system, ⟨reached, of_decide_eq_true test⟩,
    process_ends_with_last_thread reached⟩

/-- The main thread of the first process exits while its second thread lives:
the process is a zombie with a thread. -/
theorem zombie_with_live_thread :
    ∃ system : System Limits.tinier, Reached (fun _ _ => True) system ∧
      system.kernel.pstate 1 = .zombie ∧ system.kernel.LiveThread 1 1 ∧
      ¬system.kernel.EndsWithLastThread := by
  have ran : ∃ system : System Limits.tinier,
      Reached (fun _ _ => True) system ∧
        decide (system.kernel.pstate 1 = .zombie ∧
          system.kernel.threadUsed 1 = true ∧
          system.kernel.owner 1 = some 1) = true :=
    exists_reached_of_any
      [.idle .zero, .start, .createThread (some 1) 5 .null, .exit 0 .zero]
      (by decide +kernel)
  obtain ⟨system, reached, test⟩ := ran
  obtain ⟨isZombie, usedSlot, owned⟩ := of_decide_eq_true test
  obtain ⟨sound, -⟩ := reached.rings
  have live := sound.resting.liveThread_iff.mpr ⟨usedSlot, owned⟩
  refine ⟨system, reached, isZombie, live, fun ends => ?_⟩
  exact ends.ended 1 1 (by simp [isZombie]) live

end System
end TinierOS
