import TinierOS.System.Boot

/-!
# Creating threads

Every thread needs a slot of the thread pool and a PTCB.  Thread slots are given
back when a thread exits, PTCBs never are, so the second pool runs out first.
-/

namespace TinierOS

variable {limits : Limits}

/-- The rings of PTCBs: one for each process. -/
def ptcbLayout (limits : Limits) :
    Layout (Fin limits.maxProc) (Fin limits.maxThreads) (PtcbNode limits) where
  sentinel := .list
  cell := .node
  sentinel_injective := by
    intro first second equal
    simpa using equal
  cell_injective := by
    intro first second equal
    simpa using equal
  sentinel_ne_cell := by simp

namespace Kernel

/-- Every PTCB in use is in at most one ring, at most once. -/
def PtcbRings (kernel : Kernel limits) : Prop :=
  ∃ lists, (ptcbLayout limits).Represents kernel.ptcbLists.links lists
    fun ptcb => kernel.ptcbUsed ptcb = true

theorem PtcbRings.of_same
    {before after : Kernel limits}
    (rings : before.PtcbRings)
    (same : SamePtcbs before after) :
    after.PtcbRings := by
  rw [PtcbRings, same.ptcbLists, same.ptcbUsed]
  exact rings

/-- A new PTCB is put at the end of its process's ring. -/
theorem ptcbs_of_new
    {before after : Kernel limits}
    {lists : Fin limits.maxProc → List (Fin limits.maxThreads)}
    {ptcb : Fin limits.maxThreads}
    {proc : Fin limits.maxProc}
    (represents : (ptcbLayout limits).Represents before.ptcbLists.links lists
      fun other => before.ptcbUsed other = true)
    (new : NewPtcb before after ptcb proc) :
    (ptcbLayout limits).Represents after.ptcbLists.links
      (Function.update lists proc (lists proc ++ [ptcb]))
      fun other => after.ptcbUsed other = true := by
  have unused : before.ptcbUsed ptcb = false := by
    simpa using firstIndex_test new.free
  have unlisted : ∀ pid, ptcb ∉ lists pid := by
    intro pid member
    rw [represents.alive member] at unused
    cases unused
  have fresh := represents.single unlisted
  have pushed := fresh.push_back (.inl rfl) unlisted proc
  have live : (fun other => after.ptcbUsed other = true) =
      fun other => other = ptcb ∨ before.ptcbUsed other = true := by
    funext other
    by_cases same : other = ptcb <;> simp [new.ptcbUsed, same]
  rw [live, new.ptcbLists]
  simpa [ptcbLayout] using pushed

theorem PtcbRings.of_new
    {before after : Kernel limits}
    {ptcb : Fin limits.maxThreads}
    {proc : Fin limits.maxProc}
    (rings : before.PtcbRings)
    (new : NewPtcb before after ptcb proc) :
    ∃ lists, (ptcbLayout limits).Represents after.ptcbLists.links lists
        (fun other => after.ptcbUsed other = true) ∧
      ptcb ∈ lists proc := by
  obtain ⟨lists, represents⟩ := rings
  exact ⟨_, ptcbs_of_new represents new, by simp⟩

theorem PtcbRings.of_grown
    {before after : Kernel limits}
    {proc : Fin limits.maxProc}
    (rings : before.PtcbRings)
    (grown : PtcbsGrown before after proc) :
    after.PtcbRings := by
  rcases grown with ⟨-, same⟩ | ⟨ptcb, new⟩
  · exact rings.of_same same
  · obtain ⟨lists, represents, -⟩ := rings.of_new new
    exact ⟨lists, represents⟩

/-- A thread was created as `CreateThread` documents it: it has a PTCB that
points back to it, carries the arguments of the call and is in the ring of its
process. -/
def HasPtcb
    (kernel : Kernel limits)
    (slot : Fin limits.maxThreads)
    (task : Option Task)
    (argl : Int)
    (args : ArgPtr limits) : Prop :=
  ∃ (ptcb : Fin limits.maxThreads) (proc : Fin limits.maxProc)
      (ring : List (Fin limits.maxThreads)),
    (kernel.sched.tcb (.slot slot)).ptcb = some ptcb ∧
    (kernel.ptcb ptcb).thread = some slot ∧
    (kernel.ptcb ptcb).task = task ∧ (kernel.ptcb ptcb).argl = argl ∧
    (kernel.ptcb ptcb).args = args ∧ kernel.owner slot = some proc ∧
    kernel.ptcbLists.links.IsRing (.list proc) (ring.map .node) ∧
    ptcb ∈ ring

/-- The accounting of `CreateThread`, for a call with a task: it fails exactly
when no thread slot is free, and then changes nothing; a thread it makes ready
has its PTCB. -/
structure CreatesThread
    (before after : Kernel limits)
    (task : Option Task)
    (argl : Int)
    (args : ArgPtr limits)
    (tid : Option (Fin limits.maxThreads)) : Prop where
  fails : tid = none ↔ ∀ slot, before.threadUsed slot = true
  unchanged : tid = none → after.threadUsed = before.threadUsed ∧
    after.sched.activeThreads = before.sched.activeThreads ∧
    after.sched.heap = before.sched.heap ∧
    after.threadCount = before.threadCount
  ready : ∀ slot, before.threadUsed slot = false →
    after.threadUsed slot = true →
      (after.sched.tcb (.slot slot)).state = .ready →
        after.HasPtcb slot task argl args

/-- The accounting holds if and only if the call does not find a thread slot
while all PTCBs are used up. -/
theorem sysCreateThread_createsThread
    {kernel : Kernel limits}
    {current : Fin limits.maxThreads}
    {proc : Fin limits.maxProc}
    {task : Option Task}
    (resting : kernel.Resting)
    (rings : kernel.PtcbRings)
    (isCurrent : kernel.sched.currentThread = some (.slot current))
    (owned : kernel.owner current = some proc)
    (isTask : task ≠ none)
    (argl : Int)
    (args : ArgPtr limits) :
    ∃ tid after, kernel.sysCreateThread task argl args = .ok (tid, after) ∧
      (CreatesThread kernel after task argl args tid ↔
        (∀ slot, kernel.threadUsed slot = true) ∨
          ∃ ptcb, kernel.ptcbUsed ptcb = false) := by
  rcases sysCreateThread_effect resting isCurrent owned task argl args with
    ⟨noRoom, refused⟩ | ⟨slot, after, -, created, effect⟩
  · have full := Sched.freeSlot_eq_none_iff.mp (noRoom.resolve_left isTask)
    refine ⟨none, kernel, refused, fun _ => .inl full, fun _ => ?_⟩
    refine ⟨⟨fun _ => full, fun _ => rfl⟩, fun _ => ⟨rfl, rfl, rfl, rfl⟩, ?_⟩
    intro slot unused
    rw [show kernel.threadUsed slot = true from full slot] at unused
    cases unused
  · have free : kernel.threadUsed slot = false :=
      Sched.freeSlot_eq_some effect.thread.free
    have notFull : ¬∀ slot, kernel.threadUsed slot = true := by
      intro full
      rw [full slot] at free
      cases free
    refine ⟨kernel.freePtcb, after, created, ?_⟩
    cases found : kernel.freePtcb with
    | none =>
        -- The thread is started, yet the caller is told that it is not.
        refine ⟨fun creates => absurd (creates.fails.mp rfl) notFull, ?_⟩
        rintro (full | ⟨ptcb, unusedPtcb⟩)
        · exact absurd full notFull
        · have used := firstIndex_eq_none_iff.mp found ptcb
          simp [unusedPtcb] at used
    | some ptcb =>
        have unusedPtcb : kernel.ptcbUsed ptcb = false := by
          simpa using firstIndex_test found
        refine ⟨fun _ => .inr ⟨ptcb, unusedPtcb⟩, fun _ => ?_⟩
        refine ⟨by simpa using notFull, nofun, ?_⟩
        intro other unusedOther usedOther _
        rw [effect.thread.used] at usedOther
        obtain rfl : other = slot := by
          by_contra different
          rw [Function.update_of_ne different, unusedOther] at usedOther
          cases usedOther
        rcases effect.ptcbs with ⟨noPtcb, -⟩ | ⟨ptcb', new⟩
        · rw [found] at noPtcb
          cases noPtcb
        · obtain rfl : ptcb = ptcb' := by
            have same := new.free
            rw [found] at same
            exact Option.some.inj same
          obtain ⟨lists, represents, member⟩ := rings.of_new new
          have block := effect.block ptcb found
          exact ⟨ptcb, proc, lists proc, effect.ptcb.trans found,
            by rw [block], by rw [block], by rw [block], by rw [block],
            by rw [effect.thread.owner, Function.update_self],
            represents.ring proc, member⟩

theorem PtcbRings.of_execEffect
    {before after : Kernel limits}
    {call : Option Task}
    {pid : Option (Fin limits.maxProc)}
    (rings : before.PtcbRings)
    (effect : ExecEffect before call pid after) :
    after.PtcbRings := by
  cases effect with
  | full noPcb => exact rings
  | threadless newproc noCall proc files threads ptcbs sched =>
      exact rings.of_same ptcbs
  | failed newproc isCall noSlot proc files threads ptcbs sched =>
      exact rings.of_same ptcbs
  | started newproc slot isCall proc files thread ptcbs current =>
      exact rings.of_grown ptcbs

theorem Fresh.ptcbRings
    {kernel : Kernel limits}
    (fresh : kernel.Fresh) :
    kernel.PtcbRings := by
  refine ⟨_, Layout.Represents.of_singletons ?_ ?_⟩
  · intro pid
    simp [Links.Follows, ptcbLayout, fresh.ptcbList, singleton]
  · intro ptcb used
    rw [fresh.ptcbUsed] at used
    cases used

end Kernel

namespace System

open Kernel

/-- In every run the PTCBs form rings. -/
theorem Reached.ptcbRings
    {allowed : System limits → Action limits → Prop}
    {system : System limits}
    (reached : Reached allowed system) :
    system.Sound ∧ system.kernel.PtcbRings := by
  refine reached.invariant (motive := fun system => system.kernel.PtcbRings)
    ?_ ?_
  · intro start booted
    obtain ⟨pid, kernel, effect, -, -, -, ptcbs⟩ := booted.tables
    exact (initial_fresh.ptcbRings.of_execEffect effect).of_same ptcbs
  · intro before action after sound rings enabled isAllowed effect
    cases effect with
    | stay notExit procs files threads ptcbs control reply =>
        exact rings.of_same ptcbs
    | executed slot newproc isCurrent proc files threads control reply =>
        rcases threads with ⟨-, -, same⟩ | ⟨-, new, -, grown⟩
        · exact rings.of_same same
        · exact rings.of_grown grown
    | execFailed slot newproc isCurrent isCall noSlot proc files threads ptcbs
        control reply => exact rings.of_same ptcbs
    | exited slot proc isCurrent owned procs files threads ptcbs control
        reply => exact rings.of_same ptcbs
    | threadExited slot proc isCurrent owned procs files threads ptcbs control
        reply => exact rings.of_same ptcbs
    | reaped slot child status isCurrent reason procs files threads ptcbs
        control reply => exact rings.of_same ptcbs
    | threadCreated slot new proc isCurrent owned procs files thread ptcbs
        control reply => exact rings.of_grown ptcbs
    | streams slot notExit isCurrent call only control reply =>
        exact rings.of_same only.ptcbs

/-- For every call of `CreateThread` with a task, in any state of any run, the
accounting of threads and PTCBs holds if and only if no thread slot is free or
some PTCB is. -/
theorem createThread_accounting
    {system : System limits}
    {task : Option Task}
    (reached : Reached (fun _ _ => True) system)
    (calls : system.currentControl = some .user)
    (isTask : task ≠ none)
    (argl : Int)
    (args : ArgPtr limits) :
    ∃ tid after,
      system.kernel.sysCreateThread task argl args = .ok (tid, after) ∧
      (CreatesThread system.kernel after task argl args tid ↔
        (∀ slot, system.kernel.threadUsed slot = true) ∨
          ∃ ptcb, system.kernel.ptcbUsed ptcb = false) := by
  obtain ⟨sound, rings⟩ := reached.ptcbRings
  obtain ⟨slot, isCurrent⟩ := exists_currentSlot calls
  obtain ⟨proc, owned⟩ := sound.owned slot (sound.current_used isCurrent)
  exact sysCreateThread_createsThread sound.resting rings
    (currentSlot_eq_some.mp isCurrent) owned isTask argl args

/-- The first process creates a second thread. -/
theorem createThread_accounting_first :
    ∃ system : System Limits.tinier,
      (Reached (fun _ _ => True) system ∧
        system.currentControl = some .user ∧ some 1 ≠ (none : Option Task)) ∧
      ∃ tid after,
        system.kernel.sysCreateThread (some 1) 5 .null = .ok (tid, after) ∧
        (CreatesThread system.kernel after (some 1) 5 .null tid ↔
          (∀ slot, system.kernel.threadUsed slot = true) ∨
            ∃ ptcb, system.kernel.ptcbUsed ptcb = false) := by
  have ran : ∃ system : System Limits.tinier,
      Reached (fun _ _ => True) system ∧
        decide (system.currentControl = some .user) = true :=
    exists_reached_of_any [.idle .zero, .start] (by decide +kernel)
  obtain ⟨system, reached, calls⟩ := ran
  have calls := of_decide_eq_true calls
  exact ⟨system, ⟨reached, calls, by decide⟩,
    createThread_accounting reached calls (by decide) 5 .null⟩

/-- After one thread has come and gone, a second `CreateThread` starts a thread
that has no PTCB and reports that it did not. -/
theorem createThread_without_ptcb :
    ∃ system : System Limits.tinier,
      Reached (fun _ _ => True) system ∧
      system.currentControl = some .user ∧
      ∃ tid after,
        system.kernel.sysCreateThread (some 1) 5 .null = .ok (tid, after) ∧
        ¬CreatesThread system.kernel after (some 1) 5 .null tid := by
  have ran : ∃ system : System Limits.tinier,
      Reached (fun _ _ => True) system ∧
        decide (system.currentControl = some .user ∧
          system.kernel.threadUsed 1 = false ∧
          ∀ ptcb, system.kernel.ptcbUsed ptcb = true) = true :=
    exists_reached_of_any
      [.idle .zero, .start, .createThread (some 1) 5 .null,
        .yield .quantum .zero, .start, .threadExit 0 .zero] (by decide +kernel)
  obtain ⟨system, reached, test⟩ := ran
  obtain ⟨calls, free, noPtcb⟩ := of_decide_eq_true test
  obtain ⟨sound, rings⟩ := reached.ptcbRings
  obtain ⟨slot, isCurrent⟩ := exists_currentSlot calls
  obtain ⟨proc, owned⟩ := sound.owned slot (sound.current_used isCurrent)
  obtain ⟨tid, after, created, exact_iff⟩ :=
    sysCreateThread_createsThread sound.resting rings
      (currentSlot_eq_some.mp isCurrent) owned
      (show some 1 ≠ none by decide) 5 .null
  refine ⟨system, reached, calls, tid, after, created, ?_⟩
  rw [exact_iff]
  rintro (full | ⟨ptcb, unused⟩)
  · rw [full 1] at free
    cases free
  · rw [noPtcb ptcb] at unused
    cases unused

end System
end TinierOS
