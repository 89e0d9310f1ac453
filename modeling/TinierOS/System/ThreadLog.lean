import TinierOS.System.Tids

/-!
# The threads of a run

Slots and tids do not tell two threads apart that had the same slot.  A log adds
to the system what an observer of its calls can count: which thread of a slot is
the present one, the process of each thread, the tids that `CreateThread` and
`ThreadSelf` have returned, and the values passed to `Exit` and `ThreadExit`.
-/

namespace TinierOS

variable {limits : Limits}

/-- A thread: its slot, and the number of threads started in that slot before
it. -/
abbrev Thread (limits : Limits) := Fin limits.maxThreads × Nat

/-- A system with the threads of its past. -/
structure ThreadLog (limits : Limits) where
  system : System limits
  /-- How many threads have been started in each slot since the first one. -/
  started : Fin limits.maxThreads → Nat
  /-- How often `Exec` has been called. -/
  processes : Nat
  /-- The process of each thread: the call of `Exec` that has started it, or the
  process of the thread that has created it. -/
  process : Thread limits → Nat
  /-- The tids that have been returned, with the thread each of them is of. -/
  tids : List (Thread limits × Fin limits.maxThreads)
  /-- The values that threads have passed to `Exit` or `ThreadExit`. -/
  exits : List (Thread limits × Int)

namespace ThreadLog

open TinierOS.System TinierOS.Kernel

/-- No call has been made. -/
def start (system : System limits) : ThreadLog limits where
  system := system
  started := fun _ => 0
  processes := 0
  process := fun _ => 0
  tids := []
  exits := []

/-- The present thread of a slot. -/
def threadIn
    (log : ThreadLog limits)
    (slot : Fin limits.maxThreads) : Thread limits :=
  (slot, log.started slot)

/-- The current thread. -/
def current (log : ThreadLog limits) : Option (Thread limits) :=
  log.system.currentSlot.map log.threadIn

/-- The thread has not exited. -/
def Alive (log : ThreadLog limits) (thread : Thread limits) : Prop :=
  log.system.kernel.threadUsed thread.1 = true ∧
    thread.2 = log.started thread.1

instance (log : ThreadLog limits) (thread : Thread limits) :
    Decidable (log.Alive thread) :=
  inferInstanceAs (Decidable (_ ∧ _))

/-- The slot in which a step has started a thread. -/
def newSlot (before after : System limits) : Option (Fin limits.maxThreads) :=
  firstIndex fun slot =>
    !before.kernel.threadUsed slot && after.kernel.threadUsed slot

/-- The process of a thread that the step starts: a new one for `Exec`, that of
the caller for `CreateThread`. -/
def newProcess (log : ThreadLog limits) : Action limits → Nat
  | .exec _ _ _ _ => log.processes + 1
  | _ => (log.current.map log.process).getD 0

/-- Add one step to the past, apart from the tids that are known after it. -/
def advance
    (log : ThreadLog limits)
    (action : Action limits)
    (after : System limits) : ThreadLog limits where
  system := after
  started := match newSlot log.system after with
    | none => log.started
    | some slot => Function.update log.started slot (log.started slot + 1)
  processes := match action with
    | .exec _ _ _ _ => log.processes + 1
    | _ => log.processes
  process := match newSlot log.system after with
    | none => log.process
    | some slot => Function.update log.process
        (slot, log.started slot + 1) (log.newProcess action)
  tids := log.tids
  exits := match log.current, action.leaves with
    | some thread, some exitval => (thread, exitval) :: log.exits
    | _, _ => log.exits

/-- A tid has been returned that is of the present thread of a slot. -/
def learn
    (log : ThreadLog limits) :
    Option (Fin limits.maxThreads) → Option (Fin limits.maxThreads) →
      ThreadLog limits
  | some slot, some tid =>
      { log with tids := (log.threadIn slot, tid) :: log.tids }
  | _, _ => log

/-- Add one step to the past: `CreateThread` returns the tid of the thread it
starts, and the thread that is current after the step may call `ThreadSelf`. -/
def record
    (log : ThreadLog limits)
    (action : Action limits)
    (after : System limits) : ThreadLog limits :=
  ((log.advance action after).learn (newSlot log.system after)
    after.reply.newTid).learn after.currentSlot after.kernel.sysThreadSelf

/-- One step of the system, with its past. -/
def step :
    ThreadLog limits → Action limits → Except Fault (ThreadLog limits) :=
  withPast ThreadLog.system System.step record

/-- The logs of all runs. -/
def Reached (log : ThreadLog limits) : Prop :=
  ∃ system, System.boot limits = .ok system ∧
    Reachable step (fun log action => log.system.Enabled action)
      (start system) log

@[simp] theorem learn_system
    (log : ThreadLog limits)
    (slot tid : Option (Fin limits.maxThreads)) :
    (log.learn slot tid).system = log.system := by
  unfold learn
  split <;> rfl

@[simp] theorem record_system
    (log : ThreadLog limits)
    (action : Action limits)
    (after : System limits) :
    (log.record action after).system = after := by
  simp [record, advance]

@[simp] theorem advance_system
    (log : ThreadLog limits)
    (action : Action limits)
    (after : System limits) :
    (log.advance action after).system = after :=
  rfl

/-- A log is the log of a run of the system. -/
theorem Reached.system
    {log : ThreadLog limits}
    (reached : log.Reached) :
    System.Reached (fun _ _ => True) log.system := by
  obtain ⟨system, booted, reachable⟩ := reached
  refine ⟨system, booted, ?_⟩
  have run := reachable.of_withPast Enabled record_system
  exact run.of_steps fun _ enabled => ⟨enabled, trivial⟩

/-! ## What a step adds -/

section Advance

variable {log : ThreadLog limits}
variable {before after : System limits}
variable {action : Action limits}
variable {slot : Fin limits.maxThreads}

theorem newSlot_eq_some
    (free : before.kernel.threadUsed slot = false)
    (used : after.kernel.threadUsed =
      Function.update before.kernel.threadUsed slot true) :
    newSlot before after = some slot := by
  refine firstIndex_eq_some_iff.mpr ⟨?_, fun other smaller => ?_⟩
  · rw [used, free, Function.update_self]
    rfl
  · rw [used, Function.update_of_ne (ne_of_lt smaller)]
    simp

theorem newSlot_eq_none
    (fewer : ∀ slot, after.kernel.threadUsed slot = true →
      before.kernel.threadUsed slot = true) :
    newSlot before after = none := by
  refine firstIndex_eq_none_iff.mpr fun slot => ?_
  cases used : after.kernel.threadUsed slot with
  | false => simp
  | true => simp [fewer slot used]

/-- A step that starts a thread in a slot. -/
theorem advance_of_new
    (action : Action limits)
    (free : log.system.kernel.threadUsed slot = false)
    (used : after.kernel.threadUsed =
      Function.update log.system.kernel.threadUsed slot true) :
    (log.advance action after).started =
        Function.update log.started slot (log.started slot + 1) ∧
      (log.advance action after).process =
        Function.update log.process (slot, log.started slot + 1)
          (log.newProcess action) := by
  simp only [advance, newSlot_eq_some free used, and_self]

/-- A step that starts no thread. -/
theorem advance_of_fewer
    (log : ThreadLog limits)
    (action : Action limits)
    (fewer : ∀ slot, after.kernel.threadUsed slot = true →
      log.system.kernel.threadUsed slot = true) :
    (log.advance action after).started = log.started ∧
      (log.advance action after).process = log.process := by
  simp only [advance, newSlot_eq_none fewer, and_self]

theorem advance_exits_of_not_leaves
    (log : ThreadLog limits)
    (after : System limits)
    (notExit : action.leaves = none) :
    (log.advance action after).exits = log.exits := by
  cases current : log.current <;> simp [advance, current, notExit]

end Advance

/-! ## Who has which tid -/

/-- Every tid that has been returned is of exactly one thread: the thread has it
as long as it has not exited, and then the PTCB keeps its exit value.  Every
thread has exited at most once. -/
structure Consistent (log : ThreadLog limits) : Prop where
  tidsDistinct : log.system.kernel.TidsDistinct
  known : ∀ {thread tid}, (thread, tid) ∈ log.tids →
    log.system.kernel.ptcbUsed tid = true ∧
      (log.Alive thread ∧ log.system.kernel.tidOf thread.1 = some tid ∨
        ∃ exitval, (thread, exitval) ∈ log.exits ∧
          (log.system.kernel.ptcb tid).exited = true ∧
          (log.system.kernel.ptcb tid).exitval = exitval)
  unique : ∀ {first second tid}, (first, tid) ∈ log.tids →
    (second, tid) ∈ log.tids → first = second
  past : ∀ {thread exitval}, (thread, exitval) ∈ log.exits →
    thread.2 ≤ log.started thread.1 ∧ ¬log.Alive thread
  once : ∀ {thread first second}, (thread, first) ∈ log.exits →
    (thread, second) ∈ log.exits → first = second

namespace Consistent

variable {log : ThreadLog limits}

/-- The present thread of a slot in use tells its tid. -/
theorem learn
    {slot tid : Option (Fin limits.maxThreads)}
    (consistent : log.Consistent)
    (isTid : ∀ {present id}, slot = some present → tid = some id →
      log.system.kernel.threadUsed present = true ∧
        log.system.kernel.tidOf present = some id) :
    (log.learn slot tid).Consistent := by
  unfold ThreadLog.learn
  split
  · rename_i present id
    obtain ⟨usedSlot, isId⟩ := isTid rfl rfl
    obtain ⟨inUse, notExited⟩ := consistent.tidsDistinct.live usedSlot isId
    have owner : ∀ {thread}, (thread, id) ∈ log.tids →
        thread = log.threadIn present := by
      intro thread member
      rcases (consistent.known member).2 with
        ⟨⟨usedThread, number⟩, had⟩ | ⟨exitval, -, isExited, -⟩
      · have same := consistent.tidsDistinct.distinct usedThread usedSlot had
          isId
        refine Prod.ext same ?_
        rw [number, same]
        rfl
      · rw [notExited] at isExited
        cases isExited
    refine ⟨consistent.tidsDistinct, ?_, ?_, consistent.past,
      consistent.once⟩
    · intro thread other member
      rcases List.mem_cons.mp member with isNew | wasKnown
      · cases isNew
        exact ⟨inUse, .inl ⟨⟨usedSlot, rfl⟩, isId⟩⟩
      · exact consistent.known wasKnown
    · intro first second other inFirst inSecond
      rcases List.mem_cons.mp inFirst with firstNew | firstKnown
      · cases firstNew
        rcases List.mem_cons.mp inSecond with secondNew | secondKnown
        · cases secondNew
          rfl
        · exact (owner secondKnown).symm
      · rcases List.mem_cons.mp inSecond with secondNew | secondKnown
        · cases secondNew
          exact owner firstKnown
        · exact consistent.unique firstKnown secondKnown
  · exact consistent

/-- Nothing happens to a thread or its tid. -/
theorem advance_kept
    {action : Action limits}
    {after : System limits}
    (consistent : log.Consistent)
    (notExit : action.leaves = none)
    (kept : TidsKept log.system.kernel after.kernel) :
    (log.advance action after).Consistent := by
  have started := (log.advance_of_fewer action fun slot used =>
    kept.used ▸ used).1
  have exits := log.advance_exits_of_not_leaves after notExit
  have alive : ∀ thread, (log.advance action after).Alive thread ↔
      log.Alive thread := by
    intro thread
    rw [Alive, Alive, started, advance_system, kept.used]
  refine ⟨consistent.tidsDistinct.of_kept kept, ?_, consistent.unique, ?_, ?_⟩
  · intro thread tid member
    obtain ⟨inUse, state⟩ := consistent.known member
    rw [advance_system, kept.ptcbUsed, kept.tidOf, kept.exited, kept.exitval,
      alive, exits]
    exact ⟨inUse, state⟩
  · intro thread exitval member
    rw [exits] at member
    rw [alive, started]
    exact consistent.past member
  · intro thread first second inFirst inSecond
    rw [exits] at inFirst inSecond
    exact consistent.once inFirst inSecond

/-- The thread that starts in a slot is none of those before it. -/
theorem advance_given
    {action : Action limits}
    {after : System limits}
    {slot : Fin limits.maxThreads}
    (consistent : log.Consistent)
    (notExit : action.leaves = none)
    (given : TidGiven log.system.kernel after.kernel slot) :
    (log.advance action after).Consistent := by
  have started := (advance_of_new action given.free given.used).1
  have exits := log.advance_exits_of_not_leaves after notExit
  refine ⟨consistent.tidsDistinct.of_given given, ?_, consistent.unique, ?_, ?_⟩
  · intro thread tid member
    obtain ⟨inUse, state⟩ := consistent.known member
    have notFree : log.system.kernel.freePtcb ≠ some tid := by
      intro free
      have unused := freePtcb_unused free
      rw [inUse] at unused
      cases unused
    refine ⟨(given.ptcbUsed tid).mpr (.inl inUse), ?_⟩
    rcases state with ⟨⟨usedThread, number⟩, had⟩ | exited
    · have different : thread.1 ≠ slot := by
        intro same
        rw [same, given.free] at usedThread
        cases usedThread
      refine .inl ⟨⟨?_, ?_⟩, ?_⟩
      · rw [advance_system, given.used, Function.update_of_ne different]
        exact usedThread
      · rw [started, Function.update_of_ne different]
        exact number
      · rw [advance_system, given.tidOf, Function.update_of_ne different]
        exact had
    · rw [advance_system, given.others tid notFree, exits]
      exact .inr exited
  · intro thread exitval member
    rw [exits] at member
    obtain ⟨older, notAlive⟩ := consistent.past member
    by_cases same : thread.1 = slot
    · have later : (log.advance action after).started thread.1 =
          log.started thread.1 + 1 := by
        rw [started, same, Function.update_self]
      refine ⟨by omega, fun alive => ?_⟩
      have number := alive.2
      omega
    · have unchanged : (log.advance action after).started thread.1 =
          log.started thread.1 := by
        rw [started, Function.update_of_ne same]
      refine ⟨by omega, fun alive => notAlive ⟨?_, ?_⟩⟩
      · have usedThread := alive.1
        rwa [advance_system, given.used, Function.update_of_ne same]
          at usedThread
      · exact alive.2.trans unchanged
  · intro thread first second inFirst inSecond
    rw [exits] at inFirst inSecond
    exact consistent.once inFirst inSecond

/-- The current thread exits, for the first time. -/
theorem advance_left
    {action : Action limits}
    {after : System limits}
    {slot : Fin limits.maxThreads}
    {exitval : Int}
    (consistent : log.Consistent)
    (isCurrent : log.system.currentSlot = some slot)
    (usedSlot : log.system.kernel.threadUsed slot = true)
    (leaves : action.leaves = some exitval)
    (left : TidLeft log.system.kernel after.kernel slot exitval) :
    (log.advance action after).Consistent := by
  have started := (log.advance_of_fewer action left.fewer).1
  have exits : (log.advance action after).exits =
      (log.threadIn slot, exitval) :: log.exits := by
    simp [advance, current, isCurrent, leaves]
  have wasAlive : log.Alive (log.threadIn slot) := ⟨usedSlot, rfl⟩
  have alive : ∀ thread, (log.advance action after).Alive thread ↔
      log.Alive thread ∧ thread.1 ≠ slot := by
    intro thread
    rw [Alive, Alive, started, advance_system, left.used]
    by_cases same : thread.1 = slot <;> simp [same]
  refine ⟨consistent.tidsDistinct.of_left usedSlot left, ?_, consistent.unique,
    ?_, ?_⟩
  · intro thread tid member
    obtain ⟨inUse, state⟩ := consistent.known member
    rw [advance_system, left.ptcbUsed, left.tidOf, alive, exits]
    refine ⟨inUse, ?_⟩
    rcases state with ⟨isAlive, had⟩ | ⟨value, wasExit, wasMarked, isValue⟩
    · by_cases same : thread.1 = slot
      · have isThread : thread = log.threadIn slot :=
          Prod.ext same (by rw [isAlive.2, same]; rfl)
        rw [same] at had
        obtain ⟨marked, hasValue⟩ := left.marked tid had
        exact .inr ⟨exitval, isThread ▸ List.mem_cons_self, marked, hasValue⟩
      · exact .inl ⟨⟨isAlive, same⟩, had⟩
    · have notMarked : log.system.kernel.tidOf slot ≠ some tid := by
        intro isTid
        rw [(consistent.tidsDistinct.live usedSlot isTid).2] at wasMarked
        cases wasMarked
      rw [left.others tid notMarked]
      exact .inr ⟨value, List.mem_cons_of_mem _ wasExit, wasMarked, isValue⟩
  · intro thread value member
    rw [exits] at member
    rw [alive, started]
    rcases List.mem_cons.mp member with isNew | wasExit
    · cases isNew
      exact ⟨le_refl _, fun present => present.2 rfl⟩
    · obtain ⟨older, notAlive⟩ := consistent.past wasExit
      exact ⟨older, fun present => notAlive present.1⟩
  · have first : ∀ {value}, (log.threadIn slot, value) ∉ log.exits :=
      fun member => (consistent.past member).2 wasAlive
    intro thread one other inOne inOther
    rw [exits] at inOne inOther
    rcases List.mem_cons.mp inOne with oneNew | oneOld
    · cases oneNew
      rcases List.mem_cons.mp inOther with otherNew | otherOld
      · cases otherNew
        rfl
      · exact absurd otherOld first
    · rcases List.mem_cons.mp inOther with otherNew | otherOld
      · cases otherNew
        exact absurd oneOld first
      · exact consistent.once oneOld otherOld

theorem advance
    {action : Action limits}
    {after : System limits}
    (consistent : log.Consistent)
    (sound : log.system.Sound)
    (effect : TidEffect log.system action after) :
    (log.advance action after).Consistent := by
  cases effect with
  | kept notExit kept noTid => exact consistent.advance_kept notExit kept
  | given slot notExit given reply =>
      exact consistent.advance_given notExit given
  | left slot exitval isCurrent leaves left noTid =>
      exact consistent.advance_left isCurrent (sound.current_used isCurrent)
        leaves left

/-- A step keeps a consistent log consistent. -/
theorem record
    {action : Action limits}
    {after : System limits}
    (consistent : log.Consistent)
    (sound : log.system.Sound)
    (soundAfter : after.Sound)
    (effect : TidEffect log.system action after) :
    (log.record action after).Consistent := by
  refine ((consistent.advance sound effect).learn ?_).learn ?_
  · intro slot tid isNew isTid
    cases effect with
    | kept notExit kept noTid =>
        rw [noTid] at isTid
        cases isTid
    | given new notExit given reply =>
        rw [newSlot_eq_some given.free given.used] at isNew
        cases isNew
        rw [advance_system, given.used, given.tidOf, Function.update_self,
          Function.update_self]
        exact ⟨rfl, reply tid isTid⟩
    | left slot exitval isCurrent leaves left noTid =>
        rw [noTid] at isTid
        cases isTid
  · intro slot tid isCurrent isTid
    rw [learn_system, advance_system]
    refine ⟨soundAfter.current_used isCurrent, ?_⟩
    rwa [sysThreadSelf, currentSlot_eq_some.mp isCurrent] at isTid

end Consistent

/-! ## Processes -/

/-- What a step does to the set of threads. -/
inductive ThreadEffect
    (before : System limits) : Action limits → System limits → Prop
  | fewer
      {action : Action limits}
      {after : System limits}
      (used : ∀ slot, after.kernel.threadUsed slot = true →
        before.kernel.threadUsed slot = true)
      (owner : after.kernel.owner = before.kernel.owner) :
      ThreadEffect before action after
  | main
      {call : Option Task}
      {argl : Int}
      {args : ArgPtr limits}
      {memory : Nat → UInt8}
      {after : System limits}
      (slot : Fin limits.maxThreads)
      (proc : Fin limits.maxProc)
      (thread : NewThread before.kernel after.kernel slot proc) :
      ThreadEffect before (.exec call argl args memory) after
  | sibling
      {task : Option Task}
      {argl : Int}
      {args : ArgPtr limits}
      {after : System limits}
      (caller slot : Fin limits.maxThreads)
      (proc : Fin limits.maxProc)
      (isCurrent : before.currentSlot = some caller)
      (owned : before.kernel.owner caller = some proc)
      (thread : NewThread before.kernel after.kernel slot proc) :
      ThreadEffect before (.createThread task argl args) after

theorem threadEffect_of_effect
    {before after : System limits}
    {action : Action limits}
    (effect : Effect before action after) :
    ThreadEffect before action after := by
  have same : SameThreads before.kernel after.kernel →
      ThreadEffect before action after := fun threads =>
    .fewer (fun slot used => threads.used ▸ used) threads.owner
  have left : ∀ {slot proc}, ThreadLeft before.kernel after.kernel slot proc →
      ThreadEffect before action after := by
    intro slot proc threads
    refine .fewer (fun other used => ?_) threads.owner
    rw [threads.used, Function.update_apply] at used
    split_ifs at used
    exact used
  cases effect with
  | stay notExit procs files threads ptcbs control reply => exact same threads
  | executed slot newproc isCurrent proc files threads control reply =>
      rcases threads with ⟨-, threads, -⟩ | ⟨-, new, thread, -⟩
      · exact same threads
      · exact .main new newproc thread
  | execFailed slot newproc isCurrent isCall noSlot proc files threads ptcbs
      control reply => exact same threads
  | exited slot proc isCurrent owned procs files threads ptcbs control reply =>
      exact left threads
  | threadExited slot proc isCurrent owned procs files threads ptcbs control
      reply => exact left threads
  | reaped slot child status isCurrent reason procs files threads ptcbs control
      reply => exact same threads
  | threadCreated slot new proc isCurrent owned procs files thread ptcbs
      control reply => exact .sibling slot new proc isCurrent owned thread
  | streams slot notExit isCurrent call only control reply =>
      exact same only.sameThreads

/-- Threads of one process have one PCB. -/
structure Grouped (log : ThreadLog limits) : Prop where
  numbered : ∀ {thread}, log.Alive thread →
    log.process thread ≤ log.processes
  owner : ∀ {first second}, log.Alive first → log.Alive second →
    log.process first = log.process second →
      log.system.kernel.owner first.1 = log.system.kernel.owner second.1

namespace Grouped

variable {log : ThreadLog limits}
variable {action : Action limits}
variable {after : System limits}
variable {slot : Fin limits.maxThreads}
variable {proc : Fin limits.maxProc}

theorem processes_le
    (log : ThreadLog limits)
    (action : Action limits)
    (after : System limits) :
    log.processes ≤ (log.advance action after).processes := by
  cases action with
  | exec call argl args memory => exact Nat.le_succ _
  | _ => exact le_refl _

/-- A thread that is in the log after a step that starts one is that thread, or
was there before. -/
theorem alive_of_new
    {thread : Thread limits}
    (new : NewThread log.system.kernel after.kernel slot proc)
    (alive : (log.advance action after).Alive thread) :
    thread = (slot, log.started slot + 1) ∨
      log.Alive thread ∧ thread.1 ≠ slot := by
  obtain ⟨started, -⟩ := advance_of_new action
    (Sched.freeSlot_eq_some new.free) new.used
  obtain ⟨usedThread, number⟩ := alive
  rw [started] at number
  rw [advance_system, new.used] at usedThread
  by_cases same : thread.1 = slot
  · rw [same, Function.update_self] at number
    exact .inl (Prod.ext same number)
  · rw [Function.update_of_ne same] at number usedThread
    exact .inr ⟨⟨usedThread, number⟩, same⟩

theorem advance_fewer
    (grouped : log.Grouped)
    (fewer : ∀ slot, after.kernel.threadUsed slot = true →
      log.system.kernel.threadUsed slot = true)
    (owner : after.kernel.owner = log.system.kernel.owner) :
    (log.advance action after).Grouped := by
  obtain ⟨started, process⟩ := log.advance_of_fewer action fewer
  have wasAlive : ∀ {thread}, (log.advance action after).Alive thread →
      log.Alive thread := by
    intro thread alive
    have number := alive.2
    rw [started] at number
    exact ⟨fewer _ alive.1, number⟩
  constructor
  · intro thread alive
    rw [process]
    exact (grouped.numbered (wasAlive alive)).trans
      (processes_le log action after)
  · intro first second aliveFirst aliveSecond same
    rw [process] at same
    rw [advance_system, owner]
    exact grouped.owner (wasAlive aliveFirst) (wasAlive aliveSecond) same

/-- A new thread has the PCB of the process it is numbered with. -/
theorem advance_new
    (grouped : log.Grouped)
    (new : NewThread log.system.kernel after.kernel slot proc)
    (numbered : log.newProcess action ≤
      (log.advance action after).processes)
    (joins : ∀ {thread}, log.Alive thread →
      log.process thread = log.newProcess action →
        log.system.kernel.owner thread.1 = some proc) :
    (log.advance action after).Grouped := by
  obtain ⟨-, process⟩ := advance_of_new action
    (Sched.freeSlot_eq_some new.free) new.used
  have isNew : (log.advance action after).process
        (slot, log.started slot + 1) = log.newProcess action ∧
      after.kernel.owner slot = some proc := by
    rw [process, new.owner, Function.update_self, Function.update_self]
    exact ⟨rfl, rfl⟩
  have isOld : ∀ {thread : Thread limits}, thread.1 ≠ slot →
      (log.advance action after).process thread = log.process thread ∧
        after.kernel.owner thread.1 = log.system.kernel.owner thread.1 := by
    intro thread different
    have other : thread ≠ (slot, log.started slot + 1) := fun same =>
      different (congrArg Prod.fst same)
    rw [process, new.owner, Function.update_of_ne other,
      Function.update_of_ne different]
    exact ⟨rfl, rfl⟩
  constructor
  · intro thread alive
    rcases alive_of_new new alive with rfl | ⟨wasAlive, different⟩
    · rw [isNew.1]
      exact numbered
    · rw [(isOld different).1]
      exact (grouped.numbered wasAlive).trans (processes_le log action after)
  · intro first second aliveFirst aliveSecond same
    rw [advance_system]
    rcases alive_of_new new aliveFirst with rfl | ⟨wasFirst, firstOld⟩
    · rcases alive_of_new new aliveSecond with rfl | ⟨wasSecond, secondOld⟩
      · rfl
      · rw [isNew.1, (isOld secondOld).1] at same
        rw [isNew.2, (isOld secondOld).2, joins wasSecond same.symm]
    · rcases alive_of_new new aliveSecond with rfl | ⟨wasSecond, secondOld⟩
      · rw [isNew.1, (isOld firstOld).1] at same
        rw [isNew.2, (isOld firstOld).2, joins wasFirst same]
      · rw [(isOld firstOld).1, (isOld secondOld).1] at same
        rw [(isOld firstOld).2, (isOld secondOld).2]
        exact grouped.owner wasFirst wasSecond same

theorem advance
    (grouped : log.Grouped)
    (sound : log.system.Sound)
    (effect : ThreadEffect log.system action after) :
    (log.advance action after).Grouped := by
  cases effect with
  | fewer used owner => exact grouped.advance_fewer used owner
  | main slot proc thread =>
      refine grouped.advance_new thread (le_refl _) fun alive same => ?_
      have old := grouped.numbered alive
      rw [same] at old
      exact absurd old (Nat.not_succ_le_self _)
  | @sibling task argl args _ caller slot proc isCurrent owned thread =>
      have isAlive : log.Alive (log.threadIn caller) :=
        ⟨sound.current_used isCurrent, rfl⟩
      have isProcess : log.newProcess (.createThread task argl args) =
          log.process (log.threadIn caller) := by
        simp [newProcess, current, isCurrent]
      refine grouped.advance_new thread ?_ fun alive same => ?_
      · rw [isProcess]
        exact grouped.numbered isAlive
      · rw [isProcess] at same
        rw [grouped.owner alive isAlive same]
        exact owned

theorem learn
    {slot tid : Option (Fin limits.maxThreads)}
    (grouped : log.Grouped) :
    (log.learn slot tid).Grouped := by
  unfold ThreadLog.learn
  split
  · exact ⟨grouped.numbered, grouped.owner⟩
  · exact grouped

end Grouped

/-- When the scheduler starts there is at most the thread of the first
process. -/
theorem tidsDistinct_of_boot
    {system : System limits}
    (booted : boot limits = .ok system) :
    system.kernel.TidsDistinct := by
  obtain ⟨kernel, initialized, started⟩ := exists_of_bind_eq_ok booted
  obtain ⟨⟨pid, after⟩, executed, returned⟩ := exists_of_bind_eq_ok initialized
  cases started
  cases returned
  have fresh : (initial limits).Fresh := initial_fresh
  have distinct : (initial limits).TidsDistinct := by
    constructor
    · intro first second tid usedFirst
      rw [fresh.unused] at usedFirst
      cases usedFirst
    · intro slot tid usedSlot
      rw [fresh.unused] at usedSlot
      cases usedSlot
  have afterExec : after.TidsDistinct := by
    rcases (sysExec_outcome fresh.resting executed).tids with
      kept | ⟨slot, given⟩
    · exact distinct.of_kept kept
    · exact distinct.of_given given
  refine afterExec.of_kept ⟨rfl, ?_, rfl, fun _ => rfl, fun _ => rfl⟩
  funext slot
  simp only [tidOf, Sched.runScheduler_tcb_slot]

/-- When the scheduler starts no two threads exist. -/
theorem grouped_of_booted
    {system : System limits}
    (booted : system.Booted) :
    (start system).Grouped := by
  refine ⟨fun _ => le_refl _, ?_⟩
  intro first second aliveFirst aliveSecond _
  obtain ⟨pid, kernel, effect, -, -, threads, -⟩ := booted.tables
  have unused : ∀ slot, (initial limits).threadUsed slot = false :=
    initial_fresh.unused
  have only : ∀ {slot}, kernel.threadUsed slot = true →
      ∃ new, slot = new ∧ kernel.threadUsed =
        Function.update (initial limits).threadUsed new true := by
    intro slot used
    cases effect with
    | full noPcb =>
        rw [unused] at used
        cases used
    | threadless newproc noCall proc files same ptcbs sched =>
        rw [same.used, unused] at used
        cases used
    | failed newproc isCall noSlot proc files same ptcbs sched =>
        rw [same.used, unused] at used
        cases used
    | started newproc new isCall proc files thread ptcbs current =>
        rw [thread.used, Function.update_apply, unused] at used
        split_ifs at used with isNew
        exact ⟨new, isNew, thread.used⟩
  have usedFirst : kernel.threadUsed first.1 = true :=
    threads.used ▸ aliveFirst.1
  have usedSecond : kernel.threadUsed second.1 = true :=
    threads.used ▸ aliveSecond.1
  obtain ⟨new, isNew, used⟩ := only usedFirst
  rw [used, Function.update_apply, unused] at usedSecond
  split_ifs at usedSecond with isNew'
  rw [isNew, isNew']

/-- What holds when the scheduler starts and is kept by every step holds of the
log of every run. -/
theorem Reached.invariant
    {motive : ThreadLog limits → Prop}
    {log : ThreadLog limits}
    (reached : log.Reached)
    (booted : ∀ {system}, boot limits = .ok system → motive (start system))
    (preserved : ∀ {before : ThreadLog limits} {action after},
      before.system.Sound → after.Sound → motive before →
        before.system.Enabled action → before.system.step action = .ok after →
          motive (before.record action after)) :
    motive log := by
  obtain ⟨system, isBoot, reachable⟩ := reached
  refine (reachable.invariant
    (motive := fun log => log.system.Sound ∧ motive log)
    ⟨(booted_of_boot isBoot).sound, booted isBoot⟩ ?_).2
  rintro before after action ⟨sound, holds⟩ enabled stepped
  obtain ⟨system', systemStepped, rfl⟩ := withPast_eq_ok.mp stepped
  obtain ⟨soundAfter, -⟩ := sound.step enabled systemStepped
  rw [record_system]
  exact ⟨soundAfter, preserved sound soundAfter holds enabled systemStepped⟩

/-- In every run the tids tell the threads apart and the PTCBs keep their exit
values. -/
theorem Reached.consistent
    {log : ThreadLog limits}
    (reached : log.Reached) :
    log.Consistent := by
  refine reached.invariant (motive := Consistent) ?_ ?_
  · intro system booted
    exact ⟨tidsDistinct_of_boot booted, nofun, nofun, nofun, nofun⟩
  · intro before action after sound soundAfter consistent enabled stepped
    exact consistent.record sound soundAfter
      ((sound.performs enabled stepped).tidEffect sound)

/-- In every run the threads of a process belong to its PCB. -/
theorem Reached.grouped
    {log : ThreadLog limits}
    (reached : log.Reached) :
    log.Grouped := by
  refine reached.invariant (motive := Grouped) ?_ ?_
  · intro system booted
    exact grouped_of_booted (booted_of_boot booted)
  · intro before action after sound soundAfter grouped enabled stepped
    obtain ⟨-, effect⟩ := sound.step enabled stepped
    exact ((grouped.advance sound (threadEffect_of_effect effect)).learn).learn

end ThreadLog
end TinierOS
