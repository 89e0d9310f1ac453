import TinierOS.Sched.Defs
import Mathlib.Data.Fintype.Card
import Mathlib.Data.Fintype.Basic

/-!
# The scheduler invariant

The documented invariant says that a thread is in a scheduler queue exactly when
it is ready and its context is clean.  Inside `yield` and `gain` it holds only
up to the threads in transit, so the structure below is indexed by three sets:
the threads marked running, the threads with a dirty context, and the hidden
ones, which are ready but out of the queues, or exited but not yet released.
Between scheduler calls the first two contain just the current thread and the
third is empty.
-/

namespace TinierOS

/-- The lists a `sched_node` may be linked in. -/
inductive SchedList
  | queue (level : Fin schedQueues)
  | timeouts
  deriving DecidableEq

variable {limits : Limits}

/-- The heads of `SCHED` and `TIMEOUT_LIST`, and the nodes of the pool. -/
def schedLayout (limits : Limits) :
    Layout SchedList (Fin limits.maxThreads) (SchedNode limits) where
  sentinel
    | .queue level => .queue level
    | .timeouts => .timeoutList
  cell := fun slot => .schedNode (.slot slot)
  sentinel_injective := by
    rintro (first | _) (second | _) equal <;> simp_all
  cell_injective := by
    intro first second equal
    simpa using equal
  sentinel_ne_cell := by
    rintro (level | _) element <;> simp

@[simp] theorem schedLayout_queue (level : Fin schedQueues) :
    (schedLayout limits).sentinel (.queue level) = .queue level := rfl

@[simp] theorem schedLayout_timeouts :
    (schedLayout limits).sentinel .timeouts = .timeoutList := rfl

@[simp] theorem schedLayout_cell (slot : Fin limits.maxThreads) :
    (schedLayout limits).cell slot = .schedNode (.slot slot) := rfl

/-- The slots in use. -/
def Sched.usedSlots (sched : Sched limits) : Finset (Fin limits.maxThreads) :=
  Finset.univ.filter fun slot => sched.threadUsed slot = true

/-- The scheduler invariant, with the threads in transit made explicit. -/
structure SchedInv
    (sched : Sched limits)
    (lists : SchedList → List (Fin limits.maxThreads))
    (running dirty hidden : TcbPtr limits → Prop) : Prop where
  represents : (schedLayout limits).Represents sched.heap.links lists
    (fun slot => sched.threadUsed slot = true)
  queueKey : ∀ level, (sched.heap (.queue level)).obj = none
  nodeKey : ∀ slot, sched.threadUsed slot = true →
    (sched.heap (.schedNode (.slot slot))).obj = some (.slot slot)
  queued : ∀ slot, sched.threadUsed slot = true →
    ((∃ level, slot ∈ lists (.queue level)) ↔
      (sched.tcb (.slot slot)).state = .ready ∧
        (sched.tcb (.slot slot)).phase = .ctxClean ∧ ¬hidden (.slot slot))
  level : ∀ slot level, slot ∈ lists (.queue level) →
    (sched.tcb (.slot slot)).priority = (level : Nat)
  sleeping : ∀ slot, sched.threadUsed slot = true →
    (slot ∈ lists .timeouts ↔
      (sched.tcb (.slot slot)).wakeupTime ≠ noTimeout)
  stopped : ∀ slot, slot ∈ lists .timeouts →
    (sched.tcb (.slot slot)).state = .stopped
  sorted : (lists .timeouts).Pairwise fun first second =>
    (sched.tcb (.slot first)).wakeupTime ≤
      (sched.tcb (.slot second)).wakeupTime
  isRunning : ∀ tcb, (sched.tcb tcb).state = .running ↔ running tcb
  isDirty : ∀ tcb, (sched.tcb tcb).phase = .ctxDirty ↔ dirty tcb
  dirtyUsed : ∀ slot, dirty (.slot slot) → sched.threadUsed slot = true
  exited : ∀ slot, sched.threadUsed slot = true →
    (sched.tcb (.slot slot)).state = .exited →
      dirty (.slot slot) ∨ hidden (.slot slot)
  normal : ∀ slot, sched.threadUsed slot = true →
    (sched.tcb (.slot slot)).type = .normalThread
  idle : (sched.tcb .idle).type = .idleThread
  priority : ∀ tcb, 0 ≤ (sched.tcb tcb).priority ∧
    (sched.tcb tcb).priority < schedQueues
  yieldCount : sched.yieldCount < yieldRuns
  active : sched.activeThreads = sched.usedSlots.card

namespace Sched

/-! ## Assignments to one TCB -/

@[simp] theorem modifyTcb_heap
    (sched : Sched limits)
    (tcb : TcbPtr limits)
    (change : TCB limits → TCB limits) :
    (sched.modifyTcb tcb change).heap = sched.heap := rfl

@[simp] theorem modifyTcb_threadUsed
    (sched : Sched limits)
    (tcb : TcbPtr limits)
    (change : TCB limits → TCB limits) :
    (sched.modifyTcb tcb change).threadUsed = sched.threadUsed := rfl

@[simp] theorem modifyTcb_activeThreads
    (sched : Sched limits)
    (tcb : TcbPtr limits)
    (change : TCB limits → TCB limits) :
    (sched.modifyTcb tcb change).activeThreads = sched.activeThreads := rfl

@[simp] theorem modifyTcb_yieldCount
    (sched : Sched limits)
    (tcb : TcbPtr limits)
    (change : TCB limits → TCB limits) :
    (sched.modifyTcb tcb change).yieldCount = sched.yieldCount := rfl

@[simp] theorem modifyTcb_currentThread
    (sched : Sched limits)
    (tcb : TcbPtr limits)
    (change : TCB limits → TCB limits) :
    (sched.modifyTcb tcb change).currentThread = sched.currentThread := rfl

@[simp] theorem modifyTcb_previousThread
    (sched : Sched limits)
    (tcb : TcbPtr limits)
    (change : TCB limits → TCB limits) :
    (sched.modifyTcb tcb change).previousThread = sched.previousThread := rfl

@[simp] theorem modifyTcb_usedSlots
    (sched : Sched limits)
    (tcb : TcbPtr limits)
    (change : TCB limits → TCB limits) :
    (sched.modifyTcb tcb change).usedSlots = sched.usedSlots := rfl

@[simp] theorem modifyTcb_self
    (sched : Sched limits)
    (tcb : TcbPtr limits)
    (change : TCB limits → TCB limits) :
    (sched.modifyTcb tcb change).tcb tcb = change (sched.tcb tcb) := by
  simp [modifyTcb]

theorem modifyTcb_of_ne
    {sched : Sched limits}
    {tcb other : TcbPtr limits}
    {change : TCB limits → TCB limits}
    (different : other ≠ tcb) :
    (sched.modifyTcb tcb change).tcb other = sched.tcb other := by
  simp [modifyTcb, different]

/-- Fields that no scheduler function assigns, `spawn_thread` apart. -/
structure SameOwners (before after : Sched limits) : Prop where
  ownerPcb : ∀ tcb, (after.tcb tcb).ownerPcb = (before.tcb tcb).ownerPcb
  ptcb : ∀ tcb, (after.tcb tcb).ptcb = (before.tcb tcb).ptcb
  threadFunc : ∀ tcb, (after.tcb tcb).threadFunc = (before.tcb tcb).threadFunc

namespace SameOwners

theorem refl (sched : Sched limits) : SameOwners sched sched :=
  ⟨fun _ => rfl, fun _ => rfl, fun _ => rfl⟩

theorem trans
    {first second third : Sched limits}
    (before : SameOwners first second)
    (after : SameOwners second third) :
    SameOwners first third where
  ownerPcb := fun tcb => (after.ownerPcb tcb).trans (before.ownerPcb tcb)
  ptcb := fun tcb => (after.ptcb tcb).trans (before.ptcb tcb)
  threadFunc := fun tcb => (after.threadFunc tcb).trans (before.threadFunc tcb)

/-- Only the TCBs matter. -/
theorem of_tcb_eq
    {before after : Sched limits}
    (same : after.tcb = before.tcb) :
    SameOwners before after := by
  constructor <;> intro tcb <;> rw [same]

theorem modifyTcb
    (sched : Sched limits)
    (tcb : TcbPtr limits)
    (change : TCB limits → TCB limits)
    (ownerPcb : (change (sched.tcb tcb)).ownerPcb = (sched.tcb tcb).ownerPcb)
    (ptcb : (change (sched.tcb tcb)).ptcb = (sched.tcb tcb).ptcb)
    (threadFunc :
      (change (sched.tcb tcb)).threadFunc = (sched.tcb tcb).threadFunc) :
    SameOwners sched (sched.modifyTcb tcb change) := by
  constructor <;> intro other <;> by_cases same : other = tcb
  · subst same
    rw [modifyTcb_self, ownerPcb]
  · rw [modifyTcb_of_ne same]
  · subst same
    rw [modifyTcb_self, ptcb]
  · rw [modifyTcb_of_ne same]
  · subst same
    rw [modifyTcb_self, threadFunc]
  · rw [modifyTcb_of_ne same]

end SameOwners

end Sched

namespace SchedInv

variable {sched : Sched limits}
variable {lists : SchedList → List (Fin limits.maxThreads)}
variable {running dirty hidden : TcbPtr limits → Prop}

theorem used_of_mem
    {list : SchedList}
    {slot : Fin limits.maxThreads}
    (inv : SchedInv sched lists running dirty hidden)
    (member : slot ∈ lists list) :
    sched.threadUsed slot = true :=
  inv.represents.alive member

/-- A used thread that is neither in a queue nor asleep is in no list. -/
theorem unlisted
    {slot : Fin limits.maxThreads}
    (notQueued : ∀ level, slot ∉ lists (.queue level))
    (awake : slot ∉ lists .timeouts) :
    ∀ list, slot ∉ lists list
  | .queue level => notQueued level
  | .timeouts => awake

/-- A thread that is not stopped is not in the timeout list. -/
theorem awake
    {slot : Fin limits.maxThreads}
    (inv : SchedInv sched lists running dirty hidden)
    (notStopped : (sched.tcb (.slot slot)).state ≠ .stopped) :
    slot ∉ lists .timeouts :=
  fun member => notStopped (inv.stopped slot member)

/-- A thread outside the ready-and-clean states is in no queue. -/
theorem not_queued
    {slot : Fin limits.maxThreads}
    (inv : SchedInv sched lists running dirty hidden)
    (apart : ¬((sched.tcb (.slot slot)).state = .ready ∧
      (sched.tcb (.slot slot)).phase = .ctxClean ∧ ¬hidden (.slot slot)))
    (level : Fin schedQueues) :
    slot ∉ lists (.queue level) := by
  intro member
  have usedSlot := inv.used_of_mem member
  exact apart ((inv.queued slot usedSlot).mp ⟨level, member⟩)

theorem length_lt
    (inv : SchedInv sched lists running dirty hidden)
    (list : SchedList) :
    (lists list).length < limits.maxThreads + 1 := by
  have bound := (inv.represents.nodup list).length_le_card
  rw [Fintype.card_fin] at bound
  omega

/-- Assignments to one TCB that leave `wakeup_time` alone keep the invariant,
for the sets of threads in transit that the new values call for. -/
theorem modifyTcb
    {running' dirty' hidden' : TcbPtr limits → Prop}
    {tcb : TcbPtr limits}
    {change : TCB limits → TCB limits}
    (inv : SchedInv sched lists running dirty hidden)
    (type : (change (sched.tcb tcb)).type = (sched.tcb tcb).type)
    (wakeupTime :
      (change (sched.tcb tcb)).wakeupTime = (sched.tcb tcb).wakeupTime)
    (priority : 0 ≤ (change (sched.tcb tcb)).priority ∧
      (change (sched.tcb tcb)).priority < schedQueues)
    (isRunning : (change (sched.tcb tcb)).state = .running ↔ running' tcb)
    (isDirty : (change (sched.tcb tcb)).phase = .ctxDirty ↔ dirty' tcb)
    (others : ∀ other, other ≠ tcb →
      (running' other ↔ running other) ∧ (dirty' other ↔ dirty other) ∧
        (hidden' other ↔ hidden other))
    (dirtyUsed : ∀ slot, tcb = .slot slot → dirty' tcb →
      sched.threadUsed slot = true)
    (queued : ∀ slot, tcb = .slot slot → sched.threadUsed slot = true →
      ((∃ level, slot ∈ lists (.queue level)) ↔
        (change (sched.tcb tcb)).state = .ready ∧
          (change (sched.tcb tcb)).phase = .ctxClean ∧ ¬hidden' tcb))
    (level : ∀ slot level, tcb = .slot slot → slot ∈ lists (.queue level) →
      (change (sched.tcb tcb)).priority = (level : Nat))
    (stopped : ∀ slot, tcb = .slot slot → slot ∈ lists .timeouts →
      (change (sched.tcb tcb)).state = .stopped)
    (exited : ∀ slot, tcb = .slot slot →
      sched.threadUsed slot = true →
        (change (sched.tcb tcb)).state = .exited →
          dirty' tcb ∨ hidden' tcb) :
    SchedInv (sched.modifyTcb tcb change) lists running' dirty' hidden' := by
  have wakeupTimes : ∀ other,
      ((sched.modifyTcb tcb change).tcb other).wakeupTime =
        (sched.tcb other).wakeupTime := by
    intro other
    by_cases same : other = tcb
    · rw [same, Sched.modifyTcb_self, wakeupTime]
    · rw [Sched.modifyTcb_of_ne same]
  have types : ∀ other,
      ((sched.modifyTcb tcb change).tcb other).type =
        (sched.tcb other).type := by
    intro other
    by_cases same : other = tcb
    · rw [same, Sched.modifyTcb_self, type]
    · rw [Sched.modifyTcb_of_ne same]
  constructor
  case represents => exact inv.represents
  case queueKey => exact inv.queueKey
  case nodeKey => exact inv.nodeKey
  case queued =>
      intro slot usedSlot
      by_cases same : TcbPtr.slot slot = tcb
      · rw [same, Sched.modifyTcb_self]
        exact queued slot same.symm usedSlot
      · rw [Sched.modifyTcb_of_ne same, (others _ same).2.2]
        exact inv.queued slot usedSlot
  case level =>
      intro slot which member
      by_cases same : TcbPtr.slot slot = tcb
      · rw [same, Sched.modifyTcb_self]
        exact level slot which same.symm member
      · rw [Sched.modifyTcb_of_ne same]
        exact inv.level slot which member
  case sleeping =>
      intro slot usedSlot
      rw [wakeupTimes]
      exact inv.sleeping slot usedSlot
  case stopped =>
      intro slot member
      by_cases same : TcbPtr.slot slot = tcb
      · rw [same, Sched.modifyTcb_self]
        exact stopped slot same.symm member
      · rw [Sched.modifyTcb_of_ne same]
        exact inv.stopped slot member
  case sorted =>
      simp only [wakeupTimes]
      exact inv.sorted
  case isRunning =>
      intro other
      by_cases same : other = tcb
      · rw [same, Sched.modifyTcb_self]
        exact isRunning
      · rw [Sched.modifyTcb_of_ne same, (others _ same).1]
        exact inv.isRunning other
  case isDirty =>
      intro other
      by_cases same : other = tcb
      · rw [same, Sched.modifyTcb_self]
        exact isDirty
      · rw [Sched.modifyTcb_of_ne same, (others _ same).2.1]
        exact inv.isDirty other
  case dirtyUsed =>
      intro slot isDirtySlot
      by_cases same : TcbPtr.slot slot = tcb
      · rw [same] at isDirtySlot
        exact dirtyUsed slot same.symm isDirtySlot
      · exact inv.dirtyUsed slot ((others _ same).2.1.mp isDirtySlot)
  case exited =>
      intro slot usedSlot isExited
      by_cases same : TcbPtr.slot slot = tcb
      · rw [same, Sched.modifyTcb_self] at isExited
        rw [same]
        exact exited slot same.symm usedSlot isExited
      · rw [Sched.modifyTcb_of_ne same] at isExited
        rw [(others _ same).2.1, (others _ same).2.2]
        exact inv.exited slot usedSlot isExited
  case normal =>
      intro slot usedSlot
      rw [types]
      exact inv.normal slot usedSlot
  case idle => exact (types _).trans inv.idle
  case priority =>
      intro other
      by_cases same : other = tcb
      · rw [same, Sched.modifyTcb_self]
        exact priority
      · rw [Sched.modifyTcb_of_ne same]
        exact inv.priority other
  case yieldCount => exact inv.yieldCount
  case active => exact inv.active

/-- Assignments to fields the invariant does not mention. -/
theorem modifyTcb_unobserved
    {tcb : TcbPtr limits}
    {change : TCB limits → TCB limits}
    (inv : SchedInv sched lists running dirty hidden)
    (type : (change (sched.tcb tcb)).type = (sched.tcb tcb).type)
    (wakeupTime :
      (change (sched.tcb tcb)).wakeupTime = (sched.tcb tcb).wakeupTime)
    (priority :
      (change (sched.tcb tcb)).priority = (sched.tcb tcb).priority)
    (state : (change (sched.tcb tcb)).state = (sched.tcb tcb).state)
    (phase : (change (sched.tcb tcb)).phase = (sched.tcb tcb).phase) :
    SchedInv (sched.modifyTcb tcb change) lists running dirty hidden := by
  refine inv.modifyTcb type wakeupTime ?_ ?_ ?_ (fun _ _ => by simp)
    ?_ ?_ ?_ ?_ ?_
  · rw [priority]
    exact inv.priority tcb
  · rw [state]
    exact inv.isRunning tcb
  · rw [phase]
    exact inv.isDirty tcb
  · rintro slot rfl isDirtySlot
    exact inv.dirtyUsed slot isDirtySlot
  · rintro slot rfl usedSlot
    rw [state, phase]
    exact inv.queued slot usedSlot
  · rintro slot which rfl member
    rw [priority]
    exact inv.level slot which member
  · rintro slot rfl member
    rw [state]
    exact inv.stopped slot member
  · rintro slot rfl usedSlot isExited
    rw [state] at isExited
    exact inv.exited slot usedSlot isExited

end SchedInv
end TinierOS
