import TinierOS.Old.CondVarTurns

/-!
# The ring of waiters

In every run the ring of a condition variable consists of the waiters that
`cv_wait` has enqueued and that nobody has removed, in the order of their
arrival.
-/

namespace TinierOS

namespace CvControl

variable {α μ : Type}

theorem waiter_of_arrived
    {control : CvControl α μ}
    {w : α}
    (arrived : control.arrived = some w) :
    control.waiter = some w := by
  cases control <;> first | exact arrived | cases arrived

theorem arrived_of_queued
    {control : CvControl α μ}
    {w : α}
    (queued : control.queued = some w) :
    control.arrived = some w := by
  cases control <;> first | exact queued | cases queued

theorem waiter_of_queued
    {control : CvControl α μ}
    {w : α}
    (queued : control.queued = some w) :
    control.waiter = some w :=
  waiter_of_arrived (arrived_of_queued queued)

/-- A waiter on the ring belongs to a thread that sleeps or holds the lock. -/
theorem asleep_of_queued
    {control : CvControl α μ}
    {w : α}
    (queued : control.queued = some w)
    (unlocked : control.holdsLock ≠ true) :
    ∃ mutex, control = .asleep w mutex := by
  cases control with
  | asleep w' mutex =>
      cases queued
      exact ⟨mutex, rfl⟩
  | enqueued w' mutex => exact absurd rfl unlocked
  | releasing w' mutex => exact absurd rfl unlocked
  | own => cases queued
  | locking w' mutex => cases queued
  | relocking w' mutex => cases queued
  | signalling all => cases queued
  | scanning all => cases queued
  | waking all w' => cases queued
  | unlocking all => cases queued

/-- A thread goes on in its call, and what holds of its waiter stays. -/
structure Continues (before after : CvControl α μ) : Prop where
  waiter : after.waiter = before.waiter
  arrived : after.arrived = before.arrived
  queued : after.queued = before.queued
  notLocking : ∀ w mutex, after ≠ .locking w mutex
  notRelocking : ∀ w mutex, after ≠ .relocking w mutex
  notWaking : ∀ all w, after ≠ .waking all w
  notAsleep : ∀ w mutex, before ≠ .asleep w mutex

end CvControl

namespace CvLog

variable {α : Type}

theorem mem_present
    {log : CvLog α}
    {w : α}
    {call : Nat} :
    (w, call) ∈ log.present ↔
      log.arrivals[call]? = some w ∧ call ∉ log.removals := by
  simp [present, List.mem_zipIdx_iff_getElem?]

/-- Every call has its own number. -/
theorem calls_nodup (log : CvLog α) : log.calls.Nodup := by
  unfold calls present
  refine List.Nodup.sublist (List.filter_sublist.map _) ?_
  rw [List.zipIdx_map_snd]
  exact List.nodup_range' ..

theorem present_arrive
    {log : CvLog α}
    (bounded : ∀ call ∈ log.removals, call < log.arrivals.length)
    (w : α) :
    (log.arrive w).present = log.present ++ [(w, log.arrivals.length)] := by
  have absent : log.arrivals.length ∉ log.removals := fun member =>
    absurd (bounded _ member) (lt_irrefl _)
  unfold present arrive
  rw [List.zipIdx_append, List.filter_append]
  congr 1
  simp [absent]

theorem present_remove
    {log : CvLog α}
    {before after : List (α × Nat)}
    {w : α}
    {call : Nat}
    (split : log.present = before ++ (w, call) :: after) :
    (log.remove call).present = before ++ after := by
  have nodup := log.calls_nodup
  have removes : (log.remove call).present =
      log.present.filter fun arrival => arrival.2 ≠ call := by
    unfold present remove
    rw [List.filter_filter]
    apply List.filter_congr
    intro arrival member
    simp [not_or]
  have others : ∀ arrival ∈ before ++ after, arrival.2 ≠ call := by
    rintro arrival member rfl
    simp only [calls, split, List.map_append, List.map_cons] at nodup
    rw [List.nodup_middle, List.nodup_cons, ← List.map_append] at nodup
    exact nodup.1 (List.mem_map_of_mem member)
  rw [removes, split, List.filter_append, List.filter_cons]
  simp only [ne_eq, not_true_eq_false, decide_false, Bool.false_eq_true,
    if_false]
  rw [← List.filter_append, List.filter_eq_self]
  intro arrival member
  exact decide_eq_true (others arrival member)

end CvLog

namespace CondVar

variable {α τ μ : Type}

/-! ## The invariant -/

/-- What a waiter keeps while it stands on a ring. -/
structure Agrees (waiter other : CvWaiter τ) : Prop where
  thread : other.thread = waiter.thread
  removed : other.removed = waiter.removed
  call : other.call = waiter.call

theorem Agrees.refl (waiter : CvWaiter τ) : Agrees waiter waiter :=
  ⟨rfl, rfl, rfl⟩

/-- The waiter of a thread fits where the thread is in its call. -/
structure ThreadPlaced
    (cv : CondVar α τ μ)
    (t : τ)
    (control : CvControl α μ) : Prop where
  owner : ∀ w, control.waiter = some w →
    (cv.waiters w).thread = t ∧ (cv.set.nodes w).obj = w
  fresh : ∀ w mutex, control = .locking w mutex →
    cv.set.Alone w ∧ (cv.waiters w).removed = false
  arrived : ∀ w, control.arrived = some w →
    cv.log.arrivals[(cv.waiters w).call]? = some w ∧
      (cv.waiters w).call ∉ cv.log.returned.map Prod.fst
  removed : ∀ w, control.queued = some w →
    ((cv.waiters w).call ∈ cv.log.removals ↔ (cv.waiters w).removed = true)
  gone : ∀ w mutex, control = .relocking w mutex →
    (cv.waiters w).call ∈ cv.log.removals

/-- The ring, the waiters and the lock fit where the threads are in their
calls. -/
structure Placed (cv : CondVar α τ μ) : Prop where
  locked : ∀ t, (cv.control t).holdsLock = true ↔ cv.waitsetLock = some t
  awake : ∀ t, cv.control t ≠ .own → cv.state t ≠ .init
  holds : cv.set.Holds cv.log.waiters
  threads : ∀ t, cv.ThreadPlaced t (cv.control t)
  waking : ∀ t all w, cv.control t = .waking all w →
    (cv.waiters w).removed = true ∧ ∃ t' mutex, cv.control t' = .asleep w mutex
  waits : ∀ call w, cv.log.arrivals[call]? = some w →
    call ∉ cv.log.removals →
      ∃ t, (cv.control t).queued = some w ∧ (cv.waiters w).call = call
  bounded : ∀ call ∈ cv.log.removals, call < cv.log.arrivals.length
  past : ∀ call ∈ cv.log.returned.map Prod.fst, call ∈ cv.log.removals

namespace ThreadPlaced

variable {cv after : CondVar α τ μ}
variable {t : τ}
variable {control : CvControl α μ}

/-- A thread without a waiter. -/
theorem of_none
    (none : control.waiter = none) :
    cv.ThreadPlaced t control := by
  cases control with
  | own => constructor <;> exact nofun
  | signalling all => constructor <;> exact nofun
  | scanning all => constructor <;> exact nofun
  | waking all w => constructor <;> exact nofun
  | unlocking all => constructor <;> exact nofun
  | locking w mutex => cases none
  | enqueued w mutex => cases none
  | releasing w mutex => cases none
  | asleep w mutex => cases none
  | relocking w mutex => cases none

theorem continues
    {other : CvControl α μ}
    (placed : cv.ThreadPlaced t control)
    (goesOn : control.Continues other) :
    cv.ThreadPlaced t other := by
  constructor
  · rw [goesOn.waiter]
    exact placed.owner
  · exact fun w mutex locking => absurd locking (goesOn.notLocking w mutex)
  · rw [goesOn.arrived]
    exact placed.arrived
  · rw [goesOn.queued]
    exact placed.removed
  · exact fun w mutex relocking =>
      absurd relocking (goesOn.notRelocking w mutex)

/-- A step that leaves the waiter of a thread alone. -/
theorem frame
    (placed : cv.ThreadPlaced t control)
    (agrees : ∀ w, control.waiter = some w →
      Agrees (cv.waiters w) (after.waiters w))
    (sameKey : ∀ w, control.waiter = some w →
      (after.set.nodes w).obj = (cv.set.nodes w).obj)
    (alone : ∀ w mutex, control = .locking w mutex → cv.set.Alone w →
      after.set.Alone w)
    (arrivals : ∀ (call : Nat) (w : α), cv.log.arrivals[call]? = some w →
      after.log.arrivals[call]? = some w)
    (removals : ∀ w, control.arrived = some w →
      ((cv.waiters w).call ∈ after.log.removals ↔
        (cv.waiters w).call ∈ cv.log.removals))
    (returned : ∀ w, control.arrived = some w →
      (cv.waiters w).call ∈ after.log.returned.map Prod.fst →
        (cv.waiters w).call ∈ cv.log.returned.map Prod.fst) :
    after.ThreadPlaced t control := by
  constructor
  case owner =>
      intro w isWaiter
      rw [(agrees w isWaiter).thread, sameKey w isWaiter]
      exact placed.owner w isWaiter
  case fresh =>
      intro w mutex locking
      obtain ⟨isAlone, notRemoved⟩ := placed.fresh w mutex locking
      rw [(agrees w (by rw [locking]; rfl)).removed]
      exact ⟨alone w mutex locking isAlone, notRemoved⟩
  case arrived =>
      intro w arrived
      obtain ⟨arrival, inProgress⟩ := placed.arrived w arrived
      rw [(agrees w (CvControl.waiter_of_arrived arrived)).call]
      exact ⟨arrivals _ w arrival, fun member =>
        inProgress (returned w arrived member)⟩
  case removed =>
      intro w queued
      have isWaiter := CvControl.waiter_of_queued queued
      rw [(agrees w isWaiter).call, (agrees w isWaiter).removed,
        removals w (CvControl.arrived_of_queued queued)]
      exact placed.removed w queued
  case gone =>
      intro w mutex relocking
      have isWaiter : control.waiter = some w := by rw [relocking]; rfl
      have arrived : control.arrived = some w := by rw [relocking]; rfl
      rw [(agrees w isWaiter).call, removals w arrived]
      exact placed.gone w mutex relocking

end ThreadPlaced

namespace Placed

variable {cv after : CondVar α τ μ}
variable {t t' : τ}
variable {w w' : α}
variable {mutex : μ}

/-- A waiter belongs to one call. -/
theorem same_thread
    (placed : cv.Placed)
    (isWaiter : (cv.control t).waiter = some w)
    (isWaiter' : (cv.control t').waiter = some w) :
    t = t' :=
  ((placed.threads t).owner w isWaiter).1.symm.trans
    ((placed.threads t').owner w isWaiter').1

/-- The waiters of two threads are different. -/
theorem waiter_ne
    (placed : cv.Placed)
    (apart : t' ≠ t)
    (isWaiter : (cv.control t).waiter = some w)
    (isWaiter' : (cv.control t').waiter = some w') :
    w' ≠ w := by
  rintro rfl
  exact apart (placed.same_thread isWaiter' isWaiter)

/-- The calls of two threads have different numbers. -/
theorem call_ne
    (placed : cv.Placed)
    (apart : t' ≠ t)
    (arrived : (cv.control t).arrived = some w)
    (arrived' : (cv.control t').arrived = some w') :
    (cv.waiters w').call ≠ (cv.waiters w).call := by
  intro same
  have place := ((placed.threads t).arrived w arrived).1
  have place' := ((placed.threads t').arrived w' arrived').1
  rw [same, place, Option.some.injEq] at place'
  subst place'
  exact apart (placed.same_thread (CvControl.waiter_of_arrived arrived')
    (CvControl.waiter_of_arrived arrived))

/-- While nobody holds the lock, nobody is in the loop of a signal. -/
theorem unlocked
    (placed : cv.Placed)
    (free : cv.waitsetLock = none)
    (t : τ) :
    (cv.control t).holdsLock ≠ true := by
  rw [Ne, placed.locked t, free]
  exact nofun

/-- Only one thread holds the lock. -/
theorem others_unlocked
    (placed : cv.Placed)
    (holder : (cv.control t).holdsLock = true)
    (apart : t' ≠ t) :
    (cv.control t').holdsLock ≠ true := by
  intro holder'
  have same := (placed.locked t).mp holder
  rw [(placed.locked t').mp holder', Option.some.injEq] at same
  exact apart same

/-- A waiter on the ring belongs to a call in progress. -/
theorem queued_of_mem
    (placed : cv.Placed)
    (member : w ∈ cv.log.waiters) :
    ∃ t, (cv.control t).queued = some w ∧
      (cv.waiters w).call ∉ cv.log.removals := by
  obtain ⟨⟨w', call⟩, present, rfl⟩ := List.mem_map.mp member
  obtain ⟨arrival, notRemoved⟩ := CvLog.mem_present.mp present
  obtain ⟨t, queued, rfl⟩ := placed.waits call w' arrival notRemoved
  exact ⟨t, queued, notRemoved⟩

theorem keys
    (placed : cv.Placed) :
    ∀ w ∈ cv.log.waiters, (cv.set.nodes w).obj = w := by
  intro w member
  obtain ⟨t, queued, _⟩ := placed.queued_of_mem member
  exact ((placed.threads t).owner w (CvControl.waiter_of_queued queued)).2

/-- A waiter that has not been removed stands on the ring with the number of its
call. -/
theorem split
    (placed : cv.Placed)
    (queued : (cv.control t).queued = some w)
    (notRemoved : (cv.waiters w).call ∉ cv.log.removals) :
    ∃ before later, cv.log.present =
      before ++ (w, (cv.waiters w).call) :: later := by
  apply List.append_of_mem
  apply CvLog.mem_present.mpr
  exact ⟨((placed.threads t).arrived w (CvControl.arrived_of_queued queued)).1,
    notRemoved⟩

/-- A waiter of a call that has not been enqueued is not on the ring. -/
theorem not_mem_of_not_queued
    (placed : cv.Placed)
    (isWaiter : (cv.control t).waiter = some w)
    (notQueued : (cv.control t).queued = none) :
    w ∉ cv.log.waiters := by
  intro member
  obtain ⟨t', queued, _⟩ := placed.queued_of_mem member
  obtain rfl := placed.same_thread isWaiter (CvControl.waiter_of_queued queued)
  rw [notQueued] at queued
  cases queued

end Placed

variable [DecidableEq α] [DecidableEq τ] [DecidableEq μ]

/-! ## Steps -/

omit [DecidableEq τ] [DecidableEq μ] in
/-- Changing the marks of a waiter keeps the rest. -/
theorem agrees_update
    {cv : CondVar α τ μ}
    {w : α}
    {waiter : CvWaiter τ}
    (agrees : Agrees (cv.waiters w) waiter)
    (other : α) :
    Agrees (cv.waiters other) (Function.update cv.waiters w waiter other) := by
  rcases eq_or_ne other w with rfl | apart
  · rwa [Function.update_self]
  · rw [Function.update_of_ne apart]
    exact .refl _

omit [DecidableEq α] [DecidableEq τ] [DecidableEq μ] in
/-- What a step keeps when it moves nothing on or off the ring. -/
structure Keeps (cv after : CondVar α τ μ) : Prop where
  set : after.set = cv.set
  waiters : ∀ w, Agrees (cv.waiters w) (after.waiters w)
  arrivals : after.log.arrivals = cv.log.arrivals
  removals : after.log.removals = cv.log.removals
  returned : after.log.returned = cv.log.returned

omit [DecidableEq α] [DecidableEq τ] [DecidableEq μ] in
theorem Keeps.threadPlaced
    {cv after : CondVar α τ μ}
    {t : τ}
    {control : CvControl α μ}
    (keeps : cv.Keeps after)
    (placed : cv.ThreadPlaced t control) :
    after.ThreadPlaced t control := by
  apply placed.frame
  · exact fun w _ => keeps.waiters w
  · intro w _
    rw [keeps.set]
  · intro w mutex _ alone
    rwa [keeps.set]
  · intro call w arrival
    rwa [keeps.arrivals]
  · intro w _
    rw [keeps.removals]
  · intro w _ member
    rwa [keeps.returned] at member

namespace Placed

variable {cv after : CondVar α τ μ}
variable {t t' : τ}
variable {w : α}
variable {mutex : μ}

omit [DecidableEq α] [DecidableEq μ] in
/-- A step of one thread that keeps the ring and what the log says of it. -/
theorem of_move
    (placed : cv.Placed)
    (control : CvControl α μ)
    (moved : after.control = Function.update cv.control t control)
    (locked : ∀ t', (after.control t').holdsLock = true ↔
      after.waitsetLock = some t')
    (awake : ∀ t', after.control t' ≠ .own → after.state t' ≠ .init)
    (keeps : cv.Keeps after)
    (continues : (cv.control t).Continues control) :
    after.Placed := by
  have elsewhere : ∀ {t'}, t' ≠ t → after.control t' = cv.control t' := by
    intro t' apart
    rw [moved, Function.update_of_ne apart]
  have here : after.control t = control := by rw [moved, Function.update_self]
  have sameQueueds : ∀ t', (after.control t').queued = (cv.control t').queued := by
    intro t'
    rcases eq_or_ne t' t with rfl | apart
    · rw [here, continues.queued]
    · rw [elsewhere apart]
  have samePresent : after.log.waiters = cv.log.waiters := by
    rw [CvLog.waiters, CvLog.waiters, CvLog.present, CvLog.present,
      keeps.arrivals, keeps.removals]
  constructor
  case locked => exact locked
  case awake => exact awake
  case holds => rw [keeps.set, samePresent]; exact placed.holds
  case threads =>
      intro t'
      apply keeps.threadPlaced
      rcases eq_or_ne t' t with rfl | apart
      · rw [here]
        exact (placed.threads t').continues continues
      · rw [elsewhere apart]
        exact placed.threads t'
  case waking =>
      intro t' all w place
      rcases eq_or_ne t' t with rfl | apart
      · exact absurd (here.symm.trans place) (continues.notWaking all w)
      · rw [elsewhere apart] at place
        obtain ⟨removed, sleeper, mutex, asleep⟩ := placed.waking t' all w place
        refine ⟨(keeps.waiters w).removed.trans removed, sleeper, mutex, ?_⟩
        rw [elsewhere]
        · exact asleep
        · rintro rfl
          exact continues.notAsleep w mutex asleep
  case waits =>
      intro call w arrival notRemoved
      rw [keeps.arrivals] at arrival
      rw [keeps.removals] at notRemoved
      obtain ⟨t', queued, isCall⟩ := placed.waits call w arrival notRemoved
      exact ⟨t', (sameQueueds t').trans queued,
        (keeps.waiters w).call.trans isCall⟩
  case bounded =>
      rw [keeps.removals, keeps.arrivals]
      exact placed.bounded
  case past =>
      rw [keeps.returned, keeps.removals]
      exact placed.past

section Locks

omit [DecidableEq α] [DecidableEq μ]

variable {control : CvControl α μ}

theorem locked_keep
    (placed : cv.Placed)
    (same : control.holdsLock = (cv.control t).holdsLock)
    (t' : τ) :
    (Function.update cv.control t control t').holdsLock = true ↔
      cv.waitsetLock = some t' := by
  rcases eq_or_ne t' t with rfl | apart
  · rw [Function.update_self, same]
    exact placed.locked t'
  · rw [Function.update_of_ne apart]
    exact placed.locked t'

theorem locked_acquire
    (placed : cv.Placed)
    (free : cv.waitsetLock = none)
    (holds : control.holdsLock = true)
    (t' : τ) :
    (Function.update cv.control t control t').holdsLock = true ↔
      some t = some t' := by
  rcases eq_or_ne t' t with rfl | apart
  · rw [Function.update_self]
    exact iff_of_true holds rfl
  · rw [Function.update_of_ne apart, Option.some.injEq]
    exact iff_of_false (placed.unlocked free t') (Ne.symm apart)

theorem locked_release
    (placed : cv.Placed)
    (holder : (cv.control t).holdsLock = true)
    (releases : control.holdsLock = false)
    (t' : τ) :
    (Function.update cv.control t control t').holdsLock = true ↔
      none = some t' := by
  rcases eq_or_ne t' t with rfl | apart
  · rw [Function.update_self, releases]
    exact iff_of_false Bool.false_ne_true nofun
  · rw [Function.update_of_ne apart]
    exact iff_of_false (placed.others_unlocked holder apart) nofun

theorem awake_update
    (placed : cv.Placed)
    (alive : cv.state t ≠ .init)
    (t' : τ)
    (inCall : Function.update cv.control t control t' ≠ .own) :
    cv.state t' ≠ .init := by
  rcases eq_or_ne t' t with rfl | apart
  · exact alive
  · rw [Function.update_of_ne apart] at inCall
    exact placed.awake t' inCall

theorem awake_setState
    {state : ThreadState}
    {thread : τ}
    (placed : cv.Placed)
    (inCall : cv.control t ≠ .own)
    (alive : state ≠ .init)
    (t' : τ)
    (inCall' : Function.update cv.control t control t' ≠ .own) :
    Function.update cv.state thread state t' ≠ .init := by
  rcases eq_or_ne t' thread with rfl | apart
  · rwa [Function.update_self]
  · rw [Function.update_of_ne apart]
    exact placed.awake_update (placed.awake t inCall) t' inCall'

end Locks

/-! ### One lemma for each step -/

omit [DecidableEq α] [DecidableEq τ] [DecidableEq μ] in
theorem keeps_of_eq
    (sameSet : after.set = cv.set)
    (sameWaiters : after.waiters = cv.waiters)
    (sameArrivals : after.log.arrivals = cv.log.arrivals)
    (sameRemovals : after.log.removals = cv.log.removals)
    (sameReturned : after.log.returned = cv.log.returned) :
    cv.Keeps after := by
  refine ⟨sameSet, fun w => ?_, sameArrivals, sameRemovals, sameReturned⟩
  rw [sameWaiters]
  exact .refl _

omit [DecidableEq α] [DecidableEq τ] [DecidableEq μ] in
theorem apart
    {mutexes : μ → Option τ}
    {state : τ → ThreadState}
    (placed : cv.Placed)
    (awake : ∀ t, cv.control t ≠ .own → cv.state t ≠ .init →
      state t ≠ .init) :
    { cv with mutexes := mutexes, state := state }.Placed := by
  have keeps : cv.Keeps { cv with mutexes := mutexes, state := state } :=
    keeps_of_eq rfl rfl rfl rfl rfl
  exact ⟨placed.locked, fun t inCall => awake t inCall (placed.awake t inCall),
    placed.holds, fun t => keeps.threadPlaced (placed.threads t), placed.waking,
    placed.waits, placed.bounded, placed.past⟩

omit [DecidableEq α] in
theorem unlocks
    (placed : cv.Placed)
    (place : cv.control t = .enqueued w mutex) :
    ((cv.mutexUnlock mutex).goto t (.releasing w mutex)).Placed := by
  have inCall : cv.control t ≠ .own := by simp [place]
  apply placed.of_move (t := t) (.releasing w mutex)
  · rfl
  · exact placed.locked_keep (by rw [place]; rfl)
  · exact placed.awake_update (placed.awake t inCall)
  · exact keeps_of_eq rfl rfl rfl rfl rfl
  · rw [place]
    constructor <;> first | rfl | exact nofun

omit [DecidableEq α] [DecidableEq μ] in
theorem sleeps
    (placed : cv.Placed)
    (place : cv.control t = .releasing w mutex) :
    (cv.sleepReleasing t w mutex).Placed := by
  have inCall : cv.control t ≠ .own := by simp [place]
  apply placed.of_move (t := t) (.asleep w mutex)
  · rfl
  · exact placed.locked_release (by rw [place]; rfl) rfl
  · exact placed.awake_setState inCall (by simp)
  · exact keeps_of_eq rfl rfl rfl rfl rfl
  · rw [place]
    constructor <;> first | rfl | exact nofun

omit [DecidableEq α] [DecidableEq μ] in
theorem signals
    {all : Bool}
    (placed : cv.Placed)
    (running : cv.state t = .running)
    (place : cv.control t = .own) :
    (cv.goto t (.signalling all)).Placed := by
  apply placed.of_move (t := t) (.signalling all)
  · rfl
  · exact placed.locked_keep (by rw [place]; rfl)
  · exact placed.awake_update (by simp [running])
  · exact keeps_of_eq rfl rfl rfl rfl rfl
  · rw [place]
    constructor <;> first | rfl | exact nofun

omit [DecidableEq α] [DecidableEq μ] in
theorem opens
    {all : Bool}
    (placed : cv.Placed)
    (place : cv.control t = .signalling all)
    (free : cv.waitsetLock = none) :
    (cv.openSignal t all).Placed := by
  have inCall : cv.control t ≠ .own := by simp [place]
  apply placed.of_move (t := t) (.scanning all)
  · rfl
  · exact placed.locked_acquire free rfl
  · exact placed.awake_update (placed.awake t inCall)
  · exact keeps_of_eq rfl rfl rfl rfl rfl
  · rw [place]
    constructor <;> first | rfl | exact nofun

omit [DecidableEq α] [DecidableEq μ] in
theorem ends
    {all : Bool}
    (placed : cv.Placed)
    (place : cv.control t = .scanning all) :
    (cv.goto t (.unlocking all)).Placed := by
  have inCall : cv.control t ≠ .own := by simp [place]
  apply placed.of_move (t := t) (.unlocking all)
  · rfl
  · exact placed.locked_keep (by rw [place]; rfl)
  · exact placed.awake_update (placed.awake t inCall)
  · exact keeps_of_eq rfl rfl rfl rfl rfl
  · rw [place]
    constructor <;> first | rfl | exact nofun

omit [DecidableEq α] [DecidableEq μ] in
theorem closes
    {all : Bool}
    (placed : cv.Placed)
    (place : cv.control t = .unlocking all) :
    (cv.closeSignal t).Placed := by
  have inCall : cv.control t ≠ .own := by simp [place]
  apply placed.of_move (t := t) .own
  · rfl
  · exact placed.locked_release (by rw [place]; rfl) rfl
  · exact placed.awake_update (placed.awake t inCall)
  · exact keeps_of_eq rfl rfl rfl rfl rfl
  · rw [place]
    constructor <;> first | rfl | exact nofun

omit [DecidableEq μ] in
theorem wakes
    {all : Bool}
    (placed : cv.Placed)
    (place : cv.control t = .waking all w) :
    (cv.wakeWaiter t all w).Placed := by
  have inCall : cv.control t ≠ .own := by simp [place]
  by_cases sleeps : cv.state (cv.waiters w).thread = .stopped ∨
      cv.state (cv.waiters w).thread = .init
  · rw [wakeWaiter_of_sleeping sleeps]
    apply placed.of_move (t := t)
      (if all then .scanning all else .unlocking all)
    · rfl
    · exact placed.locked_keep (by rw [place]; cases all <;> rfl)
    · exact placed.awake_setState inCall (by simp)
    · exact ⟨rfl, agrees_update ⟨rfl, rfl, rfl⟩, rfl, rfl, rfl⟩
    · rw [place]
      constructor <;> cases all <;> first | rfl | exact nofun
  · rw [wakeWaiter_of_awake sleeps]
    apply placed.of_move (t := t) (.scanning all)
    · rfl
    · exact placed.locked_keep (by rw [place]; rfl)
    · exact placed.awake_update (placed.awake t inCall)
    · exact keeps_of_eq rfl rfl rfl rfl rfl
    · rw [place]
      constructor <;> first | rfl | exact nofun

omit [DecidableEq μ] in
theorem begins
    (placed : cv.Placed)
    (running : cv.state t = .running)
    (place : cv.control t = .own)
    (unused : ∀ t', (cv.control t').waiter ≠ some w) :
    (cv.cvWait t w mutex).Placed := by
  have absent : w ∉ cv.log.waiters := by
    intro member
    obtain ⟨t', queued, _⟩ := placed.queued_of_mem member
    exact unused t' (CvControl.waiter_of_queued queued)
  have others : ∀ {t' : τ} {w' : α}, (cv.control t').waiter = some w' →
      w' ≠ w := by
    rintro t' w' isWaiter rfl
    exact unused t' isWaiter
  have sleeps : ∀ {t'}, (cv.control t').waiter ≠ none → t' ≠ t := by
    rintro t' hasWaiter rfl
    rw [place] at hasWaiter
    exact hasWaiter rfl
  constructor
  case locked => exact placed.locked_keep (by rw [place]; rfl)
  case awake => exact placed.awake_update (by simp [running])
  case holds => exact placed.holds.initNode absent
  case threads =>
      intro t'
      rcases eq_or_ne t' t with rfl | apart
      · simp only [cvWait, goto, modifyWaiter, Function.update_self]
        constructor
        case owner =>
          intro w' isWaiter
          cases isWaiter
          exact ⟨by simp, Waitset.initNode_obj_self cv.set w⟩
        case fresh =>
          intro w' mutex' locking
          cases locking
          exact ⟨Waitset.alone_initNode cv.set w, by simp⟩
        all_goals (intros; rename_i impossible; cases impossible)
      · simp only [cvWait, goto, modifyWaiter, Function.update_of_ne apart]
        apply (placed.threads t').frame
        · intro w' isWaiter
          simp only [Function.update_of_ne (others isWaiter)]
          exact .refl _
        · intro w' isWaiter
          rw [Waitset.initNode_of_ne (others isWaiter)]
        · intro w' mutex' locking alone
          have isWaiter : (cv.control t').waiter = some w' := by
            rw [locking]
            rfl
          exact alone.initNode (others isWaiter)
        · exact fun _ _ => id
        · exact fun _ _ => Iff.rfl
        · exact fun _ _ => id
  case waking =>
      intro t' all w' waking
      rcases eq_or_ne t' t with rfl | apart
      · simp [cvWait, goto] at waking
      · simp only [cvWait, goto, modifyWaiter, Function.update_of_ne apart] at waking ⊢
        obtain ⟨removed, sleeper, mutex', asleep⟩ := placed.waking t' all w' waking
        have isWaiter : (cv.control sleeper).waiter = some w' := by
          rw [asleep]
          rfl
        rw [Function.update_of_ne (others isWaiter)]
        refine ⟨removed, sleeper, mutex', ?_⟩
        rw [Function.update_of_ne (sleeps (by simp [isWaiter]))]
        exact asleep
  case waits =>
      intro call w' arrival notRemoved
      obtain ⟨t', queued, isCall⟩ := placed.waits call w' arrival notRemoved
      have isWaiter := CvControl.waiter_of_queued queued
      refine ⟨t', ?_, ?_⟩
      · have apart : t' ≠ t := sleeps (by simp [isWaiter])
        simpa only [cvWait, goto, modifyWaiter, Function.update_of_ne apart]
          using queued
      · simpa only [cvWait, goto, modifyWaiter,
          Function.update_of_ne (others isWaiter)] using isCall
  case bounded => exact placed.bounded
  case past => exact placed.past

omit [DecidableEq μ] in
theorem enqueues
    (placed : cv.Placed)
    (place : cv.control t = .locking w mutex)
    (free : cv.waitsetLock = none) :
    (cv.enqueue t w mutex).Placed := by
  have inCall : cv.control t ≠ .own := by simp [place]
  have isWaiter : (cv.control t).waiter = some w := by rw [place]; rfl
  have absent : w ∉ cv.log.waiters :=
    placed.not_mem_of_not_queued isWaiter (by rw [place]; rfl)
  obtain ⟨alone, notRemoved⟩ := (placed.threads t).fresh w mutex place
  have new : cv.log.arrivals.length ∉ cv.log.removals := fun member =>
    absurd (placed.bounded _ member) (lt_irrefl _)
  constructor
  case locked => exact placed.locked_acquire free rfl
  case awake => exact placed.awake_update (placed.awake t inCall)
  case holds =>
      have waiters : (cv.log.arrive w).waiters = cv.log.waiters ++ [w] := by
        rw [CvLog.waiters, CvLog.present_arrive placed.bounded, List.map_append]
        rfl
      simp only [enqueue, goto, modifyWaiter]
      rw [waiters]
      exact placed.holds.pushBack alone absent
  case threads =>
      intro t'
      rcases eq_or_ne t' t with rfl | apart
      · simp only [enqueue, goto, modifyWaiter, Function.update_self]
        constructor
        case owner =>
          intro w' isWaiter'
          cases isWaiter'
          simpa using (placed.threads t').owner w isWaiter
        case arrived =>
          intro w' arrived
          cases arrived
          simp only [CvLog.arrive, Function.update_self]
          exact ⟨List.getElem?_concat_length, fun member =>
            new (placed.past _ member)⟩
        case removed =>
          intro w' queued
          cases queued
          simp only [CvLog.arrive, Function.update_self]
          exact iff_of_false new (by simp [notRemoved])
        all_goals (intros; rename_i impossible; cases impossible)
      · simp only [enqueue, goto, modifyWaiter, Function.update_of_ne apart]
        apply (placed.threads t').frame
        · intro w' isWaiter'
          simp only [Function.update_of_ne
            (placed.waiter_ne apart isWaiter isWaiter')]
          exact .refl _
        · intro w' _
          rw [Waitset.pushBack_obj]
        · intro w' mutex' locking alone'
          have isWaiter' : (cv.control t').waiter = some w' := by
            rw [locking]
            rfl
          exact Waitset.Alone.pushBack placed.holds alone alone'
            (placed.waiter_ne apart isWaiter isWaiter')
            (placed.not_mem_of_not_queued isWaiter' (by rw [locking]; rfl))
        · intro call w' arrival
          simp only [CvLog.arrive]
          rw [List.getElem?_append_left (List.getElem?_eq_some_iff.mp arrival).1]
          exact arrival
        · exact fun _ _ => Iff.rfl
        · exact fun _ _ => id
  case waking =>
      intro t' all w' waking
      rcases eq_or_ne t' t with rfl | apart
      · simp [enqueue, goto] at waking
      · simp only [enqueue, goto, modifyWaiter, Function.update_of_ne apart] at waking
        exact absurd (by rw [waking]; rfl) (placed.unlocked free t')
  case waits =>
      intro call w' arrival notRemoved
      simp only [enqueue, goto, modifyWaiter, CvLog.arrive] at arrival notRemoved ⊢
      rcases eq_or_ne call cv.log.arrivals.length with rfl | earlier
      · rw [List.getElem?_concat_length] at arrival
        cases arrival
        exact ⟨t, by rw [Function.update_self]; rfl, by rw [Function.update_self]⟩
      · have inside := (List.getElem?_eq_some_iff.mp arrival).1
        rw [List.length_append, List.length_singleton] at inside
        rw [List.getElem?_append_left (by omega)] at arrival
        obtain ⟨t', queued, isCall⟩ := placed.waits call w' arrival notRemoved
        have apart : t' ≠ t := by
          rintro rfl
          rw [place] at queued
          cases queued
        refine ⟨t', by rwa [Function.update_of_ne apart], ?_⟩
        rwa [Function.update_of_ne (placed.waiter_ne apart isWaiter
          (CvControl.waiter_of_queued queued))]
  case bounded =>
      intro call member
      have earlier := placed.bounded call member
      simp only [enqueue, goto, modifyWaiter, CvLog.arrive, List.length_append,
        List.length_singleton]
      omega
  case past => exact placed.past

omit [DecidableEq α] [DecidableEq μ] in
theorem finds
    (placed : cv.Placed)
    (place : cv.control t = .asleep w mutex)
    (free : cv.waitsetLock = none)
    (removed : (cv.waiters w).removed = true) :
    (cv.goto t (.relocking w mutex)).Placed := by
  have inCall : cv.control t ≠ .own := by simp [place]
  have queued : (cv.control t).queued = some w := by rw [place]; rfl
  have isGone := ((placed.threads t).removed w queued).mpr removed
  have keeps : cv.Keeps (cv.goto t (.relocking w mutex)) :=
    keeps_of_eq rfl rfl rfl rfl rfl
  constructor
  case locked => exact placed.locked_keep (by rw [place]; rfl)
  case awake => exact placed.awake_update (placed.awake t inCall)
  case holds => exact placed.holds
  case threads =>
      intro t'
      apply keeps.threadPlaced
      rcases eq_or_ne t' t with rfl | apart
      · simp only [goto, Function.update_self]
        constructor
        case owner =>
          intro w' isWaiter
          cases isWaiter
          exact (placed.threads t').owner w (CvControl.waiter_of_queued queued)
        case arrived =>
          intro w' arrived
          cases arrived
          exact (placed.threads t').arrived w (CvControl.arrived_of_queued queued)
        case gone =>
          intro w' mutex' relocking
          cases relocking
          exact isGone
        all_goals (intros; rename_i impossible; cases impossible)
      · simp only [goto, Function.update_of_ne apart]
        exact placed.threads t'
  case waking =>
      intro t' all w' waking
      rcases eq_or_ne t' t with rfl | apart
      · simp [goto] at waking
      · simp only [goto, Function.update_of_ne apart] at waking
        exact absurd (by rw [waking]; rfl) (placed.unlocked free t')
  case waits =>
      intro call w' arrival notRemoved
      obtain ⟨t', queued', isCall⟩ := placed.waits call w' arrival notRemoved
      refine ⟨t', ?_, isCall⟩
      simp only [goto]
      rw [Function.update_of_ne]
      · exact queued'
      · rintro rfl
        rw [queued, Option.some.injEq] at queued'
        subst queued'
        rw [← isCall] at notRemoved
        exact notRemoved isGone
  case bounded => exact placed.bounded
  case past => exact placed.past

omit [DecidableEq α] in
theorem returns
    (placed : cv.Placed)
    (place : cv.control t = .relocking w mutex) :
    (cv.returnFrom t w mutex).Placed := by
  have inCall : cv.control t ≠ .own := by simp [place]
  have arrived : (cv.control t).arrived = some w := by rw [place]; rfl
  constructor
  case locked => exact placed.locked_keep (by rw [place]; rfl)
  case awake => exact placed.awake_update (placed.awake t inCall)
  case holds => exact placed.holds
  case threads =>
      intro t'
      rcases eq_or_ne t' t with rfl | apart
      · simp only [returnFrom, goto, Function.update_self]
        exact .of_none rfl
      · simp only [returnFrom, goto, mutexLock, Function.update_of_ne apart]
        apply (placed.threads t').frame
        · exact fun _ _ => .refl _
        · exact fun _ _ => rfl
        · exact fun _ _ _ => id
        · exact fun _ _ => id
        · exact fun _ _ => Iff.rfl
        · intro w' arrived' member
          simp only [CvLog.record, List.map_append, List.map_singleton,
            List.mem_append, List.mem_singleton] at member
          exact member.resolve_right (placed.call_ne apart arrived arrived')
  case waking =>
      intro t' all w' waking
      rcases eq_or_ne t' t with rfl | apart
      · simp [returnFrom, goto] at waking
      · simp only [returnFrom, goto, mutexLock, Function.update_of_ne apart]
          at waking ⊢
        obtain ⟨removed, sleeper, mutex', asleep⟩ := placed.waking t' all w' waking
        refine ⟨removed, sleeper, mutex', ?_⟩
        rw [Function.update_of_ne]
        · exact asleep
        · rintro rfl
          rw [place] at asleep
          cases asleep
  case waits =>
      intro call w' arrival notRemoved
      obtain ⟨t', queued, isCall⟩ := placed.waits call w' arrival notRemoved
      refine ⟨t', ?_, isCall⟩
      simp only [returnFrom, goto, mutexLock]
      rw [Function.update_of_ne]
      · exact queued
      · rintro rfl
        rw [place] at queued
        cases queued
  case bounded => exact placed.bounded
  case past =>
      intro call member
      simp only [returnFrom, goto, mutexLock, CvLog.record, List.map_append,
        List.map_singleton, List.mem_append, List.mem_singleton] at member ⊢
      rcases member with earlier | rfl
      · exact placed.past call earlier
      · exact (placed.threads t).gone w mutex place

omit [DecidableEq τ] [DecidableEq μ] in
/-- Removing a waiter that is on the ring. -/
theorem holds_removeFromRing
    (placed : cv.Placed)
    (queued : (cv.control t).queued = some w)
    (notRemoved : (cv.waiters w).call ∉ cv.log.removals) :
    (cv.set.removeFromRing w).Holds
      (cv.log.remove (cv.waiters w).call).waiters := by
  obtain ⟨before, later, split⟩ := placed.split queued notRemoved
  have holds := placed.holds
  have keys := placed.keys
  rw [CvLog.waiters, split, List.map_append, List.map_cons] at holds keys
  rw [CvLog.waiters, CvLog.present_remove split, List.map_append]
  exact holds.removeFromRing keys

omit [DecidableEq τ] [DecidableEq μ] in
theorem alone_removeFromRing
    {other : α}
    (placed : cv.Placed)
    (queued : (cv.control t).queued = some w)
    (notRemoved : (cv.waiters w).call ∉ cv.log.removals)
    (alone : cv.set.Alone other)
    (absent : other ∉ cv.log.waiters) :
    (cv.set.removeFromRing w).Alone other := by
  obtain ⟨before, later, split⟩ := placed.split queued notRemoved
  have holds := placed.holds
  rw [CvLog.waiters, split, List.map_append, List.map_cons] at holds absent
  exact alone.removeFromRing holds absent

omit [DecidableEq τ] [DecidableEq μ] in
/-- The removal of a waiter, seen by a thread that it does not belong to. -/
theorem thread_removed
    (placed : cv.Placed)
    (queued : (cv.control t).queued = some w)
    (notRemoved : (cv.waiters w).call ∉ cv.log.removals)
    (sameSet : after.set = cv.set.removeFromRing w)
    (sameWaiters : ∀ w' ≠ w, after.waiters w' = cv.waiters w')
    (sameLog : after.log = cv.log.remove (cv.waiters w).call)
    (apart : t' ≠ t) :
    after.ThreadPlaced t' (cv.control t') := by
  have isWaiter := CvControl.waiter_of_queued queued
  apply (placed.threads t').frame
  · intro w' isWaiter'
    rw [sameWaiters w' (placed.waiter_ne apart isWaiter isWaiter')]
    exact .refl _
  · intro w' _
    rw [sameSet, Waitset.removeFromRing_obj]
  · intro w' mutex' locking alone
    rw [sameSet]
    apply placed.alone_removeFromRing queued notRemoved alone
    exact placed.not_mem_of_not_queued (t := t') (by rw [locking]; rfl)
      (by rw [locking]; rfl)
  · intro call w' arrival
    rwa [sameLog]
  · intro w' arrived
    rw [sameLog, CvLog.remove, List.mem_cons]
    exact or_iff_right (placed.call_ne apart
      (CvControl.arrived_of_queued queued) arrived)
  · intro w' _ member
    rwa [sameLog] at member

omit [DecidableEq μ] in
theorem leaves
    (placed : cv.Placed)
    (place : cv.control t = .asleep w mutex)
    (free : cv.waitsetLock = none)
    (removed : (cv.waiters w).removed = false) :
    ((cv.removeFromRing w).goto t (.relocking w mutex)).Placed := by
  have inCall : cv.control t ≠ .own := by simp [place]
  have queued : (cv.control t).queued = some w := by rw [place]; rfl
  have notRemoved : (cv.waiters w).call ∉ cv.log.removals := by
    rw [(placed.threads t).removed w queued, removed]
    exact Bool.false_ne_true
  obtain ⟨arrival, inProgress⟩ :=
    (placed.threads t).arrived w (CvControl.arrived_of_queued queued)
  constructor
  case locked => exact placed.locked_keep (by rw [place]; rfl)
  case awake => exact placed.awake_update (placed.awake t inCall)
  case holds => exact placed.holds_removeFromRing queued notRemoved
  case threads =>
      intro t'
      rcases eq_or_ne t' t with rfl | apart
      · simp only [goto, removeFromRing, Function.update_self]
        constructor
        case owner =>
          intro w' isWaiter
          cases isWaiter
          rw [Waitset.removeFromRing_obj]
          exact (placed.threads t').owner w (CvControl.waiter_of_queued queued)
        case arrived =>
          intro w' arrived
          cases arrived
          exact ⟨arrival, inProgress⟩
        case gone =>
          intro w' mutex' relocking
          cases relocking
          exact List.mem_cons_self
        all_goals (intros; rename_i impossible; cases impossible)
      · simp only [goto, removeFromRing, Function.update_of_ne apart]
        exact placed.thread_removed queued notRemoved rfl (fun _ _ => rfl) rfl
          apart
  case waking =>
      intro t' all w' waking
      rcases eq_or_ne t' t with rfl | apart
      · simp [goto] at waking
      · simp only [goto, removeFromRing, Function.update_of_ne apart] at waking
        exact absurd (by rw [waking]; rfl) (placed.unlocked free t')
  case waits =>
      intro call w' arrival' notGone
      simp only [goto, removeFromRing, CvLog.remove, List.mem_cons, not_or]
        at arrival' notGone ⊢
      obtain ⟨t', queued', isCall⟩ := placed.waits call w' arrival' notGone.2
      refine ⟨t', ?_, isCall⟩
      rw [Function.update_of_ne]
      · exact queued'
      · rintro rfl
        rw [queued, Option.some.injEq] at queued'
        subst queued'
        exact notGone.1 isCall.symm
  case bounded =>
      intro call member
      simp only [goto, removeFromRing, CvLog.remove, List.mem_cons] at member ⊢
      rcases member with rfl | earlier
      · exact (List.getElem?_eq_some_iff.mp arrival).1
      · exact placed.bounded call earlier
  case past => exact fun call member => List.mem_cons_of_mem _ (placed.past call member)

omit [DecidableEq α] [DecidableEq τ] [DecidableEq μ] in
/-- The waiter that `waitset` points to is on the ring, and its thread sleeps
while the wait set is locked. -/
theorem oldest_asleep
    {all : Bool}
    (placed : cv.Placed)
    (place : cv.control t = .scanning all)
    (oldest : cv.set.waitset = some w) :
    (cv.waiters w).call ∉ cv.log.removals ∧
      ∃ t' mutex, t' ≠ t ∧ cv.control t' = .asleep w mutex := by
  have member : w ∈ cv.log.waiters := by
    rw [placed.holds.oldest] at oldest
    exact List.mem_of_head? oldest
  obtain ⟨t', queued, notRemoved⟩ := placed.queued_of_mem member
  have apart : t' ≠ t := by
    rintro rfl
    rw [place] at queued
    cases queued
  have holder : (cv.control t).holdsLock = true := by rw [place]; rfl
  obtain ⟨mutex, asleep⟩ := CvControl.asleep_of_queued queued
    (placed.others_unlocked holder apart)
  exact ⟨notRemoved, t', mutex, apart, asleep⟩

omit [DecidableEq μ] in
theorem takes
    {all : Bool}
    (placed : cv.Placed)
    (place : cv.control t = .scanning all)
    (oldest : cv.set.waitset = some w) :
    (cv.takeWaiter t all w).Placed := by
  have inCall : cv.control t ≠ .own := by simp [place]
  obtain ⟨notRemoved, sleeper, mutex, sleeps, asleep⟩ :=
    placed.oldest_asleep place oldest
  have queued : (cv.control sleeper).queued = some w := by rw [asleep]; rfl
  obtain ⟨arrival, inProgress⟩ :=
    (placed.threads sleeper).arrived w (CvControl.arrived_of_queued queued)
  have sameCall : ∀ w', (Function.update cv.waiters w
      { cv.waiters w with removed := true } w').call = (cv.waiters w').call := by
    intro w'
    rcases eq_or_ne w' w with rfl | different
    · rw [Function.update_self]
    · rw [Function.update_of_ne different]
  constructor
  case locked => exact placed.locked_keep (by rw [place]; rfl)
  case awake => exact placed.awake_update (placed.awake t inCall)
  case holds => exact placed.holds_removeFromRing queued notRemoved
  case threads =>
      intro t'
      rcases eq_or_ne t' t with rfl | apart
      · simp only [takeWaiter, goto, Function.update_self]
        exact .of_none rfl
      · simp only [takeWaiter, goto, modifyWaiter, removeFromRing,
          Function.update_of_ne apart]
        rcases eq_or_ne t' sleeper with rfl | different
        · rw [asleep]
          constructor
          case owner =>
            intro w' isWaiter
            cases isWaiter
            simpa using (placed.threads t').owner w
              (CvControl.waiter_of_queued queued)
          case arrived =>
            intro w' arrived
            cases arrived
            simp only [CvLog.remove, Function.update_self]
            exact ⟨arrival, inProgress⟩
          case removed =>
            intro w' queued'
            cases queued'
            simp [CvLog.remove]
          all_goals (intros; rename_i impossible; cases impossible)
        · exact placed.thread_removed queued notRemoved rfl
            (fun w' different => Function.update_of_ne different _ _) rfl
            different
  case waking =>
      intro t' all' w' waking
      rcases eq_or_ne t' t with rfl | apart
      · simp only [takeWaiter, goto, Function.update_self] at waking
        cases waking
        refine ⟨by simp [takeWaiter, goto, modifyWaiter], sleeper, mutex, ?_⟩
        simp only [takeWaiter, goto, modifyWaiter, removeFromRing]
        rw [Function.update_of_ne sleeps]
        exact asleep
      · simp only [takeWaiter, goto, modifyWaiter, removeFromRing,
          Function.update_of_ne apart] at waking
        exact absurd (by rw [waking]; rfl)
          (placed.others_unlocked (t := t) (by rw [place]; rfl) apart)
  case waits =>
      intro call w' arrival' notGone
      simp only [takeWaiter, goto, modifyWaiter, removeFromRing, CvLog.remove,
        List.mem_cons, not_or] at arrival' notGone ⊢
      obtain ⟨t', queued', isCall⟩ := placed.waits call w' arrival' notGone.2
      refine ⟨t', ?_, (sameCall w').trans isCall⟩
      rw [Function.update_of_ne]
      · exact queued'
      · rintro rfl
        rw [place] at queued'
        cases queued'
  case bounded =>
      intro call member
      simp only [takeWaiter, goto, modifyWaiter, removeFromRing, CvLog.remove,
        List.mem_cons] at member ⊢
      rcases member with rfl | earlier
      · exact (List.getElem?_eq_some_iff.mp arrival).1
      · exact placed.bounded call earlier
  case past => exact fun call member => List.mem_cons_of_mem _ (placed.past call member)

/-- The invariant is kept by every step. -/
theorem turn
    (placed : cv.Placed)
    (turn : cv.Turn after) :
    after.Placed := by
  cases turn with
  | apart mutexes state awake => exact placed.apart awake
  | begins running place unused => exact placed.begins running place unused
  | enqueues place free => exact placed.enqueues place free
  | unlocks place => exact placed.unlocks place
  | sleeps place => exact placed.sleeps place
  | finds place free removed => exact placed.finds place free removed
  | leaves place free removed => exact placed.leaves place free removed
  | returns place => exact placed.returns place
  | signals running place => exact placed.signals running place
  | opens place free => exact placed.opens place free
  | takes place oldest => exact placed.takes place oldest
  | ends place _ => exact placed.ends place
  | wakes place => exact placed.wakes place
  | closes place => exact placed.closes place

end Placed

end CondVar
end TinierOS
