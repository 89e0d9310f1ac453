import TinierOS.Old.Waitset
import TinierOS.Sched.Defs
import Mathlib.Data.Fintype.Defs
import Mathlib.Data.Fintype.Basic

/-!
# Condition variables

`cv_wait`, `cv_signal`, `Cond_Signal` and `Cond_Broadcast` of
`old/kernel_cc.c`, for any number of threads that use one condition variable.

A thread is preempted between any two of its steps: at the acquisition of a
mutex, when it goes to sleep, at each call of `wakeup` and when it releases a
mutex.  A mutex that is held is spun on.  `Cond_Wait` and `Cond_TimedWait` are
`cv_wait` with and without a timeout; a thread that sleeps may be made ready at
any time, by its timeout or by another part of the kernel.
-/

namespace TinierOS

/-- `__cv_waiter` without its node, and the number of its call. -/
structure CvWaiter (τ : Type) where
  thread : τ
  signalled : Bool
  removed : Bool
  call : Nat

/-- Where a thread is in the functions of the condition variable; `w` is the
waiter on the stack of `cv_wait` and `mutex` its argument. -/
inductive CvControl (α μ : Type)
  | own
  /-- Before `cv_wait` locks the wait set. -/
  | locking (w : α) (mutex : μ)
  /-- Before `cv_wait` unlocks the mutex. -/
  | enqueued (w : α) (mutex : μ)
  /-- Before `sleep_releasing`. -/
  | releasing (w : α) (mutex : μ)
  /-- In `sleep_releasing`, or woken up and before the wait set is locked again. -/
  | asleep (w : α) (mutex : μ)
  /-- Before the mutex is locked again. -/
  | relocking (w : α) (mutex : μ)
  /-- Before `Cond_Signal`, or `Cond_Broadcast` for `all`, locks the wait set. -/
  | signalling (all : Bool)
  /-- Before the test of `cv->waitset`. -/
  | scanning (all : Bool)
  /-- Before `wakeup`. -/
  | waking (all : Bool) (w : α)
  /-- Before the wait set is unlocked. -/
  | unlocking (all : Bool)
  deriving DecidableEq

namespace CvControl

variable {α μ : Type}

/-- The waiter of the call of `cv_wait` in progress. -/
def waiter : CvControl α μ → Option α
  | .locking w _ | .enqueued w _ | .releasing w _ | .asleep w _
  | .relocking w _ => some w
  | _ => none

/-- The waiter, between its enqueueing and the return of the call. -/
def arrived : CvControl α μ → Option α
  | .enqueued w _ | .releasing w _ | .asleep w _ | .relocking w _ => some w
  | _ => none

/-- The waiter, between its enqueueing and the test of `removed`. -/
def queued : CvControl α μ → Option α
  | .enqueued w _ | .releasing w _ | .asleep w _ => some w
  | _ => none

/-- Whether the thread has locked the wait set. -/
def holdsLock : CvControl α μ → Bool
  | .enqueued _ _ | .releasing _ _ | .scanning _ | .waking _ _
  | .unlocking _ => true
  | _ => false

end CvControl

/-- One call of `wakeup`: the call of `cv_wait` that was tried, and the states
of its thread before and after. -/
structure CvTry where
  call : Nat
  before : ThreadState
  after : ThreadState
  deriving DecidableEq

/-- One call of `Cond_Signal`, or of `Cond_Broadcast` for `all`: the calls that
were waiting when the wait set was locked, those that were tried, those that
were marked as signalled, and those that were waiting when the wait set was
unlocked. -/
structure CvSignal where
  all : Bool
  found : List Nat
  tried : List CvTry
  marked : List Nat
  left : Option (List Nat)
  deriving DecidableEq

/-- What has happened: the waiters in the order of their arrival (the position
is the number of the call), the calls whose waiter has been removed from the
ring, the signals (the latest first) and the results of `cv_wait`. -/
structure CvLog (α : Type) where
  arrivals : List α
  removals : List Nat
  signals : List CvSignal
  returned : List (Nat × Bool)

namespace CvLog

variable {α : Type}

/-- The waiters that have been enqueued and not removed, in the order of their
arrival, with the numbers of their calls. -/
def present (log : CvLog α) : List (α × Nat) :=
  log.arrivals.zipIdx.filter fun arrival => arrival.2 ∉ log.removals

/-- The waiters that have been enqueued and not removed. -/
def waiters (log : CvLog α) : List α :=
  log.present.map Prod.fst

/-- The calls whose waiters have been enqueued and not removed. -/
def calls (log : CvLog α) : List Nat :=
  log.present.map Prod.snd

/-- The calls that some signal has marked. -/
def marked (log : CvLog α) : List Nat :=
  log.signals.flatMap CvSignal.marked

/-- A waiter has been enqueued. -/
def arrive (log : CvLog α) (w : α) : CvLog α :=
  { log with arrivals := log.arrivals ++ [w] }

/-- The waiter of a call has been removed. -/
def remove (log : CvLog α) (call : Nat) : CvLog α :=
  { log with removals := call :: log.removals }

/-- A signal has locked the wait set. -/
def openSignal (log : CvLog α) (all : Bool) : CvLog α :=
  { log with signals := ⟨all, log.calls, [], [], none⟩ :: log.signals }

/-- The current signal has called `wakeup`. -/
def tryWaiter (log : CvLog α) (attempt : CvTry) : CvLog α :=
  { log with
    signals := log.signals.modifyHead fun signal =>
      { signal with tried := signal.tried ++ [attempt] } }

/-- The current signal has set `signalled`. -/
def mark (log : CvLog α) (call : Nat) : CvLog α :=
  { log with
    signals := log.signals.modifyHead fun signal =>
      { signal with marked := signal.marked ++ [call] } }

/-- The current signal has unlocked the wait set. -/
def closeSignal (log : CvLog α) : CvLog α :=
  { log with
    signals := log.signals.modifyHead fun signal =>
      { signal with left := some log.calls } }

/-- A call of `cv_wait` has returned. -/
def record (log : CvLog α) (call : Nat) (signalled : Bool) : CvLog α :=
  { log with returned := log.returned ++ [(call, signalled)] }

end CvLog

/-- The condition variable with its waiters, the mutexes, the threads and the
log. -/
structure CondVar (α τ μ : Type) where
  set : Waitset α
  waiters : α → CvWaiter τ
  waitsetLock : Option τ
  mutexes : μ → Option τ
  state : τ → ThreadState
  control : τ → CvControl α μ
  log : CvLog α

/-- What happens next. -/
inductive CvAction (α τ μ : Type)
  /-- A thread outside of the calls takes a step for a mutex. -/
  | lock (t : τ) (mutex : μ)
  | unlock (t : τ) (mutex : μ)
  /-- A thread calls `Cond_Wait` or `Cond_TimedWait`. -/
  | wait (t : τ) (w : α) (mutex : μ)
  /-- A thread calls `Cond_Signal`, or `Cond_Broadcast` for `all`. -/
  | signal (t : τ) (all : Bool)
  /-- A thread goes on with its call. -/
  | next (t : τ)
  /-- A timeout, or a `wakeup` from elsewhere. -/
  | wake (t : τ)
  | dispatch (t : τ)
  | preempt (t : τ)
  /-- The rest of the kernel changes the state of a thread outside of the
  calls. -/
  | other (t : τ) (state : ThreadState)

/-- `assert(! waiter.signalled)` -/
inductive CvFault
  | assertNotSignalled
  deriving DecidableEq

namespace CondVar

variable {α τ μ : Type} [DecidableEq α] [DecidableEq τ] [DecidableEq μ]

/-- The thread goes to another point of its call. -/
def goto
    (cv : CondVar α τ μ)
    (t : τ)
    (control : CvControl α μ) : CondVar α τ μ :=
  { cv with control := Function.update cv.control t control }

/-- A spin lock that is acquired. -/
def mutexLock (cv : CondVar α τ μ) (t : τ) (mutex : μ) : CondVar α τ μ :=
  { cv with mutexes := Function.update cv.mutexes mutex (some t) }

/-- `Mutex_Unlock` -/
def mutexUnlock (cv : CondVar α τ μ) (mutex : μ) : CondVar α τ μ :=
  { cv with mutexes := Function.update cv.mutexes mutex none }

/-- The state of a thread changes. -/
def setState
    (cv : CondVar α τ μ)
    (t : τ)
    (state : ThreadState) : CondVar α τ μ :=
  { cv with state := Function.update cv.state t state }

/-- A field of a waiter changes. -/
def modifyWaiter
    (cv : CondVar α τ μ)
    (w : α)
    (change : CvWaiter τ → CvWaiter τ) : CondVar α τ μ :=
  { cv with waiters := Function.update cv.waiters w (change (cv.waiters w)) }

/-- `wakeup`: whether the thread was made ready. -/
def wakeup (cv : CondVar α τ μ) (t : τ) : CondVar α τ μ × Bool :=
  if cv.state t = .stopped ∨ cv.state t = .init then
    (cv.setState t .ready, true)
  else (cv, false)

/-- The call of `cv_wait`: the waiter is initialised. -/
def cvWait (cv : CondVar α τ μ) (t : τ) (w : α) (mutex : μ) : CondVar α τ μ :=
  let cv := cv.modifyWaiter w fun waiter =>
    { waiter with thread := t, signalled := false, removed := false }
  { cv with set := cv.set.initNode w }.goto t (.locking w mutex)

/-- `cv_wait` has locked the wait set: the waiter is enqueued. -/
def enqueue (cv : CondVar α τ μ) (t : τ) (w : α) (mutex : μ) : CondVar α τ μ :=
  let cv := cv.modifyWaiter w fun waiter =>
    { waiter with call := cv.log.arrivals.length }
  { cv with
    set := cv.set.pushBack w
    waitsetLock := some t
    log := cv.log.arrive w }.goto t (.enqueued w mutex)

/-- `sleep_releasing(STOPPED, &(cv->waitset_lock), …)` up to the context
switch. -/
def sleepReleasing
    (cv : CondVar α τ μ)
    (t : τ)
    (w : α)
    (mutex : μ) : CondVar α τ μ :=
  { cv.setState t .stopped with waitsetLock := none }.goto t (.asleep w mutex)

/-- `remove_from_ring` -/
def removeFromRing (cv : CondVar α τ μ) (w : α) : CondVar α τ μ :=
  { cv with
    set := cv.set.removeFromRing w
    log := cv.log.remove (cv.waiters w).call }

/-- `cv_wait` has locked the wait set after the sleep: the waiter removes itself
unless a signal has done so, and the wait set is unlocked. -/
def tidyUp
    (cv : CondVar α τ μ)
    (t : τ)
    (w : α)
    (mutex : μ) : Except CvFault (CondVar α τ μ) :=
  if (cv.waiters w).removed then .ok (cv.goto t (.relocking w mutex))
  else if (cv.waiters w).signalled then .error .assertNotSignalled
  else .ok ((cv.removeFromRing w).goto t (.relocking w mutex))

/-- `cv_wait` has locked the mutex again and returns. -/
def returnFrom
    (cv : CondVar α τ μ)
    (t : τ)
    (w : α)
    (mutex : μ) : CondVar α τ μ :=
  { cv.mutexLock t mutex with
    log := cv.log.record (cv.waiters w).call (cv.waiters w).signalled }.goto
      t .own

/-- `Cond_Signal` or `Cond_Broadcast` has locked the wait set. -/
def openSignal (cv : CondVar α τ μ) (t : τ) (all : Bool) : CondVar α τ μ :=
  { cv with
    waitsetLock := some t
    log := cv.log.openSignal all }.goto t (.scanning all)

/-- The body of the loop of `cv_signal`, before `wakeup`. -/
def takeWaiter
    (cv : CondVar α τ μ)
    (t : τ)
    (all : Bool)
    (w : α) : CondVar α τ μ :=
  let cv := cv.removeFromRing w
  let cv := cv.modifyWaiter w fun waiter => { waiter with removed := true }
  cv.goto t (.waking all w)

/-- `wakeup(waiter->thread)` and what follows it in `cv_signal`: a waiter that
was woken is marked, which ends a `Cond_Signal`. -/
def wakeWaiter
    (cv : CondVar α τ μ)
    (t : τ)
    (all : Bool)
    (w : α) : CondVar α τ μ :=
  let waiter := cv.waiters w
  let woken := cv.wakeup waiter.thread
  let attempt : CvTry :=
    ⟨waiter.call, cv.state waiter.thread, woken.1.state waiter.thread⟩
  let cv := { woken.1 with log := woken.1.log.tryWaiter attempt }
  if woken.2 then
    let cv := cv.modifyWaiter w fun waiter => { waiter with signalled := true }
    { cv with log := cv.log.mark waiter.call }.goto t
      (if all then .scanning all else .unlocking all)
  else cv.goto t (.scanning all)

/-- The wait set is unlocked and the call returns. -/
def closeSignal (cv : CondVar α τ μ) (t : τ) : CondVar α τ μ :=
  { cv with waitsetLock := none, log := cv.log.closeSignal }.goto t .own

/-- A thread goes on with its call, up to its next step; it spins on a lock
that is held. -/
def next (cv : CondVar α τ μ) (t : τ) : Except CvFault (CondVar α τ μ) :=
  match cv.control t with
  | .own => .ok cv
  | .locking w mutex =>
      if cv.waitsetLock = none then .ok (cv.enqueue t w mutex) else .ok cv
  | .enqueued w mutex =>
      .ok ((cv.mutexUnlock mutex).goto t (.releasing w mutex))
  | .releasing w mutex => .ok (cv.sleepReleasing t w mutex)
  | .asleep w mutex =>
      if cv.waitsetLock = none then cv.tidyUp t w mutex else .ok cv
  | .relocking w mutex =>
      if cv.mutexes mutex = none then .ok (cv.returnFrom t w mutex) else .ok cv
  | .signalling all =>
      if cv.waitsetLock = none then .ok (cv.openSignal t all) else .ok cv
  | .scanning all =>
      match cv.set.waitset with
      | some w => .ok (cv.takeWaiter t all w)
      | none => .ok (cv.goto t (.unlocking all))
  | .waking all w => .ok (cv.wakeWaiter t all w)
  | .unlocking _ => .ok (cv.closeSignal t)

/-- One step. -/
def step
    (cv : CondVar α τ μ) :
    CvAction α τ μ → Except CvFault (CondVar α τ μ)
  | .lock t mutex =>
      if cv.mutexes mutex = none then .ok (cv.mutexLock t mutex) else .ok cv
  | .unlock _ mutex => .ok (cv.mutexUnlock mutex)
  | .wait t w mutex => .ok (cv.cvWait t w mutex)
  | .signal t all => .ok (cv.goto t (.signalling all))
  | .next t => cv.next t
  | .wake t => .ok (cv.wakeup t).1
  | .dispatch t => .ok (cv.setState t .running)
  | .preempt t => .ok (cv.setState t .ready)
  | .other t state => .ok (cv.setState t state)

/-- Only a running thread takes steps, a call is made from outside of the calls,
and the waiter on its stack is not that of another call in progress. -/
def Allowed (cv : CondVar α τ μ) : CvAction α τ μ → Prop
  | .lock t _ => cv.state t = .running ∧ cv.control t = .own
  | .unlock t _ => cv.state t = .running ∧ cv.control t = .own
  | .wait t w _ => cv.state t = .running ∧ cv.control t = .own ∧
      ∀ t', (cv.control t').waiter ≠ some w
  | .signal t _ => cv.state t = .running ∧ cv.control t = .own
  | .next t => cv.state t = .running
  | .wake _ => True
  | .dispatch t => cv.state t = .ready
  | .preempt t => cv.state t = .running
  | .other t _ => cv.control t = .own

instance
    [Fintype τ]
    (cv : CondVar α τ μ)
    (action : CvAction α τ μ) :
    Decidable (cv.Allowed action) :=
  match action with
  | .lock _ _ => inferInstanceAs (Decidable (_ ∧ _))
  | .unlock _ _ => inferInstanceAs (Decidable (_ ∧ _))
  | .wait _ _ _ => inferInstanceAs (Decidable (_ ∧ _ ∧ ∀ _, _ ≠ _))
  | .signal _ _ => inferInstanceAs (Decidable (_ ∧ _))
  | .next _ => inferInstanceAs (Decidable (_ = _))
  | .wake _ => inferInstanceAs (Decidable True)
  | .dispatch _ => inferInstanceAs (Decidable (_ = _))
  | .preempt _ => inferInstanceAs (Decidable (_ = _))
  | .other _ _ => inferInstanceAs (Decidable (_ = _))

/-- A condition variable that has just been initialised, at which no thread is
in a call. -/
def start
    (nodes : RlHeap α α)
    (waiters : α → CvWaiter τ)
    (mutexes : μ → Option τ)
    (state : τ → ThreadState) : CondVar α τ μ where
  set := ⟨nodes, none⟩
  waiters := waiters
  waitsetLock := none
  mutexes := mutexes
  state := state
  control := fun _ => .own
  log := ⟨[], [], [], []⟩

end CondVar
end TinierOS
