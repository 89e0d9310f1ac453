import TinierOS.Library.Semaphore
import TinierOS.Old.CondVarRuns

/-!
# The kernel lock

`kernel_lock`, `kernel_unlock`, `kernel_wait_wchan` and `kernel_sleep` of
`old/kernel_cc.c`, for any number of threads.  The condition variable is
`kernel_sem_cv`, and its one mutex is `kernel_mutex`.

A thread may be preempted wherever it may be in the condition variable, when it
locks or unlocks `kernel_mutex`, and at the test of `kernel_sem`.  The waitset of
the condition variable of `kernel_wait_wchan` is left out, and when and why the
thread is woken up there is left open, as is what a thread does with the kernel
locked or outside of the kernel, and the states of the thread meanwhile.
-/

namespace TinierOS

/-- The calls that give up the kernel. -/
inductive LockCall
  | unlock
  | wait
  | sleep (newstate : ThreadState)
  deriving DecidableEq

/-- Where a thread is in the functions of the kernel lock. -/
inductive LockPlace
  | outside
  /-- Before `kernel_mutex` is locked by `kernel_lock`, or at the end of the
  `cv_wait` of `kernel_wait_wchan`. -/
  | locking
  /-- Before the test of `kernel_sem`. -/
  | testing
  /-- In `Cond_Wait(&kernel_mutex, &kernel_sem_cv)`. -/
  | waiting
  /-- After `kernel_sem--`. -/
  | taken
  | inside
  /-- Before `kernel_mutex` is locked to give up the kernel. -/
  | releasing (call : LockCall)
  /-- In `Cond_Signal(&kernel_sem_cv)`. -/
  | signalling (call : LockCall)
  /-- Before `kernel_mutex` is unlocked. -/
  | signalled (call : LockCall)
  /-- In the `cv_wait` of `kernel_wait_wchan`, with `kernel_mutex` unlocked. -/
  | away
  deriving DecidableEq

namespace LockPlace

/-- The thread executes code outside of these functions, or sleeps in it. -/
def isFree : LockPlace → Bool
  | .outside | .inside | .away => true
  | _ => false

end LockPlace

/-- `kernel_sem`, `kernel_sem_cv` with `kernel_mutex`, and the threads. -/
structure KernelLock (α τ : Type) where
  sem : Int
  cv : CondVar α τ Unit
  place : τ → LockPlace

/-- What happens next. -/
inductive LockAction (α τ : Type)
  /-- A thread calls `kernel_lock`. -/
  | lock (t : τ)
  /-- A thread that has locked the kernel gives it up. -/
  | release (t : τ) (call : LockCall)
  /-- The `cv_wait` of `kernel_wait_wchan` is about to lock `kernel_mutex`. -/
  | back (t : τ)
  /-- A thread goes on with its call; `w` is the waiter on the stack of
  `Cond_Wait`. -/
  | next (t : τ) (w : α)
  /-- A timeout, or a `wakeup` from elsewhere. -/
  | wake (t : τ)
  | dispatch (t : τ)
  | preempt (t : τ)
  /-- The rest of the kernel changes the state of a thread outside of the
  functions. -/
  | other (t : τ) (state : ThreadState)

namespace KernelLock

variable {α τ : Type} [DecidableEq α] [DecidableEq τ]

/-- The thread goes to another point of its call. -/
def goto
    (lock : KernelLock α τ)
    (t : τ)
    (place : LockPlace) : KernelLock α τ :=
  { lock with place := Function.update lock.place t place }

/-- Something happens to the condition variable or to `kernel_mutex`. -/
def setCv (lock : KernelLock α τ) (cv : CondVar α τ Unit) : KernelLock α τ :=
  { lock with cv := cv }

section SetCv

variable (lock : KernelLock α τ) (cv : CondVar α τ Unit)

omit [DecidableEq α] [DecidableEq τ]

@[simp] theorem setCv_cv : (lock.setCv cv).cv = cv := rfl

@[simp] theorem setCv_place : (lock.setCv cv).place = lock.place := rfl

@[simp] theorem setCv_sem : (lock.setCv cv).sem = lock.sem := rfl

end SetCv

/-- A step of the condition variable, and where the thread is when the call of the
condition variable has returned. -/
def nextCv
    (lock : KernelLock α τ)
    (t : τ)
    (returned : LockPlace) : Except CvFault (KernelLock α τ) :=
  (lock.cv.next t).map fun cv =>
    (lock.setCv cv).goto t
      (if cv.control t = CvControl.own then returned else lock.place t)

/-- A thread goes on with its call, up to its next step; it spins on a mutex that
is locked. -/
def next
    (lock : KernelLock α τ)
    (t : τ)
    (w : α) : Except CvFault (KernelLock α τ) :=
  match lock.place t with
  | .outside | .inside | .away => .ok lock
  | .locking =>
      if lock.cv.mutexes () = none then
        .ok ((lock.setCv (lock.cv.mutexLock t ())).goto t .testing)
      else .ok lock
  | .testing =>
      if lock.sem ≤ 0 then
        .ok ((lock.setCv (lock.cv.cvWait t w ())).goto t .waiting)
      else .ok ({ lock with sem := lock.sem - 1 }.goto t .taken)
  | .waiting => lock.nextCv t .testing
  | .taken => .ok ((lock.setCv (lock.cv.mutexUnlock ())).goto t .inside)
  | .releasing call =>
      if lock.cv.mutexes () = none then
        .ok (({ lock with sem := lock.sem + 1 }.setCv
          ((lock.cv.mutexLock t ()).goto t (.signalling false))).goto t
            (.signalling call))
      else .ok lock
  | .signalling call => lock.nextCv t (.signalled call)
  | .signalled .unlock =>
      .ok ((lock.setCv (lock.cv.mutexUnlock ())).goto t .outside)
  | .signalled .wait =>
      .ok ((lock.setCv (lock.cv.mutexUnlock ())).goto t .away)
  | .signalled (.sleep newstate) =>
      .ok ((lock.setCv
        ((lock.cv.setState t newstate).mutexUnlock ())).goto t .outside)

/-- One step. -/
def step
    (lock : KernelLock α τ) :
    LockAction α τ → Except CvFault (KernelLock α τ)
  | .lock t => .ok (lock.goto t .locking)
  | .release t call => .ok (lock.goto t (.releasing call))
  | .back t => .ok (lock.goto t .locking)
  | .next t w => lock.next t w
  | .wake t => .ok (lock.setCv (lock.cv.wakeup t).1)
  | .dispatch t => .ok (lock.setCv (lock.cv.setState t .running))
  | .preempt t => .ok (lock.setCv (lock.cv.setState t .ready))
  | .other t state => .ok (lock.setCv (lock.cv.setState t state))

/-- Only a running thread takes steps, the kernel is given up by a thread that has
locked it, and the waiter on the stack is not that of another call in progress. -/
def Allowed (lock : KernelLock α τ) : LockAction α τ → Prop
  | .lock t => lock.cv.state t = .running ∧ lock.place t = .outside
  | .release t _ => lock.cv.state t = .running ∧ lock.place t = .inside
  | .back t => lock.cv.state t = .running ∧ lock.place t = .away
  | .next t w => lock.cv.state t = .running ∧
      ∀ t', (lock.cv.control t').waiter = some w → t' = t
  | .wake _ => True
  | .dispatch t => lock.cv.state t = .ready
  | .preempt t => lock.cv.state t = .running
  | .other t _ => (lock.place t).isFree = true

instance
    [Fintype τ]
    (lock : KernelLock α τ)
    (action : LockAction α τ) :
    Decidable (lock.Allowed action) :=
  match action with
  | .lock _ => inferInstanceAs (Decidable (_ ∧ _))
  | .release _ _ => inferInstanceAs (Decidable (_ ∧ _))
  | .back _ => inferInstanceAs (Decidable (_ ∧ _))
  | .next _ _ => inferInstanceAs (Decidable (_ ∧ ∀ _, _ → _))
  | .wake _ => inferInstanceAs (Decidable True)
  | .dispatch _ => inferInstanceAs (Decidable (_ = _))
  | .preempt _ => inferInstanceAs (Decidable (_ = _))
  | .other _ _ => inferInstanceAs (Decidable (_ = _))

/-- `kernel_mutex`, `kernel_sem` and `kernel_sem_cv` as they are initialised, when
no thread is in a call. -/
def start
    (nodes : RlHeap α α)
    (waiters : α → CvWaiter τ)
    (state : τ → ThreadState) : KernelLock α τ where
  sem := 1
  cv := .start nodes waiters (fun _ => none) state
  place := fun _ => .outside

/-- The states of all runs. -/
def Reached (lock : KernelLock α τ) : Prop :=
  ∃ nodes waiters state,
    Reachable step Allowed (start nodes waiters state) lock

/-! ## The semaphore -/

/-- The phase of a thread in `Cond_Wait` or `Cond_Signal`; `thread` is that of a
waiter. -/
def callPhase (thread : α → τ) : CvControl α Unit → SemaphorePhase τ
  | .own => .outside
  | .locking _ _ => .joining
  | .enqueued _ _ => .joined
  | .releasing _ _ => .parking
  | .asleep _ _ => .parked
  | .relocking _ _ => .returning
  | .signalling _ => .notifying
  | .scanning _ => .scanning
  | .waking _ w => .waking (thread w)
  | .unlocking _ => .notified

/-- The phase of a thread. -/
def phaseOf
    (thread : α → τ)
    (place : LockPlace)
    (control : CvControl α Unit) : SemaphorePhase τ :=
  match place with
  | .outside | .away => .outside
  | .locking => .arriving
  | .testing => .testing
  | .waiting | .signalling _ => callPhase thread control
  | .taken => .taken
  | .inside => .inside
  | .releasing _ => .giving
  | .signalled _ => .leaving

/-- Whether `wakeup` would make the thread ready. -/
def asleep (cv : CondVar α τ Unit) (t : τ) : Bool :=
  cv.state t = .stopped ∨ cv.state t = .init

/-- Whether the waiter of the thread is on the ring. -/
def queued (cv : CondVar α τ Unit) (t : τ) : Bool :=
  match (cv.control t).queued with
  | none => false
  | some w => !(cv.waiters w).removed

/-- The semaphore that the kernel lock is. -/
def semaphore (lock : KernelLock α τ) : Semaphore τ where
  count := lock.sem
  mutex := lock.cv.mutexes ()
  queueLock := lock.cv.waitsetLock
  phase := fun t =>
    phaseOf (fun w => (lock.cv.waiters w).thread) (lock.place t)
      (lock.cv.control t)
  asleep := asleep lock.cv
  queued := queued lock.cv

end KernelLock
end TinierOS
