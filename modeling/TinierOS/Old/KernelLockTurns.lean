import TinierOS.Old.KernelLock

/-!
# The kernel lock is a semaphore

Every step at the kernel lock is a step of its condition variable, and turns of
the semaphore whose queue is that condition variable.
-/

namespace TinierOS
namespace KernelLock

variable {α τ : Type} [DecidableEq α] [DecidableEq τ]
variable {lock after : KernelLock α τ}
variable {t : τ}
variable {w : α}

/-- A thread is in a call of the condition variable exactly where the kernel lock
has called it. -/
def Coupled : LockPlace → CvControl α Unit → Prop
  | .waiting, control => control.waiter ≠ none
  | .signalling _, control => control = .signalling false ∨
      control = .scanning false ∨ (∃ w, control = .waking false w) ∨
      control = .unlocking false
  | _, control => control = .own

/-- The condition variable is consistent, and called from the right places. -/
structure Fits (lock : KernelLock α τ) : Prop where
  coupled : ∀ t, Coupled (lock.place t) (lock.cv.control t)
  consistent : lock.cv.Consistent

namespace Fits

omit [DecidableEq α] [DecidableEq τ] in
theorem placed (fits : lock.Fits) : lock.cv.Placed := fits.consistent.1

omit [DecidableEq α] [DecidableEq τ] in
theorem own
    (fits : lock.Fits)
    (notWaiting : lock.place t ≠ .waiting)
    (notSignalling : ∀ call, lock.place t ≠ .signalling call) :
    lock.cv.control t = .own := by
  have coupled := fits.coupled t
  cases place : lock.place t with
  | waiting => exact absurd place notWaiting
  | signalling call => exact absurd place (notSignalling call)
  | _ =>
      rw [place] at coupled
      exact coupled

omit [DecidableEq α] [DecidableEq τ] in
/-- A thread with a waiter is in `Cond_Wait`. -/
theorem waiting
    (fits : lock.Fits)
    (isWaiter : (lock.cv.control t).waiter = some w) :
    lock.place t = .waiting := by
  have coupled := fits.coupled t
  cases place : lock.place t with
  | waiting => rfl
  | signalling call =>
      rw [place] at coupled
      rcases coupled with same | same | ⟨_, same⟩ | same
      all_goals
        rw [same] at isWaiter
        cases isWaiter
  | _ =>
      rw [place] at coupled
      rw [show lock.cv.control t = .own from coupled] at isWaiter
      cases isWaiter

end Fits

/-! ## Turns of the semaphore -/

omit [DecidableEq α] [DecidableEq τ] in
/-- The phase of a thread depends on the waiter that it wakes up, and on no other. -/
theorem callPhase_congr
    {thread thread' : α → τ}
    {control : CvControl α Unit}
    (same : ∀ all w, control = .waking all w → thread' w = thread w) :
    callPhase thread' control = callPhase thread control := by
  cases control with
  | waking all w => simp only [callPhase, same all w rfl]
  | _ => rfl

omit [DecidableEq α] [DecidableEq τ] in
theorem phaseOf_congr
    {thread thread' : α → τ}
    (place : LockPlace)
    {control : CvControl α Unit}
    (same : ∀ all w, control = .waking all w → thread' w = thread w) :
    phaseOf thread' place control = phaseOf thread place control := by
  cases place with
  | waiting | signalling => exact callPhase_congr same
  | _ => rfl

omit [DecidableEq α] in
/-- One thread goes to another phase. -/
theorem semaphore_of_goto
    (lock after : KernelLock α τ)
    (place : LockPlace)
    (control : CvControl α Unit)
    (isPlace : after.place = Function.update lock.place t place)
    (isControl : after.cv.control = Function.update lock.cv.control t control)
    (thread : ∀ t' all w, lock.cv.control t' = .waking all w →
      (after.cv.waiters w).thread = (lock.cv.waiters w).thread) :
    after.semaphore = ({
      count := after.sem
      mutex := after.cv.mutexes ()
      queueLock := after.cv.waitsetLock
      phase := lock.semaphore.phase
      asleep := asleep after.cv
      queued := queued after.cv } : Semaphore τ).goto t
        (phaseOf (fun w => (after.cv.waiters w).thread) place control) := by
  have phases : after.semaphore.phase = Function.update lock.semaphore.phase t
      (phaseOf (fun w => (after.cv.waiters w).thread) place control) := by
    funext t'
    by_cases isThread : t' = t
    · subst isThread
      simp only [semaphore, isPlace, isControl, Function.update_self]
    · simp only [semaphore, isPlace, isControl, Function.update_of_ne isThread]
      exact phaseOf_congr _ (thread t')
  rw [Semaphore.goto, ← phases]
  rfl

variable {cv : CondVar α τ Unit}

omit [DecidableEq α] [DecidableEq τ] in
theorem asleep_of_running
    (running : cv.state t = .running) :
    asleep cv t = false := by
  simp [asleep, running]

omit [DecidableEq α] in
/-- The state of one thread changes. -/
theorem asleep_of_update
    (cv cv' : CondVar α τ Unit)
    (state : ThreadState)
    (changed : cv'.state = Function.update cv.state t state) :
    asleep cv' = Function.update (asleep cv) t
      (decide (state = .stopped ∨ state = .init)) := by
  funext t'
  by_cases isThread : t' = t
  · subst isThread
    simp [asleep, changed]
  · simp [asleep, changed, Function.update_of_ne isThread]

omit [DecidableEq α] in
/-- The waiter of one thread is put on the ring, or taken off it. -/
theorem queued_of_update
    (cv cv' : CondVar α τ Unit)
    (control : CvControl α Unit)
    (isControl : cv'.control = Function.update cv.control t control)
    (removed : ∀ t' w, t' ≠ t → (cv.control t').queued = some w →
      (cv'.waiters w).removed = (cv.waiters w).removed) :
    queued cv' = Function.update (queued cv) t (queued cv' t) := by
  funext t'
  by_cases isThread : t' = t
  · subst isThread
    rw [Function.update_self]
  · rw [Function.update_of_ne isThread]
    simp only [queued, isControl, Function.update_of_ne isThread]
    cases isQueued : (cv.control t').queued with
    | none => rfl
    | some w => simp only [removed t' w isThread isQueued]

omit [DecidableEq α] in
/-- A thread whose waiter stays where it is goes on. -/
theorem queued_of_same
    (cv cv' : CondVar α τ Unit)
    (control : CvControl α Unit)
    (isControl : cv'.control = Function.update cv.control t control)
    (sameWaiter : control.queued = (cv.control t).queued)
    (removed : ∀ w, (cv'.waiters w).removed = (cv.waiters w).removed) :
    queued cv' = queued cv := by
  rw [queued_of_update cv cv' control isControl fun _ w _ _ => removed w]
  have same : queued cv' t = queued cv t := by
    simp only [queued, isControl, Function.update_self, sameWaiter, removed]
  rw [same, Function.update_eq_self]

omit [DecidableEq α] in
/-- A step that leaves the waiters alone. -/
theorem turn_of_control
    (lock after : KernelLock α τ)
    (place : LockPlace)
    (control : CvControl α Unit)
    (isPlace : after.place = Function.update lock.place t place)
    (isControl : after.cv.control = Function.update lock.cv.control t control)
    (sameWaiter : control.queued = (lock.cv.control t).queued)
    (waiters : after.cv.waiters = lock.cv.waiters)
    (turn : lock.semaphore.Turn (({
      count := after.sem
      mutex := after.cv.mutexes ()
      queueLock := after.cv.waitsetLock
      phase := lock.semaphore.phase
      asleep := asleep after.cv
      queued := queued lock.cv } : Semaphore τ).goto t
        (phaseOf (fun w => (lock.cv.waiters w).thread) place control))) :
    lock.semaphore.Turn after.semaphore := by
  rw [semaphore_of_goto lock after place control isPlace isControl
    fun _ _ w _ => by rw [waiters],
    queued_of_same lock.cv after.cv control isControl sameWaiter
      fun w => by rw [waiters], waiters]
  exact turn

namespace Fits

/-- `cv_wait` locks the wait set. -/
theorem joins
    (fits : lock.Fits)
    (control : lock.cv.control t = .locking w ())
    (free : lock.cv.waitsetLock = none) :
    lock.semaphore.Turn
      ((lock.setCv (lock.cv.enqueue t w ())).goto t .waiting).semaphore := by
  have isWaiter : (lock.cv.control t).waiter = some w := by rw [control]; rfl
  have place := fits.waiting isWaiter
  have ring := queued_of_update lock.cv (lock.cv.enqueue t w ()) (t := t)
    (.enqueued w ()) rfl fun t' w' apart waits => by
      have different := fits.placed.waiter_ne apart isWaiter
        (CvControl.waiter_of_queued waits)
      simp [CondVar.enqueue, CondVar.goto, CondVar.modifyWaiter,
        Function.update_of_ne different]
  have isQueued : queued (lock.cv.enqueue t w ()) t = true := by
    have fresh := ((fits.placed.threads t).fresh w () control).2
    simp [queued, CondVar.enqueue, CondVar.goto, CondVar.modifyWaiter,
      CvControl.queued, fresh]
  rw [isQueued] at ring
  have moves := semaphore_of_goto lock
    ((lock.setCv (lock.cv.enqueue t w ())).goto t .waiting) .waiting
    (.enqueued w ()) rfl rfl fun t' all w' waking => by
      by_cases same : w' = w
      · subst same
        simp [CondVar.enqueue, CondVar.goto, CondVar.modifyWaiter, KernelLock.goto]
      · simp [CondVar.enqueue, CondVar.goto, CondVar.modifyWaiter, KernelLock.goto,
          Function.update_of_ne same]
  rw [moves]
  show lock.semaphore.Turn ({ lock.semaphore with
    queueLock := some t
    queued := queued (lock.cv.enqueue t w ()) }.goto t .joined)
  rw [ring]
  refine .joins ?_ free
  simp only [semaphore, place, control, phaseOf, callPhase]

omit [DecidableEq α] in
/-- `cv_wait` unlocks the mutex. -/
theorem unlocks
    (fits : lock.Fits)
    (control : lock.cv.control t = .enqueued w ()) :
    lock.semaphore.Turn ((lock.setCv ((lock.cv.mutexUnlock ()).goto t
      (.releasing w ()))).goto t .waiting).semaphore := by
  have place := fits.waiting (t := t) (by rw [control]; rfl)
  refine turn_of_control lock _ .waiting (.releasing w ()) rfl rfl
    (by rw [control]; rfl) rfl (.unlocks ?_)
  simp only [semaphore, place, control, phaseOf, callPhase]

omit [DecidableEq α] in
/-- `sleep_releasing` -/
theorem parks
    (fits : lock.Fits)
    (control : lock.cv.control t = .releasing w ()) :
    lock.semaphore.Turn
      ((lock.setCv (lock.cv.sleepReleasing t w ())).goto t .waiting).semaphore := by
  have place := fits.waiting (t := t) (by rw [control]; rfl)
  have sleeps := asleep_of_update lock.cv (lock.cv.sleepReleasing t w ()) (t := t)
    .stopped rfl
  refine turn_of_control lock _ .waiting (.asleep w ()) rfl rfl
    (by rw [control]; rfl) rfl ?_
  show lock.semaphore.Turn ({ lock.semaphore with
    queueLock := none
    asleep := asleep (lock.cv.sleepReleasing t w ()) }.goto t .parked)
  rw [sleeps]
  refine .parks ?_
  simp only [semaphore, place, control, phaseOf, callPhase]

/-- `cv_wait` locks the wait set after the sleep, and the waiter is not on the ring
any more. -/
theorem unparks
    (fits : lock.Fits)
    (running : lock.cv.state t = .running)
    (control : lock.cv.control t = .asleep w ())
    (free : lock.cv.waitsetLock = none)
    (cv : CondVar α τ Unit)
    (tidied : lock.cv.tidyUp t w () = .ok cv) :
    lock.semaphore.Turn ((lock.setCv cv).goto t .waiting).semaphore := by
  have place := fits.waiting (t := t) (by rw [control]; rfl)
  have same : cv.control = Function.update lock.cv.control t (.relocking w ()) ∧
      cv.waiters = lock.cv.waiters ∧ cv.mutexes = lock.cv.mutexes ∧
      cv.waitsetLock = lock.cv.waitsetLock ∧ cv.state = lock.cv.state := by
    unfold CondVar.tidyUp at tidied
    split_ifs at tidied
    all_goals
      cases tidied
      exact ⟨rfl, rfl, rfl, rfl, rfl⟩
  obtain ⟨isControl, waiters, mutexes, waitsetLock, state⟩ := same
  have ring := queued_of_update lock.cv cv (.relocking w ()) isControl
    fun _ w' _ _ => by rw [waiters]
  have isQueued : queued cv t = false := by
    simp only [queued, isControl, Function.update_self, CvControl.queued]
  rw [isQueued] at ring
  have sleepers : asleep cv = asleep lock.cv := by
    unfold asleep
    rw [state]
  rw [semaphore_of_goto lock ((lock.setCv cv).goto t .waiting) .waiting
    (.relocking w ()) rfl isControl fun _ _ w' _ => by
      show (cv.waiters w').thread = _
      rw [waiters]]
  show lock.semaphore.Turn (({
    count := lock.sem
    mutex := cv.mutexes ()
    queueLock := cv.waitsetLock
    phase := lock.semaphore.phase
    asleep := asleep cv
    queued := queued cv } : Semaphore τ).goto t .returning)
  rw [mutexes, waitsetLock, sleepers, ring]
  refine .unparks ?_ (asleep_of_running running) free
  simp only [semaphore, place, control, phaseOf, callPhase]

omit [DecidableEq α] in
/-- `cv_wait` locks the mutex and returns. -/
theorem relocks
    (fits : lock.Fits)
    (control : lock.cv.control t = .relocking w ())
    (free : lock.cv.mutexes () = none) :
    lock.semaphore.Turn
      ((lock.setCv (lock.cv.returnFrom t w ())).goto t .testing).semaphore := by
  have place := fits.waiting (t := t) (by rw [control]; rfl)
  refine turn_of_control lock _ .testing .own rfl rfl
    (by rw [control]; rfl) rfl (.locks (.inr ?_) free)
  simp only [semaphore, place, control, phaseOf, callPhase]

variable {call : LockCall}

omit [DecidableEq α] in
/-- `Cond_Signal` locks the wait set. -/
theorem opens
    (place : lock.place t = .signalling call)
    (control : lock.cv.control t = .signalling false)
    (free : lock.cv.waitsetLock = none) :
    lock.semaphore.Turn ((lock.setCv (lock.cv.openSignal t false)).goto t
      (.signalling call)).semaphore := by
  refine turn_of_control lock _ (.signalling call) (.scanning false) rfl rfl
    (by rw [control]; rfl) rfl (.opens ?_ free)
  simp only [semaphore, place, control, phaseOf, callPhase]

/-- The oldest waiter is taken off the ring. -/
theorem picks
    (fits : lock.Fits)
    (place : lock.place t = .signalling call)
    (control : lock.cv.control t = .scanning false)
    (oldest : lock.cv.set.waitset = some w) :
    lock.semaphore.Turn ((lock.setCv (lock.cv.takeWaiter t false w)).goto t
      (.signalling call)).semaphore := by
  obtain ⟨-, sleeper, ⟨⟩, apart, isAsleep⟩ :=
    fits.placed.oldest_asleep control oldest
  have isWaiter : (lock.cv.control sleeper).waiter = some w := by
    rw [isAsleep]
    rfl
  have isThread := ((fits.placed.threads sleeper).owner w isWaiter).1
  have same : ∀ w', ((lock.cv.takeWaiter t false w).waiters w').thread =
      (lock.cv.waiters w').thread := by
    intro w'
    by_cases isOldest : w' = w
    · subst isOldest
      simp [CondVar.takeWaiter, CondVar.goto, CondVar.modifyWaiter,
        CondVar.removeFromRing]
    · simp [CondVar.takeWaiter, CondVar.goto, CondVar.modifyWaiter,
        CondVar.removeFromRing, Function.update_of_ne isOldest]
  have ring : queued (lock.cv.takeWaiter t false w) =
      Function.update (queued lock.cv) sleeper false := by
    funext t'
    by_cases isSleeper : t' = sleeper
    · subst isSleeper
      rw [Function.update_self]
      have control' : (lock.cv.takeWaiter t false w).control t' =
          .asleep w () := (Function.update_of_ne apart ..).trans isAsleep
      simp only [queued, control', CvControl.queued]
      simp [CondVar.takeWaiter, CondVar.goto, CondVar.modifyWaiter]
    · rw [Function.update_of_ne isSleeper]
      by_cases isSelf : t' = t
      · subst isSelf
        have control' : (lock.cv.takeWaiter t' false w).control t' =
            .waking false w := Function.update_self ..
        simp only [queued, control', control, CvControl.queued]
      · have control' : (lock.cv.takeWaiter t false w).control t' =
            lock.cv.control t' := Function.update_of_ne isSelf ..
        simp only [queued, control']
        cases isQueued : (lock.cv.control t').queued with
        | none => rfl
        | some w' =>
            have different := fits.placed.waiter_ne isSleeper isWaiter
              (CvControl.waiter_of_queued isQueued)
            simp [CondVar.takeWaiter, CondVar.goto, CondVar.modifyWaiter,
              CondVar.removeFromRing, Function.update_of_ne different]
  rw [semaphore_of_goto lock ((lock.setCv (lock.cv.takeWaiter t false w)).goto t
    (.signalling call)) (.signalling call) (.waking false w) rfl rfl
    fun _ _ w' _ => same w']
  show lock.semaphore.Turn ({ lock.semaphore with
    queued := queued (lock.cv.takeWaiter t false w) }.goto t
      (.waking ((lock.cv.takeWaiter t false w).waiters w).thread))
  rw [ring, same w, isThread]
  refine .picks ?_ ?_
  · simp only [semaphore, place, control, phaseOf, callPhase]
  · simp only [semaphore, fits.waiting isWaiter, isAsleep, phaseOf, callPhase]

/-- `wakeup`: the waiter is marked if its thread was asleep, and otherwise passed
over. -/
theorem wakes
    (place : lock.place t = .signalling call)
    (control : lock.cv.control t = .waking false w) :
    lock.semaphore.Turn ((lock.setCv (lock.cv.wakeWaiter t false w)).goto t
      (.signalling call)).semaphore := by
  have isWaking : lock.semaphore.phase t = .waking (lock.cv.waiters w).thread := by
    simp only [semaphore, place, control, phaseOf, callPhase]
  by_cases sleeps : lock.cv.state (lock.cv.waiters w).thread = .stopped ∨
      lock.cv.state (lock.cv.waiters w).thread = .init
  · have isWoken : lock.cv.wakeWaiter t false w = _ :=
      CondVar.wakeWaiter_of_sleeping sleeps
    have isControl : (lock.cv.wakeWaiter t false w).control =
        Function.update lock.cv.control t (.unlocking false) := by
      rw [isWoken]
      rfl
    have isState : (lock.cv.wakeWaiter t false w).state = Function.update
        lock.cv.state (lock.cv.waiters w).thread .ready := by
      rw [isWoken]
    have kept : ∀ w', ((lock.cv.wakeWaiter t false w).waiters w').thread =
        (lock.cv.waiters w').thread ∧
        ((lock.cv.wakeWaiter t false w).waiters w').removed =
          (lock.cv.waiters w').removed := by
      intro w'
      rw [isWoken]
      by_cases isMarked : w' = w
      · subst isMarked
        simp
      · simp [Function.update_of_ne isMarked]
    rw [semaphore_of_goto lock ((lock.setCv (lock.cv.wakeWaiter t false w)).goto t
      (.signalling call)) (.signalling call) (.unlocking false) rfl isControl
      fun _ _ w' _ => (kept w').1]
    show lock.semaphore.Turn (({
      count := lock.sem
      mutex := (lock.cv.wakeWaiter t false w).mutexes ()
      queueLock := (lock.cv.wakeWaiter t false w).waitsetLock
      phase := lock.semaphore.phase
      asleep := asleep (lock.cv.wakeWaiter t false w)
      queued := queued (lock.cv.wakeWaiter t false w) } : Semaphore τ).goto t
        .notified)
    rw [asleep_of_update lock.cv _ .ready isState,
      queued_of_same lock.cv _ (.unlocking false) isControl
        (by rw [control]; rfl) fun w' => (kept w').2, isWoken]
    exact .wakes isWaking
  · rw [CondVar.wakeWaiter_of_awake sleeps]
    refine turn_of_control lock _ (.signalling call) (.scanning false) rfl rfl
      (by rw [control]; rfl) rfl (.passes isWaking ?_)
    simp only [semaphore, asleep, sleeps, decide_false]

omit [DecidableEq α] in
/-- The ring is empty. -/
theorem ends
    (fits : lock.Fits)
    (place : lock.place t = .signalling call)
    (control : lock.cv.control t = .scanning false)
    (empty : lock.cv.set.waitset = none) :
    lock.semaphore.Turn ((lock.setCv (lock.cv.goto t (.unlocking false))).goto t
      (.signalling call)).semaphore := by
  refine turn_of_control lock _ (.signalling call) (.unlocking false) rfl rfl
    (by rw [control]; rfl) rfl (.ends ?_ ?_)
  · simp only [semaphore, place, control, phaseOf, callPhase]
  · intro sleeper
    have nobody : lock.cv.log.waiters = [] := by
      rw [← List.head?_eq_none_iff, ← fits.placed.holds.oldest]
      exact empty
    show queued lock.cv sleeper = false
    unfold queued
    cases isQueued : (lock.cv.control sleeper).queued with
    | none => rfl
    | some w =>
        have placed := fits.placed.threads sleeper
        have arrived := (placed.arrived w
          (CvControl.arrived_of_queued isQueued)).1
        by_contra onRing
        have present : (lock.cv.waiters w).call ∉ lock.cv.log.removals := by
          rw [placed.removed w isQueued]
          simpa using onRing
        have member : w ∈ lock.cv.log.waiters :=
          List.mem_map_of_mem (CvLog.mem_present.mpr ⟨arrived, present⟩)
        rw [nobody] at member
        cases member

omit [DecidableEq α] in
/-- `Cond_Signal` returns. -/
theorem closes
    (place : lock.place t = .signalling call)
    (control : lock.cv.control t = .unlocking false) :
    lock.semaphore.Turn ((lock.setCv (lock.cv.closeSignal t)).goto t
      (.signalled call)).semaphore := by
  refine turn_of_control lock _ (.signalled call) .own rfl rfl
    (by rw [control]; rfl) rfl (.closes ?_)
  simp only [semaphore, place, control, phaseOf, callPhase]

end Fits

/-! ## Steps of the kernel lock -/

/-- The step is one of the condition variable and one of the semaphore. -/
structure Simulates (lock after : KernelLock α τ) : Prop where
  cv : Reachable CondVar.step CondVar.Allowed lock.cv after.cv
  coupled : ∀ t, Coupled (after.place t) (after.cv.control t)
  turns : Relation.ReflTransGen Semaphore.Turn lock.semaphore after.semaphore

namespace Fits

theorem same (fits : lock.Fits) : lock.Simulates lock :=
  ⟨.refl, fits.coupled, .refl⟩

omit [DecidableEq α] in
theorem coupled_goto
    (fits : lock.Fits)
    (place : LockPlace)
    (control : CvControl α Unit)
    (isPlace : after.place = Function.update lock.place t place)
    (isControl : after.cv.control = Function.update lock.cv.control t control)
    (coupled : Coupled place control) :
    ∀ t, Coupled (after.place t) (after.cv.control t) := by
  intro t'
  rw [isPlace, isControl]
  by_cases isThread : t' = t
  · subst isThread
    rwa [Function.update_self, Function.update_self]
  · rw [Function.update_of_ne isThread, Function.update_of_ne isThread]
    exact fits.coupled t'

omit [DecidableEq α] in
/-- A thread that is in no call of the condition variable stays so. -/
theorem control_own
    (own : lock.cv.control t = .own) :
    lock.cv.control = Function.update lock.cv.control t .own := by
  rw [← own, Function.update_eq_self]

/-- A thread goes on in a call of the condition variable. -/
theorem simulates_nextCv
    (fits : lock.Fits)
    (returned : LockPlace)
    (cv : CondVar α τ Unit)
    (place : LockPlace)
    (control : CvControl α Unit)
    (running : lock.cv.state t = .running)
    (stepped : lock.cv.next t = .ok cv)
    (isControl : cv.control = Function.update lock.cv.control t control)
    (isPlace : (if control = .own then returned else lock.place t) = place)
    (coupled : Coupled place control)
    (turn : lock.semaphore.Turn ((lock.setCv cv).goto t place).semaphore) :
    lock.Simulates ((lock.setCv cv).goto t
      (if cv.control t = .own then returned else lock.place t)) := by
  have next : lock.cv.Allowed (.next t) := running
  rw [isControl, Function.update_self, isPlace]
  exact ⟨.tail .refl next stepped,
    fits.coupled_goto place control rfl isControl coupled, .single turn⟩

/-- A thread that spins stays where it is. -/
theorem simulates_spin
    (fits : lock.Fits)
    (returned : LockPlace)
    (notOwn : lock.cv.control t ≠ .own) :
    lock.Simulates ((lock.setCv lock.cv).goto t
      (if lock.cv.control t = .own then returned else lock.place t)) := by
  have stays : (lock.setCv lock.cv).goto t (lock.place t) = lock := by
    rw [KernelLock.goto, setCv_place, Function.update_eq_self]
    rfl
  rw [if_neg notOwn, stays]
  exact fits.same

/-- A step in `Cond_Wait`. -/
theorem simulates_waiting
    (fits : lock.Fits)
    (running : lock.cv.state t = .running)
    (place : lock.place t = .waiting)
    (stepped : lock.nextCv t .testing = .ok after) :
    lock.Simulates after := by
  obtain ⟨cv, next, rfl⟩ := exists_of_map_eq_ok stepped
  have coupled := fits.coupled t
  rw [place] at coupled
  have steps := next
  unfold CondVar.next at steps
  cases control : lock.cv.control t with
  | locking w =>
      simp only [control] at steps
      split_ifs at steps with free
      · cases steps
        exact fits.simulates_nextCv _ _ .waiting (.enqueued w ()) running next rfl
          place (by simp [Coupled, CvControl.waiter]) (fits.joins control free)
      · cases steps
        exact fits.simulates_spin _ (by simp [control])
  | enqueued w =>
      simp only [control] at steps
      cases steps
      exact fits.simulates_nextCv _ _ .waiting (.releasing w ()) running next rfl
        place (by simp [Coupled, CvControl.waiter]) (fits.unlocks control)
  | releasing w =>
      simp only [control] at steps
      cases steps
      exact fits.simulates_nextCv _ _ .waiting (.asleep w ()) running next rfl
        place (by simp [Coupled, CvControl.waiter]) (fits.parks control)
  | asleep w =>
      simp only [control] at steps
      split_ifs at steps with free
      · have isControl : cv.control =
            Function.update lock.cv.control t (.relocking w ()) := by
          unfold CondVar.tidyUp at steps
          split_ifs at steps
          all_goals
            cases steps
            rfl
        exact fits.simulates_nextCv _ _ .waiting (.relocking w ()) running next
          isControl place (by simp [Coupled, CvControl.waiter])
          (fits.unparks running control free cv steps)
      · cases steps
        exact fits.simulates_spin _ (by simp [control])
  | relocking w =>
      simp only [control] at steps
      split_ifs at steps with free
      · cases steps
        exact fits.simulates_nextCv _ _ .testing .own running next rfl rfl
          rfl (fits.relocks control free)
      · cases steps
        exact fits.simulates_spin _ (by simp [control])
  | _ =>
      rw [control] at coupled
      exact absurd rfl coupled

/-- A step in `Cond_Signal`. -/
theorem simulates_signalling
    (fits : lock.Fits)
    (running : lock.cv.state t = .running)
    (place : lock.place t = .signalling call)
    (stepped : lock.nextCv t (.signalled call) = .ok after) :
    lock.Simulates after := by
  obtain ⟨cv, next, rfl⟩ := exists_of_map_eq_ok stepped
  have coupled := fits.coupled t
  rw [place] at coupled
  have steps := next
  unfold CondVar.next at steps
  rcases coupled with control | control | ⟨w, control⟩ | control
  · simp only [control] at steps
    split_ifs at steps with free
    · cases steps
      exact fits.simulates_nextCv _ _ (.signalling call) (.scanning false) running
        next rfl place (.inr (.inl rfl)) (opens place control free)
    · cases steps
      exact fits.simulates_spin _ (by simp [control])
  · simp only [control] at steps
    cases oldest : lock.cv.set.waitset with
    | none =>
        rw [oldest] at steps
        cases steps
        exact fits.simulates_nextCv _ _ (.signalling call) (.unlocking false)
          running next rfl place (.inr (.inr (.inr rfl)))
          (fits.ends place control oldest)
    | some w =>
        rw [oldest] at steps
        cases steps
        exact fits.simulates_nextCv _ _ (.signalling call) (.waking false w)
          running next rfl place (.inr (.inr (.inl ⟨w, rfl⟩)))
          (fits.picks place control oldest)
  · simp only [control] at steps
    cases steps
    have turn := wakes place control
    by_cases sleeps : lock.cv.state (lock.cv.waiters w).thread = .stopped ∨
        lock.cv.state (lock.cv.waiters w).thread = .init
    · have isControl : (lock.cv.wakeWaiter t false w).control =
          Function.update lock.cv.control t (.unlocking false) := by
        rw [CondVar.wakeWaiter_of_sleeping sleeps]
        rfl
      exact fits.simulates_nextCv _ _ (.signalling call) (.unlocking false)
        running next isControl place (.inr (.inr (.inr rfl))) turn
    · have isControl : (lock.cv.wakeWaiter t false w).control =
          Function.update lock.cv.control t (.scanning false) := by
        rw [CondVar.wakeWaiter_of_awake sleeps]
      exact fits.simulates_nextCv _ _ (.signalling call) (.scanning false)
        running next isControl place (.inr (.inl rfl)) turn
  · simp only [control] at steps
    cases steps
    exact fits.simulates_nextCv _ _ (.signalled call) .own running next rfl rfl
      rfl (closes place control)

/-- A thread that is in no call of the condition variable goes on. -/
theorem simulates_own
    (fits : lock.Fits)
    (place : LockPlace)
    (own : lock.cv.control t = .own)
    (isPlace : after.place = Function.update lock.place t place)
    (control : after.cv.control = lock.cv.control)
    (waiters : after.cv.waiters = lock.cv.waiters)
    (coupled : Coupled place (.own : CvControl α Unit))
    (cv : Reachable CondVar.step CondVar.Allowed lock.cv after.cv)
    (turn : lock.semaphore.Turn (({
      count := after.sem
      mutex := after.cv.mutexes ()
      queueLock := after.cv.waitsetLock
      phase := lock.semaphore.phase
      asleep := asleep after.cv
      queued := queued lock.cv } : Semaphore τ).goto t
        (phaseOf (fun w => (lock.cv.waiters w).thread) place .own))) :
    lock.Simulates after := by
  have isControl := control.trans (control_own own)
  exact ⟨cv, fits.coupled_goto place .own isPlace isControl coupled,
    .single (turn_of_control lock after place .own isPlace isControl
      (by rw [own]) waiters turn)⟩

/-- `Cond_Wait` is called. -/
theorem simulates_waits
    (fits : lock.Fits)
    (running : lock.cv.state t = .running)
    (place : lock.place t = .testing)
    (zero : lock.sem ≤ 0)
    (unused : ∀ t', (lock.cv.control t').waiter = some w → t' = t) :
    lock.Simulates ((lock.setCv (lock.cv.cvWait t w ())).goto t .waiting) := by
  have own : lock.cv.control t = .own :=
    fits.own (by simp [place]) (by simp [place])
  have free : ∀ t', (lock.cv.control t').waiter ≠ some w := by
    intro t' isWaiter
    obtain rfl := unused t' isWaiter
    rw [own] at isWaiter
    cases isWaiter
  have waits : lock.cv.Allowed (.wait t w ()) := ⟨running, own, free⟩
  have others : ∀ w', w' ≠ w →
      (lock.cv.cvWait t w ()).waiters w' = lock.cv.waiters w' := by
    intro w' different
    simp [CondVar.cvWait, CondVar.goto, CondVar.modifyWaiter,
      Function.update_of_ne different]
  have ring : queued (lock.cv.cvWait t w ()) = queued lock.cv := by
    rw [queued_of_update lock.cv (lock.cv.cvWait t w ()) (t := t) (.locking w ())
      rfl fun t' w' _ isQueued => by
        have different : w' ≠ w := by
          rintro rfl
          exact free t' (CvControl.waiter_of_queued isQueued)
        rw [others w' different]]
    have same : queued (lock.cv.cvWait t w ()) t = queued lock.cv t := by
      simp [queued, own, CondVar.cvWait, CondVar.goto, CondVar.modifyWaiter,
        CvControl.queued]
    rw [same, Function.update_eq_self]
  refine ⟨.tail .refl waits rfl,
    fits.coupled_goto .waiting (.locking w ()) rfl rfl
      (by simp [Coupled, CvControl.waiter]), .single ?_⟩
  rw [semaphore_of_goto lock ((lock.setCv (lock.cv.cvWait t w ())).goto t .waiting)
    .waiting (.locking w ()) rfl rfl ?_]
  · show lock.semaphore.Turn ({ lock.semaphore with
      queued := queued (lock.cv.cvWait t w ()) }.goto t .joining)
    rw [ring]
    refine .waits ?_ zero
    simp only [semaphore, place, phaseOf]
  · intro t' all w' waking
    have different : w' ≠ w := by
      rintro rfl
      obtain ⟨-, sleeper, mutex, isAsleep⟩ := fits.placed.waking t' all w' waking
      exact free sleeper (by rw [isAsleep]; rfl)
    exact congrArg CvWaiter.thread (others w' different)

omit [DecidableEq α] in
/-- The state of a thread changes; it falls asleep only outside of the calls. -/
theorem schedules
    (state : ThreadState)
    (falls : (lock.place t).isFree = true ∨ state = .ready ∨ state = .running) :
    lock.semaphore.Turn (lock.setCv (lock.cv.setState t state)).semaphore := by
  have sleepers := asleep_of_update lock.cv (lock.cv.setState t state) (t := t)
    state rfl
  refine .schedules (asleep (lock.cv.setState t state)) fun t' awake falls' => ?_
  by_cases isThread : t' = t
  · subst isThread
    rcases falls with isFree | rfl | rfl
    · simp only [semaphore]
      cases place : lock.place t' with
      | outside | inside | away => exact ⟨rfl, nofun⟩
      | _ =>
          rw [place] at isFree
          cases isFree
    all_goals
      rw [sleepers, Function.update_self] at falls'
      simp at falls'
  · rw [sleepers, Function.update_of_ne isThread] at falls'
    exact absurd falls' (by rw [show asleep lock.cv t' = false from awake]; simp)

theorem simulates_setState
    (fits : lock.Fits)
    (state : ThreadState)
    (falls : (lock.place t).isFree = true ∨ state = .ready ∨ state = .running)
    (cv : Reachable CondVar.step CondVar.Allowed lock.cv
      (lock.cv.setState t state)) :
    lock.Simulates (lock.setCv (lock.cv.setState t state)) :=
  ⟨cv, fits.coupled, .single (schedules state falls)⟩

theorem simulates_next
    (fits : lock.Fits)
    (running : lock.cv.state t = .running)
    (unused : ∀ t', (lock.cv.control t').waiter = some w → t' = t)
    (stepped : lock.next t w = .ok after) :
    lock.Simulates after := by
  have awake := asleep_of_running running
  unfold next at stepped
  cases place : lock.place t with
  | outside | inside | away =>
      rw [place] at stepped
      cases stepped
      exact fits.same
  | waiting =>
      rw [place] at stepped
      exact fits.simulates_waiting running place stepped
  | signalling call =>
      rw [place] at stepped
      exact fits.simulates_signalling running place stepped
  | locking =>
      have own := fits.own (t := t) (by simp [place]) (by simp [place])
      rw [place] at stepped
      dsimp only at stepped
      split_ifs at stepped with free
      · cases stepped
        have locks : lock.cv.Allowed (.lock t ()) := ⟨running, own⟩
        refine fits.simulates_own .testing own rfl rfl rfl rfl
          (.tail .refl locks (if_pos free)) (.locks (.inl ?_) free)
        simp only [semaphore, place, phaseOf]
      · cases stepped
        exact fits.same
  | testing =>
      have own := fits.own (t := t) (by simp [place]) (by simp [place])
      rw [place] at stepped
      dsimp only at stepped
      split_ifs at stepped with zero
      · cases stepped
        exact fits.simulates_waits running place zero unused
      · cases stepped
        refine fits.simulates_own .taken own rfl rfl rfl rfl .refl
          (.takes ?_ (Int.not_le.mp zero))
        simp only [semaphore, place, phaseOf]
  | taken =>
      have own := fits.own (t := t) (by simp [place]) (by simp [place])
      rw [place] at stepped
      cases stepped
      have unlocks : lock.cv.Allowed (.unlock t ()) := ⟨running, own⟩
      refine fits.simulates_own .inside own rfl rfl rfl rfl
        (.tail .refl unlocks rfl) (.enters ?_)
      simp only [semaphore, place, phaseOf]
  | releasing call =>
      have own := fits.own (t := t) (by simp [place]) (by simp [place])
      rw [place] at stepped
      dsimp only at stepped
      split_ifs at stepped with free
      · cases stepped
        have locks : lock.cv.Allowed (.lock t ()) := ⟨running, own⟩
        have signals : (lock.cv.mutexLock t ()).Allowed (.signal t false) :=
          ⟨running, own⟩
        refine ⟨.tail (.tail .refl locks (if_pos free)) signals rfl,
          fits.coupled_goto (.signalling call) (.signalling false) rfl rfl
            (.inl rfl), .single (turn_of_control lock _ (.signalling call)
              (.signalling false) rfl rfl (by rw [own]; rfl) rfl
                (.increments ?_ free))⟩
        simp only [semaphore, place, phaseOf]
      · cases stepped
        exact fits.same
  | signalled call =>
      have own := fits.own (t := t) (by simp [place]) (by simp [place])
      have leaving : lock.semaphore.phase t = .leaving := by
        simp only [semaphore, place, phaseOf]
      have unlocks : lock.cv.Allowed (.unlock t ()) := ⟨running, own⟩
      rw [place] at stepped
      cases call with
      | unlock =>
          cases stepped
          exact fits.simulates_own .outside own rfl rfl rfl rfl
            (.tail .refl unlocks rfl) (.leaves leaving)
      | wait =>
          cases stepped
          exact fits.simulates_own .away own rfl rfl rfl rfl
            (.tail .refl unlocks rfl) (.leaves leaving)
      | sleep newstate =>
          cases stepped
          have left : lock.Simulates
              ((lock.setCv (lock.cv.mutexUnlock ())).goto t .outside) :=
            fits.simulates_own .outside own rfl rfl rfl rfl
              (.tail .refl unlocks rfl) (.leaves leaving)
          have sleeps : (lock.cv.mutexUnlock ()).Allowed (.other t newstate) := own
          have isFree : (((lock.setCv (lock.cv.mutexUnlock ())).goto t
              .outside).place t).isFree = true := by
            simp [KernelLock.goto, LockPlace.isFree]
          exact ⟨left.cv.tail sleeps rfl, left.coupled,
            left.turns.tail (schedules newstate (.inl isFree))⟩

/-- Every step at the kernel lock. -/
theorem simulates
    {action : LockAction α τ}
    (fits : lock.Fits)
    (allowed : lock.Allowed action)
    (stepped : lock.step action = .ok after) :
    lock.Simulates after := by
  cases action with
  | lock t =>
      obtain ⟨running, place⟩ := allowed
      have own := fits.own (t := t) (by simp [place]) (by simp [place])
      cases stepped
      refine fits.simulates_own .locking own rfl rfl rfl rfl .refl
        (.arrives ?_ (asleep_of_running running))
      simp only [semaphore, place, phaseOf]
  | release t call =>
      obtain ⟨running, place⟩ := allowed
      have own := fits.own (t := t) (by simp [place]) (by simp [place])
      cases stepped
      refine fits.simulates_own (.releasing call) own rfl rfl rfl rfl .refl
        (.gives ?_ (asleep_of_running running))
      simp only [semaphore, place, phaseOf]
  | back t =>
      obtain ⟨running, place⟩ := allowed
      have own := fits.own (t := t) (by simp [place]) (by simp [place])
      cases stepped
      refine fits.simulates_own .locking own rfl rfl rfl rfl .refl
        (.arrives ?_ (asleep_of_running running))
      simp only [semaphore, place, phaseOf]
  | next t w => exact fits.simulates_next allowed.1 allowed.2 stepped
  | wake t =>
      cases stepped
      have wakes : lock.cv.Allowed (.wake t) := trivial
      unfold CondVar.wakeup
      split_ifs with sleeps
      · refine fits.simulates_setState .ready (.inr (.inl rfl))
          (.tail .refl wakes ?_)
        simp [CondVar.step, CondVar.wakeup, sleeps]
      · exact fits.same
  | dispatch t =>
      cases stepped
      have dispatches : lock.cv.Allowed (.dispatch t) := allowed
      exact fits.simulates_setState .running (.inr (.inr rfl))
        (.tail .refl dispatches rfl)
  | preempt t =>
      cases stepped
      have preempts : lock.cv.Allowed (.preempt t) := allowed
      exact fits.simulates_setState .ready (.inr (.inl rfl))
        (.tail .refl preempts rfl)
  | other t state =>
      cases stepped
      have own : lock.cv.control t = .own := by
        have isFree : (lock.place t).isFree = true := allowed
        refine fits.own (fun place => ?_) fun call place => ?_
        all_goals
          rw [place] at isFree
          cases isFree
      have changes : lock.cv.Allowed (.other t state) := own
      exact fits.simulates_setState state (.inl allowed) (.tail .refl changes rfl)

end Fits

end KernelLock
end TinierOS
