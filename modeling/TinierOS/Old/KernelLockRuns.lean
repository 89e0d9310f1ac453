import TinierOS.Old.KernelLockTurns

/-!
# Runs of the kernel lock

In every run at most one thread has locked the kernel, and a thread that sleeps
until it may lock it is not forgotten.
-/

namespace TinierOS

namespace CondVar

variable {α τ μ : Type} [DecidableEq α] [DecidableEq τ] [DecidableEq μ]
variable {cv after : CondVar α τ μ}
variable {t : τ}

/-- A step of a call puts its thread to sleep, or makes another one ready. -/
theorem state_of_next
    (stepped : cv.next t = .ok after)
    (t' : τ) :
    after.state t' = cv.state t' ∨ after.state t' = .stopped ∨
      after.state t' = .ready := by
  unfold next at stepped
  cases control : cv.control t with
  | releasing w mutex =>
      simp only [control] at stepped
      cases stepped
      by_cases isThread : t' = t
      · subst isThread
        exact .inr (.inl (Function.update_self ..))
      · exact .inl (Function.update_of_ne isThread ..)
  | waking all w =>
      simp only [control] at stepped
      cases stepped
      by_cases sleeps : cv.state (cv.waiters w).thread = .stopped ∨
          cv.state (cv.waiters w).thread = .init
      · rw [wakeWaiter_of_sleeping sleeps]
        by_cases isThread : t' = (cv.waiters w).thread
        · subst isThread
          exact .inr (.inr (Function.update_self ..))
        · exact .inl (Function.update_of_ne isThread ..)
      · rw [wakeWaiter_of_awake sleeps]
        exact .inl rfl
  | scanning all =>
      simp only [control] at stepped
      cases oldest : cv.set.waitset with
      | none | some w =>
          rw [oldest] at stepped
          cases stepped
          exact .inl rfl
  | asleep w mutex =>
      simp only [control, tidyUp] at stepped
      split_ifs at stepped
      all_goals
        cases stepped
        exact .inl rfl
  | own | enqueued | unlocking =>
      simp only [control] at stepped
      cases stepped
      exact .inl rfl
  | locking | relocking | signalling =>
      simp only [control] at stepped
      split_ifs at stepped
      all_goals
        cases stepped
        exact .inl rfl

end CondVar

namespace KernelLock

variable {α τ : Type} [DecidableEq α] [DecidableEq τ]
variable {lock after : KernelLock α τ}
variable {t : τ}

/-! ## Invariants -/

/-- A step of a call moves its own thread only, and puts no thread into a state
that it could not leave, unless the call ends. -/
theorem effect_of_next
    {w : α}
    (stepped : lock.next t w = .ok after)
    (t' : τ) :
    (t' ≠ t → after.place t' = lock.place t') ∧
      (after.cv.state t' = lock.cv.state t' ∨ after.cv.state t' = .stopped ∨
        after.cv.state t' = .ready ∨ (after.place t').isFree = true) := by
  have moves : ∀ {place : LockPlace}, t' ≠ t →
      Function.update lock.place t place t' = lock.place t' :=
    fun apart => Function.update_of_ne apart ..
  have called : ∀ {returned}, lock.nextCv t returned = .ok after →
      (t' ≠ t → after.place t' = lock.place t') ∧
        (after.cv.state t' = lock.cv.state t' ∨ after.cv.state t' = .stopped ∨
          after.cv.state t' = .ready ∨ (after.place t').isFree = true) := by
    intro returned stepped
    obtain ⟨cv, next, rfl⟩ := exists_of_map_eq_ok stepped
    rcases CondVar.state_of_next next t' with same | stopped | ready
    · exact ⟨moves, .inl same⟩
    · exact ⟨moves, .inr (.inl stopped)⟩
    · exact ⟨moves, .inr (.inr (.inl ready))⟩
  unfold next at stepped
  cases place : lock.place t with
  | waiting | signalling =>
      rw [place] at stepped
      exact called stepped
  | outside | inside | away =>
      rw [place] at stepped
      cases stepped
      exact ⟨fun _ => rfl, .inl rfl⟩
  | taken =>
      rw [place] at stepped
      cases stepped
      exact ⟨moves, .inl rfl⟩
  | locking | testing | releasing =>
      rw [place] at stepped
      dsimp only at stepped
      split_ifs at stepped
      all_goals cases stepped
      all_goals first | exact ⟨moves, .inl rfl⟩ | exact ⟨fun _ => rfl, .inl rfl⟩
  | signalled call =>
      rw [place] at stepped
      cases call with
      | unlock | wait =>
          cases stepped
          exact ⟨moves, .inl rfl⟩
      | sleep newstate =>
          cases stepped
          refine ⟨moves, ?_⟩
          by_cases isThread : t' = t
          · subst isThread
            simp [goto, LockPlace.isFree]
          · exact .inl (Function.update_of_ne isThread ..)

/-- A thread in one of the functions is ready, running or asleep. -/
def Alive (lock : KernelLock α τ) : Prop :=
  ∀ t, (lock.place t).isFree = false → lock.cv.state t = .ready ∨
    lock.cv.state t = .running ∨ lock.cv.state t = .stopped

omit [DecidableEq α] in
theorem Alive.setState
    {state : ThreadState}
    {t' : τ}
    (alive : lock.Alive)
    (t : τ)
    (isAlive : state = .ready ∨ state = .running ∨ state = .stopped)
    (busy : (lock.place t').isFree = false) :
    (lock.cv.setState t state).state t' = .ready ∨
      (lock.cv.setState t state).state t' = .running ∨
        (lock.cv.setState t state).state t' = .stopped := by
  simp only [CondVar.setState]
  by_cases isThread : t' = t
  · subst isThread
    rwa [Function.update_self]
  · rw [Function.update_of_ne isThread]
    exact alive t' busy

theorem Alive.step
    {action : LockAction α τ}
    (alive : lock.Alive)
    (allowed : lock.Allowed action)
    (stepped : lock.step action = .ok after) :
    after.Alive := by
  intro t' busy
  cases action with
  | next t w =>
      obtain ⟨moves, states⟩ := effect_of_next stepped t'
      have before : lock.cv.state t' = .ready ∨ lock.cv.state t' = .running ∨
          lock.cv.state t' = .stopped := by
        by_cases isThread : t' = t
        · subst isThread
          exact .inr (.inl allowed.1)
        · rw [moves isThread] at busy
          exact alive t' busy
      rcases states with same | stopped | ready | isFree
      · rwa [same]
      · exact .inr (.inr stopped)
      · exact .inl ready
      · rw [busy] at isFree
        cases isFree
  | lock t | release t call | back t =>
      cases stepped
      by_cases isThread : t' = t
      · subst isThread
        exact .inr (.inl allowed.1)
      · refine alive t' ?_
        simpa [goto, isThread] using busy
  | wake t =>
      cases stepped
      unfold CondVar.wakeup at busy ⊢
      split_ifs at busy ⊢
      · exact alive.setState t (.inl rfl) busy
      · exact alive t' busy
  | dispatch t =>
      cases stepped
      exact alive.setState t (.inr (.inl rfl)) busy
  | preempt t =>
      cases stepped
      exact alive.setState t (.inl rfl) busy
  | other t state =>
      cases stepped
      by_cases isThread : t' = t
      · subst isThread
        have isFree : (lock.place t').isFree = true := allowed
        rw [setCv_place, isFree] at busy
        cases busy
      · simp only [setCv_cv, CondVar.setState, Function.update_of_ne isThread]
        exact alive t' busy

/-- What holds in every run. -/
structure Sound (lock : KernelLock α τ) : Prop where
  fits : lock.Fits
  semaphore : lock.semaphore.Sound
  alive : lock.Alive

theorem Sound.step
    {action : LockAction α τ}
    (sound : lock.Sound)
    (allowed : lock.Allowed action)
    (stepped : lock.step action = .ok after) :
    after.Sound := by
  have simulates := sound.fits.simulates allowed stepped
  constructor
  case fits =>
    exact ⟨simulates.coupled, simulates.cv.invariant
      (motive := CondVar.Consistent) sound.fits.consistent CondVar.Consistent.step⟩
  case semaphore =>
    exact sound.semaphore.turns simulates.turns
  case alive =>
    exact sound.alive.step allowed stepped

omit [DecidableEq α] [DecidableEq τ] in
theorem sound_start
    (nodes : RlHeap α α)
    (waiters : α → CvWaiter τ)
    (state : τ → ThreadState) :
    (start nodes waiters state).Sound := by
  constructor
  case fits =>
    exact ⟨fun _ => rfl, CondVar.consistent_start ..⟩
  case semaphore =>
    exact Semaphore.sound_of_outside rfl rfl rfl fun _ => rfl
  case alive =>
    exact nofun

theorem Reached.sound
    (reached : lock.Reached) :
    lock.Sound := by
  obtain ⟨nodes, waiters, state, run⟩ := reached
  exact run.invariant (motive := Sound) (sound_start nodes waiters state) Sound.step

/-! ## Locking the kernel -/

/-- The thread has locked the kernel. -/
def Locks (lock : KernelLock α τ) (t : τ) : Prop :=
  lock.place t = .taken ∨ lock.place t = .inside ∨
    ∃ call, lock.place t = .releasing call

/-- The thread is awake and about to test `kernel_sem`, perhaps again after it has
slept, or about to wake up one that sleeps. -/
def Comes (lock : KernelLock α τ) (t : τ) : Prop :=
  (lock.cv.state t = .ready ∨ lock.cv.state t = .running) ∧
    (lock.place t = .testing ∨
      (lock.place t = .waiting ∧ ∃ w, lock.cv.control t = .asleep w () ∨
        lock.cv.control t = .relocking w ()) ∨
      ∃ call, lock.place t = .signalling call ∧
        lock.cv.control t ≠ .unlocking false)

omit [DecidableEq α] [DecidableEq τ] in
theorem locks_iff :
    lock.Locks t ↔ (lock.semaphore.phase t).holdsUnit = true := by
  unfold Locks
  simp only [semaphore]
  cases place : lock.place t with
  | waiting | signalling =>
      cases lock.cv.control t <;>
        simp [phaseOf, callPhase, SemaphorePhase.holdsUnit]
  | _ => simp [phaseOf, SemaphorePhase.holdsUnit]

omit [DecidableEq α] [DecidableEq τ] in
/-- A thread that comes in the semaphore comes in the kernel lock. -/
theorem Sound.comes
    (sound : lock.Sound)
    (coming : lock.semaphore.Coming t) :
    lock.Comes t := by
  have awake : asleep lock.cv t = false := sound.semaphore.coming_awake coming
  have phase : lock.semaphore.phase t = phaseOf
      (fun w => (lock.cv.waiters w).thread) (lock.place t) (lock.cv.control t) :=
    rfl
  rw [Semaphore.Coming, phase] at coming
  have alive : (lock.place t).isFree = false →
      lock.cv.state t = .ready ∨ lock.cv.state t = .running := by
    intro busy
    rcases sound.alive t busy with ready | running | stopped
    · exact .inl ready
    · exact .inr running
    · simp [asleep, stopped] at awake
  cases place : lock.place t with
  | testing => exact ⟨alive (by rw [place]; rfl), .inl place⟩
  | waiting =>
      refine ⟨alive (by rw [place]; rfl), .inr (.inl ⟨place, ?_⟩)⟩
      have coupled := sound.fits.coupled t
      rw [place] at coming coupled
      cases control : lock.cv.control t with
      | asleep w => exact ⟨w, .inl rfl⟩
      | relocking w => exact ⟨w, .inr rfl⟩
      | locking | enqueued | releasing =>
          rw [control] at coming
          simp [phaseOf, callPhase, SemaphorePhase.isComing] at coming
      | _ =>
          rw [control] at coupled
          exact absurd rfl coupled
  | signalling call =>
      refine ⟨alive (by rw [place]; rfl), .inr (.inr ⟨call, place, ?_⟩)⟩
      intro control
      rw [place, control] at coming
      simp [phaseOf, callPhase, SemaphorePhase.isComing] at coming
  | _ =>
      rw [place] at coming
      simp [phaseOf, SemaphorePhase.isComing] at coming

omit [DecidableEq α] [DecidableEq τ] in
/-- A thread that is stopped in `Cond_Wait` sleeps in the semaphore. -/
theorem Sound.sleeping
    (sound : lock.Sound)
    (waiting : lock.place t = .waiting)
    (stopped : lock.cv.state t = .stopped) :
    lock.semaphore.Sleeping t := by
  have isAsleep : lock.semaphore.asleep t = true := by
    show asleep lock.cv t = true
    simp [asleep, stopped]
  have awake := sound.semaphore.awake t
  rw [isAsleep] at awake
  have phase : lock.semaphore.phase t = phaseOf
      (fun w => (lock.cv.waiters w).thread) (lock.place t) (lock.cv.control t) :=
    rfl
  have coupled := sound.fits.coupled t
  rw [waiting] at phase coupled
  cases control : lock.cv.control t with
  | asleep w =>
      rw [control] at phase
      exact .inr ⟨phase, isAsleep⟩
  | locking | enqueued | releasing | relocking =>
      rw [phase, control] at awake
      exact absurd (awake rfl) (by simp)
  | _ =>
      rw [control] at coupled
      exact absurd rfl coupled

/-- A thread can always go on. -/
theorem Sound.next_ok
    (sound : lock.Sound)
    (t : τ)
    (w : α) :
    ∃ after, lock.next t w = .ok after := by
  obtain ⟨cv, stepped⟩ := sound.fits.consistent.step_ok (.next t)
  have called : ∀ returned, ∃ after, lock.nextCv t returned = .ok after := by
    intro returned
    rw [nextCv, show lock.cv.next t = .ok cv from stepped]
    exact ⟨_, rfl⟩
  unfold next
  cases place : lock.place t with
  | waiting => exact called _
  | signalling call => exact called _
  | locking | testing | releasing =>
      dsimp only
      split_ifs
      all_goals exact ⟨_, rfl⟩
  | signalled call =>
      cases call
      all_goals exact ⟨_, rfl⟩
  | _ => exact ⟨_, rfl⟩

/-- In every run at most one thread has locked the kernel, `kernel_sem` is zero if
one has and one otherwise, and no step fails. -/
theorem Reached.locks_once
    (reached : lock.Reached) :
    (∀ t t', lock.Locks t → lock.Locks t' → t = t') ∧
    (lock.sem = 0 ∧ (∃ t, lock.Locks t) ∨
      lock.sem = 1 ∧ ∀ t, ¬lock.Locks t) ∧
    ∀ action, ∃ after, lock.step action = .ok after := by
  have sound := reached.sound
  obtain ⟨once, count⟩ := sound.semaphore.exclusive
  refine ⟨fun t t' locks locks' =>
    once t t' (locks_iff.mp locks) (locks_iff.mp locks'), ?_, ?_⟩
  · rcases count with ⟨isZero, t, holds⟩ | ⟨isOne, none⟩
    · exact .inl ⟨isZero, t, locks_iff.mpr holds⟩
    · refine .inr ⟨isOne, fun t locks => ?_⟩
      have holds := locks_iff.mp locks
      rw [none t] at holds
      cases holds
  · intro action
    cases action with
    | next t w => exact sound.next_ok t w
    | _ => exact ⟨_, rfl⟩

/-- One thread has locked the kernel and another one waits. -/
theorem locks_once_two :
    ∃ lock : KernelLock (Fin 2) (Fin 2),
      (lock.place 0 = .inside ∧ lock.place 1 = .waiting) ∧
      (∀ t t', lock.Locks t → lock.Locks t' → t = t') ∧
      (lock.sem = 0 ∧ (∃ t, lock.Locks t) ∨
        lock.sem = 1 ∧ ∀ t, ¬lock.Locks t) ∧
      ∀ action, ∃ after, lock.step action = .ok after := by
  have ran : ∃ lock : KernelLock (Fin 2) (Fin 2),
      Reachable step Allowed
        (start (fun _ => ⟨0, 0, 0⟩) (fun _ => ⟨0, false, false, 0⟩)
          (fun _ => .running)) lock ∧
      decide (lock.place 0 = .inside ∧ lock.place 1 = .waiting) = true :=
    exists_reachable_of_any [.lock 0, .next 0 0, .next 0 0, .next 0 0, .lock 1,
      .next 1 1, .next 1 1, .next 1 1] (by decide +kernel)
  obtain ⟨lock, run, test⟩ := ran
  exact ⟨lock, of_decide_eq_true test, Reached.locks_once ⟨_, _, _, run⟩⟩

/-- In every run, when a thread sleeps until it may lock the kernel, then another
one has locked the kernel, or one comes that is awake. -/
theorem Reached.waits_for_one
    (reached : lock.Reached)
    (waiting : lock.place t = .waiting)
    (stopped : lock.cv.state t = .stopped) :
    (lock.sem = 0 ∧ ∃ t', lock.Locks t') ∨
      (lock.sem = 1 ∧ ∃ t', lock.Comes t') := by
  have sound := reached.sound
  rcases sound.semaphore.exclusive.2 with ⟨isZero, t', holds⟩ | ⟨isOne, -⟩
  · exact .inl ⟨isZero, t', locks_iff.mpr holds⟩
  · obtain ⟨t', coming⟩ := sound.semaphore.handsOver isOne t
      (sound.sleeping waiting stopped)
    exact .inr ⟨isOne, t', sound.comes coming⟩

/-- One thread has been woken up, and another one still sleeps. -/
theorem waits_for_one_of_two :
    ∃ lock : KernelLock (Fin 3) (Fin 3),
      (lock.place 2 = .waiting ∧ lock.cv.state 2 = .stopped ∧ lock.sem = 1) ∧
      ((lock.sem = 0 ∧ ∃ t', lock.Locks t') ∨
        (lock.sem = 1 ∧ ∃ t', lock.Comes t')) := by
  have ran : ∃ lock : KernelLock (Fin 3) (Fin 3),
      Reachable step Allowed
        (start (fun _ => ⟨0, 0, 0⟩) (fun _ => ⟨0, false, false, 0⟩)
          (fun _ => .running)) lock ∧
      decide (lock.place 2 = .waiting ∧ lock.cv.state 2 = .stopped ∧
        lock.sem = 1) = true :=
    exists_reachable_of_any [.lock 0, .next 0 0, .next 0 0, .next 0 0, .lock 1,
      .next 1 1, .next 1 1, .next 1 1, .next 1 1, .next 1 1, .lock 2, .next 2 2,
      .next 2 2, .next 2 2, .next 2 2, .next 2 2, .release 0 .unlock, .next 0 0,
      .next 0 0, .next 0 0, .next 0 0, .next 0 0, .next 0 0] (by decide +kernel)
  obtain ⟨lock, run, test⟩ := ran
  obtain ⟨waiting, stopped, isOne⟩ := of_decide_eq_true test
  exact ⟨lock, ⟨waiting, stopped, isOne⟩,
    Reached.waits_for_one ⟨_, _, _, run⟩ waiting stopped⟩

end KernelLock
end TinierOS
