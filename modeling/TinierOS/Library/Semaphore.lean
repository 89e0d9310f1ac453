import Mathlib.Logic.Function.Basic
import Mathlib.Logic.Relation

/-!
# A semaphore as a monitor

A semaphore with one unit, made of a counter, a mutex that protects it and a queue
of sleeping threads with a lock of its own.  A thread that finds the counter at
zero joins the queue, unlocks the mutex and sleeps; a thread that gives its unit
back wakes one thread up, with the mutex locked, and the counter is tested again
after a sleep.  A sleeping thread may be woken up by others at any time.
-/

namespace TinierOS

universe u v

/-! ## Locks -/

/-- The owner of a lock is the thread in one of the phases that hold it. -/
def Guards
    {τ : Type u}
    {π : Type v}
    (owner : Option τ)
    (phase : τ → π)
    (holds : π → Bool) : Prop :=
  ∀ t, owner = some t ↔ holds (phase t) = true

namespace Guards

variable {τ : Type u} [DecidableEq τ]
variable {π : Type v}
variable {owner : Option τ}
variable {phase : τ → π}
variable {holds : π → Bool}
variable {next : π}
variable {t t' : τ}

omit [DecidableEq τ] in
/-- At most one thread holds the lock. -/
theorem unique
    (guards : Guards owner phase holds)
    (holder : holds (phase t) = true)
    (holder' : holds (phase t') = true) :
    t = t' := by
  have isOwner := (guards t).mpr holder
  rw [(guards t').mpr holder', Option.some.injEq] at isOwner
  exact isOwner.symm

omit [DecidableEq τ] in
/-- Nobody holds a lock that is free. -/
theorem free
    (guards : Guards none phase holds)
    (t : τ) :
    holds (phase t) = false := by
  refine (Bool.not_eq_true _).mp fun holder => ?_
  cases (guards t).mpr holder

theorem keep
    (guards : Guards owner phase holds)
    (same : holds next = holds (phase t)) :
    Guards owner (Function.update phase t next) holds := by
  intro t'
  by_cases isThread : t' = t
  · subst isThread
    rw [Function.update_self, same]
    exact guards t'
  · rw [Function.update_of_ne isThread]
    exact guards t'

theorem acquire
    (guards : Guards none phase holds)
    (holder : holds next = true) :
    Guards (some t) (Function.update phase t next) holds := by
  intro t'
  by_cases isThread : t' = t
  · subst isThread
    rw [Function.update_self]
    exact iff_of_true rfl holder
  · rw [Function.update_of_ne isThread, guards.free t', Option.some.injEq]
    exact iff_of_false (Ne.symm isThread) Bool.false_ne_true

theorem release
    (guards : Guards owner phase holds)
    (holder : holds (phase t) = true)
    (gone : holds next = false) :
    Guards none (Function.update phase t next) holds := by
  intro t'
  by_cases isThread : t' = t
  · subst isThread
    rw [Function.update_self, gone]
    exact iff_of_false (by simp) Bool.false_ne_true
  · rw [Function.update_of_ne isThread]
    refine iff_of_false (by simp) fun holder' => ?_
    exact isThread (guards.unique holder' holder)

end Guards

/-! ## The semaphore -/

/-- Where a thread is in the calls of the semaphore. -/
inductive SemaphorePhase (τ : Type u)
  | outside
  /-- Before the mutex is locked to take the unit. -/
  | arriving
  /-- Before the test of the counter. -/
  | testing
  /-- Before the queue is locked. -/
  | joining
  /-- In the queue, before the mutex is unlocked. -/
  | joined
  /-- Before the thread goes to sleep and unlocks the queue. -/
  | parking
  /-- Asleep, or woken up and still to leave the queue. -/
  | parked
  /-- Before the mutex is locked again. -/
  | returning
  /-- With the unit, before the mutex is unlocked. -/
  | taken
  | inside
  /-- Before the mutex is locked to give the unit back. -/
  | giving
  /-- Before the queue is locked to wake a thread up. -/
  | notifying
  /-- Before the queue is examined. -/
  | scanning
  /-- Before the wake-up of a thread that was in the queue. -/
  | waking (sleeper : τ)
  /-- Before the queue is unlocked. -/
  | notified
  /-- Before the mutex is unlocked. -/
  | leaving

namespace SemaphorePhase

variable {τ : Type u}

def holdsMutex : SemaphorePhase τ → Bool
  | .testing | .joining | .joined | .taken | .notifying | .scanning | .waking _
  | .notified | .leaving => true
  | _ => false

def holdsQueue : SemaphorePhase τ → Bool
  | .joined | .parking | .scanning | .waking _ | .notified => true
  | _ => false

def holdsUnit : SemaphorePhase τ → Bool
  | .taken | .inside | .giving => true
  | _ => false

/-- The thread is about to sleep, with the mutex locked. -/
def willPark : SemaphorePhase τ → Bool
  | .joining | .joined => true
  | _ => false

/-- The thread goes on by itself. -/
def isAwake : SemaphorePhase τ → Bool
  | .outside | .inside | .parked => false
  | _ => true

/-- The thread will test the counter, or wake another one up. -/
def isComing : SemaphorePhase τ → Bool
  | .testing | .returning | .notifying | .scanning | .waking _ => true
  | _ => false

end SemaphorePhase

/-- The counter, the owners of the two locks, and for each thread its phase and
whether it is asleep or in the queue. -/
structure Semaphore (τ : Type u) where
  count : Int
  mutex : Option τ
  queueLock : Option τ
  phase : τ → SemaphorePhase τ
  asleep : τ → Bool
  queued : τ → Bool

namespace Semaphore

variable {τ : Type u} [DecidableEq τ]

/-- A thread goes to another phase. -/
def goto
    (semaphore : Semaphore τ)
    (t : τ)
    (phase : SemaphorePhase τ) : Semaphore τ :=
  { semaphore with phase := Function.update semaphore.phase t phase }

section Goto

variable (semaphore : Semaphore τ) (t : τ) (phase : SemaphorePhase τ)

@[grind =] theorem goto_phase (other : τ) :
    (semaphore.goto t phase).phase other =
      if other = t then phase else semaphore.phase other :=
  Function.update_apply ..

@[grind =] theorem goto_count :
    (semaphore.goto t phase).count = semaphore.count := rfl

@[grind =] theorem goto_asleep (other : τ) :
    (semaphore.goto t phase).asleep other = semaphore.asleep other := rfl

@[grind =] theorem goto_queued (other : τ) :
    (semaphore.goto t phase).queued other = semaphore.queued other := rfl

end Goto

/-- What can happen next. -/
inductive Turn (semaphore : Semaphore τ) : Semaphore τ → Prop
  /-- A thread falls asleep by itself outside of the calls only. -/
  | schedules
      (asleep : τ → Bool)
      (falls : ∀ t, semaphore.asleep t = false → asleep t = true →
        (semaphore.phase t).isAwake = false ∧ semaphore.phase t ≠ .parked) :
      Turn semaphore { semaphore with asleep := asleep }
  | arrives
      {t : τ}
      (place : semaphore.phase t = .outside)
      (awake : semaphore.asleep t = false) :
      Turn semaphore (semaphore.goto t .arriving)
  | gives
      {t : τ}
      (place : semaphore.phase t = .inside)
      (awake : semaphore.asleep t = false) :
      Turn semaphore (semaphore.goto t .giving)
  | locks
      {t : τ}
      (place : semaphore.phase t = .arriving ∨ semaphore.phase t = .returning)
      (free : semaphore.mutex = none) :
      Turn semaphore ({ semaphore with mutex := some t }.goto t .testing)
  | takes
      {t : τ}
      (place : semaphore.phase t = .testing)
      (positive : 0 < semaphore.count) :
      Turn semaphore
        ({ semaphore with count := semaphore.count - 1 }.goto t .taken)
  | waits
      {t : τ}
      (place : semaphore.phase t = .testing)
      (zero : semaphore.count ≤ 0) :
      Turn semaphore (semaphore.goto t .joining)
  | joins
      {t : τ}
      (place : semaphore.phase t = .joining)
      (free : semaphore.queueLock = none) :
      Turn semaphore ({ semaphore with
        queueLock := some t
        queued := Function.update semaphore.queued t true }.goto t .joined)
  | unlocks
      {t : τ}
      (place : semaphore.phase t = .joined) :
      Turn semaphore ({ semaphore with mutex := none }.goto t .parking)
  | parks
      {t : τ}
      (place : semaphore.phase t = .parking) :
      Turn semaphore ({ semaphore with
        queueLock := none
        asleep := Function.update semaphore.asleep t true }.goto t .parked)
  | unparks
      {t : τ}
      (place : semaphore.phase t = .parked)
      (awake : semaphore.asleep t = false)
      (free : semaphore.queueLock = none) :
      Turn semaphore ({ semaphore with
        queued := Function.update semaphore.queued t false }.goto t .returning)
  | enters
      {t : τ}
      (place : semaphore.phase t = .taken) :
      Turn semaphore ({ semaphore with mutex := none }.goto t .inside)
  | increments
      {t : τ}
      (place : semaphore.phase t = .giving)
      (free : semaphore.mutex = none) :
      Turn semaphore ({ semaphore with
        count := semaphore.count + 1
        mutex := some t }.goto t .notifying)
  | opens
      {t : τ}
      (place : semaphore.phase t = .notifying)
      (free : semaphore.queueLock = none) :
      Turn semaphore ({ semaphore with queueLock := some t }.goto t .scanning)
  | picks
      {t sleeper : τ}
      (place : semaphore.phase t = .scanning)
      (isParked : semaphore.phase sleeper = .parked) :
      Turn semaphore ({ semaphore with
        queued := Function.update semaphore.queued sleeper false }.goto t
          (.waking sleeper))
  | wakes
      {t sleeper : τ}
      (place : semaphore.phase t = .waking sleeper) :
      Turn semaphore ({ semaphore with
        asleep := Function.update semaphore.asleep sleeper false }.goto t
          .notified)
  | passes
      {t sleeper : τ}
      (place : semaphore.phase t = .waking sleeper)
      (awake : semaphore.asleep sleeper = false) :
      Turn semaphore (semaphore.goto t .scanning)
  | ends
      {t : τ}
      (place : semaphore.phase t = .scanning)
      (empty : ∀ sleeper, semaphore.queued sleeper = false) :
      Turn semaphore (semaphore.goto t .notified)
  | closes
      {t : τ}
      (place : semaphore.phase t = .notified) :
      Turn semaphore ({ semaphore with queueLock := none }.goto t .leaving)
  | leaves
      {t : τ}
      (place : semaphore.phase t = .leaving) :
      Turn semaphore ({ semaphore with mutex := none }.goto t .outside)

/-- The thread sleeps, or is about to. -/
def Sleeping (semaphore : Semaphore τ) (t : τ) : Prop :=
  semaphore.phase t = .parking ∨
    semaphore.phase t = .parked ∧ semaphore.asleep t = true

/-- The thread is awake and will test the counter, or wake another one up. -/
def Coming (semaphore : Semaphore τ) (t : τ) : Prop :=
  (semaphore.phase t).isComing = true ∨
    semaphore.phase t = .parked ∧ semaphore.asleep t = false

/-- The locks are held by those who have locked them; the counter is one, or zero
and one thread has the unit; whoever is about to sleep has found it at zero; and a
thread that has been taken out of the queue has been, or is being, woken up. -/
structure Sound (semaphore : Semaphore τ) : Prop where
  mutex : Guards semaphore.mutex semaphore.phase SemaphorePhase.holdsMutex
  queueLock :
    Guards semaphore.queueLock semaphore.phase SemaphorePhase.holdsQueue
  unit : ∃ owner, Guards owner semaphore.phase SemaphorePhase.holdsUnit ∧
    semaphore.count = if owner = none then 1 else 0
  zero : ∀ t, (semaphore.phase t).willPark = true → semaphore.count = 0
  awake : ∀ t, (semaphore.phase t).isAwake = true → semaphore.asleep t = false
  joined : ∀ t, semaphore.phase t = .joined ∨ semaphore.phase t = .parking →
    semaphore.queued t = true
  waking : ∀ t sleeper, semaphore.phase t = .waking sleeper →
    semaphore.phase sleeper = .parked
  roused : ∀ t, semaphore.phase t = .parked → semaphore.queued t = false →
    semaphore.asleep t = true → ∃ t', semaphore.phase t' = .waking t
  handsOver : semaphore.count = 1 → ∀ t, semaphore.Sleeping t →
    ∃ t', semaphore.Coming t'

variable {semaphore after : Semaphore τ}

/-! ## Steps -/

theorem Sound.mutex_turn
    (sound : semaphore.Sound)
    (turn : semaphore.Turn after) :
    Guards after.mutex after.phase SemaphorePhase.holdsMutex := by
  have held := sound.mutex
  cases turn with
  | schedules asleep falls => exact held
  | locks place free | increments place free =>
      rw [free] at held
      exact held.acquire rfl
  | unlocks place | enters place | leaves place =>
      exact held.release (by rw [place]; rfl) rfl
  | arrives place | gives place | takes place | waits place | joins place
  | parks place | unparks place | opens place | picks place | wakes place
  | passes place | ends place | closes place =>
      exact held.keep (by rw [place]; rfl)

theorem Sound.queueLock_turn
    (sound : semaphore.Sound)
    (turn : semaphore.Turn after) :
    Guards after.queueLock after.phase SemaphorePhase.holdsQueue := by
  have held := sound.queueLock
  cases turn with
  | schedules asleep falls => exact held
  | joins place free | opens place free =>
      rw [free] at held
      exact held.acquire rfl
  | parks place | closes place => exact held.release (by rw [place]; rfl) rfl
  | locks place =>
      rcases place with place | place
      · exact held.keep (by rw [place]; rfl)
      · exact held.keep (by rw [place]; rfl)
  | arrives place | gives place | takes place | waits place | unlocks place
  | unparks place | enters place | increments place | picks place | wakes place
  | passes place | ends place | leaves place =>
      exact held.keep (by rw [place]; rfl)

/-- The unit is passed on, and the counter with it. -/
theorem Sound.unit_turn
    (sound : semaphore.Sound)
    (turn : semaphore.Turn after) :
    ∃ owner, Guards owner after.phase SemaphorePhase.holdsUnit ∧
      after.count = if owner = none then 1 else 0 := by
  obtain ⟨owner, held, count⟩ := sound.unit
  cases turn with
  | schedules asleep falls => exact ⟨owner, held, count⟩
  | @takes t place positive =>
      cases owner with
      | none =>
          rw [if_pos rfl] at count
          refine ⟨some t, held.acquire rfl, ?_⟩
          rw [if_neg (by simp)]
          show semaphore.count - 1 = 0
          omega
      | some owner =>
          rw [if_neg (by simp)] at count
          omega
  | @increments t place free =>
      have isOwner : owner = some t := (held t).mpr (by rw [place]; rfl)
      rw [isOwner, if_neg (by simp)] at count
      refine ⟨none, held.release (by rw [place]; rfl) rfl, ?_⟩
      show semaphore.count + 1 = 1
      omega
  | locks place =>
      rcases place with place | place
      · exact ⟨owner, held.keep (by rw [place]; rfl), count⟩
      · exact ⟨owner, held.keep (by rw [place]; rfl), count⟩
  | arrives place | gives place | waits place | joins place | unlocks place
  | parks place | unparks place | enters place | opens place | picks place
  | wakes place | passes place | ends place | closes place | leaves place =>
      exact ⟨owner, held.keep (by rw [place]; rfl), count⟩

/-- The counter changes with the mutex locked, so that nobody else is about to
sleep. -/
theorem Sound.zero_turn
    (sound : semaphore.Sound)
    (turn : semaphore.Turn after) :
    ∀ t, (after.phase t).willPark = true → after.count = 0 := by
  have holdsMutex : ∀ {phase : SemaphorePhase τ}, phase.willPark = true →
      phase.holdsMutex = true := by
    intro phase willPark
    cases phase with
    | joining | joined => rfl
    | _ => cases willPark
  have zero := sound.zero
  intro u willPark
  cases turn with
  | @takes t place positive =>
      by_cases isThread : u = t
      · subst isThread
        grind -linarith [SemaphorePhase.willPark]
      · rw [goto_phase, if_neg isThread] at willPark
        have holder : (semaphore.phase t).holdsMutex = true := by
          rw [place]
          rfl
        exact absurd (sound.mutex.unique (holdsMutex willPark) holder) isThread
  | @increments t place free =>
      have held := sound.mutex
      rw [free] at held
      by_cases isThread : u = t
      · subst isThread
        grind -linarith [SemaphorePhase.willPark]
      · rw [goto_phase, if_neg isThread] at willPark
        have holder := holdsMutex willPark
        rw [held.free u] at holder
        cases holder
  | waits place isZero =>
      obtain ⟨owner, -, count⟩ := sound.unit
      grind -linarith
  | _ => grind -linarith [SemaphorePhase.willPark]

theorem Sound.awake_turn
    (sound : semaphore.Sound)
    (turn : semaphore.Turn after) :
    ∀ t, (after.phase t).isAwake = true → after.asleep t = false := by
  have awake := sound.awake
  intro u isAwake
  cases turn with
  | _ => grind -linarith [SemaphorePhase.isAwake, Function.update_apply]

theorem Sound.joined_turn
    (sound : semaphore.Sound)
    (turn : semaphore.Turn after) :
    ∀ t, after.phase t = .joined ∨ after.phase t = .parking →
      after.queued t = true := by
  have joined := sound.joined
  intro u place
  cases turn with
  | _ => grind -linarith [Function.update_apply]

/-- A thread that is being woken up cannot leave the queue, which is locked. -/
theorem Sound.waking_turn
    (sound : semaphore.Sound)
    (turn : semaphore.Turn after) :
    ∀ t sleeper, after.phase t = .waking sleeper →
      after.phase sleeper = .parked := by
  have waking := sound.waking
  intro u sleeper place
  cases turn with
  | @unparks t isParked awake free =>
      have held := sound.queueLock
      rw [free] at held
      have unlocked := held.free u
      grind -linarith [SemaphorePhase.holdsQueue]
  | _ => grind -linarith

/-- A thread is taken out of the queue by the thread that wakes it up. -/
theorem Sound.roused_turn
    (sound : semaphore.Sound)
    (turn : semaphore.Turn after) :
    ∀ t, after.phase t = .parked → after.queued t = false →
      after.asleep t = true → ∃ t', after.phase t' = .waking t := by
  intro u place gone sleeps
  have keeps : semaphore.phase u = .parked → semaphore.queued u = false →
      semaphore.asleep u = true →
      (∀ t', semaphore.phase t' = .waking u → after.phase t' = .waking u) →
      ∃ t', after.phase t' = .waking u := by
    intro isParked isGone isAsleep stays
    obtain ⟨t', waking⟩ := sound.roused u isParked isGone isAsleep
    exact ⟨t', stays t' waking⟩
  cases turn with
  | schedules asleep falls =>
      refine keeps place gone ?_ fun _ => id
      grind -linarith
  | @picks t sleeper scans isParked =>
      by_cases isSleeper : u = sleeper
      · subst isSleeper
        exact ⟨t, by rw [goto_phase, if_pos rfl]⟩
      · refine keeps ?_ ?_ sleeps ?_
        all_goals grind -linarith [Function.update_apply]
  | @parks t isParking =>
      have isQueued := sound.joined t (.inr isParking)
      refine keeps ?_ gone ?_ ?_
      all_goals grind -linarith [Function.update_apply]
  | @wakes t sleeper isWaking =>
      refine keeps ?_ gone ?_ ?_
      all_goals grind -linarith [Function.update_apply]
  | _ =>
      refine keeps ?_ ?_ sleeps ?_
      all_goals grind -linarith [Function.update_apply]

/-- If the unit is free, whoever sleeps is preceded by a thread that comes to take
it.  A thread that gives the unit back comes until it has woken one up, or until it
has found the queue empty, and then nobody sleeps. -/
theorem Sound.handsOver_turn
    (sound : semaphore.Sound)
    (turn : semaphore.Turn after) :
    after.count = 1 → ∀ t, after.Sleeping t → ∃ t', after.Coming t' := by
  intro isOne u sleeps
  have keeps : semaphore.count = 1 → semaphore.Sleeping u →
      (∀ t', semaphore.Coming t' → after.Coming t') →
      ∃ t', after.Coming t' := by
    intro wasOne sleeping stays
    obtain ⟨t', coming⟩ := sound.handsOver wasOne u sleeping
    exact ⟨t', stays t' coming⟩
  cases turn with
  | takes place positive =>
      obtain ⟨owner, -, count⟩ := sound.unit
      grind -linarith
  | @unlocks t place =>
      have isZero := sound.zero t (by rw [place]; rfl)
      grind -linarith
  | @increments t place free =>
      exact ⟨t, .inl (by rw [goto_phase, if_pos rfl]; rfl)⟩
  | @wakes t sleeper place =>
      have isParked := sound.waking t sleeper place
      refine ⟨sleeper, .inr ⟨?_, ?_⟩⟩
      · grind -linarith
      · grind -linarith [Function.update_apply]
  | @ends t place empty =>
      have holder : (semaphore.phase t).holdsQueue = true := by
        rw [place]
        rfl
      rcases sleeps with isParking | ⟨isParked, isAsleep⟩
      · have others : (semaphore.phase u).holdsQueue = true := by
          grind -linarith [SemaphorePhase.holdsQueue]
        have same := sound.queueLock.unique others holder
        grind -linarith
      · have wasParked : semaphore.phase u = .parked := by grind -linarith
        obtain ⟨waker, waking⟩ := sound.roused u wasParked (empty u) isAsleep
        have others : (semaphore.phase waker).holdsQueue = true := by
          rw [waking]
          rfl
        have same := sound.queueLock.unique others holder
        grind -linarith
  | _ =>
      refine keeps isOne ?_ ?_
      · grind -linarith [Function.update_apply, Sleeping]
      · grind -linarith [Function.update_apply, Coming, SemaphorePhase.isComing]

theorem Sound.turn
    (sound : semaphore.Sound)
    (turn : semaphore.Turn after) :
    after.Sound where
  mutex := sound.mutex_turn turn
  queueLock := sound.queueLock_turn turn
  unit := sound.unit_turn turn
  zero := sound.zero_turn turn
  awake := sound.awake_turn turn
  joined := sound.joined_turn turn
  waking := sound.waking_turn turn
  roused := sound.roused_turn turn
  handsOver := sound.handsOver_turn turn

theorem Sound.turns
    (sound : semaphore.Sound)
    (turns : Relation.ReflTransGen Turn semaphore after) :
    after.Sound := by
  induction turns with
  | refl => exact sound
  | tail earlier turn inductionHypothesis => exact inductionHypothesis.turn turn

omit [DecidableEq τ] in
/-- All threads are outside, and the unit is there. -/
theorem sound_of_outside
    (mutex : semaphore.mutex = none)
    (queueLock : semaphore.queueLock = none)
    (count : semaphore.count = 1)
    (outside : ∀ t, semaphore.phase t = .outside) :
    semaphore.Sound := by
  constructor
  case mutex =>
    intro t
    rw [mutex, outside t]
    exact iff_of_false (by simp) Bool.false_ne_true
  case queueLock =>
    intro t
    rw [queueLock, outside t]
    exact iff_of_false (by simp) Bool.false_ne_true
  case unit =>
    refine ⟨none, fun t => ?_, count⟩
    rw [outside t]
    exact iff_of_false (by simp) Bool.false_ne_true
  case zero =>
    intro t willPark
    rw [outside t] at willPark
    cases willPark
  case awake =>
    intro t isAwake
    rw [outside t] at isAwake
    cases isAwake
  case joined =>
    intro t place
    rw [outside t] at place
    simp at place
  case waking =>
    intro t sleeper place
    rw [outside t] at place
    cases place
  case roused =>
    intro t place
    rw [outside t] at place
    cases place
  case handsOver =>
    intro _ t sleeps
    rw [Sleeping, outside t] at sleeps
    simp at sleeps

/-! ## What the semaphore is for -/

omit [DecidableEq τ] in
/-- At most one thread has the unit, and the counter says whether one has it. -/
theorem Sound.exclusive
    (sound : semaphore.Sound) :
    (∀ t t', (semaphore.phase t).holdsUnit = true →
      (semaphore.phase t').holdsUnit = true → t = t') ∧
    (semaphore.count = 0 ∧ (∃ t, (semaphore.phase t).holdsUnit = true) ∨
      semaphore.count = 1 ∧ ∀ t, (semaphore.phase t).holdsUnit = false) := by
  obtain ⟨owner, held, count⟩ := sound.unit
  refine ⟨fun t t' => held.unique, ?_⟩
  cases owner with
  | none => exact .inr ⟨count, held.free⟩
  | some owner => exact .inl ⟨count, owner, (held owner).mp rfl⟩

omit [DecidableEq τ] in
/-- A thread that comes is awake. -/
theorem Sound.coming_awake
    {t : τ}
    (sound : semaphore.Sound)
    (coming : semaphore.Coming t) :
    semaphore.asleep t = false := by
  rcases coming with isComing | ⟨-, awake⟩
  · apply sound.awake
    cases place : semaphore.phase t with
    | testing | returning | notifying | scanning | waking => rfl
    | _ =>
        rw [place] at isComing
        cases isComing
  · exact awake

end Semaphore
end TinierOS
