import TinierOS.Old.CondVar

/-!
# What the calls on a condition variable do

One case for each stretch of `cv_wait`, `Cond_Signal` and `Cond_Broadcast`
between two preemptions, with what the thread has found when it takes it.
-/

namespace TinierOS
namespace CondVar

variable {α τ μ : Type} [DecidableEq α] [DecidableEq τ] [DecidableEq μ]

/-- What one step can do. -/
inductive Turn (cv : CondVar α τ μ) : CondVar α τ μ → Prop
  | apart
      (mutexes : μ → Option τ)
      (state : τ → ThreadState)
      (awake : ∀ t, cv.control t ≠ .own → cv.state t ≠ .init →
        state t ≠ .init) :
      Turn cv { cv with mutexes := mutexes, state := state }
  | begins
      {t : τ}
      {w : α}
      {mutex : μ}
      (running : cv.state t = .running)
      (place : cv.control t = .own)
      (unused : ∀ t', (cv.control t').waiter ≠ some w) :
      Turn cv (cv.cvWait t w mutex)
  | enqueues
      {t : τ}
      {w : α}
      {mutex : μ}
      (place : cv.control t = .locking w mutex)
      (free : cv.waitsetLock = none) :
      Turn cv (cv.enqueue t w mutex)
  | unlocks
      {t : τ}
      {w : α}
      {mutex : μ}
      (place : cv.control t = .enqueued w mutex) :
      Turn cv ((cv.mutexUnlock mutex).goto t (.releasing w mutex))
  | sleeps
      {t : τ}
      {w : α}
      {mutex : μ}
      (place : cv.control t = .releasing w mutex) :
      Turn cv (cv.sleepReleasing t w mutex)
  | finds
      {t : τ}
      {w : α}
      {mutex : μ}
      (place : cv.control t = .asleep w mutex)
      (free : cv.waitsetLock = none)
      (removed : (cv.waiters w).removed = true) :
      Turn cv (cv.goto t (.relocking w mutex))
  | leaves
      {t : τ}
      {w : α}
      {mutex : μ}
      (place : cv.control t = .asleep w mutex)
      (free : cv.waitsetLock = none)
      (removed : (cv.waiters w).removed = false) :
      Turn cv ((cv.removeFromRing w).goto t (.relocking w mutex))
  | returns
      {t : τ}
      {w : α}
      {mutex : μ}
      (place : cv.control t = .relocking w mutex) :
      Turn cv (cv.returnFrom t w mutex)
  | signals
      {t : τ}
      {all : Bool}
      (running : cv.state t = .running)
      (place : cv.control t = .own) :
      Turn cv (cv.goto t (.signalling all))
  | opens
      {t : τ}
      {all : Bool}
      (place : cv.control t = .signalling all)
      (free : cv.waitsetLock = none) :
      Turn cv (cv.openSignal t all)
  | takes
      {t : τ}
      {all : Bool}
      {w : α}
      (place : cv.control t = .scanning all)
      (oldest : cv.set.waitset = some w) :
      Turn cv (cv.takeWaiter t all w)
  | ends
      {t : τ}
      {all : Bool}
      (place : cv.control t = .scanning all)
      (empty : cv.set.waitset = none) :
      Turn cv (cv.goto t (.unlocking all))
  | wakes
      {t : τ}
      {all : Bool}
      {w : α}
      (place : cv.control t = .waking all w) :
      Turn cv (cv.wakeWaiter t all w)
  | closes
      {t : τ}
      {all : Bool}
      (place : cv.control t = .unlocking all) :
      Turn cv (cv.closeSignal t)

/-- A step that changes nothing of the condition variable. -/
theorem Turn.of_state
    {cv : CondVar α τ μ}
    {t : τ}
    {state : ThreadState}
    (awake : cv.control t ≠ .own → state ≠ .init) :
    Turn cv (cv.setState t state) := by
  refine .apart cv.mutexes (Function.update cv.state t state) ?_
  intro t' inCall alive
  rcases eq_or_ne t' t with rfl | apart
  · rw [Function.update_self]
    exact awake inCall
  · rwa [Function.update_of_ne apart]

theorem turn_of_next
    {cv after : CondVar α τ μ}
    {t : τ}
    (stepped : cv.next t = .ok after) :
    Turn cv after := by
  have idle : Turn cv cv := .apart cv.mutexes cv.state fun _ _ alive => alive
  unfold next at stepped
  cases place : cv.control t with
  | own =>
      rw [place] at stepped
      cases stepped
      exact idle
  | locking w mutex =>
      simp only [place] at stepped
      split_ifs at stepped with free <;> cases stepped
      · exact .enqueues place free
      · exact idle
  | enqueued w mutex =>
      simp only [place] at stepped
      cases stepped
      exact .unlocks place
  | releasing w mutex =>
      simp only [place] at stepped
      cases stepped
      exact .sleeps place
  | asleep w mutex =>
      simp only [place, tidyUp] at stepped
      split_ifs at stepped with free removed signalled <;> cases stepped
      · exact .finds place free removed
      · exact .leaves place free (by simpa using removed)
      · exact idle
  | relocking w mutex =>
      simp only [place] at stepped
      split_ifs at stepped with free <;> cases stepped
      · exact .returns place
      · exact idle
  | signalling all =>
      simp only [place] at stepped
      split_ifs at stepped with free <;> cases stepped
      · exact .opens place free
      · exact idle
  | scanning all =>
      simp only [place] at stepped
      cases oldest : cv.set.waitset with
      | none =>
          rw [oldest] at stepped
          cases stepped
          exact .ends place oldest
      | some w =>
          rw [oldest] at stepped
          cases stepped
          exact .takes place oldest
  | waking all w =>
      simp only [place] at stepped
      cases stepped
      exact .wakes place
  | unlocking all =>
      simp only [place] at stepped
      cases stepped
      exact .closes place

theorem turn_of_step
    {cv after : CondVar α τ μ}
    {action : CvAction α τ μ}
    (allowed : cv.Allowed action)
    (stepped : cv.step action = .ok after) :
    Turn cv after := by
  cases action with
  | lock t mutex =>
      simp only [step] at stepped
      split_ifs at stepped <;> cases stepped
      · exact .apart _ cv.state fun _ _ alive => alive
      · exact .apart cv.mutexes cv.state fun _ _ alive => alive
  | unlock t mutex =>
      cases stepped
      exact .apart _ cv.state fun _ _ alive => alive
  | wait t w mutex =>
      cases stepped
      exact .begins allowed.1 allowed.2.1 allowed.2.2
  | signal t all =>
      cases stepped
      exact .signals allowed.1 allowed.2
  | next t => exact turn_of_next stepped
  | wake t =>
      simp only [step, wakeup] at stepped
      split_ifs at stepped <;> cases stepped
      · exact .of_state fun _ => by simp
      · exact .apart cv.mutexes cv.state fun _ _ alive => alive
  | dispatch t =>
      cases stepped
      exact .of_state fun _ => by simp
  | preempt t =>
      cases stepped
      exact .of_state fun _ => by simp
  | other t state =>
      cases stepped
      exact .of_state fun inCall => absurd allowed inCall

omit [DecidableEq μ] in
/-- A waiter whose thread sleeps is made ready and marked. -/
theorem wakeWaiter_of_sleeping
    {cv : CondVar α τ μ}
    {t : τ}
    {all : Bool}
    {w : α}
    (sleeps : cv.state (cv.waiters w).thread = .stopped ∨
      cv.state (cv.waiters w).thread = .init) :
    cv.wakeWaiter t all w =
      { cv with
        waiters := Function.update cv.waiters w
          { cv.waiters w with signalled := true }
        state := Function.update cv.state (cv.waiters w).thread .ready
        control := Function.update cv.control t
          (if all then .scanning all else .unlocking all)
        log := (cv.log.tryWaiter ⟨(cv.waiters w).call,
          cv.state (cv.waiters w).thread, .ready⟩).mark
            (cv.waiters w).call } := by
  simp [wakeWaiter, wakeup, sleeps, setState, modifyWaiter, goto]

omit [DecidableEq μ] in
/-- A waiter whose thread does not sleep is passed over. -/
theorem wakeWaiter_of_awake
    {cv : CondVar α τ μ}
    {t : τ}
    {all : Bool}
    {w : α}
    (awake : ¬(cv.state (cv.waiters w).thread = .stopped ∨
      cv.state (cv.waiters w).thread = .init)) :
    cv.wakeWaiter t all w =
      { cv with
        control := Function.update cv.control t (.scanning all)
        log := cv.log.tryWaiter ⟨(cv.waiters w).call,
          cv.state (cv.waiters w).thread,
          cv.state (cv.waiters w).thread⟩ } := by
  simp [wakeWaiter, wakeup, awake, goto]

end CondVar
end TinierOS
