import TinierOS.Old.CondVarRing
import TinierOS.Library.Transition

/-!
# Signals are neither lost nor duplicated

What the signals of a condition variable do to its waiters, in every run.
-/

namespace TinierOS

namespace CvSignal

/-- The tried calls are the first of those that were found, and `rest` are the
others; the marked ones are those whose threads were stopped, and those threads
are the ones that have become ready. -/
structure Follows
    (signal : CvSignal)
    (rest : List Nat) : Prop where
  order : signal.found = signal.tried.map CvTry.call ++ rest
  marks : signal.marked = (signal.tried.filter fun attempt =>
    attempt.before = .stopped).map CvTry.call
  effect : ∀ attempt ∈ signal.tried, attempt.after =
    if attempt.before = .stopped then .ready else attempt.before

/-- No thread that was tried was stopped. -/
def FoundAwake (signal : CvSignal) : Prop :=
  ∀ attempt ∈ signal.tried, attempt.before ≠ .stopped

/-- Exactly one call has been marked, the first whose thread was stopped; or
none was stopped, and none is left. -/
def MarksFirst (signal : CvSignal) (rest : List Nat) : Prop :=
  (∃ skipped chosen, signal.tried = skipped ++ [chosen] ∧
    (∀ attempt ∈ skipped, attempt.before ≠ .stopped) ∧
    chosen.before = .stopped ∧ chosen.after = .ready ∧
    signal.marked = [chosen.call]) ∨
  rest = [] ∧ signal.FoundAwake ∧ signal.marked = []

/-- The signal after it has woken the thread of a call. -/
def woke (signal : CvSignal) (call : Nat) : CvSignal :=
  { signal with
    tried := signal.tried ++ [⟨call, .stopped, .ready⟩]
    marked := signal.marked ++ [call] }

/-- The signal after it has found the thread of a call in another state. -/
def passed (signal : CvSignal) (call : Nat) (state : ThreadState) : CvSignal :=
  { signal with tried := signal.tried ++ [⟨call, state, state⟩] }

/-- What a signal has done when it unlocks the wait set. -/
structure Served
    (signal : CvSignal)
    (rest : List Nat) : Prop where
  follows : signal.Follows rest
  single : signal.all = false → signal.MarksFirst rest
  broadcast : signal.all = true → rest = []

theorem FoundAwake.marked
    {signal : CvSignal}
    {rest : List Nat}
    (awake : signal.FoundAwake)
    (follows : signal.Follows rest) :
    signal.marked = [] := by
  rw [follows.marks, List.map_eq_nil_iff, List.filter_eq_nil_iff]
  intro attempt member
  simpa using awake attempt member

/-- A signal that has just locked the wait set. -/
theorem Follows.opened
    (all : Bool)
    (calls : List Nat) :
    Follows ⟨all, calls, [], [], none⟩ calls :=
  ⟨rfl, rfl, fun _ member => absurd member List.not_mem_nil⟩

/-- One more waiter has been tried and was stopped. -/
theorem Follows.woke
    {signal : CvSignal}
    {call : Nat}
    {rest : List Nat}
    (follows : signal.Follows (call :: rest)) :
    (signal.woke call).Follows rest := by
  constructor
  · simp [CvSignal.woke, follows.order]
  · simp [CvSignal.woke, follows.marks]
  · intro attempt member
    rcases List.mem_append.mp member with earlier | last
    · exact follows.effect attempt earlier
    · rw [List.mem_singleton.mp last]
      rfl

/-- One more waiter has been tried and was not stopped. -/
theorem Follows.passed
    {signal : CvSignal}
    {call : Nat}
    {rest : List Nat}
    {state : ThreadState}
    (follows : signal.Follows (call :: rest))
    (awake : state ≠ .stopped) :
    (signal.passed call state).Follows rest := by
  constructor
  · simp [CvSignal.passed, follows.order]
  · simp [CvSignal.passed, follows.marks, awake]
  · intro attempt member
    rcases List.mem_append.mp member with earlier | last
    · exact follows.effect attempt earlier
    · rw [List.mem_singleton.mp last, if_neg awake]

/-- A signal ends when one waiter has been woken. -/
theorem FoundAwake.marksFirst
    {signal : CvSignal}
    {call : Nat}
    {rest : List Nat}
    (awake : signal.FoundAwake)
    (follows : signal.Follows (call :: rest)) :
    (signal.woke call).MarksFirst rest := by
  refine .inl ⟨signal.tried, ⟨call, .stopped, .ready⟩, rfl, awake, rfl, rfl, ?_⟩
  rw [woke, awake.marked follows]
  rfl

theorem FoundAwake.passed
    {signal : CvSignal}
    {state : ThreadState}
    (found : signal.FoundAwake)
    (call : Nat)
    (awake : state ≠ .stopped) :
    (signal.passed call state).FoundAwake := by
  intro attempt member
  rcases List.mem_append.mp member with earlier | last
  · exact found attempt earlier
  · rw [List.mem_singleton.mp last]
    exact awake

end CvSignal

namespace CvLog

variable {α : Type}

@[simp] theorem marked_tryWaiter (log : CvLog α) (attempt : CvTry) :
    (log.tryWaiter attempt).marked = log.marked := by
  unfold marked tryWaiter
  cases log.signals <;> simp

@[simp] theorem marked_openSignal (log : CvLog α) (all : Bool) :
    (log.openSignal all).marked = log.marked := by
  simp [marked, openSignal]

@[simp] theorem marked_closeSignal (log : CvLog α) :
    log.closeSignal.marked = log.marked := by
  unfold marked closeSignal
  cases log.signals <;> simp

/-- A mark that is set during a signal. -/
theorem marked_mark
    {log : CvLog α}
    {signal : CvSignal}
    {older : List CvSignal}
    (current : log.signals = signal :: older)
    (call : Nat) :
    (log.mark call).marked.Perm (call :: log.marked) := by
  simp only [marked, mark, current, List.modifyHead_cons, List.flatMap_cons,
    List.append_assoc, List.singleton_append]
  exact List.perm_middle

end CvLog

namespace CondVar

variable {α τ μ : Type}

/-- How far the current signal is. -/
def Serves
    (log : CvLog α)
    (waiters : α → CvWaiter τ) : CvControl α μ → Prop
  | .scanning all => ∃ signal older, log.signals = signal :: older ∧
      signal.left = none ∧ signal.all = all ∧ signal.Follows log.calls ∧
      (all = false → signal.FoundAwake)
  | .waking all w => ∃ signal older, log.signals = signal :: older ∧
      signal.left = none ∧ signal.all = all ∧
      signal.Follows ((waiters w).call :: log.calls) ∧
      (all = false → signal.FoundAwake)
  | .unlocking all => ∃ signal older, log.signals = signal :: older ∧
      signal.left = none ∧ signal.all = all ∧ signal.Served log.calls
  | _ => True

/-- Every signal that has been completed has done what it should, and the
current one is about to. -/
structure Answered (cv : CondVar α τ μ) : Prop where
  serves : ∀ t, Serves cv.log cv.waiters (cv.control t)
  served : ∀ signal ∈ cv.log.signals, ∀ left, signal.left = some left →
    signal.Served left

/-- The marks of the waiters, the log and the results agree. -/
structure Marked (cv : CondVar α τ μ) : Prop where
  fresh : ∀ t w mutex, cv.control t = .locking w mutex →
    (cv.waiters w).signalled = false
  marks : ∀ t w, (cv.control t).arrived = some w →
    ((cv.waiters w).signalled = true ↔ (cv.waiters w).call ∈ cv.log.marked)
  removed : ∀ call ∈ cv.log.marked, call ∈ cv.log.removals
  once : cv.log.marked.Nodup
  results : ∀ call signalled, (call, signalled) ∈ cv.log.returned →
    (signalled = true ↔ call ∈ cv.log.marked)
  waking : ∀ t all w, cv.control t = .waking all w →
    (cv.waiters w).call ∉ cv.log.marked

theorem serves_of_unlocked
    {log : CvLog α}
    {waiters : α → CvWaiter τ}
    {control : CvControl α μ}
    (unlocked : control.holdsLock ≠ true) :
    Serves log waiters control := by
  cases control with
  | scanning all => exact absurd rfl unlocked
  | waking all w => exact absurd rfl unlocked
  | unlocking all => exact absurd rfl unlocked
  | own => trivial
  | locking w mutex => trivial
  | enqueued w mutex => trivial
  | releasing w mutex => trivial
  | asleep w mutex => trivial
  | relocking w mutex => trivial
  | signalling all => trivial

theorem serves_congr
    {log log' : CvLog α}
    {waiters waiters' : α → CvWaiter τ}
    {control : CvControl α μ}
    (serves : Serves log waiters control)
    (sameSignals : log'.signals = log.signals)
    (sameCalls : log'.calls = log.calls)
    (sameWaiters : ∀ w, (waiters' w).call = (waiters w).call) :
    Serves log' waiters' control := by
  cases control with
  | scanning all =>
      simp only [Serves] at serves ⊢
      rwa [sameSignals, sameCalls]
  | waking all w =>
      simp only [Serves] at serves ⊢
      rwa [sameSignals, sameCalls, sameWaiters w]
  | unlocking all =>
      simp only [Serves] at serves ⊢
      rwa [sameSignals, sameCalls]
  | own => trivial
  | locking w mutex => trivial
  | enqueued w mutex => trivial
  | releasing w mutex => trivial
  | asleep w mutex => trivial
  | relocking w mutex => trivial
  | signalling all => trivial

variable [DecidableEq α] [DecidableEq τ] [DecidableEq μ]

namespace Answered

variable {cv after : CondVar α τ μ}
variable {t : τ}
variable {control : CvControl α μ}

omit [DecidableEq α] [DecidableEq μ] in
/-- A step that has nothing to do with a signal. -/
theorem of_same
    (answered : cv.Answered)
    (control : CvControl α μ)
    (moved : after.control = Function.update cv.control t control)
    (notSignal : Serves after.log after.waiters control)
    (sameSignals : after.log.signals = cv.log.signals)
    (sameCalls : after.log.calls = cv.log.calls)
    (sameWaiters : ∀ w, (after.waiters w).call = (cv.waiters w).call) :
    after.Answered := by
  constructor
  · intro t'
    rw [moved]
    rcases eq_or_ne t' t with rfl | apart
    · rwa [Function.update_self]
    · rw [Function.update_of_ne apart]
      exact serves_congr (answered.serves t') sameSignals sameCalls sameWaiters
  · rw [sameSignals]
    exact answered.served

omit [DecidableEq α] [DecidableEq μ] in
/-- A step of a thread while no other one holds the lock. -/
theorem of_unlocked
    (cv : CondVar α τ μ)
    (t : τ)
    (control : CvControl α μ)
    (moved : after.control = Function.update cv.control t control)
    (unlocked : ∀ t' ≠ t, (cv.control t').holdsLock ≠ true)
    (serves : Serves after.log after.waiters control)
    (served : ∀ signal ∈ after.log.signals, ∀ left,
      signal.left = some left → signal.Served left) :
    after.Answered := by
  refine ⟨fun t' => ?_, served⟩
  rw [moved]
  rcases eq_or_ne t' t with rfl | apart
  · rwa [Function.update_self]
  · rw [Function.update_of_ne apart]
    exact serves_of_unlocked (unlocked t' apart)

omit [DecidableEq α] [DecidableEq τ] [DecidableEq μ] in
/-- Taking a waiter off the ring takes its call off the calls that are left. -/
theorem calls_remove
    {w : α}
    (placed : cv.Placed)
    (oldest : cv.set.waitset = some w) :
    cv.log.calls = (cv.waiters w).call ::
      (cv.log.remove (cv.waiters w).call).calls := by
  have holds := placed.holds.oldest
  rw [oldest, CvLog.waiters, List.head?_map] at holds
  cases present : cv.log.present with
  | nil =>
      rw [present] at holds
      cases holds
  | cons first later =>
      rw [present] at holds
      obtain ⟨w', call⟩ := first
      rw [List.head?_cons, Option.map_some, Option.some.injEq] at holds
      subst holds
      have member : (w, call) ∈ cv.log.present := by
        rw [present]
        exact List.mem_cons_self
      obtain ⟨arrival, stays⟩ := CvLog.mem_present.mp member
      obtain ⟨t, queued, isCall⟩ := placed.waits call w arrival stays
      subst isCall
      have removed : (cv.log.remove (cv.waiters w).call).present = [] ++ later :=
        CvLog.present_remove present
      rw [CvLog.calls, CvLog.calls, removed, present]
      rfl

omit [DecidableEq α] [DecidableEq τ] [DecidableEq μ] in
/-- The current signal changes. -/
theorem served_modifyHead
    {signal : CvSignal}
    {older : List CvSignal}
    {change : CvSignal → CvSignal}
    (answered : cv.Answered)
    (current : cv.log.signals = signal :: older)
    (changed : ∀ left, (change signal).left = some left →
      (change signal).Served left) :
    ∀ signal ∈ cv.log.signals.modifyHead change, ∀ left,
      signal.left = some left → signal.Served left := by
  rw [current, List.modifyHead_cons]
  intro other member left isLeft
  rcases List.mem_cons.mp member with rfl | inOlder
  · exact changed left isLeft
  · refine answered.served other ?_ left isLeft
    rw [current]
    exact List.mem_cons_of_mem _ inOlder

omit [DecidableEq α] [DecidableEq μ] in
theorem opens
    {all : Bool}
    (answered : cv.Answered)
    (placed : cv.Placed)
    (free : cv.waitsetLock = none) :
    (cv.openSignal t all).Answered := by
  apply of_unlocked cv t (.scanning all)
  · rfl
  · exact fun t' _ => placed.unlocked free t'
  · exact ⟨_, _, rfl, rfl, rfl, .opened all cv.log.calls,
      fun _ _ member => absurd member List.not_mem_nil⟩
  · intro signal member left isLeft
    rcases List.mem_cons.mp member with rfl | inOlder
    · cases isLeft
    · exact answered.served signal inOlder left isLeft

omit [DecidableEq μ] in
theorem takes
    {all : Bool}
    {w : α}
    (answered : cv.Answered)
    (placed : cv.Placed)
    (place : cv.control t = .scanning all)
    (oldest : cv.set.waitset = some w) :
    (cv.takeWaiter t all w).Answered := by
  have serves := answered.serves t
  rw [place] at serves
  obtain ⟨signal, older, current, isOpen, isAll, follows, awake⟩ := serves
  rw [calls_remove placed oldest] at follows
  apply of_unlocked cv t (.waking all w)
  · rfl
  · exact fun t' => placed.others_unlocked (by rw [place]; rfl)
  · refine ⟨signal, older, current, isOpen, isAll, ?_, awake⟩
    simp only [takeWaiter, goto, modifyWaiter, removeFromRing,
      Function.update_self]
    exact follows
  · exact answered.served

omit [DecidableEq α] [DecidableEq μ] in
theorem ends
    {all : Bool}
    (answered : cv.Answered)
    (placed : cv.Placed)
    (place : cv.control t = .scanning all)
    (empty : cv.set.waitset = none) :
    (cv.goto t (.unlocking all)).Answered := by
  have serves := answered.serves t
  rw [place] at serves
  obtain ⟨signal, older, current, isOpen, isAll, follows, awake⟩ := serves
  have noCalls : cv.log.calls = [] := by
    have holds := placed.holds.oldest
    rw [empty, CvLog.waiters, List.head?_map, eq_comm, Option.map_eq_none_iff,
      List.head?_eq_none_iff] at holds
    rw [CvLog.calls, holds, List.map_nil]
  apply of_unlocked cv t (.unlocking all)
  · rfl
  · exact fun t' => placed.others_unlocked (by rw [place]; rfl)
  · refine ⟨signal, older, current, isOpen, isAll, follows, ?_, fun _ => noCalls⟩
    intro single
    have stillAwake := awake (isAll ▸ single)
    exact .inr ⟨noCalls, stillAwake, stillAwake.marked follows⟩
  · exact answered.served

omit [DecidableEq μ] in
theorem wakes
    {all : Bool}
    {w : α}
    (answered : cv.Answered)
    (placed : cv.Placed)
    (place : cv.control t = .waking all w) :
    (cv.wakeWaiter t all w).Answered := by
  have serves := answered.serves t
  rw [place] at serves
  obtain ⟨signal, older, current, isOpen, isAll, follows, awake⟩ := serves
  obtain ⟨_, sleeper, mutex, asleep⟩ := placed.waking t all w place
  have isThread : (cv.waiters w).thread = sleeper :=
    ((placed.threads sleeper).owner w (by rw [asleep]; rfl)).1
  have alive : cv.state (cv.waiters w).thread ≠ .init := by
    rw [isThread]
    exact placed.awake sleeper (by simp [asleep])
  have others : ∀ t' ≠ t, (cv.control t').holdsLock ≠ true := fun t' =>
    placed.others_unlocked (by rw [place]; rfl)
  by_cases stopped : cv.state (cv.waiters w).thread = .stopped
  · rw [wakeWaiter_of_sleeping (.inl stopped), stopped]
    apply of_unlocked cv t
      (if all then .scanning all else .unlocking all)
    · rfl
    · exact others
    · cases all with
      | true =>
          refine ⟨signal.woke (cv.waiters w).call, older, ?_, isOpen, isAll,
            follows.woke, nofun⟩
          simp only [CvLog.mark, CvLog.tryWaiter, current, List.modifyHead_cons,
            CvSignal.woke]
      | false =>
          refine ⟨signal.woke (cv.waiters w).call, older, ?_, isOpen, isAll,
            follows.woke, fun _ => (awake rfl).marksFirst follows, ?_⟩
          · simp only [CvLog.mark, CvLog.tryWaiter, current,
              List.modifyHead_cons, CvSignal.woke]
          · intro isBroadcast
            exact absurd (isAll.symm.trans isBroadcast) nofun
    · simp only [CvLog.mark, CvLog.tryWaiter, List.modifyHead_modifyHead]
      apply answered.served_modifyHead current
      intro left isLeft
      exact absurd (isOpen.symm.trans isLeft) nofun
  · rw [wakeWaiter_of_awake (not_or.mpr ⟨stopped, alive⟩)]
    apply of_unlocked cv t (.scanning all)
    · rfl
    · exact others
    · refine ⟨signal.passed (cv.waiters w).call
        (cv.state (cv.waiters w).thread), older, ?_, isOpen, isAll,
        follows.passed stopped, fun single => (awake single).passed _ stopped⟩
      simp only [CvLog.tryWaiter, current, List.modifyHead_cons, CvSignal.passed]
    · apply answered.served_modifyHead current
      intro left isLeft
      exact absurd (isOpen.symm.trans isLeft) nofun

omit [DecidableEq α] [DecidableEq μ] in
theorem closes
    {all : Bool}
    (answered : cv.Answered)
    (place : cv.control t = .unlocking all)
    (placed : cv.Placed) :
    (cv.closeSignal t).Answered := by
  have serves := answered.serves t
  rw [place] at serves
  obtain ⟨signal, older, current, isOpen, isAll, served⟩ := serves
  apply of_unlocked cv t .own
  · rfl
  · exact fun t' => placed.others_unlocked (by rw [place]; rfl)
  · trivial
  · apply answered.served_modifyHead current
    intro left isLeft
    cases isLeft
    exact ⟨⟨served.follows.order, served.follows.marks, served.follows.effect⟩,
      served.single, served.broadcast⟩

/-- Every step keeps what the signals have done. -/
theorem turn
    (answered : cv.Answered)
    (placed : cv.Placed)
    (turn : cv.Turn after) :
    after.Answered := by
  cases turn with
  | apart mutexes state awake => exact ⟨answered.serves, answered.served⟩
  | @begins t w mutex running place unused =>
      apply answered.of_same (t := t) (.locking w mutex)
      · rfl
      · trivial
      · rfl
      · rfl
      · intro w'
        simp only [cvWait, goto, modifyWaiter]
        rcases eq_or_ne w' w with rfl | different
        · rw [Function.update_self]
        · rw [Function.update_of_ne different]
  | @enqueues t w mutex place free =>
      apply of_unlocked cv t (.enqueued w mutex)
      · rfl
      · exact fun t' _ => placed.unlocked free t'
      · trivial
      · exact answered.served
  | @unlocks t w mutex place =>
      exact answered.of_same (t := t) (.releasing w mutex) rfl trivial
        rfl rfl fun _ => rfl
  | @sleeps t w mutex place =>
      exact answered.of_same (t := t) (.asleep w mutex) rfl trivial
        rfl rfl fun _ => rfl
  | @finds t w mutex place free removed =>
      exact answered.of_same (t := t) (.relocking w mutex) rfl trivial
        rfl rfl fun _ => rfl
  | @leaves t w mutex place free removed =>
      apply of_unlocked cv t (.relocking w mutex)
      · rfl
      · exact fun t' _ => placed.unlocked free t'
      · trivial
      · exact answered.served
  | @returns t w mutex place =>
      exact answered.of_same (t := t) .own rfl trivial
        rfl rfl fun _ => rfl
  | @signals t all running place =>
      exact answered.of_same (t := t) (.signalling all) rfl trivial
        rfl rfl fun _ => rfl
  | opens place free => exact answered.opens placed free
  | takes place oldest => exact answered.takes placed place oldest
  | ends place empty => exact answered.ends placed place empty
  | wakes place => exact answered.wakes placed place
  | closes place => exact answered.closes place placed

end Answered

namespace Marked

variable {cv after : CondVar α τ μ}
variable {t : τ}
variable {control : CvControl α μ}

omit [DecidableEq α] [DecidableEq μ] in
/-- A step that marks nothing and changes no waiter of another thread. -/
theorem of_move
    (marked : cv.Marked)
    (control : CvControl α μ)
    (moved : after.control = Function.update cv.control t control)
    (others : ∀ t' w, t' ≠ t → (cv.control t').waiter = some w →
      (after.waiters w).signalled = (cv.waiters w).signalled ∧
        (after.waiters w).call = (cv.waiters w).call)
    (fresh : ∀ w mutex, control = .locking w mutex →
      (after.waiters w).signalled = false)
    (marks : ∀ w, control.arrived = some w →
      ((after.waiters w).signalled = true ↔
        (after.waiters w).call ∈ cv.log.marked))
    (waking : ∀ all w, control = .waking all w →
      (after.waiters w).call ∉ cv.log.marked)
    (othersWaking : ∀ t' all w, t' ≠ t → cv.control t' = .waking all w →
      (after.waiters w).call = (cv.waiters w).call)
    (sameMarked : after.log.marked = cv.log.marked)
    (removals : ∀ call ∈ cv.log.removals, call ∈ after.log.removals)
    (results : ∀ call signalled, (call, signalled) ∈ after.log.returned →
      (signalled = true ↔ call ∈ cv.log.marked)) :
    after.Marked := by
  constructor
  case fresh =>
      intro t' w mutex locking
      rw [moved] at locking
      rcases eq_or_ne t' t with rfl | apart
      · rw [Function.update_self] at locking
        exact fresh w mutex locking
      · rw [Function.update_of_ne apart] at locking
        rw [(others t' w apart (by rw [locking]; rfl)).1]
        exact marked.fresh t' w mutex locking
  case marks =>
      intro t' w arrived
      rw [moved] at arrived
      rw [sameMarked]
      rcases eq_or_ne t' t with rfl | apart
      · rw [Function.update_self] at arrived
        exact marks w arrived
      · rw [Function.update_of_ne apart] at arrived
        obtain ⟨sameSignalled, sameCall⟩ :=
          others t' w apart (CvControl.waiter_of_arrived arrived)
        rw [sameSignalled, sameCall]
        exact marked.marks t' w arrived
  case removed =>
      rw [sameMarked]
      exact fun call member => removals call (marked.removed call member)
  case once =>
      rw [sameMarked]
      exact marked.once
  case results =>
      rw [sameMarked]
      exact results
  case waking =>
      intro t' all w place
      rw [moved] at place
      rw [sameMarked]
      rcases eq_or_ne t' t with rfl | apart
      · rw [Function.update_self] at place
        exact waking all w place
      · rw [Function.update_of_ne apart] at place
        rw [othersWaking t' all w apart place]
        exact marked.waking t' all w place

omit [DecidableEq α] [DecidableEq μ] in
/-- A step of one thread to another point of its call. -/
theorem of_goto
    (marked : cv.Marked)
    (control : CvControl α μ)
    (moved : after.control = Function.update cv.control t control)
    (sameWaiters : after.waiters = cv.waiters)
    (sameMarked : after.log.marked = cv.log.marked)
    (removals : ∀ call ∈ cv.log.removals, call ∈ after.log.removals)
    (sameReturned : after.log.returned = cv.log.returned)
    (notLocking : ∀ w mutex, control ≠ .locking w mutex)
    (notWaking : ∀ all w, control ≠ .waking all w)
    (arrived : ∀ w, control.arrived = some w →
      (cv.control t).arrived = some w) :
    after.Marked := by
  apply marked.of_move control moved
  · rw [sameWaiters]
    exact fun _ _ _ _ => ⟨rfl, rfl⟩
  · exact fun w mutex locking => absurd locking (notLocking w mutex)
  · rw [sameWaiters]
    exact fun w isArrived => marked.marks t w (arrived w isArrived)
  · exact fun all w waking => absurd waking (notWaking all w)
  · rw [sameWaiters]
    exact fun _ _ _ _ _ => rfl
  · exact sameMarked
  · exact removals
  · rw [sameReturned]
    exact marked.results

omit [DecidableEq μ] in
theorem wakes
    {all : Bool}
    {w : α}
    (marked : cv.Marked)
    (placed : cv.Placed)
    (answered : cv.Answered)
    (place : cv.control t = .waking all w) :
    (cv.wakeWaiter t all w).Marked := by
  have serves := answered.serves t
  rw [place] at serves
  obtain ⟨signal, older, current, _⟩ := serves
  obtain ⟨isRemoved, sleeper, mutex, asleep⟩ := placed.waking t all w place
  have queued : (cv.control sleeper).queued = some w := by rw [asleep]; rfl
  have isArrived := CvControl.arrived_of_queued queued
  have unmarked := marked.waking t all w place
  by_cases sleeps : cv.state (cv.waiters w).thread = .stopped ∨
      cv.state (cv.waiters w).thread = .init
  · rw [wakeWaiter_of_sleeping sleeps]
    have current' : (cv.log.tryWaiter ⟨(cv.waiters w).call,
        cv.state (cv.waiters w).thread, .ready⟩).signals =
        { signal with tried := signal.tried ++ [⟨(cv.waiters w).call,
          cv.state (cv.waiters w).thread, .ready⟩] } :: older := by
      simp only [CvLog.tryWaiter, current, List.modifyHead_cons]
    have adds := CvLog.marked_mark current' (cv.waiters w).call
    rw [CvLog.marked_tryWaiter] at adds
    have isMarked : ∀ call, call ∈ ((cv.log.tryWaiter ⟨(cv.waiters w).call,
        cv.state (cv.waiters w).thread, .ready⟩).mark (cv.waiters w).call).marked ↔
          call = (cv.waiters w).call ∨ call ∈ cv.log.marked := by
      intro call
      rw [adds.mem_iff, List.mem_cons]
    constructor
    case fresh =>
        intro t' w' mutex' locking
        dsimp only at locking ⊢
        rcases eq_or_ne t' t with rfl | apart
        · rw [Function.update_self] at locking
          cases all <;> cases locking
        · rw [Function.update_of_ne apart] at locking
          have different : w' ≠ w := by
            rintro rfl
            have isWaiter : (cv.control t').waiter = some w' := by
              rw [locking]
              rfl
            have same := placed.same_thread isWaiter
              (CvControl.waiter_of_arrived isArrived)
            rw [same, asleep] at locking
            cases locking
          rw [Function.update_of_ne different]
          exact marked.fresh t' w' mutex' locking
    case marks =>
        intro t' w' arrived
        dsimp only at arrived ⊢
        rcases eq_or_ne t' t with rfl | apart
        · rw [Function.update_self] at arrived
          cases all <;> cases arrived
        · rw [Function.update_of_ne apart] at arrived
          rw [isMarked]
          rcases eq_or_ne t' sleeper with rfl | awake
          · rw [isArrived] at arrived
            cases arrived
            rw [Function.update_self]
            exact iff_of_true rfl (.inl rfl)
          · have different := placed.waiter_ne awake
              (CvControl.waiter_of_arrived isArrived)
              (CvControl.waiter_of_arrived arrived)
            rw [Function.update_of_ne different,
              or_iff_right (placed.call_ne awake isArrived arrived)]
            exact marked.marks t' w' arrived
    case removed =>
        intro call member
        rcases (isMarked call).mp member with rfl | earlier
        · exact ((placed.threads sleeper).removed w queued).mpr isRemoved
        · exact marked.removed call earlier
    case once => exact adds.nodup_iff.mpr (List.nodup_cons.mpr ⟨unmarked, marked.once⟩)
    case results =>
        intro call signalled returned
        have inProgress := ((placed.threads sleeper).arrived w isArrived).2
        have different : call ≠ (cv.waiters w).call := by
          rintro rfl
          exact inProgress (List.mem_map_of_mem returned)
        rw [isMarked, or_iff_right different]
        exact marked.results call signalled returned
    case waking =>
        intro t' all' w' waking
        dsimp only at waking
        rcases eq_or_ne t' t with rfl | apart
        · rw [Function.update_self] at waking
          cases all <;> cases waking
        · rw [Function.update_of_ne apart] at waking
          exact absurd (by rw [waking]; rfl)
            (placed.others_unlocked (t := t) (by rw [place]; rfl) apart)
  · rw [wakeWaiter_of_awake sleeps]
    apply marked.of_goto (t := t) (.scanning all)
    · rfl
    · rfl
    · exact CvLog.marked_tryWaiter ..
    · exact fun _ => id
    · rfl
    all_goals exact nofun

omit [DecidableEq μ] in
theorem begins
    {w : α}
    {mutex : μ}
    (marked : cv.Marked)
    (unused : ∀ t', (cv.control t').waiter ≠ some w) :
    (cv.cvWait t w mutex).Marked := by
  have sameCall : ∀ w', ((cv.cvWait t w mutex).waiters w').call =
      (cv.waiters w').call := by
    intro w'
    simp only [cvWait, goto, modifyWaiter]
    rcases eq_or_ne w' w with rfl | different
    · rw [Function.update_self]
    · rw [Function.update_of_ne different]
  apply marked.of_move (t := t) (.locking w mutex)
  · rfl
  · intro t' w' _ isWaiter
    have different : w' ≠ w := by
      rintro rfl
      exact unused t' isWaiter
    simp only [cvWait, goto, modifyWaiter, Function.update_of_ne different]
    exact ⟨trivial, trivial⟩
  · intro w' mutex' locking
    cases locking
    simp [cvWait, goto, modifyWaiter]
  · intro w' arrived
    cases arrived
  · intro all w' waking
    cases waking
  · exact fun _ _ w' _ _ => sameCall w'
  · rfl
  · exact fun _ => id
  · exact marked.results

omit [DecidableEq μ] in
theorem enqueues
    {w : α}
    {mutex : μ}
    (marked : cv.Marked)
    (placed : cv.Placed)
    (place : cv.control t = .locking w mutex)
    (free : cv.waitsetLock = none) :
    (cv.enqueue t w mutex).Marked := by
  have isWaiter : (cv.control t).waiter = some w := by rw [place]; rfl
  apply marked.of_move (t := t) (.enqueued w mutex)
  · rfl
  · intro t' w' apart isWaiter'
    simp only [enqueue, goto, modifyWaiter,
      Function.update_of_ne (placed.waiter_ne apart isWaiter isWaiter')]
    exact ⟨trivial, trivial⟩
  · intro w' mutex' locking
    cases locking
  · intro w' arrived
    cases arrived
    simp only [enqueue, goto, modifyWaiter, Function.update_self]
    rw [marked.fresh t w mutex place]
    refine iff_of_false Bool.false_ne_true fun member => ?_
    exact absurd (placed.bounded _ (marked.removed _ member)) (lt_irrefl _)
  · intro all w' waking
    cases waking
  · intro t' all w' apart waking
    exact absurd (by rw [waking]; rfl) (placed.unlocked free t')
  · rfl
  · exact fun _ => id
  · exact marked.results

omit [DecidableEq μ] in
theorem takes
    {all : Bool}
    {w : α}
    (marked : cv.Marked)
    (placed : cv.Placed)
    (place : cv.control t = .scanning all)
    (oldest : cv.set.waitset = some w) :
    (cv.takeWaiter t all w).Marked := by
  obtain ⟨notRemoved, _⟩ := placed.oldest_asleep place oldest
  have same : ∀ w', ((cv.takeWaiter t all w).waiters w').signalled =
        (cv.waiters w').signalled ∧
      ((cv.takeWaiter t all w).waiters w').call = (cv.waiters w').call := by
    intro w'
    simp only [takeWaiter, goto, modifyWaiter, removeFromRing]
    rcases eq_or_ne w' w with rfl | different
    · rw [Function.update_self]
      exact ⟨rfl, rfl⟩
    · rw [Function.update_of_ne different]
      exact ⟨rfl, rfl⟩
  apply marked.of_move (t := t) (.waking all w)
  · rfl
  · exact fun _ w' _ _ => same w'
  · intro w' mutex' locking
    cases locking
  · intro w' arrived
    cases arrived
  · intro all' w' waking
    cases waking
    rw [(same w).2]
    exact fun member => notRemoved (marked.removed _ member)
  · exact fun _ _ w' _ _ => (same w').2
  · rfl
  · exact fun _ => List.mem_cons_of_mem _
  · exact marked.results

omit [DecidableEq α] in
theorem returns
    {w : α}
    {mutex : μ}
    (marked : cv.Marked)
    (place : cv.control t = .relocking w mutex) :
    (cv.returnFrom t w mutex).Marked := by
  apply marked.of_move (t := t) .own
  · rfl
  · exact fun _ _ _ _ => ⟨rfl, rfl⟩
  · exact nofun
  · exact nofun
  · exact nofun
  · exact fun _ _ _ _ _ => rfl
  · rfl
  · exact fun _ => id
  · intro call signalled member
    rcases List.mem_append.mp member with earlier | last
    · exact marked.results call signalled earlier
    · cases List.mem_singleton.mp last
      exact marked.marks t w (by rw [place]; rfl)

/-- Every step keeps the marks. -/
theorem turn
    (marked : cv.Marked)
    (placed : cv.Placed)
    (answered : cv.Answered)
    (turn : cv.Turn after) :
    after.Marked := by
  cases turn with
  | apart mutexes state awake =>
      exact ⟨marked.fresh, marked.marks, marked.removed, marked.once,
        marked.results, marked.waking⟩
  | begins running place unused => exact marked.begins unused
  | enqueues place free => exact marked.enqueues placed place free
  | @unlocks t w mutex place =>
      exact marked.of_goto (t := t) (.releasing w mutex) rfl rfl rfl
        (fun _ => id) rfl nofun nofun (by rw [place]; exact fun _ => id)
  | @sleeps t w mutex place =>
      exact marked.of_goto (t := t) (.asleep w mutex) rfl rfl rfl
        (fun _ => id) rfl nofun nofun (by rw [place]; exact fun _ => id)
  | @finds t w mutex place free removed =>
      exact marked.of_goto (t := t) (.relocking w mutex) rfl rfl rfl
        (fun _ => id) rfl nofun nofun (by rw [place]; exact fun _ => id)
  | @leaves t w mutex place free removed =>
      exact marked.of_goto (t := t) (.relocking w mutex) rfl rfl rfl
        (fun _ => List.mem_cons_of_mem _) rfl nofun nofun
        (by rw [place]; exact fun _ => id)
  | returns place => exact marked.returns place
  | @signals t all running place =>
      exact marked.of_goto (t := t) (.signalling all) rfl rfl rfl
        (fun _ => id) rfl nofun nofun nofun
  | @opens t all place free =>
      exact marked.of_goto (t := t) (.scanning all) rfl rfl
        (CvLog.marked_openSignal ..) (fun _ => id) rfl nofun nofun nofun
  | takes place oldest => exact marked.takes placed place oldest
  | @ends t all place empty =>
      exact marked.of_goto (t := t) (.unlocking all) rfl rfl rfl
        (fun _ => id) rfl nofun nofun nofun
  | wakes place => exact marked.wakes placed answered place
  | @closes t all place =>
      exact marked.of_goto (t := t) .own rfl rfl
        (CvLog.marked_closeSignal ..) (fun _ => id) rfl nofun nofun nofun

end Marked

/-! ## Runs -/

/-- What holds of a condition variable in every run: the ring consists of the
waiters that have been enqueued and not removed, every signal that is over has
marked and woken the first sleeping waiter or all of them, no call has been
marked twice, the results are the marks, and a waiter on the ring belongs to a
call that has not returned. -/
structure Reliable (cv : CondVar α τ μ) : Prop where
  ring : cv.set.Holds cv.log.waiters
  signals : ∀ signal ∈ cv.log.signals, ∀ left, signal.left = some left →
    signal.Served left
  once : cv.log.marked.Nodup
  marks : ∀ t w, (cv.control t).arrived = some w →
    ((cv.waiters w).signalled = true ↔ (cv.waiters w).call ∈ cv.log.marked)
  results : ∀ call signalled, (call, signalled) ∈ cv.log.returned →
    (signalled = true ↔ call ∈ cv.log.marked)
  inProgress : ∀ w call, (w, call) ∈ cv.log.present →
    call ∉ cv.log.returned.map Prod.fst ∧
      ∃ t, (cv.control t).waiter = some w ∧ (cv.waiters w).call = call ∧
        (cv.waiters w).thread = t
  noFault : ∀ action, cv.Allowed action →
    ∃ after, cv.step action = .ok after

/-- The three invariants together. -/
def Consistent (cv : CondVar α τ μ) : Prop :=
  cv.Placed ∧ cv.Answered ∧ cv.Marked

omit [DecidableEq α] [DecidableEq τ] [DecidableEq μ] in
theorem consistent_start
    (nodes : RlHeap α α)
    (waiters : α → CvWaiter τ)
    (mutexes : μ → Option τ)
    (state : τ → ThreadState) :
    (start nodes waiters mutexes state).Consistent := by
  refine ⟨?_, ⟨fun _ => trivial, ?_⟩, ?_⟩
  · constructor
    case locked => exact fun t => iff_of_false Bool.false_ne_true nofun
    case awake => exact fun t inCall => absurd rfl inCall
    case holds => exact ⟨rfl, fun first rest equal => nomatch equal⟩
    case threads => exact fun t => .of_none rfl
    case waking => exact nofun
    case waits => exact fun call w arrival => nomatch arrival
    case bounded => exact fun call member => absurd member List.not_mem_nil
    case past => exact fun call member => absurd member List.not_mem_nil
  · exact fun signal member => absurd member List.not_mem_nil
  · constructor
    case fresh => exact nofun
    case marks => exact nofun
    case removed => exact fun call member => absurd member List.not_mem_nil
    case once => exact List.nodup_nil
    case results =>
      exact fun call signalled member => absurd member List.not_mem_nil
    case waking => exact nofun

theorem Consistent.step
    {cv after : CondVar α τ μ}
    {action : CvAction α τ μ}
    (consistent : cv.Consistent)
    (allowed : cv.Allowed action)
    (stepped : cv.step action = .ok after) :
    after.Consistent := by
  obtain ⟨placed, answered, marked⟩ := consistent
  have turn := turn_of_step allowed stepped
  exact ⟨placed.turn turn, answered.turn placed turn,
    marked.turn placed answered turn⟩

/-- A waiter that has not been removed has not been signalled, so that the
assertion of `cv_wait` holds. -/
theorem Consistent.step_ok
    {cv : CondVar α τ μ}
    (consistent : cv.Consistent)
    (action : CvAction α τ μ) :
    ∃ after, cv.step action = .ok after := by
  obtain ⟨placed, _, marked⟩ := consistent
  cases action with
  | next t =>
      cases place : cv.control t with
      | asleep w mutex =>
          have queued : (cv.control t).queued = some w := by rw [place]; rfl
          have removed := (placed.threads t).removed w queued
          have marks := marked.marks t w (CvControl.arrived_of_queued queued)
          simp only [CondVar.step, next, place, tidyUp]
          split_ifs with free isRemoved isSignalled
          · exact ⟨_, rfl⟩
          · exact absurd (removed.mp (marked.removed _ (marks.mp isSignalled)))
              isRemoved
          · exact ⟨_, rfl⟩
          · exact ⟨_, rfl⟩
      | scanning all =>
          simp only [CondVar.step, next, place]
          cases cv.set.waitset with
          | none => exact ⟨_, rfl⟩
          | some w => exact ⟨_, rfl⟩
      | locking w mutex =>
          simp only [CondVar.step, next, place]
          split_ifs <;> exact ⟨_, rfl⟩
      | relocking w mutex =>
          simp only [CondVar.step, next, place]
          split_ifs <;> exact ⟨_, rfl⟩
      | signalling all =>
          simp only [CondVar.step, next, place]
          split_ifs <;> exact ⟨_, rfl⟩
      | own => exact ⟨_, by simp only [CondVar.step, next, place]; rfl⟩
      | enqueued w mutex => exact ⟨_, by simp only [CondVar.step, next, place]; rfl⟩
      | releasing w mutex => exact ⟨_, by simp only [CondVar.step, next, place]; rfl⟩
      | waking all w => exact ⟨_, by simp only [CondVar.step, next, place]; rfl⟩
      | unlocking all => exact ⟨_, by simp only [CondVar.step, next, place]; rfl⟩
  | lock t mutex =>
      simp only [CondVar.step]
      split_ifs <;> exact ⟨_, rfl⟩
  | unlock t mutex => exact ⟨_, rfl⟩
  | wait t w mutex => exact ⟨_, rfl⟩
  | signal t all => exact ⟨_, rfl⟩
  | wake t => exact ⟨_, rfl⟩
  | dispatch t => exact ⟨_, rfl⟩
  | preempt t => exact ⟨_, rfl⟩
  | other t state => exact ⟨_, rfl⟩

/-- Condition variables neither lose nor duplicate a signal, whatever the
threads that use one do and however they are interleaved. -/
theorem condVar_reliable
    (nodes : RlHeap α α)
    (waiters : α → CvWaiter τ)
    (mutexes : μ → Option τ)
    (state : τ → ThreadState)
    (cv : CondVar α τ μ)
    (reached : Reachable CondVar.step CondVar.Allowed
      (start nodes waiters mutexes state) cv) :
    cv.Reliable := by
  have consistent : cv.Consistent :=
    reached.invariant (motive := CondVar.Consistent)
      (consistent_start nodes waiters mutexes state) Consistent.step
  have noFault := consistent.step_ok
  obtain ⟨placed, answered, marked⟩ := consistent
  refine ⟨placed.holds, answered.served, marked.once, marked.marks,
    marked.results, ?_, fun action _ => noFault action⟩
  intro w call member
  obtain ⟨arrival, notRemoved⟩ := CvLog.mem_present.mp member
  obtain ⟨t, queued, isCall⟩ := placed.waits call w arrival notRemoved
  have isWaiter := CvControl.waiter_of_queued queued
  refine ⟨fun returned => notRemoved (placed.past call returned), t, isWaiter,
    isCall, ((placed.threads t).owner w isWaiter).1⟩

/-- Two threads wait, the timeout of the first one expires, and a signal passes
it over and wakes the second one. -/
theorem condVar_reliable_two :
    ∃ cv : CondVar (Fin 2) (Fin 3) Unit,
      cv.log.returned = [(1, true), (0, false)] ∧ cv.Reliable := by
  have ran : ∃ cv : CondVar (Fin 2) (Fin 3) Unit,
      Reachable CondVar.step CondVar.Allowed
        (start (fun _ => ⟨0, 0, 0⟩) (fun _ => ⟨0, false, false, 0⟩)
          (fun _ => none) (fun _ => .running)) cv ∧
      decide (cv.log.returned = [(1, true), (0, false)]) = true :=
    exists_reachable_of_any [.lock 0 (), .wait 0 0 (), .next 0, .next 0,
      .next 0, .lock 1 (), .wait 1 1 (), .next 1, .next 1, .next 1, .wake 0,
      .signal 2 false, .next 2, .next 2, .next 2, .next 2, .next 2, .next 2,
      .dispatch 1, .next 1, .next 1, .unlock 1 (), .dispatch 0, .next 0,
      .next 0] (by decide +kernel)
  obtain ⟨cv, reached, test⟩ := ran
  exact ⟨cv, of_decide_eq_true test, condVar_reliable _ _ _ _ cv reached⟩

end CondVar
end TinierOS
