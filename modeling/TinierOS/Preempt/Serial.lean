import TinierOS.Preempt.Defs
import TinierOS.Streams.Terminal

/-!
# Reading the terminal on the preemptive core

The core with its interrupt flag, and threads that call `Read` and `Write` on
terminal 0.  A call takes the kernel lock, polls in its loop, yields while its
line is not ready, and releases the lock when it returns.  The receiver raises
`USART_RX` while it holds a byte, and the interrupt is taken whenever the flag is
set.
-/

namespace TinierOS

variable {limits : Limits}

/-- The core, its terminal, and the call that each thread is in. -/
structure SerialCore (limits : Limits) where
  core : Core limits
  terminal : Terminal
  inCall : TcbPtr limits → Option Nat

/-- What happens next. -/
inductive SerialEvent (limits : Limits)
  /-- An event of the core that does not touch the terminal. -/
  | core (event : Event limits)
  | arrive (byte : UInt8)
  /-- `USART_RX_vect` -/
  | usartRx
  /-- `Read` or `Write` on terminal 0, up to the loop of the serial device. -/
  | start (write : Bool) (buf : Nat → UInt8) (size : Nat)
  /-- One pass of the loop that the current thread is in. -/
  | pass (ready : Bool)

/-- The events by which a call in progress goes on, or is interrupted. -/
def Event.isAdvance : Event limits → Bool
  | .alarm => true
  | .next _ _ _ => true
  | _ => false

namespace SerialCore

/-- The call of the current thread. -/
def currentCall (serial : SerialCore limits) : Option Nat :=
  serial.core.sched.currentThread.bind serial.inCall

/-- The core after one pass of the loop: it releases the lock when the loop is
over, and yields when the line is not ready. -/
def afterPass
    (core : Core limits) : Transfer.Outcome → Except Fault (Core limits)
  | .finished => core.step .kernelUnlock
  | .moved _ => .ok core
  | .blocked => core.step (.call (.yield .io))

/-- The call that a thread is in after one pass. -/
def callAfter (call : Nat) : Transfer.Outcome → Option Nat
  | .finished => none
  | .moved _ => some call
  | .blocked => some call

/-- One pass of the loop of `call`. -/
def passStep
    (serial : SerialCore limits)
    (current : TcbPtr limits)
    (call : Nat)
    (ready : Bool) : Except Fault (SerialCore limits) :=
  match serial.terminal.calls[call]? with
  | some ⟨transfer, none⟩ => do
      let outcome := transfer.pass (serial.terminal.lines ready)
      let core ← afterPass serial.core outcome
      return { serial with
        core := core
        terminal := serial.terminal.step (.pass call ready)
        inCall := Function.update serial.inCall current
          (callAfter call outcome) }
  | _ => .ok serial

/-- One event. -/
def step
    (serial : SerialCore limits) :
    SerialEvent limits → Except Fault (SerialCore limits)
  | .core event => do
      let core ← serial.core.step event
      return { serial with core := core }
  | .arrive byte => .ok
      { serial with terminal := serial.terminal.step (.arrive byte) }
  | .usartRx => .ok
      { serial with terminal := serial.terminal.step .interrupt }
  | .start write buf size =>
      match serial.core.sched.currentThread with
      | none => .error .nullPointer
      | some current => do
          let core ← serial.core.step .kernelLock
          return { serial with
            core := core
            terminal := serial.terminal.step (.start write buf size)
            inCall := Function.update serial.inCall current
              (some serial.terminal.calls.length) }
  | .pass ready =>
      match serial.core.sched.currentThread with
      | none => .error .nullPointer
      | some current =>
          match serial.inCall current with
          | none => .ok serial
          | some call => serial.passStep current call ready

/-- When an event is possible.  A thread in a call only goes on with it, and the
interrupt needs the flag and a received byte. -/
def Enabled (serial : SerialCore limits) : SerialEvent limits → Prop
  | .core event => serial.core.Enabled event ∧
      (serial.currentCall = none ∨ event.isAdvance = true)
  | .arrive _ => True
  | .usartRx => serial.core.interrupts = true ∧ serial.terminal.fifo ≠ []
  | .start _ _ _ => serial.core.ownCode = some false ∧
      serial.currentCall = none
  | .pass _ => serial.core.ownCode = some true ∧ serial.currentCall ≠ none

instance (serial : SerialCore limits) (event : SerialEvent limits) :
    Decidable (serial.Enabled event) :=
  match event with
  | .core _ => inferInstanceAs (Decidable (_ ∧ _))
  | .arrive _ => inferInstanceAs (Decidable True)
  | .usartRx => inferInstanceAs (Decidable (_ ∧ _))
  | .start _ _ _ => inferInstanceAs (Decidable (_ ∧ _))
  | .pass _ => inferInstanceAs (Decidable (_ ∧ _))

/-- A core that has just been started, with an idle terminal. -/
def start (core : Core limits) : SerialCore limits where
  core := core
  terminal := .idle
  inCall := fun _ => none

/-! ## What a step does to the terminal -/

/-- Every event is one step of the terminal or none, and only `USART_RX` is the
interrupt. -/
theorem step_terminal
    {before after : SerialCore limits}
    {event : SerialEvent limits}
    (stepped : before.step event = .ok after) :
    after.terminal = before.terminal ∨
      ∃ action, after.terminal = before.terminal.step action ∧
        (action = .interrupt → event = .usartRx) := by
  cases event with
  | core event =>
      obtain ⟨core, _, same⟩ := exists_of_bind_eq_ok stepped
      cases same
      exact .inl rfl
  | arrive byte =>
      cases stepped
      exact .inr ⟨.arrive byte, rfl, fun isInterrupt => nomatch isInterrupt⟩
  | usartRx =>
      cases stepped
      exact .inr ⟨.interrupt, rfl, fun _ => rfl⟩
  | start write buf size =>
      cases running : before.core.sched.currentThread with
      | none =>
          simp only [step, running] at stepped
          cases stepped
      | some current =>
          simp only [step, running] at stepped
          obtain ⟨core, _, same⟩ := exists_of_bind_eq_ok stepped
          cases same
          exact .inr ⟨.start write buf size, rfl,
            fun isInterrupt => nomatch isInterrupt⟩
  | pass ready =>
      simp only [step] at stepped
      split at stepped
      · cases stepped
      · split at stepped
        · cases stepped
          exact .inl rfl
        · next call _ =>
            unfold passStep at stepped
            split at stepped
            · obtain ⟨core, _, same⟩ := exists_of_bind_eq_ok stepped
              cases same
              exact .inr ⟨.pass call ready, rfl,
                fun isInterrupt => nomatch isInterrupt⟩
            · cases stepped
              exact .inl rfl

/-- On the core, the terminal goes through a run of its own. -/
theorem exists_run
    {core : Core limits}
    {serial : SerialCore limits}
    (reached : Reachable step Enabled (start core) serial) :
    ∃ actions, serial.terminal = Terminal.idle.run actions := by
  refine reached.invariant
    (motive := fun serial =>
      ∃ actions, serial.terminal = Terminal.idle.run actions) ⟨[], rfl⟩ ?_
  rintro before after event ⟨actions, isRun⟩ _ stepped
  rcases step_terminal stepped with same | ⟨action, isStep, _⟩
  · exact ⟨actions, same.trans isRun⟩
  · refine ⟨actions ++ [action], ?_⟩
    rw [isStep, isRun, Terminal.run, Terminal.run, List.foldl_append]
    rfl

/-! ## Bytes that are swallowed -/

/-- An event other than `USART_RX` stores the bytes that it takes. -/
theorem step_stores
    {before after : SerialCore limits}
    {event : SerialEvent limits}
    (stepped : before.step event = .ok after)
    (noInterrupt : event ≠ .usartRx) :
    ∃ moved : List (Nat × UInt8),
      after.terminal.stored = before.terminal.stored ++ moved ∧
      after.terminal.removed =
        before.terminal.removed ++ moved.map Prod.snd := by
  rcases step_terminal stepped with same | ⟨action, isStep, onlyUsart⟩
  · exact ⟨[], by simp [same], by simp [same]⟩
  · rw [isStep]
    apply before.terminal.step_stores
    exact fun isInterrupt => noInterrupt (onlyUsart isInterrupt)

/-- Without `USART_RX`, what has been taken is what has been stored. -/
theorem run_stores
    {events : List (SerialEvent limits)}
    {before after : SerialCore limits}
    (ran : runActions step Enabled events before = some after)
    (noInterrupt : .usartRx ∉ events)
    (stored : before.terminal.removed = before.terminal.stored.map Prod.snd) :
    after.terminal.removed = after.terminal.stored.map Prod.snd := by
  induction events generalizing before with
  | nil =>
      cases ran
      exact stored
  | cons event events inductionHypothesis =>
      obtain ⟨_, middle, stepped, continues⟩ := runActions_cons_eq_some.mp ran
      rw [List.mem_cons, not_or] at noInterrupt
      obtain ⟨moved, storedMore, removedMore⟩ :=
        step_stores stepped (Ne.symm noInterrupt.1)
      apply inductionHypothesis continues noInterrupt.2
      rw [removedMore, storedMore, List.map_append, stored]

/-- No event stores more than it takes, and `USART_RX` stores less. -/
theorem step_removed_length
    {before after : SerialCore limits}
    {event : SerialEvent limits}
    (enabled : before.Enabled event)
    (stepped : before.step event = .ok after) :
    after.terminal.stored.length + before.terminal.removed.length ≤
        after.terminal.removed.length + before.terminal.stored.length ∧
      (event = .usartRx →
        after.terminal.stored.length + before.terminal.removed.length <
          after.terminal.removed.length + before.terminal.stored.length) := by
  by_cases isInterrupt : event = .usartRx
  · subst isInterrupt
    cases stepped
    obtain ⟨byte, removedMore, storedSame⟩ := Terminal.step_interrupt enabled.2
    simp only [removedMore, storedSame, List.length_append,
      List.length_singleton]
    omega
  · obtain ⟨moved, storedMore, removedMore⟩ := step_stores stepped isInterrupt
    refine ⟨?_, fun again => absurd again isInterrupt⟩
    rw [storedMore, removedMore, List.length_append, List.length_append,
      List.length_map]
    omega

/-- A run with `USART_RX` in it takes more bytes than it stores. -/
theorem run_removed_length
    {events : List (SerialEvent limits)}
    {before after : SerialCore limits}
    (ran : runActions step Enabled events before = some after) :
    after.terminal.stored.length + before.terminal.removed.length ≤
        after.terminal.removed.length + before.terminal.stored.length ∧
      (.usartRx ∈ events →
        after.terminal.stored.length + before.terminal.removed.length <
          after.terminal.removed.length + before.terminal.stored.length) := by
  induction events generalizing before with
  | nil =>
      cases ran
      exact ⟨by omega, fun member => nomatch member⟩
  | cons event events inductionHypothesis =>
      obtain ⟨enabled, middle, stepped, continues⟩ :=
        runActions_cons_eq_some.mp ran
      have first := step_removed_length enabled stepped
      have later := inductionHypothesis continues
      refine ⟨by omega, ?_⟩
      intro member
      rcases List.mem_cons.mp member with isFirst | isLater
      · have := first.2 isFirst.symm
        omega
      · have := later.2 isLater
        omega

/-- A received byte is swallowed exactly when `USART_RX` is taken: a run delivers
every byte that is taken from the receiver to a call of `Read`, in order, if and
only if the interrupt is not taken in it. -/
theorem run_delivered_iff
    (core : Core limits)
    (events : List (SerialEvent limits))
    (serial : SerialCore limits)
    (ran : runActions step Enabled events (start core) = some serial) :
    serial.terminal.Delivered ↔ .usartRx ∉ events := by
  constructor
  · intro delivered member
    have fewer := (run_removed_length ran).2 member
    rw [delivered.all, List.length_map] at fewer
    simp [start, Terminal.idle] at fewer
  · intro noInterrupt
    obtain ⟨actions, isRun⟩ := exists_run (reachable_of_runActions .refl ran)
    have consistent := Terminal.consistent_run actions
    rw [← isRun] at consistent
    exact ⟨run_stores ran noInterrupt rfl, fun _ _ => consistent.buffered⟩

/-- A run whose last state passes a test, after some calls before
`run_scheduler`. -/
theorem exists_run_of_any
    {test : SerialCore limits → Bool}
    (ops : List (SchedOp limits))
    (events : List (SerialEvent limits))
    (ran : (runActions Sched.step Sched.Enabled ops
      (Sched.zero limits).initializeScheduler).any (fun sched =>
        decide (sched.currentThread = none) &&
          (runActions step Enabled events
            (start (Core.boot sched none))).any test) = true) :
    ∃ core serial, core.Booted ∧
      runActions step Enabled events (start core) = some serial ∧
      test serial = true := by
  obtain ⟨sched, reached, passes⟩ := exists_reachable_of_any ops ran
  rw [Bool.and_eq_true, decide_eq_true_eq] at passes
  cases isLast : runActions step Enabled events
      (start (Core.boot sched none)) with
  | none =>
      rw [isLast] at passes
      cases passes.2
  | some serial =>
      rw [isLast] at passes
      exact ⟨_, serial, ⟨sched, none, reached, passes.1, rfl⟩, isLast, passes.2⟩

/-- The start of a run: thread 0 gets the core and runs outside the kernel, with
the flag on. -/
def userCode : List (SerialEvent Limits.tinier) :=
  .core (.setInterrupts true) :: .core (.call (.yield .idle)) ::
    (Core.nexts 21).map .core

/-- A byte that arrives while thread 0 is outside the kernel is gone before the
thread calls `Read`. -/
theorem usartRx_swallows :
    ∃ (core : Core Limits.tinier) (events : List (SerialEvent Limits.tinier))
      (serial : SerialCore Limits.tinier),
      core.Booted ∧
      runActions step Enabled events (start core) = some serial ∧
      ¬serial.terminal.Delivered := by
  have ran : ∃ core serial, core.Booted ∧
      runActions step Enabled (userCode ++ [.arrive 65, .usartRx,
        .start false (fun _ => 0) 1, .pass true]) (start core) = some serial ∧
      decide (serial.terminal.removed = [65] ∧
        serial.terminal.stored = []) = true :=
    exists_run_of_any [.spawnThread none .startMainThread, .wakeup 0] _
      (by decide +kernel)
  obtain ⟨core, serial, booted, isRun, test⟩ := ran
  obtain ⟨removed, stored⟩ := of_decide_eq_true test
  refine ⟨core, _, serial, booted, isRun, ?_⟩
  intro delivered
  have all := delivered.all
  rw [removed, stored] at all
  cases all

/-- A byte that arrives while thread 0 is in `Read` is delivered. -/
theorem run_delivered_iff_read :
    ∃ (core : Core Limits.tinier) (events : List (SerialEvent Limits.tinier))
      (serial : SerialCore Limits.tinier),
      core.Booted ∧
      runActions step Enabled events (start core) = some serial ∧
      serial.terminal.removed = [65] ∧ serial.terminal.Delivered := by
  have ran : ∃ core serial, core.Booted ∧
      runActions step Enabled (userCode ++ [.start false (fun _ => 0) 1,
        .arrive 65, .pass true, .pass true]) (start core) = some serial ∧
      decide (serial.terminal.removed = [65]) = true :=
    exists_run_of_any [.spawnThread none .startMainThread, .wakeup 0] _
      (by decide +kernel)
  obtain ⟨core, serial, booted, isRun, test⟩ := ran
  refine ⟨core, _, serial, booted, isRun, of_decide_eq_true test, ?_⟩
  apply (run_delivered_iff core _ serial isRun).mpr
  simp [userCode, Core.nexts]

end SerialCore
end TinierOS
