import TinierOS.System.Children

/-!
# The history of a run

The kernel reuses PCB slots and does not remember who was there before.  A
history adds to the system what an observer of its replies can count: which
incarnation of a slot is the present one, who created it, the value it passed to
`Exit`, and which incarnations `WaitChild` has returned.
-/

namespace TinierOS

variable {limits : Limits}

/-- The process that `Exec` returned. -/
def Reply.newPid : Reply limits → Option (Fin limits.maxProc)
  | .exec pid => pid
  | _ => .none

/-- The child that `WaitChild` returned. -/
def Reply.reapedPid : Reply limits → Option (Fin limits.maxProc)
  | .waitChild pid _ => pid
  | _ => .none

theorem Reply.Quiet.newPid
    {reply : Reply limits}
    (quiet : reply.Quiet) :
    reply.newPid = .none := by
  cases reply with
  | exec pid =>
      cases pid with
      | none => rfl
      | some pid => cases quiet
  | _ => rfl

theorem Reply.Quiet.reapedPid
    {reply : Reply limits}
    (quiet : reply.Quiet) :
    reply.reapedPid = .none := by
  cases reply with
  | waitChild pid status =>
      cases pid with
      | none => rfl
      | some pid => cases quiet
  | _ => rfl

/-- One incarnation of a PCB slot. -/
abbrev Incarnation (limits : Limits) := Fin limits.maxProc × Nat

/-- One `WaitChild` that returned a child. -/
structure Reap (limits : Limits) where
  /-- The child it returned. -/
  child : Incarnation limits
  /-- The process of the caller. -/
  reaper : Option (Incarnation limits)
  /-- The process that created the child. -/
  creator : Option (Incarnation limits)
  /-- The incarnation that was in the slot when `WaitChild(child)` was called;
  `none` for `WaitChild(NOPROC)`. -/
  waited : Option Nat
  deriving DecidableEq

/-- A system with its past. -/
structure History (limits : Limits) where
  system : System limits
  /-- How often `Exec` has returned each slot. -/
  born : Fin limits.maxProc → Nat
  creator : Fin limits.maxProc → Option (Incarnation limits)
  /-- The value that the process in each slot passed to `Exit`. -/
  exitValue : Fin limits.maxProc → Option Int
  /-- The incarnation of the child that each thread asked for in its last
  `WaitChild`. -/
  waitBorn : Fin limits.maxThreads → Option Nat
  reaps : List (Reap limits)

namespace History

open TinierOS.System TinierOS.Kernel

/-- No call has been made. -/
def start (system : System limits) : History limits where
  system := system
  born := fun _ => 0
  creator := fun _ => none
  exitValue := fun _ => none
  waitBorn := fun _ => none
  reaps := []

/-- The process of the current thread. -/
def caller (history : History limits) : Option (Incarnation limits) :=
  history.system.kernel.currentProc.map fun pid => (pid, history.born pid)

/-- A call of `WaitChild` looks its child up before it waits. -/
def waitBornAfter
    (history : History limits)
    (action : Action limits) : Fin limits.maxThreads → Option Nat :=
  match history.system.currentSlot, action with
  | some slot, .waitChild cpid _ _ =>
      Function.update history.waitBorn slot
        ((history.system.kernel.getPcb cpid).map history.born)
  | _, _ => history.waitBorn

/-- `Exec` starts with no exit value, `Exit` leaves one. -/
def exitValueAfter
    (history : History limits)
    (action : Action limits)
    (reply : Reply limits) : Fin limits.maxProc → Option Int :=
  match reply.newPid, history.system.kernel.currentProc, action.exitval with
  | some pid, _, _ => Function.update history.exitValue pid none
  | none, some proc, some exitval =>
      Function.update history.exitValue proc (some exitval)
  | _, _, _ => history.exitValue

/-- Add one step to the past. -/
def record
    (history : History limits)
    (action : Action limits)
    (after : System limits) : History limits where
  system := after
  born := match after.reply.newPid with
    | none => history.born
    | some pid => Function.update history.born pid (history.born pid + 1)
  creator := match after.reply.newPid with
    | none => history.creator
    | some pid => Function.update history.creator pid history.caller
  exitValue := history.exitValueAfter action after.reply
  waitBorn := history.waitBornAfter action
  reaps := match after.reply.reapedPid with
    | none => history.reaps
    | some child =>
        { child := (child, history.born child)
          reaper := history.caller
          creator := history.creator child
          waited := history.system.currentSlot.bind
            (history.waitBornAfter action) } :: history.reaps

/-- One step of the system, with its past. -/
def step
    (history : History limits)
    (action : Action limits) : Except Fault (History limits) :=
  (history.system.step action).map (history.record action)

/-- A step that neither creates nor reaps a process leaves most of the past as
it was. -/
theorem record_of_quiet
    {history : History limits}
    {action : Action limits}
    {after : System limits}
    (quiet : after.reply.Quiet) :
    (history.record action after).born = history.born ∧
      (history.record action after).creator = history.creator ∧
      (history.record action after).reaps = history.reaps := by
  simp [record, quiet.newPid, quiet.reapedPid]

/-- `Exec` has returned `pid`. -/
theorem record_of_exec
    {history : History limits}
    {action : Action limits}
    {after : System limits}
    {pid : Fin limits.maxProc}
    (reply : after.reply = .exec (some pid)) :
    (history.record action after).born =
        Function.update history.born pid (history.born pid + 1) ∧
      (history.record action after).creator =
        Function.update history.creator pid history.caller ∧
      (history.record action after).exitValue =
        Function.update history.exitValue pid none ∧
      (history.record action after).reaps = history.reaps := by
  simp [record, reply, Reply.newPid, Reply.reapedPid, exitValueAfter]

/-- `WaitChild` has returned `child`. -/
theorem record_of_reaped
    {history : History limits}
    {action : Action limits}
    {after : System limits}
    {child : Fin limits.maxProc}
    {status : Option Int}
    (reply : after.reply = .waitChild (some child) status) :
    (history.record action after).born = history.born ∧
      (history.record action after).creator = history.creator ∧
      (history.record action after).reaps =
        { child := (child, history.born child)
          reaper := history.caller
          creator := history.creator child
          waited := history.system.currentSlot.bind
            (history.waitBornAfter action) } :: history.reaps := by
  simp [record, reply, Reply.newPid, Reply.reapedPid]

theorem exitValue_of_notExit
    {history : History limits}
    {action : Action limits}
    {after : System limits}
    (noExec : after.reply.newPid = none)
    (notExit : action.exitval = none) :
    (history.record action after).exitValue = history.exitValue := by
  simp only [record, exitValueAfter, noExec, notExit]
  cases history.system.kernel.currentProc <;> rfl

theorem exitValue_of_exit
    {history : History limits}
    {action : Action limits}
    {after : System limits}
    {proc : Fin limits.maxProc}
    {exitval : Int}
    (noExec : after.reply.newPid = none)
    (isCaller : history.system.kernel.currentProc = some proc)
    (exits : action.exitval = some exitval) :
    (history.record action after).exitValue =
      Function.update history.exitValue proc (some exitval) := by
  simp only [record, exitValueAfter, noExec, isCaller, exits]

/-- The histories of all runs whose steps are allowed. -/
def Reached
    (allowed : System limits → Action limits → Prop)
    (history : History limits) : Prop :=
  ∃ system, System.boot limits = .ok system ∧
    Reachable History.step
      (fun history action => history.system.Enabled action ∧
        allowed history.system action)
      (start system) history

theorem step_eq_ok
    {before after : History limits}
    {action : Action limits} :
    before.step action = .ok after ↔
      ∃ system, before.system.step action = .ok system ∧
        after = before.record action system :=
  withPast_eq_ok

/-- A history is the history of a run of the system. -/
theorem Reached.system
    {allowed : System limits → Action limits → Prop}
    {history : History limits}
    (reached : Reached allowed history) :
    System.Reached allowed history.system := by
  obtain ⟨system, booted, reachable⟩ := reached
  have pasts : Reachable (withPast History.system System.step record) _
      (start system) history := reachable
  have run := pasts.of_withPast
    (fun system action => system.Enabled action ∧ allowed system action)
    fun _ _ _ => rfl
  exact ⟨system, booted, run⟩

/-- What holds when the scheduler starts and is kept by every allowed step
holds of every history. -/
theorem Reached.invariant
    {allowed : System limits → Action limits → Prop}
    {motive : History limits → Prop}
    {history : History limits}
    (reached : Reached allowed history)
    (booted : ∀ {system}, Booted system → motive (start system))
    (preserved : ∀ {before action after}, before.system.Sound →
      before.system.kernel.ExitedRings → motive before →
      before.system.Enabled action → allowed before.system action →
        Effect before.system action after →
          motive (before.record action after)) :
    motive history := by
  obtain ⟨system, isBoot, reachable⟩ := reached
  have begins := booted_of_boot isBoot
  induction reachable with
  | refl => exact booted begins
  | @tail before after action earlier enabled stepped inductionHypothesis =>
      have reached : Reached allowed before := ⟨system, isBoot, earlier⟩
      obtain ⟨sound, -, rings⟩ := reached.system.rings
      obtain ⟨next, systemStepped, rfl⟩ := step_eq_ok.mp stepped
      exact preserved sound rings inductionHypothesis enabled.1 enabled.2
        (sound.step enabled.1 systemStepped).2

/-- Start the system and take the given steps, as long as each is possible and
allowed. -/
def run
    (allowed : System limits → Action limits → Prop)
    [∀ system action, Decidable (allowed system action)]
    (actions : List (Action limits)) : Option (History limits) :=
  match System.boot limits with
  | .error _ => none
  | .ok system => runActions History.step
      (fun history action => history.system.Enabled action ∧
        allowed history.system action)
      actions (start system)

/-- A run whose last state passes a test exhibits a history. -/
theorem exists_reached_of_any
    {allowed : System limits → Action limits → Prop}
    [∀ system action, Decidable (allowed system action)]
    {test : History limits → Bool}
    (actions : List (Action limits))
    (ran : (run allowed actions).any test = true) :
    ∃ history, Reached allowed history ∧ test history = true := by
  unfold run at ran
  cases booted : System.boot limits with
  | error fault =>
      rw [booted] at ran
      cases ran
  | ok system =>
      rw [booted] at ran
      obtain ⟨history, reached, passed⟩ :=
        TinierOS.exists_reachable_of_any actions ran
      exact ⟨history, ⟨system, booted, reached⟩, passed⟩

end History
end TinierOS
