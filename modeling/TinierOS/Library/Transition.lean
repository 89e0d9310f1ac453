import Mathlib.Logic.Basic
import Mathlib.Tactic.SplitIfs

/-!
# Runs of a transition system

A system is a partial step function on states and actions; a run takes only
actions that are allowed in the state they are taken from.
-/

namespace TinierOS

universe u v w

variable {σ : Type u} {ι : Type v} {ε : Type w}

/-- A sequence of two fallible computations that returns runs both. -/
theorem exists_of_bind_eq_ok
    {α β : Type u}
    {first : Except ε α}
    {second : α → Except ε β}
    {result : β}
    (ran : first >>= second = .ok result) :
    ∃ middle, first = .ok middle ∧ second middle = .ok result := by
  cases first with
  | error fault => cases ran
  | ok middle => exact ⟨middle, rfl, ran⟩

/-- A computation whose result is read returns. -/
theorem exists_of_map_eq_ok
    {α β : Type u}
    {first : Except ε α}
    {read : α → β}
    {result : β}
    (ran : first.map read = .ok result) :
    ∃ middle, first = .ok middle ∧ read middle = result := by
  cases first with
  | error fault => cases ran
  | ok middle =>
      cases ran
      exact ⟨middle, rfl, rfl⟩

/-- A computation whose result passes a test returns. -/
theorem exists_of_toOption_any
    {α : Type u}
    {outcome : Except ε α}
    {test : α → Bool}
    (passed : outcome.toOption.any test = true) :
    ∃ value, outcome = .ok value ∧ test value = true := by
  cases outcome with
  | error fault => cases passed
  | ok value => exact ⟨value, rfl, passed⟩

/-- The states reached from `start` by allowed steps. -/
inductive Reachable
    (step : σ → ι → Except ε σ)
    (allowed : σ → ι → Prop)
    (start : σ) : σ → Prop
  | refl : Reachable step allowed start start
  | tail
      {before after : σ}
      {action : ι}
      (reached : Reachable step allowed start before)
      (enabled : allowed before action)
      (stepped : step before action = .ok after) :
      Reachable step allowed start after

namespace Reachable

variable {step : σ → ι → Except ε σ}
variable {allowed : σ → ι → Prop}
variable {start state : σ}

/-- What holds initially and is kept by every allowed step holds of every
reachable state. -/
theorem invariant
    {motive : σ → Prop}
    (reached : Reachable step allowed start state)
    (initially : motive start)
    (preserved : ∀ {before after action}, motive before →
      allowed before action → step before action = .ok after →
        motive after) :
    motive state := by
  induction reached with
  | refl => exact initially
  | tail _ enabled stepped inductionHypothesis =>
      exact preserved inductionHypothesis enabled stepped

/-- Steps that are allowed in the states of a run may be allowed for another
reason. -/
theorem of_steps
    {other : σ → ι → Prop}
    (reached : Reachable step allowed start state)
    (implies : ∀ {before action}, Reachable step allowed start before →
      allowed before action → other before action) :
    Reachable step other start state := by
  induction reached with
  | refl => exact .refl
  | tail earlier enabled stepped inductionHypothesis =>
      exact inductionHypothesis.tail (implies earlier enabled) stepped

/-- A run can be continued by another one. -/
theorem trans
    {middle : σ}
    (reached : Reachable step allowed start middle)
    (continues : Reachable step allowed middle state) :
    Reachable step allowed start state := by
  induction continues with
  | refl => exact reached
  | tail _ enabled stepped inductionHypothesis =>
      exact inductionHypothesis.tail enabled stepped

end Reachable

/-- Take the given actions one after the other, as long as each is allowed and
returns. -/
def runActions
    (step : σ → ι → Except ε σ)
    (allowed : σ → ι → Prop)
    [∀ state action, Decidable (allowed state action)] :
    List ι → σ → Option σ
  | [], state => some state
  | action :: actions, state =>
      if allowed state action then
        match step state action with
        | .ok after => runActions step allowed actions after
        | .error _ => none
      else none

/-- A run is its first step and the run after it. -/
theorem runActions_cons_eq_some
    {step : σ → ι → Except ε σ}
    {allowed : σ → ι → Prop}
    [∀ state action, Decidable (allowed state action)]
    {before after : σ}
    {action : ι}
    {actions : List ι} :
    runActions step allowed (action :: actions) before = some after ↔
      allowed before action ∧ ∃ middle, step before action = .ok middle ∧
        runActions step allowed actions middle = some after := by
  rw [runActions]
  split_ifs with enabled
  · cases stepped : step before action with
    | error fault => simp
    | ok middle => simp [enabled]
  · simp [enabled]

theorem reachable_of_runActions
    {step : σ → ι → Except ε σ}
    {allowed : σ → ι → Prop}
    [∀ state action, Decidable (allowed state action)]
    {start before after : σ}
    {actions : List ι}
    (reached : Reachable step allowed start before)
    (ran : runActions step allowed actions before = some after) :
    Reachable step allowed start after := by
  induction actions generalizing before with
  | nil =>
      cases ran
      exact reached
  | cons action actions inductionHypothesis =>
      obtain ⟨enabled, middle, stepped, continues⟩ :=
        runActions_cons_eq_some.mp ran
      exact inductionHypothesis (reached.tail enabled stepped) continues

/-- One of the counted actions reaches the goal, with fewer than `rank` counted
ones before it. -/
def GoalWithin
    (step : σ → ι → Except ε σ)
    (allowed : σ → ι → Prop)
    [∀ state action, Decidable (allowed state action)]
    (counts : ι → Bool)
    (goal : σ → Prop)
    (rank : Nat)
    (actions : List ι)
    (start : σ) : Prop :=
  ∃ earlier action later before after,
    actions = earlier ++ action :: later ∧
    earlier.countP counts < rank ∧ counts action = true ∧
    runActions step allowed earlier start = some before ∧
    step before action = .ok after ∧ goal after

/-- A goal that is reached later is reached from here on. -/
theorem GoalWithin.cons
    {step : σ → ι → Except ε σ}
    {allowed : σ → ι → Prop}
    [∀ state action, Decidable (allowed state action)]
    {counts : ι → Bool}
    {goal : σ → Prop}
    {rank : Nat}
    {actions : List ι}
    {start middle : σ}
    {action : ι}
    (enabled : allowed start action)
    (stepped : step start action = .ok middle)
    (within : GoalWithin step allowed counts goal rank actions middle) :
    GoalWithin step allowed counts goal
      (rank + if counts action then 1 else 0) (action :: actions) start := by
  obtain ⟨earlier, goalAction, later, before, after, split, few, isCounted, ran,
    goalStep, isGoal⟩ := within
  refine ⟨action :: earlier, goalAction, later, before, after, ?_, ?_,
    isCounted, ?_, goalStep, isGoal⟩
  · rw [split, List.cons_append]
  · rw [List.countP_cons]
    omega
  · rw [runActions, if_pos enabled, stepped]
    exact ran

/-- Bounded response: if every counted action reaches the goal or lowers the
number of counted actions still to wait for, and no other action raises it, then
a run with that many counted actions reaches the goal in one of them. -/
theorem goalWithin_of_waiting
    {step : σ → ι → Except ε σ}
    {allowed : σ → ι → Prop}
    [∀ state action, Decidable (allowed state action)]
    (counts : ι → Bool)
    (waiting : Nat → σ → Prop)
    (goal : σ → Prop)
    (never : ∀ state, ¬waiting 0 state)
    (waits : ∀ {rank before after action}, waiting rank before →
      allowed before action → step before action = .ok after →
        counts action = false → waiting rank after)
    (advances : ∀ {rank before after action}, waiting (rank + 1) before →
      allowed before action → step before action = .ok after →
        counts action = true → goal after ∨ waiting rank after)
    {rank : Nat}
    {start last : σ}
    {actions : List ι}
    (starts : waiting rank start)
    (ran : runActions step allowed actions start = some last)
    (enough : rank ≤ actions.countP counts) :
    GoalWithin step allowed counts goal rank actions start := by
  induction actions generalizing rank start with
  | nil =>
      cases rank with
      | zero => exact absurd starts (never start)
      | succ rank => simp at enough
  | cons action actions inductionHypothesis =>
      obtain ⟨enabled, middle, stepped, ran⟩ := runActions_cons_eq_some.mp ran
      rw [List.countP_cons] at enough
      cases counted : counts action with
      | false =>
          have waiting' := waits starts enabled stepped counted
          rw [counted] at enough
          have later := inductionHypothesis waiting' ran (by simpa using enough)
          simpa [counted] using later.cons enabled stepped
      | true =>
          rw [counted] at enough
          cases rank with
          | zero => exact absurd starts (never start)
          | succ rank =>
              rcases advances starts enabled stepped counted with
                isGoal | waiting'
              · exact ⟨[], action, actions, start, middle, rfl, by simp, counted,
                  rfl, stepped, isGoal⟩
              · have later := inductionHypothesis waiting' ran
                  (by simpa using enough)
                simpa [counted] using later.cons enabled stepped

/-- A run whose last state passes a test exhibits a reachable state. -/
theorem exists_reachable_of_any
    {step : σ → ι → Except ε σ}
    {allowed : σ → ι → Prop}
    [∀ state action, Decidable (allowed state action)]
    {start : σ}
    {test : σ → Bool}
    (actions : List ι)
    (ran : (runActions step allowed actions start).any test = true) :
    ∃ state, Reachable step allowed start state ∧ test state = true := by
  cases last : runActions step allowed actions start with
  | none =>
      rw [last] at ran
      cases ran
  | some after =>
      rw [last] at ran
      exact ⟨after, reachable_of_runActions .refl last, ran⟩

/-- Start a system whose first state may fail to come about, and take the given
actions. -/
def runBooted
    {β : Type u}
    (boot : Except ε β)
    (start : β → σ)
    (step : σ → ι → Except ε σ)
    (allowed : σ → ι → Prop)
    [∀ state action, Decidable (allowed state action)]
    (actions : List ι) : Option σ :=
  match boot with
  | .error _ => none
  | .ok booted => runActions step allowed actions (start booted)

theorem exists_reachable_of_booted
    {β : Type u}
    {boot : Except ε β}
    {start : β → σ}
    {step : σ → ι → Except ε σ}
    {allowed : σ → ι → Prop}
    [∀ state action, Decidable (allowed state action)]
    {test : σ → Bool}
    (actions : List ι)
    (ran : (runBooted boot start step allowed actions).any test = true) :
    ∃ booted state, boot = .ok booted ∧
      Reachable step allowed (start booted) state ∧ test state = true := by
  cases boot with
  | error fault => cases ran
  | ok booted =>
      obtain ⟨state, reached, passed⟩ := exists_reachable_of_any actions ran
      exact ⟨booted, state, rfl, reached, passed⟩

/-! ## History variables -/

section Past

variable {τ : Type u}

/-- A system whose states remember more than the next step needs. -/
def withPast
    (project : τ → σ)
    (step : σ → ι → Except ε σ)
    (record : τ → ι → σ → τ)
    (past : τ)
    (action : ι) : Except ε τ :=
  (step (project past) action).map (record past action)

theorem withPast_eq_ok
    {project : τ → σ}
    {step : σ → ι → Except ε σ}
    {record : τ → ι → σ → τ}
    {before after : τ}
    {action : ι} :
    withPast project step record before action = .ok after ↔
      ∃ state, step (project before) action = .ok state ∧
        after = record before action state := by
  unfold withPast
  cases step (project before) action with
  | error fault => simp [Except.map]
  | ok state => simp [Except.map, eq_comm]

/-- The past does not influence the run. -/
theorem Reachable.of_withPast
    {project : τ → σ}
    {step : σ → ι → Except ε σ}
    {record : τ → ι → σ → τ}
    {start last : τ}
    (allowed : σ → ι → Prop)
    (keeps : ∀ past action state, project (record past action state) = state)
    (reached : Reachable (withPast project step record)
      (fun past action => allowed (project past) action) start last) :
    Reachable step allowed (project start) (project last) := by
  induction reached with
  | refl => exact .refl
  | tail _ enabled stepped inductionHypothesis =>
      obtain ⟨state, systemStepped, rfl⟩ := withPast_eq_ok.mp stepped
      rw [keeps]
      exact inductionHypothesis.tail enabled systemStepped

end Past

end TinierOS
