import TinierOS.System.Defs
import TinierOS.Proc.Tables

/-!
# The code a step runs

`System.step` read backwards: which call the current thread makes, what the call
returns and the state it leaves.  All that is said elsewhere about steps follows
from this.
-/

namespace TinierOS

variable {limits : Limits}

/-- Neither the pid of a new process nor that of a reaped one. -/
def Reply.Quiet : Reply limits → Prop
  | .exec (some _) => False
  | .waitChild (some _) _ => False
  | _ => True

/-- The value that a step passes to `Exit`. -/
def Action.exitval : Action limits → Option Int
  | .exit exitval _ => some exitval
  | _ => none

/-- The steps that call a function which writes a table.  `WaitChild` does so
only when it reaps a child. -/
def Action.writes : Action limits → Bool
  | .exec _ _ _ _ | .exit _ _ | .createThread _ _ _ | .threadExit _ _
  | .threadDetach _ | .openNull | .openTerminal _ | .close _ => true
  | .idle _ | .start | .yield _ _ | .wakeup _ | .waitChild _ _ _
  | .threadJoin _ _ _ | .resume _ => false

/-- The device that a step opens. -/
def Action.opens : Action limits → Option (DeviceType × Nat)
  | .openNull => some (.null, 0)
  | .openTerminal termno => some (.serial, termno)
  | _ => none

/-- A call that returns no object, or one that has not returned yet. -/
def Reply.Blank : Reply limits → Prop
  | .none => True
  | .waitChild pid _ => pid = Option.none
  | .threadJoin result _ => result = -1
  | _ => False

theorem Action.exitval_of_plain
    {action : Action limits}
    (plain : action.writes = false) :
    action.exitval = none := by
  cases action with
  | exit exitval clock => cases plain
  | _ => rfl

theorem Action.exitval_of_opens
    {action : Action limits}
    {device : DeviceType × Nat}
    (opens : action.opens = some device) :
    action.exitval = none := by
  cases action with
  | exit exitval clock => cases opens
  | _ => rfl

theorem Reply.Blank.quiet
    {reply : Reply limits}
    (blank : reply.Blank) :
    reply.Quiet := by
  cases reply with
  | exec pid => cases blank
  | waitChild pid status =>
      cases blank
      trivial
  | _ => trivial

namespace System

open Kernel

/-! ## The current thread -/

theorem currentSlot_eq_some
    {system : System limits}
    {slot : Fin limits.maxThreads} :
    system.currentSlot = some slot ↔
      system.kernel.sched.currentThread = some (.slot slot) := by
  unfold currentSlot
  split <;> simp_all

theorem step_of_slot
    {system : System limits}
    {slot : Fin limits.maxThreads}
    {action : Action limits}
    (isCurrent : system.currentSlot = some slot) :
    system.step action = system.threadStep slot action := by
  unfold step
  rw [isCurrent]

theorem currentControl_of_slot
    {system : System limits}
    {slot : Fin limits.maxThreads}
    (isCurrent : system.currentSlot = some slot) :
    system.currentControl = some (system.control slot) := by
  rw [currentControl, isCurrent]
  rfl

theorem exists_currentSlot
    {system : System limits}
    {control : Control limits}
    (isControl : system.currentControl = some control) :
    ∃ slot, system.currentSlot = some slot := by
  obtain ⟨slot, isCurrent, -⟩ := Option.map_eq_some_iff.mp isControl
  exact ⟨slot, isCurrent⟩

theorem not_enabled_of_idle
    {system : System limits}
    {action : Action limits}
    (noSlot : system.currentSlot = none)
    (notIdle : ∀ clock, action ≠ .idle clock) :
    ¬system.Enabled action := by
  have noControl : system.currentControl = none := by
    rw [currentControl, noSlot]
    rfl
  cases action with
  | idle clock => exact absurd rfl (notIdle clock)
  | _ => simp [Enabled, noControl]

/-! ## Why a loop waits or ends -/

/-- The place a thread can be in after a step that reaps no child. -/
inductive Entered
    (before : System limits)
    (action : Action limits)
    (slot : Fin limits.maxThreads) : Control limits → Prop
  | user : Entered before action slot .user
  | waitChild
      {cpid : Int}
      {child : Fin limits.maxProc}
      {status : Bool}
      {clock : Clock}
      (call : action = .waitChild cpid status clock)
      (found : before.kernel.getPcb cpid = some child)
      (isParent : before.kernel.parent child = before.kernel.owner slot)
      (isAlive : before.kernel.pstate child = .alive) :
      Entered before action slot (.waitChild child status)
  | waitAny
      {parent : Fin limits.maxProc}
      {status : Bool}
      {clock : Clock}
      (call : action = .waitChild (-1) status clock)
      (isParent : before.kernel.owner slot = some parent) :
      Entered before action slot (.waitAny parent status)
  | join
      {ptcb : Fin limits.maxThreads}
      {exitval : Bool} :
      Entered before action slot (.join ptcb exitval)

/-- A step of `slot` tests the condition of the second loop of
`sys_WaitChild(NOPROC, status)`. -/
inductive AnyLoop
    (before : System limits)
    (action : Action limits)
    (slot : Fin limits.maxThreads)
    (parent : Fin limits.maxProc)
    (status : Bool) : Prop
  | call
      {clock : Clock}
      (call : action = .waitChild (-1) status clock)
      (isParent : before.kernel.owner slot = some parent)
      (hasChildren : (before.kernel.children (.list parent)).next ≠
        .list parent)
  | resume
      {clock : Clock}
      (resumes : action = .resume clock)
      (suspended : before.control slot = .waitAny parent status)

/-- Why a step of `slot` reaps `child`; `status` says whether it also returns
the exit value. -/
inductive Reaps
    (before : System limits)
    (action : Action limits)
    (slot : Fin limits.maxThreads)
    (child : Fin limits.maxProc)
    (status : Bool) : Prop
  /-- `WaitChild(child)` finds that the child is not alive. -/
  | call
      {cpid : Int}
      {clock : Clock}
      (call : action = .waitChild cpid status clock)
      (specific : cpid ≠ -1)
      (found : before.kernel.getPcb cpid = some child)
      (isParent : before.kernel.parent child = before.kernel.owner slot)
      (notAlive : before.kernel.pstate child ≠ .alive)
  /-- `WaitChild(child)` finds so after a `yield`. -/
  | resume
      {clock : Clock}
      (resumes : action = .resume clock)
      (suspended : before.control slot = .waitChild child status)
      (notAlive : before.kernel.pstate child ≠ .alive)
  /-- `WaitChild(NOPROC)` takes the front of `exited_list`. -/
  | any
      {parent : Fin limits.maxProc}
      (loop : AnyLoop before action slot parent status)
      (nonempty : (before.kernel.exited (.list parent)).next ≠ .list parent)
      (front : (before.kernel.exited
        (before.kernel.exited (.list parent)).next).obj = some child)

/-- A step that tests the condition of the loop of `sys_ThreadJoin(ptcb)`. -/
inductive JoinLoop
    (before : System limits)
    (action : Action limits)
    (slot ptcb : Fin limits.maxThreads)
    (exitval : Bool) : Prop
  | call
      {clock : Clock}
      (call : action = .threadJoin (some ptcb) exitval clock)
  | resume
      {clock : Clock}
      (resumes : action = .resume clock)
      (suspended : before.control slot = .join ptcb exitval)

/-! ## The cases of a step -/

/-- The call of the current thread, with the whole state after it. -/
inductive Turn
    (before : System limits) : Action limits → System limits → Prop
  /-- The call returns at once and changes nothing. -/
  | returns
      {action : Action limits}
      {reply : Reply limits}
      (slot : Fin limits.maxThreads)
      (plain : action.writes = false)
      (isCurrent : before.currentSlot = some slot)
      (blank : reply.Blank) :
      Turn before action (before.returning slot before.kernel reply)
  /-- The thread gives up the core and goes on at `control` later. -/
  | suspends
      {action : Action limits}
      {after : System limits}
      (slot : Fin limits.maxThreads)
      (control : Control limits)
      (cause : SchedCause)
      (clock : Clock)
      (plain : action.writes = false)
      (isCurrent : before.currentSlot = some slot)
      (entered : control = before.control slot ∨
        Entered before action slot control)
      (suspended : before.suspend slot control cause clock = .ok after) :
      Turn before action after
  | idles
      {clock : Clock}
      {after : System limits}
      (noSlot : before.currentSlot = none)
      (idled : before.idleStep clock = .ok after) :
      Turn before (.idle clock) after
  | wakes
      {other : Fin limits.maxThreads}
      {sched : Sched limits}
      (slot : Fin limits.maxThreads)
      (woke : Bool)
      (isCurrent : before.currentSlot = some slot)
      (usedOther : before.kernel.sched.threadUsed other = true)
      (woken : before.kernel.sched.wakeup (.slot other) = .ok (sched, woke)) :
      Turn before (.wakeup other)
        (before.returning slot { before.kernel with sched := sched } .none)
  /-- `ThreadJoin` finds that the thread has exited. -/
  | joined
      {action : Action limits}
      (slot ptcb : Fin limits.maxThreads)
      (exitval : Bool)
      (plain : action.writes = false)
      (isCurrent : before.currentSlot = some slot)
      (loop : JoinLoop before action slot ptcb exitval)
      (exited : (before.kernel.ptcb ptcb).exited = true) :
      Turn before action (before.returning slot before.kernel
        (.threadJoin 0
          (if exitval then some (before.kernel.ptcb ptcb).exitval else none)))
  /-- `WaitChild` cleans up a child. -/
  | reaped
      {action : Action limits}
      (slot : Fin limits.maxThreads)
      (child : Fin limits.maxProc)
      (status : Bool)
      (plain : action.writes = false)
      (isCurrent : before.currentSlot = some slot)
      (reason : Reaps before action slot child status) :
      Turn before action
        (before.returning slot (before.kernel.cleanupZombie child).2
          (.waitChild (some child) (if status then
            some (before.kernel.cleanupZombie child).1 else none)))
  | executed
      {call : Option Task}
      {argl : Int}
      {args : ArgPtr limits}
      {memory : Nat → UInt8}
      {kernel : Kernel limits}
      (slot : Fin limits.maxThreads)
      (pid : Option (Fin limits.maxProc))
      (isCurrent : before.currentSlot = some slot)
      (executed : before.kernel.sysExec call argl args memory =
        .ok (pid, kernel)) :
      Turn before (.exec call argl args memory)
        ((before.returning slot kernel (.exec pid)).withNewThread before)
  | exited
      {exitval : Int}
      {clock : Clock}
      {kernel : Kernel limits}
      (slot : Fin limits.maxThreads)
      (isCurrent : before.currentSlot = some slot)
      (exited : before.kernel.sysExit exitval clock.remaining clock.curtime =
        .ok kernel) :
      Turn before (.exit exitval clock) (before.returning slot kernel .none)
  | threadExited
      {exitval : Int}
      {clock : Clock}
      {kernel : Kernel limits}
      (slot : Fin limits.maxThreads)
      (isCurrent : before.currentSlot = some slot)
      (exited : before.kernel.sysThreadExit exitval clock.remaining
        clock.curtime = .ok kernel) :
      Turn before (.threadExit exitval clock)
        (before.returning slot kernel .none)
  | created
      {task : Option Task}
      {argl : Int}
      {args : ArgPtr limits}
      {kernel : Kernel limits}
      (slot : Fin limits.maxThreads)
      (tid : Option (Fin limits.maxThreads))
      (isCurrent : before.currentSlot = some slot)
      (created : before.kernel.sysCreateThread task argl args =
        .ok (tid, kernel)) :
      Turn before (.createThread task argl args)
        ((before.returning slot kernel (.createThread tid)).withNewThread
          before)
  | detached
      {tid : Option (Fin limits.maxThreads)}
      (slot : Fin limits.maxThreads)
      (isCurrent : before.currentSlot = some slot) :
      Turn before (.threadDetach tid)
        (before.returning slot (before.kernel.sysThreadDetach tid).2
          (.threadDetach (before.kernel.sysThreadDetach tid).1))
  | opened
      {action : Action limits}
      {major : DeviceType}
      {minor : Nat}
      {kernel : Kernel limits}
      (slot : Fin limits.maxThreads)
      (fid : Option (Fin limits.maxFileid))
      (isCurrent : before.currentSlot = some slot)
      (opens : action.opens = some (major, minor))
      (opened : before.kernel.openStream major minor = .ok (fid, kernel)) :
      Turn before action (before.returning slot kernel (.openStream fid))
  | closed
      {fd : Int}
      {kernel : Kernel limits}
      (slot : Fin limits.maxThreads)
      (result : Int)
      (isCurrent : before.currentSlot = some slot)
      (closed : before.kernel.sysClose fd = .ok (result, kernel)) :
      Turn before (.close fd) (before.returning slot kernel (.close result))

/-! ## The polling loops -/

variable {system after : System limits}
variable {slot : Fin limits.maxThreads}
variable {action : Action limits}
variable {clock : Clock}

theorem turn_of_waitChildLoop
    {child : Fin limits.maxProc}
    {status : Bool}
    (plain : action.writes = false)
    (isCurrent : system.currentSlot = some slot)
    (looped : system.waitChildLoop slot child status clock = .ok after)
    (alive : system.kernel.pstate child = .alive →
      .waitChild child status = system.control slot ∨
        Entered system action slot (.waitChild child status))
    (notAlive : system.kernel.pstate child ≠ .alive →
      Reaps system action slot child status) :
    Turn system action after := by
  unfold System.waitChildLoop pollChild at looped
  by_cases isAlive : (system.kernel.pcb child).pstate = .alive
  · rw [if_pos isAlive] at looped
    exact .suspends slot _ _ _ plain isCurrent (alive isAlive) looped
  · rw [if_neg isAlive] at looped
    cases looped
    exact .reaped slot child status plain isCurrent (notAlive isAlive)

theorem turn_of_waitAnyLoop
    {parent : Fin limits.maxProc}
    {status : Bool}
    (plain : action.writes = false)
    (isCurrent : system.currentSlot = some slot)
    (looped : system.waitAnyLoop slot parent status clock = .ok after)
    (loop : AnyLoop system action slot parent status)
    (entered : .waitAny parent status = system.control slot ∨
      Entered system action slot (.waitAny parent status)) :
    Turn system action after := by
  unfold System.waitAnyLoop pollAny at looped
  by_cases empty : system.kernel.exited.isRlistEmpty (.list parent) = true
  · rw [if_pos empty] at looped
    exact .suspends slot _ _ _ plain isCurrent entered looped
  · rw [if_neg empty] at looped
    have nonempty :
        (system.kernel.exited (.list parent)).next ≠ .list parent := by
      intro same
      exact empty (by simp [RlHeap.isRlistEmpty, same])
    cases front : (system.kernel.exited
        (system.kernel.exited (.list parent)).next).obj with
    | none =>
        rw [front] at looped
        cases looped
    | some child =>
        rw [front] at looped
        cases looped
        exact .reaped slot child status plain isCurrent
          (.any loop nonempty front)

theorem turn_of_sysWaitChild
    {cpid : Int}
    {status : Bool}
    (isCurrent : system.currentSlot = some slot)
    (waited : system.sysWaitChild slot cpid status clock = .ok after) :
    Turn system (.waitChild cpid status clock) after := by
  unfold System.sysWaitChild at waited
  simp only at waited
  split_ifs at waited with specific
  · cases found : system.kernel.getPcb cpid with
    | none =>
        rw [found] at waited
        cases waited
        exact .returns slot rfl isCurrent rfl
    | some child =>
        rw [found] at waited
        simp only at waited
        split_ifs at waited with other
        · cases waited
          exact .returns slot rfl isCurrent rfl
        · have isParent : system.kernel.parent child =
              system.kernel.owner slot := not_not.mp other
          exact turn_of_waitChildLoop rfl isCurrent waited
            (fun isAlive => .inr (.waitChild rfl found isParent isAlive))
            (fun notAlive => .call rfl specific found isParent notAlive)
  · obtain rfl : cpid = -1 := not_not.mp specific
    cases isParent : (system.kernel.sched.tcb (.slot slot)).ownerPcb with
    | none =>
        rw [isParent] at waited
        cases waited
    | some parent =>
        rw [isParent] at waited
        simp only at waited
        split_ifs at waited with empty
        · cases waited
          exact .returns slot rfl isCurrent rfl
        · refine turn_of_waitAnyLoop rfl isCurrent waited
            (.call rfl isParent fun same => empty ?_)
            (.inr (.waitAny rfl isParent))
          simp [RlHeap.isRlistEmpty, same]

theorem turn_of_joinLoop
    {ptcb : Fin limits.maxThreads}
    {exitval : Bool}
    (plain : action.writes = false)
    (isCurrent : system.currentSlot = some slot)
    (joined : system.joinLoop slot ptcb exitval clock = .ok after)
    (loop : JoinLoop system action slot ptcb exitval) :
    Turn system action after := by
  unfold System.joinLoop at joined
  by_cases exited : (system.kernel.ptcb ptcb).exited = true
  · rw [if_pos exited] at joined
    cases joined
    exact .joined slot ptcb exitval plain isCurrent loop exited
  · rw [if_neg exited] at joined
    exact .suspends slot _ _ _ plain isCurrent (.inr .join) joined

/-! ## Every step -/

/-- A step of a thread of the pool. -/
theorem turn_of_threadStep
    (isCurrent : system.currentSlot = some slot)
    (enabled : system.Enabled action)
    (stepped : system.threadStep slot action = .ok after) :
    Turn system action after := by
  cases action with
  | idle clock =>
      have noSlot : system.currentSlot = none := enabled
      rw [isCurrent] at noSlot
      cases noSlot
  | start =>
      simp only [System.threadStep, System.startTask] at stepped
      split at stepped <;> cases stepped
      · exact .returns slot rfl isCurrent trivial
      · exact .returns slot rfl isCurrent trivial
  | yield cause clock =>
      exact .suspends slot _ _ _ rfl isCurrent (.inl rfl) stepped
  | wakeup other =>
      obtain ⟨⟨sched, woke⟩, woken, returned⟩ := exists_of_bind_eq_ok stepped
      cases returned
      exact .wakes slot woke isCurrent enabled.2 woken
  | exec call argl args memory =>
      obtain ⟨⟨pid, kernel⟩, executed, returned⟩ :=
        exists_of_bind_eq_ok stepped
      cases returned
      exact .executed slot pid isCurrent executed
  | exit exitval clock =>
      obtain ⟨kernel, exited, returned⟩ := exists_of_bind_eq_ok stepped
      cases returned
      exact .exited slot isCurrent exited
  | waitChild cpid status clock => exact turn_of_sysWaitChild isCurrent stepped
  | createThread task argl args =>
      obtain ⟨⟨tid, kernel⟩, created, returned⟩ := exists_of_bind_eq_ok stepped
      cases returned
      exact .created slot tid isCurrent created
  | threadExit exitval clock =>
      obtain ⟨kernel, exited, returned⟩ := exists_of_bind_eq_ok stepped
      cases returned
      exact .threadExited slot isCurrent exited
  | threadJoin tid exitval clock =>
      cases tid with
      | none =>
          cases stepped
          exact .returns slot rfl isCurrent rfl
      | some ptcb => exact turn_of_joinLoop rfl isCurrent stepped (.call rfl)
  | threadDetach tid =>
      cases stepped
      exact .detached slot isCurrent
  | openNull =>
      obtain ⟨⟨fid, kernel⟩, opened, returned⟩ := exists_of_bind_eq_ok stepped
      cases returned
      exact .opened slot fid isCurrent rfl opened
  | openTerminal termno =>
      obtain ⟨⟨fid, kernel⟩, opened, returned⟩ := exists_of_bind_eq_ok stepped
      cases returned
      exact .opened slot fid isCurrent rfl opened
  | close fd =>
      obtain ⟨⟨result, kernel⟩, closed, returned⟩ :=
        exists_of_bind_eq_ok stepped
      cases returned
      exact .closed slot result isCurrent closed
  | resume clock =>
      obtain ⟨-, notFresh, notUser⟩ := enabled
      rw [currentControl_of_slot isCurrent] at notFresh notUser
      simp only [System.threadStep] at stepped
      cases control : system.control slot with
      | fresh => exact absurd (congrArg some control) notFresh
      | user => exact absurd (congrArg some control) notUser
      | waitChild child status =>
          rw [control] at stepped
          exact turn_of_waitChildLoop rfl isCurrent stepped
            (fun _ => .inl control.symm) (.resume rfl control)
      | waitAny parent status =>
          rw [control] at stepped
          exact turn_of_waitAnyLoop rfl isCurrent stepped (.resume rfl control)
            (.inl control.symm)
      | join ptcb exitval =>
          rw [control] at stepped
          exact turn_of_joinLoop rfl isCurrent stepped (.resume rfl control)

/-- Every enabled step is one of the cases. -/
theorem turn_of_step
    (enabled : system.Enabled action)
    (stepped : system.step action = .ok after) :
    Turn system action after := by
  cases isCurrent : system.currentSlot with
  | some slot =>
      rw [step_of_slot isCurrent] at stepped
      exact turn_of_threadStep isCurrent enabled stepped
  | none =>
      cases action with
      | idle clock =>
          unfold System.step at stepped
          rw [isCurrent] at stepped
          exact .idles isCurrent stepped
      | _ => exact absurd enabled (not_enabled_of_idle isCurrent (by simp))

end System
end TinierOS
