import TinierOS.System.Boot

/-!
# The whole kernel after a step

`Effect` says what a step does to the tables that describe processes and
threads.  This is the finer view: the whole kernel after a step of a sound
system, and what the step returns.
-/

namespace TinierOS

variable {limits : Limits}

namespace System

open Kernel

/-- The calls that a step consists of. -/
inductive Performs
    (before : System limits) : Action limits → System limits → Prop
  /-- Only the scheduler changes, if anything. -/
  | passes
      {action : Action limits}
      {after : System limits}
      (sched : Sched limits)
      (plain : action.writes = false)
      (kernel : after.kernel = { before.kernel with sched := sched })
      (owners : Sched.SameOwners before.kernel.sched sched)
      (used : sched.threadUsed = before.kernel.sched.threadUsed)
      (reply : after.reply.Blank) :
      Performs before action after
  /-- `ThreadJoin` finds that the thread has exited. -/
  | joined
      {action : Action limits}
      {after : System limits}
      (slot ptcb : Fin limits.maxThreads)
      (exitval : Bool)
      (plain : action.writes = false)
      (isCurrent : before.currentSlot = some slot)
      (loop : JoinLoop before action slot ptcb exitval)
      (exited : (before.kernel.ptcb ptcb).exited = true)
      (kernel : after.kernel = before.kernel)
      (reply : after.reply = .threadJoin 0
        (if exitval then some (before.kernel.ptcb ptcb).exitval else none)) :
      Performs before action after
  /-- `WaitChild` cleans up a child. -/
  | reaped
      {action : Action limits}
      {after : System limits}
      (child : Fin limits.maxProc)
      (status : Option Int)
      (plain : action.writes = false)
      (kernel : after.kernel = (before.kernel.cleanupZombie child).2)
      (reply : after.reply = .waitChild (some child) status) :
      Performs before action after
  | executed
      {call : Option Task}
      {argl : Int}
      {args : ArgPtr limits}
      {memory : Nat → UInt8}
      {after : System limits}
      (pid : Option (Fin limits.maxProc))
      (executed : before.kernel.sysExec call argl args memory =
        .ok (pid, after.kernel))
      (reply : after.reply = .exec pid) :
      Performs before (.exec call argl args memory) after
  | exited
      {exitval : Int}
      {clock : Clock}
      {after : System limits}
      (slot : Fin limits.maxThreads)
      (proc : Fin limits.maxProc)
      (sched : Sched limits)
      (isCurrent : before.currentSlot = some slot)
      (owned : before.kernel.owner slot = some proc)
      (kernel : after.kernel =
        { (before.kernel.markExit proc exitval).markThreadExit (.slot slot)
            proc exitval with
          sched := sched })
      (owners : Sched.SameOwners before.kernel.sched sched)
      (used : sched.threadUsed =
        Function.update before.kernel.sched.threadUsed slot false)
      (reply : after.reply = .none) :
      Performs before (.exit exitval clock) after
  | threadExited
      {exitval : Int}
      {clock : Clock}
      {after : System limits}
      (slot : Fin limits.maxThreads)
      (proc : Fin limits.maxProc)
      (sched : Sched limits)
      (isCurrent : before.currentSlot = some slot)
      (owned : before.kernel.owner slot = some proc)
      (kernel : after.kernel =
        { before.kernel.markThreadExit (.slot slot) proc exitval with
          sched := sched })
      (owners : Sched.SameOwners before.kernel.sched sched)
      (used : sched.threadUsed =
        Function.update before.kernel.sched.threadUsed slot false)
      (reply : after.reply = .none) :
      Performs before (.threadExit exitval clock) after
  | created
      {task : Option Task}
      {argl : Int}
      {args : ArgPtr limits}
      {after : System limits}
      (slot : Fin limits.maxThreads)
      (tid : Option (Fin limits.maxThreads))
      (isCurrent : before.currentSlot = some slot)
      (created : before.kernel.sysCreateThread task argl args =
        .ok (tid, after.kernel))
      (reply : after.reply = .createThread tid) :
      Performs before (.createThread task argl args) after
  | detached
      {tid : Option (Fin limits.maxThreads)}
      {after : System limits}
      (kernel : after.kernel = (before.kernel.sysThreadDetach tid).2)
      (reply : after.reply =
        .threadDetach (before.kernel.sysThreadDetach tid).1) :
      Performs before (.threadDetach tid) after
  | opened
      {action : Action limits}
      {after : System limits}
      {major : DeviceType}
      {minor : Nat}
      (fid : Option (Fin limits.maxFileid))
      (opens : action.opens = some (major, minor))
      (opened : before.kernel.openStream major minor =
        .ok (fid, after.kernel))
      (reply : after.reply = .openStream fid) :
      Performs before action after
  | closed
      {fd : Int}
      {after : System limits}
      (result : Int)
      (closed : before.kernel.sysClose fd = .ok (result, after.kernel))
      (reply : after.reply = .close result) :
      Performs before (.close fd) after

namespace Performs

variable {before after : System limits} {action : Action limits}

/-- A step that opens a device is a call of `open_stream`. -/
theorem of_opens
    {major : DeviceType}
    {minor : Nat}
    (performs : Performs before action after)
    (opens : action.opens = some (major, minor)) :
    ∃ fid, before.kernel.openStream major minor = .ok (fid, after.kernel) ∧
      after.reply = .openStream fid := by
  have isCall : action = .openNull ∨ ∃ termno, action = .openTerminal termno := by
    cases action with
    | openNull => exact Or.inl rfl
    | openTerminal termno => exact Or.inr ⟨termno, rfl⟩
    | _ => cases opens
  cases performs with
  | passes sched plain kernel owners used reply =>
      rcases isCall with rfl | ⟨termno, rfl⟩ <;> cases plain
  | joined slot ptcb exitval plain isCurrent loop exited kernel reply =>
      rcases isCall with rfl | ⟨termno, rfl⟩ <;> cases plain
  | reaped child status plain kernel reply =>
      rcases isCall with rfl | ⟨termno, rfl⟩ <;> cases plain
  | opened fid opens' opened reply =>
      rw [opens] at opens'
      cases opens'
      exact ⟨fid, opened, reply⟩
  | _ => cases opens

theorem of_close
    {fd : Int}
    (performs : Performs before (.close fd) after) :
    ∃ result, before.kernel.sysClose fd = .ok (result, after.kernel) ∧
      after.reply = .close result := by
  cases performs with
  | passes sched plain kernel owners used reply => cases plain
  | joined slot ptcb exitval plain isCurrent loop exited kernel reply =>
      cases plain
  | reaped child status plain kernel reply => cases plain
  | opened fid opens opened reply => cases opens
  | closed result closed reply => exact ⟨result, closed, reply⟩

/-- `Exit` and `ThreadExit` take the slot of their caller out of use. -/
theorem caller_unused
    {exitval : Int}
    {clock : Clock}
    (performs : Performs before action after)
    (exits : action = .exit exitval clock ∨
      action = .threadExit exitval clock) :
    ∃ slot, before.currentSlot = some slot ∧
      after.kernel.threadUsed slot = false := by
  have unused : ∀ {slot : Fin limits.maxThreads} {sched : Sched limits},
      sched.threadUsed =
        Function.update before.kernel.sched.threadUsed slot false →
      after.kernel.sched = sched → after.kernel.threadUsed slot = false := by
    intro slot sched used isSched
    rw [threadUsed, isSched, used, Function.update_self]
  rcases exits with rfl | rfl
  · cases performs with
    | passes sched plain => cases plain
    | joined slot ptcb exitval plain => cases plain
    | reaped child status plain => cases plain
    | opened fid opens => cases opens
    | exited slot proc sched isCurrent owned kernel owners used reply =>
        exact ⟨slot, isCurrent, unused used (by rw [kernel])⟩
  · cases performs with
    | passes sched plain => cases plain
    | joined slot ptcb exitval plain => cases plain
    | reaped child status plain => cases plain
    | opened fid opens => cases opens
    | threadExited slot proc sched isCurrent owned kernel owners used reply =>
        exact ⟨slot, isCurrent, unused used (by rw [kernel])⟩

end Performs

/-! ## Every step -/

variable {system after : System limits}
variable {slot : Fin limits.maxThreads}
variable {action : Action limits}

theorem Sound.performs_of_suspend
    {control : Control limits}
    {cause : SchedCause}
    {clock : Clock}
    (sound : system.Sound)
    (plain : action.writes = false)
    (isCurrent : system.currentSlot = some slot)
    (suspended : system.suspend slot control cause clock = .ok after) :
    Performs system action after := by
  obtain ⟨lists, inv⟩ := sound.resting
  obtain ⟨next, sched, lists', yielded, -, -, owners, used, -⟩ :=
    inv.yield (currentSlot_eq_some.mp isCurrent) cause clock.remaining
      clock.curtime
  rw [System.suspend, yielded] at suspended
  cases suspended
  exact .passes sched plain rfl owners used trivial

theorem Sound.performs_of_idle
    {clock : Clock}
    (sound : system.Sound)
    (noSlot : system.currentSlot = none)
    (idled : system.idleStep clock = .ok after) :
    Performs system (.idle clock) after := by
  unfold System.idleStep at idled
  split_ifs at idled with active
  · obtain ⟨lists, inv⟩ := sound.resting
    obtain ⟨next, sched, lists', yielded, -, -, owners, used, -⟩ :=
      inv.yield (sound.idle_of_currentSlot noSlot) .idle clock.remaining
        clock.curtime
    rw [yielded] at idled
    cases idled
    exact .passes sched rfl rfl owners used trivial
  · cases idled
    exact .passes system.kernel.sched rfl rfl (Sched.SameOwners.refl _) rfl
      trivial

theorem Sound.performs_of_exit
    {exitval : Int}
    {clock : Clock}
    {kernel : Kernel limits}
    (sound : system.Sound)
    (isCurrent : system.currentSlot = some slot)
    (exited : system.kernel.sysExit exitval clock.remaining clock.curtime =
      .ok kernel) :
    Performs system (.exit exitval clock)
      (system.returning slot kernel .none) := by
  have current := currentSlot_eq_some.mp isCurrent
  obtain ⟨proc, owned⟩ := sound.owned slot (sound.current_used isCurrent)
  have marked : (system.kernel.markExit proc exitval).Resting := sound.resting
  obtain ⟨next, sched, exited', -, -, owners, used⟩ :=
    sysThreadExit_eq marked current owned exitval clock.remaining
      clock.curtime
  rw [sysExit, currentProc_of_slot current, owned] at exited
  cases exited.symm.trans exited'
  exact .exited slot proc sched isCurrent owned rfl owners used rfl

theorem Sound.performs_of_threadExit
    {exitval : Int}
    {clock : Clock}
    {kernel : Kernel limits}
    (sound : system.Sound)
    (isCurrent : system.currentSlot = some slot)
    (exited : system.kernel.sysThreadExit exitval clock.remaining
      clock.curtime = .ok kernel) :
    Performs system (.threadExit exitval clock)
      (system.returning slot kernel .none) := by
  obtain ⟨proc, owned⟩ := sound.owned slot (sound.current_used isCurrent)
  obtain ⟨next, sched, exited', -, -, owners, used⟩ :=
    sysThreadExit_eq sound.resting (currentSlot_eq_some.mp isCurrent) owned
      exitval clock.remaining clock.curtime
  cases exited.symm.trans exited'
  exact .threadExited slot proc sched isCurrent owned rfl owners used rfl

/-- Every enabled step of a sound system runs one of the listed calls. -/
theorem Sound.performs
    (sound : system.Sound)
    (enabled : system.Enabled action)
    (stepped : system.step action = .ok after) :
    Performs system action after := by
  cases turn_of_step enabled stepped with
  | returns slot plain isCurrent blank =>
      exact .passes system.kernel.sched plain rfl (Sched.SameOwners.refl _) rfl
        blank
  | suspends slot control cause clock plain isCurrent entered suspended =>
      exact sound.performs_of_suspend plain isCurrent suspended
  | idles noSlot idled => exact sound.performs_of_idle noSlot idled
  | wakes slot woke isCurrent usedOther woken =>
      obtain ⟨lists, inv⟩ := sound.resting
      obtain ⟨sched, lists', woke', woken', -, frame⟩ := inv.wakeup usedOther
      cases woken.symm.trans woken'
      exact .passes _ rfl rfl frame.toSameOwners frame.threadUsed trivial
  | joined slot ptcb exitval plain isCurrent loop exited =>
      exact .joined slot ptcb exitval plain isCurrent loop exited rfl rfl
  | reaped slot child status plain isCurrent reason =>
      exact .reaped child _ plain rfl rfl
  | executed slot pid isCurrent executed => exact .executed pid executed rfl
  | exited slot isCurrent exited =>
      exact sound.performs_of_exit isCurrent exited
  | threadExited slot isCurrent exited =>
      exact sound.performs_of_threadExit isCurrent exited
  | created slot tid isCurrent created =>
      exact .created slot tid isCurrent created rfl
  | detached slot isCurrent => exact .detached rfl rfl
  | opened slot fid isCurrent opens opened => exact .opened fid opens opened rfl
  | closed slot result isCurrent closed => exact .closed result closed rfl

end System
end TinierOS
