import TinierOS.System.Single

/-!
# Reaping children

Any number of threads of a process may wait for its children.  A loop of
`sys_WaitChild` tests only the state of the PCB it has found at the beginning,
so it may wake up to a slot that another thread has released or that holds a
new process.
-/

namespace TinierOS

variable {limits : Limits}

namespace System

open Kernel

/-- A thread is suspended in `sys_WaitChild(child, status)`. -/
def WaitsFor
    (system : System limits)
    (slot : Fin limits.maxThreads)
    (child : Fin limits.maxProc) : Prop :=
  system.kernel.threadUsed slot = true ∧
    (system.control slot = .waitChild child true ∨
      system.control slot = .waitChild child false)

instance
    (system : System limits)
    (slot : Fin limits.maxThreads)
    (child : Fin limits.maxProc) :
    Decidable (system.WaitsFor slot child) :=
  inferInstanceAs (Decidable (_ ∧ (_ ∨ _)))

theorem waitsFor_of_suspended
    {system : System limits}
    {slot : Fin limits.maxThreads}
    {child : Fin limits.maxProc}
    {status : Bool}
    (usedSlot : system.kernel.threadUsed slot = true)
    (suspended : system.control slot = .waitChild child status) :
    system.WaitsFor slot child := by
  refine ⟨usedSlot, ?_⟩
  cases status with
  | true => exact .inl suspended
  | false => exact .inr suspended

/-- When a step cleans up a child, no other thread waits for it. -/
def ReapsUnshared (system : System limits) (action : Action limits) : Prop :=
  ∀ slot child, system.currentSlot = some slot →
    system.reapTarget slot action = some child →
      ∀ other, other ≠ slot → ¬system.WaitsFor other child

instance (system : System limits) (action : Action limits) :
    Decidable (system.ReapsUnshared action) :=
  inferInstanceAs (Decidable (∀ _, _))

/-- `Exit` is called by threads whose PCB has not been released. -/
def ExitsOccupied (system : System limits) : Action limits → Prop
  | .exit _ _ => ∀ proc, system.kernel.currentProc = some proc →
      system.kernel.pstate proc ≠ .free
  | _ => True

instance (system : System limits) (action : Action limits) :
    Decidable (system.ExitsOccupied action) :=
  match action with
  | .exit _ _ => inferInstanceAs (Decidable (∀ _, _ → _))
  | .idle _ | .start | .yield _ _ | .wakeup _ | .exec _ _ _ _
  | .waitChild _ _ _ | .createThread _ _ _ | .threadExit _ _
  | .threadJoin _ _ _ | .threadDetach _ | .openNull | .openTerminal _
  | .close _ | .resume _ => inferInstanceAs (Decidable True)

end System

namespace History

open TinierOS.System TinierOS.Kernel

/-- No incarnation is reaped twice, and a call of `WaitChild(child)` reaps the
incarnation that was there when it was made. -/
structure ReapedOnce (history : History limits) : Prop where
  once : (history.reaps.map Reap.child).Nodup
  waited : ∀ {reap born}, reap ∈ history.reaps → reap.waited = some born →
    born = reap.child.2

/-- The invariant behind it: a thread waits for the present incarnation of a
slot that is not free, and the present incarnation of such a slot has not been
reaped. -/
structure Reaping (history : History limits) : Prop extends
    history.ReapedOnce where
  waits : ∀ {slot child status},
    history.system.kernel.threadUsed slot = true →
    history.system.control slot = .waitChild child status →
      history.system.kernel.pstate child ≠ .free ∧
        history.waitBorn slot = some (history.born child)
  waitsAny : ∀ {slot parent status},
    history.system.kernel.threadUsed slot = true →
    history.system.control slot = .waitAny parent status →
      history.waitBorn slot = none
  past : ∀ {reap}, reap ∈ history.reaps →
    reap.child.2 ≤ history.born reap.child.1
  present : ∀ {reap}, reap ∈ history.reaps →
    history.system.kernel.pstate reap.child.1 ≠ .free →
      reap.child.2 < history.born reap.child.1

/-- What a suspended thread asked for does not change. -/
theorem waitBornAfter_of_suspended
    {history : History limits}
    {action : Action limits}
    {slot : Fin limits.maxThreads}
    (enabled : history.system.Enabled action)
    (notUser : history.system.control slot ≠ .user) :
    history.waitBornAfter action slot = history.waitBorn slot := by
  cases isCurrent : history.system.currentSlot with
  | none => simp [waitBornAfter, isCurrent]
  | some current =>
      cases action with
      | waitChild cpid status clock =>
          have calls : history.system.currentControl = some .user := enabled
          have different : slot ≠ current := by
            rintro rfl
            rw [currentControl_of_slot isCurrent] at calls
            exact notUser (Option.some.inj calls)
          simp [waitBornAfter, isCurrent, different]
      | _ => simp [waitBornAfter, isCurrent]

/-- A call of `WaitChild` remembers the present incarnation of the child. -/
theorem waitBornAfter_of_call
    {history : History limits}
    {slot : Fin limits.maxThreads}
    {cpid : Int}
    {status : Bool}
    {clock : Clock}
    (isCurrent : history.system.currentSlot = some slot) :
    history.waitBornAfter (.waitChild cpid status clock) slot =
      (history.system.kernel.getPcb cpid).map history.born := by
  simp [waitBornAfter, isCurrent]

theorem getPcb_noproc (kernel : Kernel limits) : kernel.getPcb (-1) = none := by
  simp [getPcb]

namespace Reaping

variable {before : History limits}
variable {action : Action limits}
variable {after : System limits}

/-- What a thread waits for at the end of a step was there at its start. -/
theorem waits_before
    {slot : Fin limits.maxThreads}
    {child : Fin limits.maxProc}
    {status : Bool}
    (reaping : before.Reaping)
    (enabled : before.system.Enabled action)
    (effect : Effect before.system action after)
    (usedSlot : after.kernel.threadUsed slot = true)
    (suspended : after.control slot = .waitChild child status) :
    before.system.kernel.pstate child ≠ .free ∧
      before.waitBornAfter action slot = some (before.born child) := by
  obtain ⟨wasUsed, control⟩ := effect.suspended usedSlot
    (by simp [suspended]) (by simp [suspended])
  rw [suspended] at control
  rcases control with same | ⟨isCurrent, entered⟩
  · rw [waitBornAfter_of_suspended enabled (by simp [← same])]
    exact reaping.waits wasUsed same.symm
  · cases entered with
    | waitChild call found isParent isAlive =>
        rw [call, waitBornAfter_of_call isCurrent, found]
        exact ⟨by simp [isAlive], rfl⟩

theorem waitsAny_before
    {slot : Fin limits.maxThreads}
    {parent : Fin limits.maxProc}
    {status : Bool}
    (reaping : before.Reaping)
    (enabled : before.system.Enabled action)
    (effect : Effect before.system action after)
    (usedSlot : after.kernel.threadUsed slot = true)
    (suspended : after.control slot = .waitAny parent status) :
    before.waitBornAfter action slot = none := by
  obtain ⟨wasUsed, control⟩ := effect.suspended usedSlot
    (by simp [suspended]) (by simp [suspended])
  rw [suspended] at control
  rcases control with same | ⟨isCurrent, entered⟩
  · rw [waitBornAfter_of_suspended enabled (by simp [← same])]
    exact reaping.waitsAny wasUsed same.symm
  · cases entered with
    | waitAny call isParent =>
        rw [call, waitBornAfter_of_call isCurrent, getPcb_noproc]
        rfl

/-- A child is reaped while it is there. -/
theorem reaped_not_free
    {slot : Fin limits.maxThreads}
    {child : Fin limits.maxProc}
    {status : Bool}
    (reaping : before.Reaping)
    (rings : before.system.kernel.ExitedRings)
    (usedSlot : before.system.kernel.threadUsed slot = true)
    (reaps : Reaps before.system action slot child status) :
    before.system.kernel.pstate child ≠ .free := by
  cases reaps with
  | call call specific found isParent notAlive => exact getPcb_eq_some found
  | resume resumes suspended notAlive =>
      exact (reaping.waits usedSlot suspended).1
  | any loop nonempty front =>
      rw [(rings.isChild_of_front nonempty front).1]
      simp

/-- The call that reaps a child had asked for it. -/
theorem waited_of_reaps
    {slot : Fin limits.maxThreads}
    {child : Fin limits.maxProc}
    {status : Bool}
    {born : Nat}
    (reaping : before.Reaping)
    (enabled : before.system.Enabled action)
    (isCurrent : before.system.currentSlot = some slot)
    (usedSlot : before.system.kernel.threadUsed slot = true)
    (reaps : Reaps before.system action slot child status)
    (waited : before.waitBornAfter action slot = some born) :
    born = before.born child := by
  cases reaps with
  | call call specific found isParent notAlive =>
      rw [call, waitBornAfter_of_call isCurrent, found] at waited
      exact (Option.some.inj waited).symm
  | resume resumes suspended notAlive =>
      rw [waitBornAfter_of_suspended enabled (by simp [suspended]),
        (reaping.waits usedSlot suspended).2] at waited
      exact (Option.some.inj waited).symm
  | any loop nonempty front =>
      cases loop with
      | call call isParent hasChildren =>
          rw [call, waitBornAfter_of_call isCurrent, getPcb_noproc] at waited
          cases waited
      | resume resumes suspended =>
          rw [waitBornAfter_of_suspended enabled (by simp [suspended]),
            reaping.waitsAny usedSlot suspended] at waited
          cases waited

/-- Steps that neither create nor reap a process, and release none. -/
theorem of_quiet
    (reaping : before.Reaping)
    (enabled : before.system.Enabled action)
    (effect : Effect before.system action after)
    (quiet : after.reply.Quiet)
    (kept : ∀ pid, before.system.kernel.pstate pid ≠ .free →
      after.kernel.pstate pid ≠ .free)
    (freed : ∀ pid, before.system.kernel.pstate pid = .free →
      after.kernel.pstate pid = .free) :
    (before.record action after).Reaping := by
  obtain ⟨sameBorn, -, sameReaps⟩ :
    (before.record action after).born = before.born ∧ _ ∧ _ :=
      record_of_quiet quiet
  refine ⟨⟨?_, ?_⟩, ?_, ?_, ?_, ?_⟩
  · rw [sameReaps]
    exact reaping.once
  · intro reap born member
    rw [sameReaps] at member
    exact reaping.waited member
  · intro slot child status usedSlot suspended
    obtain ⟨notFree, asked⟩ :=
      reaping.waits_before enabled effect usedSlot suspended
    rw [sameBorn]
    exact ⟨kept child notFree, asked⟩
  · intro slot parent status usedSlot suspended
    exact reaping.waitsAny_before enabled effect usedSlot suspended
  · intro reap member
    rw [sameReaps] at member
    rw [sameBorn]
    exact reaping.past member
  · intro reap member notFree
    rw [sameReaps] at member
    rw [sameBorn]
    exact reaping.present member fun wasFree => notFree (freed _ wasFree)

theorem of_same
    (reaping : before.Reaping)
    (enabled : before.system.Enabled action)
    (effect : Effect before.system action after)
    (quiet : after.reply.Quiet)
    (procs : SameProcs before.system.kernel after.kernel) :
    (before.record action after).Reaping := by
  refine reaping.of_quiet enabled effect quiet ?_ ?_
  · intro pid notFree
    rw [procs.pstate]
    exact notFree
  · intro pid isFree
    rw [procs.pstate]
    exact isFree

/-- A slot gets its next incarnation. -/
theorem of_executed
    {newproc : Fin limits.maxProc}
    (reaping : before.Reaping)
    (enabled : before.system.Enabled action)
    (effect : Effect before.system action after)
    (created : ProcCreated before.system.kernel after.kernel newproc .alive)
    (reply : after.reply = .exec (some newproc)) :
    (before.record action after).Reaping := by
  obtain ⟨bornAfter, -, -, sameReaps⟩ :
    (before.record action after).born = _ ∧ _ ∧ _ ∧ _ := record_of_exec reply
  refine ⟨⟨?_, ?_⟩, ?_, ?_, ?_, ?_⟩
  · rw [sameReaps]
    exact reaping.once
  · intro reap born member
    rw [sameReaps] at member
    exact reaping.waited member
  · intro slot child status usedSlot suspended
    obtain ⟨notFree, asked⟩ :=
      reaping.waits_before enabled effect usedSlot suspended
    have different : child ≠ newproc := by
      rintro rfl
      exact notFree created.wasFree
    rw [bornAfter, Function.update_of_ne different]
    refine ⟨?_, asked⟩
    show after.kernel.pstate child ≠ .free
    rw [created.pstate, Function.update_of_ne different]
    exact notFree
  · intro slot parent status usedSlot suspended
    exact reaping.waitsAny_before enabled effect usedSlot suspended
  · intro reap member
    rw [sameReaps] at member
    have earlier := reaping.past member
    rw [bornAfter, Function.update_apply]
    split_ifs with isNew
    · rw [isNew] at earlier
      omega
    · exact earlier
  · intro reap member notFree
    rw [sameReaps] at member
    have notFree : after.kernel.pstate reap.child.1 ≠ .free := notFree
    have earlier := reaping.past member
    rw [bornAfter, Function.update_apply]
    split_ifs with isNew
    · rw [isNew] at earlier
      omega
    · rw [created.pstate, Function.update_of_ne isNew] at notFree
      exact reaping.present member notFree

/-- A slot is released, for which no other thread waits. -/
theorem of_reaped
    {slot : Fin limits.maxThreads}
    {child : Fin limits.maxProc}
    {status : Bool}
    {value : Option Int}
    (reaping : before.Reaping)
    (sound : before.system.Sound)
    (rings : before.system.kernel.ExitedRings)
    (enabled : before.system.Enabled action)
    (effect : Effect before.system action after)
    (isCurrent : before.system.currentSlot = some slot)
    (reaps : Reaps before.system action slot child status)
    (unshared : ∀ other, other ≠ slot → ¬before.system.WaitsFor other child)
    (reaped : ProcReaped before.system.kernel after.kernel child)
    (threads : SameThreads before.system.kernel after.kernel)
    (control : after.control =
      Function.update before.system.control slot .user)
    (reply : after.reply = .waitChild (some child) value) :
    (before.record action after).Reaping := by
  have usedSlot := sound.current_used isCurrent
  have notFree := reaping.reaped_not_free rings usedSlot reaps
  obtain ⟨sameBorn, -, reapsAfter⟩ :
    (before.record action after).born = before.born ∧ _ ∧ _ :=
      record_of_reaped reply
  refine ⟨⟨?_, ?_⟩, ?_, ?_, ?_, ?_⟩
  · rw [reapsAfter, List.map_cons, List.nodup_cons]
    refine ⟨?_, reaping.once⟩
    intro again
    obtain ⟨reap, member, isChild⟩ := List.mem_map.mp again
    have earlier := reaping.present member
    rw [isChild] at earlier
    exact Nat.lt_irrefl _ (earlier notFree)
  · intro reap born member asked
    rw [reapsAfter, List.mem_cons] at member
    rcases member with rfl | earlier
    · rw [isCurrent] at asked
      exact reaping.waited_of_reaps enabled isCurrent usedSlot reaps asked
    · exact reaping.waited earlier asked
  · intro other awaited wanted usedOther suspended
    have usedOther : after.kernel.threadUsed other = true := usedOther
    have suspended : after.control other = .waitChild awaited wanted :=
      suspended
    obtain ⟨awaitedNotFree, asked⟩ :=
      reaping.waits_before enabled effect usedOther suspended
    have different : other ≠ slot := by
      rintro rfl
      simp [control] at suspended
    have wasUsed := usedOther
    rw [threads.used] at wasUsed
    have wasSuspended := suspended
    rw [control, Function.update_of_ne different] at wasSuspended
    have notReaped : awaited ≠ child := by
      rintro rfl
      exact unshared other different
        (waitsFor_of_suspended wasUsed wasSuspended)
    rw [sameBorn]
    refine ⟨?_, asked⟩
    show after.kernel.pstate awaited ≠ .free
    rw [reaped.pstate, Function.update_of_ne notReaped]
    exact awaitedNotFree
  · intro other parent wanted usedOther suspended
    exact reaping.waitsAny_before enabled effect usedOther suspended
  · intro reap member
    rw [reapsAfter, List.mem_cons] at member
    rw [sameBorn]
    rcases member with rfl | earlier
    · exact Nat.le_refl _
    · exact reaping.past earlier
  · intro reap member notFreeAfter
    have notFreeAfter : after.kernel.pstate reap.child.1 ≠ .free :=
      notFreeAfter
    have different : reap.child.1 ≠ child := by
      intro same
      rw [same, reaped.pstate, Function.update_self] at notFreeAfter
      exact notFreeAfter rfl
    rw [reaped.pstate, Function.update_of_ne different] at notFreeAfter
    rw [reapsAfter, List.mem_cons] at member
    rw [sameBorn]
    rcases member with rfl | earlier
    · exact absurd rfl different
    · exact reaping.present earlier notFreeAfter

/-- Every step that shares no reaped child and revives no slot keeps the
invariant. -/
theorem step
    (reaping : before.Reaping)
    (sound : before.system.Sound)
    (rings : before.system.kernel.ExitedRings)
    (enabled : before.system.Enabled action)
    (unshared : before.system.ReapsUnshared action)
    (occupied : before.system.ExitsOccupied action)
    (effect : Effect before.system action after) :
    (before.record action after).Reaping := by
  have anyEffect := effect
  cases effect with
  | stay notExit procs files threads ptcbs control reply =>
      exact reaping.of_same enabled anyEffect reply procs
  | executed caller newproc isCurrent proc files threads control reply =>
      exact reaping.of_executed enabled anyEffect proc reply
  | execFailed caller newproc isCurrent isCall noSlot proc files threads ptcbs
      control reply =>
      have samePstate : after.kernel.pstate = before.system.kernel.pstate := by
        rw [proc.pstate, ← proc.wasFree, Function.update_eq_self]
      refine reaping.of_quiet enabled anyEffect reply ?_ ?_
      · intro pid notFree
        rw [samePstate]
        exact notFree
      · intro pid isFree
        rw [samePstate]
        exact isFree
  | exited leaver proc isCurrent owned procs files threads ptcbs control
      reply =>
      have isCaller : before.system.kernel.currentProc = some proc := by
        exact currentProc_of_owned isCurrent owned
      have notFree := occupied proc isCaller
      refine reaping.of_quiet enabled anyEffect reply ?_ ?_
      · intro pid _
        rw [procs.pstate, Function.update_apply]
        split_ifs <;> simp_all
      · intro pid isFree
        have different : pid ≠ proc := by
          rintro rfl
          exact notFree isFree
        rw [procs.pstate, Function.update_of_ne different]
        exact isFree
  | threadExited leaver proc isCurrent owned procs files threads ptcbs control
      reply => exact reaping.of_same enabled anyEffect reply procs
  | reaped reaper reaped status isCurrent reason procs files threads ptcbs
      control reply =>
      exact reaping.of_reaped sound rings enabled anyEffect isCurrent reason
        (unshared reaper reaped isCurrent reason.reapTarget) procs threads
        control reply
  | threadCreated caller new proc isCurrent owned procs files thread ptcbs
      control reply => exact reaping.of_same enabled anyEffect reply procs
  | streams caller notExit isCurrent call only control reply =>
      exact reaping.of_same enabled anyEffect reply only.procs

/-- Nobody waits when the scheduler starts. -/
theorem of_booted
    {system : System limits}
    (booted : system.Booted) :
    (start system).Reaping := by
  refine ⟨⟨List.nodup_nil, fun member => absurd member List.not_mem_nil⟩,
    ?_, ?_, fun member => absurd member List.not_mem_nil,
    fun member => absurd member List.not_mem_nil⟩
  · intro slot child status usedSlot suspended
    have suspended : system.control slot = .waitChild child status := suspended
    rw [booted.control] at suspended
    cases suspended
  · intro slot parent status usedSlot suspended
    rfl

end Reaping

/-- In every run in which no child is cleaned up while another thread waits for
it, and no thread exits from a PCB that has been released, every incarnation is
reaped at most once and by calls that asked for it. -/
theorem children_reaped_once
    {history : History limits}
    (reached : Reached (fun system action => system.ReapsUnshared action ∧
      system.ExitsOccupied action) history) :
    history.ReapedOnce := by
  refine Reaping.toReapedOnce (reached.invariant (motive := Reaping) ?_ ?_)
  · exact fun booted => .of_booted booted
  · rintro before action after sound rings reaping enabled
      ⟨unshared, occupied⟩ effect
    exact reaping.step sound rings enabled unshared occupied effect

/-- A second thread of the first process waits for its child and reaps it. -/
theorem children_reaped_once_by_second_thread :
    ∃ history : History ⟨3, 3, 4, 4⟩,
      (Reached (fun system action => system.ReapsUnshared action ∧
          system.ExitsOccupied action) history ∧
        history.reaps.map Reap.child = [(2, 1)]) ∧
      history.ReapedOnce := by
  have ran : ∃ history : History ⟨3, 3, 4, 4⟩,
      Reached (fun system action => system.ReapsUnshared action ∧
        system.ExitsOccupied action) history ∧
        decide (history.reaps.map Reap.child = [(2, 1)]) = true :=
    exists_reached_of_any
      [.idle .zero, .start, .createThread (some 1) 0 .null,
        .exec (some 1) 0 .null fun _ => 0, .yield .quantum .zero, .start,
        .waitChild 2 true .zero, .start, .exit 7 .zero, .resume .zero]
      (by decide +kernel)
  obtain ⟨history, reached, test⟩ := ran
  exact ⟨history, ⟨reached, of_decide_eq_true test⟩,
    children_reaped_once reached⟩

/-- Two threads of the first process wait for the same child, and both return
it. -/
theorem child_reaped_by_two_threads :
    ∃ history : History ⟨3, 3, 4, 4⟩, Reached (fun _ _ => True) history ∧
      history.reaps.map Reap.child = [(2, 1), (2, 1)] ∧
      ¬history.ReapedOnce := by
  have ran : ∃ history : History ⟨3, 3, 4, 4⟩,
      Reached (fun _ _ => True) history ∧
        decide (history.reaps.map Reap.child = [(2, 1), (2, 1)]) = true :=
    exists_reached_of_any
      [.idle .zero, .start, .createThread (some 1) 0 .null,
        .exec (some 1) 0 .null fun _ => 0, .waitChild 2 true .zero, .start,
        .waitChild 2 true .zero, .start, .exit 7 .zero, .resume .zero,
        .yield .quantum .zero, .resume .zero]
      (by decide +kernel)
  obtain ⟨history, reached, test⟩ := ran
  have twice := of_decide_eq_true test
  refine ⟨history, reached, twice, fun reaped => ?_⟩
  have once := reaped.once
  rw [twice] at once
  simp at once

end History
end TinierOS
