import TinierOS.System.Children

/-!
# Exited children

`sys_Exit` puts the process at the end of the `exited_list` of its parent, also
when another thread of the process has put it there before.  Pushing a node of
the ring again cuts the ring, and the children that exited since are lost.
-/

namespace TinierOS

variable {limits : Limits}

namespace Kernel

/-- `exited_list` of every process holds its zombies. -/
def ZombieRings (kernel : Kernel limits) : Prop :=
  ∃ lists, kernel.RingsOf kernel.exited.links .zombie lists

/-- A process that exits is in no `exited_list` yet, or it is the last one of
the list of its parent. -/
def ExitedOnce
    (kernel : Kernel limits)
    (proc : Fin limits.maxProc) : Prop :=
  kernel.pstate proc = .zombie → ∀ parent, kernel.parent proc = some parent →
    (kernel.exited (.list parent)).prev = .node proc

instance (kernel : Kernel limits) (proc : Fin limits.maxProc) :
    Decidable (kernel.ExitedOnce proc) :=
  inferInstanceAs (Decidable (_ → ∀ _, _ → _))

namespace ZombieRings

variable {before after : Kernel limits}

theorem of_same
    (rings : before.ZombieRings)
    (same : SameProcs before after) :
    after.ZombieRings := by
  obtain ⟨lists, rings⟩ := rings
  rw [ZombieRings, same.exited]
  exact ⟨lists, rings.of_same same⟩

theorem of_created
    {newproc : Fin limits.maxProc}
    {state : PidState}
    (rings : before.ZombieRings)
    (created : ProcCreated before after newproc state)
    (notZombie : state ≠ .zombie) :
    after.ZombieRings := by
  obtain ⟨lists, rings⟩ := rings
  rw [ZombieRings, created.exited]
  refine ⟨lists, rings.of_update created.pstate created.parent (.inl ?_)
    (.inl notZombie)⟩
  rw [created.wasFree]
  simp

/-- A process joins the ring of its parent when it exits. -/
theorem of_exited
    {proc : Fin limits.maxProc}
    {exitval : Int}
    (rings : before.ZombieRings)
    (once : before.ExitedOnce proc)
    (exited : ProcExited before after proc exitval) :
    after.ZombieRings := by
  obtain ⟨lists, rings⟩ := rings
  have sameParent : after.parent =
      Function.update before.parent proc (before.parent proc) := by
    rw [exited.parent, Function.update_eq_self]
  rw [ZombieRings, exited.exited, exitExited]
  by_cases isZombie : before.pstate proc = .zombie
  · have sameState : after.pstate = before.pstate := by
      rw [exited.pstate, ← isZombie, Function.update_eq_self]
    have same : ∀ pid parent, after.IsChild .zombie pid parent ↔
        before.IsChild .zombie pid parent := by
      intro pid parent
      rw [IsChild, IsChild, sameState, exited.parent]
    cases isParent : (before.pcb proc).parent with
    | none => exact ⟨lists, rings.congr same⟩
    | some parent =>
        have isLast : before.exited.links.prev (.list parent) = .node proc :=
          once isZombie parent isParent
        rw [RlHeap.rlistPushBack_links, isLast, Links.splice_self]
        exact ⟨lists, rings.congr same⟩
  · cases isParent : (before.pcb proc).parent with
    | none =>
        exact ⟨lists, rings.of_update exited.pstate sameParent (.inl isZombie)
          (.inr isParent)⟩
    | some parent =>
        have hasParent : before.parent proc = some parent := isParent
        rw [hasParent] at sameParent
        rw [RlHeap.rlistPushBack_links]
        exact ⟨_, rings.push_back isZombie exited.pstate sameParent⟩

/-- The ring of the parent is cut when a process exits again and other children
have exited since. -/
theorem exitedOnce_of_exited
    {proc : Fin limits.maxProc}
    {exitval : Int}
    (rings : before.ZombieRings)
    (exited : ProcExited before after proc exitval)
    (kept : after.ZombieRings) :
    before.ExitedOnce proc := by
  intro isZombie parent isParent
  obtain ⟨lists, rings⟩ := rings
  obtain ⟨newLists, newRings⟩ := kept
  have member : proc ∈ lists parent := rings.mem.mpr ⟨isZombie, isParent⟩
  obtain ⟨earlier, later, split⟩ := List.append_of_mem member
  have ring := rings.represents.ring parent
  rw [split, List.map_append, List.map_cons] at ring
  have cut := ring.push_back_again
  have newRing := newRings.represents.ring parent
  have hasParent : (before.pcb proc).parent = some parent := isParent
  rw [exited.exited, exitExited, hasParent] at newRing
  simp only [RlHeap.rlistPushBack_links] at newRing
  have shorter := newRing.unique cut
  rcases List.eq_nil_or_concat later with rfl | ⟨rest, last, rfl⟩
  · have isLast := ring.prev_head
    simp only [List.map_nil, List.getLast_cons, List.getLast_append_singleton,
      ne_eq, List.append_eq_nil_iff, List.cons_ne_nil, and_false,
      not_false_eq_true] at isLast
    exact isLast
  · -- the last child of the ring is a zombie still, but no longer in the ring
    have lastMember : last ∈ lists parent := by simp [split]
    obtain ⟨lastZombie, lastParent⟩ := rings.mem.mp lastMember
    have stays : last ∈ newLists parent := by
      refine newRings.mem.mpr ⟨?_, ?_⟩
      · rw [exited.pstate, Function.update_apply]
        split_ifs
        · rfl
        · exact lastZombie
      · rw [exited.parent]
        exact lastParent
    have inRing := List.mem_map_of_mem (f := (pcbLayout limits).cell) stays
    rw [shorter, ← List.map_singleton (f := (pcbLayout limits).cell),
      ← List.map_append,
      List.mem_map_of_injective (pcbLayout limits).cell_injective] at inRing
    have nodup : ((earlier ++ [proc]) ++ (rest ++ [last])).Nodup := by
      simpa [split] using rings.represents.nodup parent
    exact absurd (List.mem_append_right rest (List.mem_singleton_self last))
      (List.disjoint_of_nodup_append nodup inRing)

theorem of_reaped
    {child : Fin limits.maxProc}
    (rings : before.ZombieRings)
    (reaped : ProcReaped before after child) :
    after.ZombieRings := by
  obtain ⟨lists, rings⟩ := rings
  rw [ZombieRings, reaped.exited, RlHeap.rlistRemove_links]
  exact ⟨_, rings.unlink reaped.pstate reaped.parent (by simp)⟩

theorem of_execEffect
    {call : Option Task}
    {pid : Option (Fin limits.maxProc)}
    (rings : before.ZombieRings)
    (effect : ExecEffect before call pid after) :
    after.ZombieRings := by
  cases effect with
  | full noPcb => exact rings
  | threadless newproc noCall proc files threads ptcbs sched =>
      exact rings.of_created proc (by simp)
  | failed newproc isCall noSlot proc files threads ptcbs sched =>
      exact rings.of_created proc (by simp)
  | started newproc slot isCall proc files thread ptcbs current =>
      exact rings.of_created proc (by simp)

end ZombieRings

theorem Fresh.zombieRings
    {kernel : Kernel limits}
    (fresh : kernel.Fresh) :
    kernel.ZombieRings := by
  refine ⟨fun _ => [], Layout.Represents.of_singletons ?_ ?_, ?_⟩
  · intro pid
    simp [Links.Follows, pcbLayout, fresh.exitedList, singleton]
  · intro pid _
    simp [Links.Follows, pcbLayout, fresh.exitedNode, singleton]
  · intro pid parent
    simp [IsChild, fresh.parent]

end Kernel
namespace System

open Kernel

variable {before after system : System limits}
variable {action : Action limits}

/-- `Exit` is called for a process that has not exited yet or was the last one to
exit among the children of its parent. -/
def ExitsOnce (system : System limits) : Action limits → Prop
  | .exit _ _ => ∀ slot proc, system.currentSlot = some slot →
      system.kernel.owner slot = some proc → system.kernel.ExitedOnce proc
  | _ => True

instance (system : System limits) (action : Action limits) :
    Decidable (system.ExitsOnce action) :=
  match action with
  | .exit _ _ => inferInstanceAs (Decidable (∀ _ _, _ → _ → _))
  | .idle _ | .start | .yield _ _ | .wakeup _ | .exec _ _ _ _
  | .waitChild _ _ _ | .createThread _ _ _ | .threadExit _ _
  | .threadJoin _ _ _ | .threadDetach _ | .openNull | .openTerminal _
  | .close _ | .resume _ => inferInstanceAs (Decidable True)

theorem ExitsOnce.of_exit
    {slot : Fin limits.maxThreads}
    {proc : Fin limits.maxProc}
    {exitval : Int}
    {clock : Clock}
    (isCurrent : system.currentSlot = some slot)
    (owned : system.kernel.owner slot = some proc) :
    system.ExitsOnce (.exit exitval clock) ↔
      system.kernel.ExitedOnce proc := by
  constructor
  · intro once
    exact once slot proc isCurrent owned
  · intro once other otherProc isOther ownedOther
    rw [isCurrent] at isOther
    cases isOther
    rw [owned] at ownedOther
    cases ownedOther
    exact once

/-- A step keeps the zombies in their rings exactly when it exits no process
whose ring it cuts. -/
theorem zombieRings_step
    (zombies : before.kernel.ZombieRings)
    (effect : Effect before action after) :
    after.kernel.ZombieRings ↔ before.ExitsOnce action := by
  have kept : action.exitval = none → after.kernel.ZombieRings →
      (after.kernel.ZombieRings ↔ before.ExitsOnce action) := by
    intro notExit rings
    refine ⟨fun _ => ?_, fun _ => rings⟩
    cases action with
    | exit exitval clock => cases notExit
    | _ => trivial
  cases effect with
  | stay notExit procs files threads ptcbs control reply =>
      exact kept notExit (zombies.of_same procs)
  | executed caller newproc isCurrent proc files threads control reply =>
      exact kept rfl (zombies.of_created proc (by simp))
  | execFailed caller newproc isCurrent isCall noSlot proc files threads ptcbs
      control reply => exact kept rfl (zombies.of_created proc (by simp))
  | exited leaver proc isCurrent owned procs files threads ptcbs control
      reply =>
      rw [ExitsOnce.of_exit isCurrent owned]
      exact ⟨zombies.exitedOnce_of_exited procs,
        fun once => zombies.of_exited once procs⟩
  | threadExited leaver proc isCurrent owned procs files threads ptcbs control
      reply => exact kept rfl (zombies.of_same procs)
  | reaped reaper reaped status isCurrent reason procs files threads ptcbs
      control reply => exact kept reason.notExit (zombies.of_reaped procs)
  | threadCreated caller new proc isCurrent owned procs files thread ptcbs
      control reply => exact kept rfl (zombies.of_same procs)
  | streams caller notExit isCurrent call only control reply =>
      exact kept notExit (zombies.of_same only.procs)

/-- A zombie stays one, with the same parent, until `WaitChild` returns it. -/
theorem Effect.zombie_kept
    {child parent : Fin limits.maxProc}
    (effect : Effect before action after)
    (zombie : before.kernel.IsChild .zombie child parent) :
    after.kernel.IsChild .zombie child parent ∨
      ∃ status, after.reply = .waitChild (some child) status := by
  have same : SameProcs before.kernel after.kernel →
      after.kernel.IsChild .zombie child parent := by
    intro procs
    rw [IsChild, procs.pstate, procs.parent]
    exact zombie
  have created : ∀ {newproc state},
      ProcCreated before.kernel after.kernel newproc state →
        after.kernel.IsChild .zombie child parent := by
    intro newproc state proc
    have different : child ≠ newproc := by
      rintro rfl
      have isZombie := zombie.1
      rw [proc.wasFree] at isZombie
      cases isZombie
    rw [IsChild, proc.pstate, proc.parent, Function.update_of_ne different,
      Function.update_of_ne different]
    exact zombie
  cases effect with
  | stay notExit procs files threads ptcbs control reply =>
      exact .inl (same procs)
  | executed caller newproc isCurrent proc files threads control reply =>
      exact .inl (created proc)
  | execFailed caller newproc isCurrent isCall noSlot proc files threads ptcbs
      control reply => exact .inl (created proc)
  | exited leaver proc isCurrent owned procs files threads ptcbs control
      reply =>
      refine .inl ⟨?_, procs.parent ▸ zombie.2⟩
      rw [procs.pstate, Function.update_apply]
      split_ifs
      · rfl
      · exact zombie.1
  | threadExited leaver proc isCurrent owned procs files threads ptcbs control
      reply => exact .inl (same procs)
  | reaped reaper reaped status isCurrent reason procs files threads ptcbs
      control reply =>
      by_cases isReaped : child = reaped
      · exact .inr ⟨_, isReaped ▸ reply⟩
      · rw [IsChild, procs.pstate, procs.parent,
          Function.update_of_ne isReaped]
        exact .inl zombie
  | threadCreated caller new proc isCurrent owned procs files thread ptcbs
      control reply => exact .inl (same procs)
  | streams caller notExit isCurrent call only control reply =>
      exact .inl (same only.procs)

theorem zombieRings_of_booted
    {start : System limits}
    (booted : start.Booted) :
    start.kernel.ZombieRings := by
  obtain ⟨pid, kernel, effect, procs, -⟩ := booted.tables
  exact (initial_fresh.zombieRings.of_execEffect effect).of_same procs

theorem Reached.zombieRings
    (reached : Reached ExitsOnce system) :
    system.Sound ∧ system.kernel.ZombieRings := by
  have both := reached.invariant_with_rings
    (motive := fun system => system.kernel.ZombieRings)
    zombieRings_of_booted
    (by
      intro before action after sound rings zombies enabled once effect
      exact (zombieRings_step zombies effect).mpr once)
  exact ⟨both.1, both.2.2⟩

/-- In runs in which no process cuts the ring it is in, every zombie is linked in
the `exited_list` of its parent, and stays there until `WaitChild` returns it.
The next step keeps this exactly when it too cuts no ring. -/
theorem zombies_stay_linked
    (reached : Reached ExitsOnce system) :
    system.kernel.ZombieRings ∧
      ∀ action after, system.Enabled action → system.step action = .ok after →
        (after.kernel.ZombieRings ↔ system.ExitsOnce action) ∧
        ∀ child parent, system.kernel.IsChild .zombie child parent →
          after.kernel.IsChild .zombie child parent ∨
            ∃ status, after.reply = .waitChild (some child) status := by
  obtain ⟨sound, zombies⟩ := reached.zombieRings
  refine ⟨zombies, ?_⟩
  intro action after enabled stepped
  obtain ⟨-, effect⟩ := sound.step enabled stepped
  exact ⟨zombieRings_step zombies effect,
    fun child parent => effect.zombie_kept⟩

/-- A child of the first process has exited. -/
theorem zombies_stay_linked_one_child :
    ∃ system : System ⟨3, 2, 1, 1⟩,
      (Reached ExitsOnce system ∧ system.kernel.IsChild .zombie 2 1) ∧
      system.kernel.ZombieRings ∧
        ∀ action after, system.Enabled action →
          system.step action = .ok after →
          (after.kernel.ZombieRings ↔ system.ExitsOnce action) ∧
          ∀ child parent, system.kernel.IsChild .zombie child parent →
            after.kernel.IsChild .zombie child parent ∨
              ∃ status, after.reply = .waitChild (some child) status := by
  have ran : ∃ system : System ⟨3, 2, 1, 1⟩, Reached ExitsOnce system ∧
      decide (system.kernel.pstate 2 = .zombie ∧
        system.kernel.parent 2 = some 1) = true :=
    exists_reached_of_any
      [.idle .zero, .start, .exec (some 1) 0 .null fun _ => 0,
        .yield .user .zero, .start, .exit 0 .zero]
      (by decide +kernel)
  obtain ⟨system, reached, test⟩ := ran
  obtain ⟨isZombie, isParent⟩ := of_decide_eq_true test
  exact ⟨system, ⟨reached, isZombie, isParent⟩, zombies_stay_linked reached⟩

/-- Two children exit, then a second thread of the one that exited first: the
other child is a zombie that is in no list. -/
theorem second_exit_loses_sibling :
    ∃ system : System ⟨4, 4, 1, 1⟩, Reached (fun _ _ => True) system ∧
      system.kernel.IsChild .zombie 3 1 ∧
      (system.kernel.exited (.node 3)).next = .node 3 ∧
      ¬system.kernel.ZombieRings := by
  have ran : ∃ system : System ⟨4, 4, 1, 1⟩,
      Reached (fun _ _ => True) system ∧
        decide (system.kernel.pstate 3 = .zombie ∧
          system.kernel.parent 3 = some 1 ∧
          (system.kernel.exited (.node 3)).next = .node 3) = true :=
    exists_reached_of_any
      [.idle .zero, .start, .exec (some 1) 0 .null fun _ => 0,
        .exec (some 1) 0 .null fun _ => 0, .yield .user .zero,
        .start, .createThread (some 1) 0 .null, .exit 0 .zero,
        .start, .exit 0 .zero, .yield .user .zero, .start, .exit 0 .zero]
      (by decide +kernel)
  obtain ⟨system, reached, test⟩ := ran
  obtain ⟨isZombie, isParent, alone⟩ := of_decide_eq_true test
  refine ⟨system, reached, ⟨isZombie, isParent⟩, alone, ?_⟩
  rintro ⟨lists, rings⟩
  exact rings.represents.next_cell_ne (rings.mem.mpr ⟨isZombie, isParent⟩)
    alone

end System
end TinierOS
