import TinierOS.Old.ProcTurns

/-!
# Processes and their running threads

The process table counts the threads of each process that have not ended, and its
processes are a tree.  Each change that a step makes to the table keeps this.
-/

namespace TinierOS

variable {limits : Limits}

namespace ProcTable

/-- The table counts the given numbers of threads; only living processes have
threads. -/
structure Counts
    (table : ProcTable limits)
    (running : Fin limits.maxProc → Nat) : Prop where
  count : ∀ pid, (table.pcb pid).threadCount = running pid
  alive : ∀ {pid}, 0 < running pid → table.pstate pid = .alive

/-- The processes of a table that counts its threads are a tree. -/
structure Sound
    (table : ProcTable limits)
    (running : Fin limits.maxProc → Nat) : Prop extends
      Counts table running where
  tree : ∃ children exited frees, table.Tree children exited frees
  system : ∀ {pid}, pid.val = 0 → table.pstate pid = .alive
  init : ∀ {pid}, pid.val = 1 → table.pstate pid ≠ .free

/-- A living process that was created with a task has a thread. -/
def Runs
    (table : ProcTable limits)
    (running : Fin limits.maxProc → Nat) : Prop :=
  ∀ {pid}, table.pstate pid = .alive → (table.pcb pid).mainTask ≠ none →
    0 < running pid

theorem sameTree_enter
    (table : ProcTable limits)
    (curproc : Fin limits.maxProc) :
    SameTree table (table.enter curproc) :=
  sameTree_modifyPcb table curproc rfl rfl

theorem sameTree_leave
    (table : ProcTable limits)
    (curproc : Fin limits.maxProc) :
    SameTree table (table.leave curproc) :=
  sameTree_modifyPcb table curproc rfl rfl

/-! ## Changes of the columns -/

/-- The states, the tasks and the thread counts are the same. -/
structure SameLives (before after : ProcTable limits) : Prop where
  pstate : after.pstate = before.pstate
  mainTask : ∀ pid, (after.pcb pid).mainTask = (before.pcb pid).mainTask
  count : ∀ pid, (after.pcb pid).threadCount = (before.pcb pid).threadCount

namespace SameLives

variable {before middle after : ProcTable limits}
variable {curproc : Fin limits.maxProc}

theorem refl : SameLives before before := ⟨rfl, fun _ => rfl, fun _ => rfl⟩

theorem trans
    (first : SameLives before middle)
    (second : SameLives middle after) :
    SameLives before after where
  pstate := second.pstate.trans first.pstate
  mainTask := fun pid => (second.mainTask pid).trans (first.mainTask pid)
  count := fun pid => (second.count pid).trans (first.count pid)

/-- An assignment to other fields. -/
theorem of_modifyPcb
    (table : ProcTable limits)
    (pid : Fin limits.maxProc)
    {change : OldPcb limits → OldPcb limits}
    (pstate : (change (table.pcb pid)).pstate = (table.pcb pid).pstate)
    (mainTask : (change (table.pcb pid)).mainTask = (table.pcb pid).mainTask)
    (count : (change (table.pcb pid)).threadCount =
      (table.pcb pid).threadCount) :
    SameLives table (table.modifyPcb pid change) := by
  have columns : ∀ other,
      ((table.modifyPcb pid change).pcb other).pstate =
          (table.pcb other).pstate ∧
        ((table.modifyPcb pid change).pcb other).mainTask =
          (table.pcb other).mainTask ∧
        ((table.modifyPcb pid change).pcb other).threadCount =
          (table.pcb other).threadCount := by
    intro other
    by_cases same : other = pid
    · subst same
      simpa [modifyPcb] using ⟨pstate, mainTask, count⟩
    · simp [modifyPcb, same]
  exact ⟨funext fun other => (columns other).1, fun other => (columns other).2.1,
    fun other => (columns other).2.2⟩

theorem adoptChild
    (ran : before.adoptChild curproc = .ok after) :
    SameLives before after := by
  unfold ProcTable.adoptChild at ran
  obtain ⟨initpcb, -, adopts⟩ := exists_of_bind_eq_ok ran
  cases initpcb with
  | none => cases adopts
  | some initpcb =>
      cases isChild : ((before.children.rlistPopFront (.list curproc)).2
          (before.children.rlistPopFront (.list curproc)).1).obj with
      | none =>
          simp only [isChild] at adopts
          cases adopts
      | some child =>
          simp only [isChild] at adopts
          cases adopts
          have moved : SameLives before (before.modifyPcb child fun block =>
              { block with parent := some initpcb }) :=
            of_modifyPcb before child rfl rfl rfl
          exact ⟨moved.pstate, moved.mainTask, moved.count⟩

theorem adoptLoop
    {fuel : Nat}
    (ran : ProcTable.adoptLoop curproc fuel before = .ok after) :
    SameLives before after := by
  induction fuel generalizing before with
  | zero =>
      rw [ProcTable.adoptLoop] at ran
      split_ifs at ran
      cases ran
      exact refl
  | succ fuel inductionHypothesis =>
      rw [ProcTable.adoptLoop] at ran
      split_ifs at ran
      · cases ran
        exact refl
      · obtain ⟨middle, adopted, continues⟩ := exists_of_bind_eq_ok ran
        exact (adoptChild adopted).trans (inductionHypothesis continues)

theorem adoptExited
    (ran : before.adoptExited curproc = .ok after) :
    SameLives before after := by
  unfold ProcTable.adoptExited at ran
  split_ifs at ran
  · cases ran
    exact refl
  · obtain ⟨initpcb, -, appends⟩ := exists_of_bind_eq_ok ran
    cases initpcb with
    | none => cases appends
    | some initpcb =>
        cases appends
        exact ⟨rfl, fun _ => rfl, fun _ => rfl⟩

theorem joinExited
    (ran : before.joinExited curproc = .ok after) :
    SameLives before after := by
  unfold ProcTable.joinExited at ran
  cases isParent : (before.pcb curproc).parent with
  | none =>
      rw [isParent] at ran
      cases ran
  | some parent =>
      rw [isParent] at ran
      cases ran
      exact ⟨rfl, fun _ => rfl, fun _ => rfl⟩

theorem handOver
    (ran : before.handOver curproc = .ok after) :
    SameLives before after := by
  unfold ProcTable.handOver at ran
  split_ifs at ran
  · cases ran
    exact refl
  · obtain ⟨adopted, adopts, continues⟩ := exists_of_bind_eq_ok ran
    obtain ⟨appended, appends, joins⟩ := exists_of_bind_eq_ok continues
    exact ((adoptLoop adopts).trans (adoptExited appends)).trans
      (joinExited joins)

end SameLives

/-- The end of a process makes it a zombie, and changes nothing else that counts
for its threads. -/
theorem endProcess_lives
    {before after : ProcTable limits}
    {curproc : Fin limits.maxProc}
    (ended : before.endProcess curproc = .ok after) :
    after.pstate = Function.update before.pstate curproc .zombie ∧
      ∀ pid, (after.pcb pid).mainTask = (before.pcb pid).mainTask ∧
        (after.pcb pid).threadCount = (before.pcb pid).threadCount := by
  obtain ⟨middle, handed, ends⟩ := exists_of_bind_eq_ok ended
  have same := SameLives.handOver handed
  split_ifs at ends
  cases ends
  constructor
  · funext pid
    rw [← same.pstate]
    by_cases isCur : pid = curproc
    · subst isCur
      simp [pstate, modifyPcb]
    · simp [pstate, modifyPcb, isCur]
  · intro pid
    rw [← same.mainTask pid, ← same.count pid]
    by_cases isCur : pid = curproc
    · subst isCur
      simp [modifyPcb]
    · simp [modifyPcb, isCur]

/-- No process comes to life or changes its task. -/
structure Fades (before after : ProcTable limits) : Prop where
  alive : ∀ {pid}, after.pstate pid = .alive → before.pstate pid = .alive
  mainTask : ∀ pid, (after.pcb pid).mainTask = (before.pcb pid).mainTask

namespace Fades

variable {before middle after : ProcTable limits}

theorem refl : Fades before before := ⟨id, fun _ => rfl⟩

theorem trans
    (first : Fades before middle)
    (second : Fades middle after) :
    Fades before after where
  alive := fun isAlive => first.alive (second.alive isAlive)
  mainTask := fun pid => (second.mainTask pid).trans (first.mainTask pid)

theorem of_same
    (pstate : after.pstate = before.pstate)
    (mainTask : ∀ pid, (after.pcb pid).mainTask = (before.pcb pid).mainTask) :
    Fades before after :=
  ⟨fun isAlive => pstate ▸ isAlive, mainTask⟩

/-- `thread_count--` -/
theorem of_leave
    (table : ProcTable limits)
    (curproc : Fin limits.maxProc) :
    Fades table (table.leave curproc) := by
  refine .of_same (sameTree_leave table curproc).pstate ?_
  intro pid
  by_cases same : pid = curproc
  · subst same
    simp [leave, modifyPcb]
  · simp [leave, modifyPcb, same]

/-- Reaping a process. -/
theorem of_cleanupZombie
    (table : ProcTable limits)
    (reaped : Fin limits.maxProc) :
    Fades table (table.cleanupZombie reaped).2 where
  alive := by
    intro pid isAlive
    rw [cleanupZombie_pstate, Function.update_apply] at isAlive
    split_ifs at isAlive
    exact isAlive
  mainTask := by
    intro pid
    by_cases same : pid = reaped
    · subst same
      simp [cleanupZombie, releasePCB, modifyPcb]
    · simp [cleanupZombie, releasePCB, modifyPcb, same]

/-- The end of a process. -/
theorem of_ended
    {curproc : Fin limits.maxProc}
    (pstate : after.pstate = Function.update before.pstate curproc .zombie)
    (mainTask : ∀ pid, (after.pcb pid).mainTask = (before.pcb pid).mainTask) :
    Fades before after where
  alive := by
    intro pid isAlive
    rw [pstate, Function.update_apply] at isAlive
    split_ifs at isAlive
    exact isAlive
  mainTask := mainTask

end Fades

/-- Processes end and are reaped, but none is created; those that stay and whose
parent stays alive keep their parent. -/
structure Shrinks
    (before after : ProcTable limits) : Prop extends Fades before after where
  used : ∀ {pid}, after.pstate pid ≠ .free → before.pstate pid ≠ .free
  parent : ∀ {child parent}, before.IsParent child parent →
    after.pstate child ≠ .free → after.pstate parent = .alive →
      after.IsParent child parent

namespace Shrinks

variable {before middle after : ProcTable limits}

theorem refl : Shrinks before before :=
  ⟨.refl, id, fun isParent _ _ => isParent⟩

theorem trans
    (first : Shrinks before middle)
    (second : Shrinks middle after) :
    Shrinks before after where
  toFades := first.toFades.trans second.toFades
  used := fun inUse => first.used (second.used inUse)
  parent := by
    intro child parent isParent inUse isAlive
    apply second.parent _ inUse isAlive
    exact first.parent isParent (second.used inUse) (second.alive isAlive)

theorem of_same
    (same : SameTree before after)
    (mainTask : ∀ pid, (after.pcb pid).mainTask = (before.pcb pid).mainTask) :
    Shrinks before after where
  toFades := .of_same same.pstate mainTask
  used := fun inUse => same.pstate ▸ inUse
  parent := by
    intro child parent isParent _ _
    rw [IsParent, same.pstate, same.parent]
    exact isParent

/-- `thread_count--` -/
theorem of_leave
    (table : ProcTable limits)
    (curproc : Fin limits.maxProc) :
    Shrinks table (table.leave curproc) :=
  .of_same (sameTree_leave table curproc) (Fades.of_leave table curproc).mainTask

/-- Reaping a process. -/
theorem of_cleanupZombie
    (table : ProcTable limits)
    (reaped : Fin limits.maxProc) :
    Shrinks table (table.cleanupZombie reaped).2 where
  toFades := .of_cleanupZombie table reaped
  used := by
    intro pid inUse isFree
    apply inUse
    rw [cleanupZombie_pstate, Function.update_apply]
    split_ifs
    · rfl
    · exact isFree
  parent := by
    intro child parent isParent inUse _
    rw [cleanupZombie_isParent]
    refine ⟨?_, isParent⟩
    rintro rfl
    simp [cleanupZombie_pstate] at inUse

/-- The end of a process. -/
theorem of_ended
    {curproc : Fin limits.maxProc}
    (ended : Ended before after curproc)
    (wasAlive : before.pstate curproc = .alive) :
    Shrinks before after where
  toFades := .of_ended ended.pstate fun pid => (ended.fields pid).2.1
  used := by
    intro pid inUse isFree
    apply inUse
    rw [ended.pstate, Function.update_of_ne]
    · exact isFree
    · rintro rfl
      rw [wasAlive] at isFree
      cases isFree
  parent := by
    intro child parent isParent inUse isAlive
    refine ⟨inUse, ?_⟩
    rw [ended.kept]
    · exact isParent.2
    · intro isChild
      obtain rfl := Option.some.inj (isParent.2.symm.trans isChild.2)
      rw [ended.pstate, Function.update_self] at isAlive
      cases isAlive

end Shrinks

/-! ## Changes that keep the counts -/

/-- The child that `wait_for_any_child` finds is a zombie. -/
theorem zombie_of_pollAny
    {table after : ProcTable limits}
    {parent child : Fin limits.maxProc}
    {exitval : Int}
    (polled : table.pollAny parent = .ok (.reaped child exitval after)) :
    table.pstate child = .zombie ∧ exitval = (table.pcb child).exitval ∧
      after = (table.cleanupZombie child).2 := by
  unfold pollAny at polled
  split_ifs at polled
  · cases polled
  · cases polled
  cases isFirst : (table.exited (table.exited (.list parent)).next).obj with
  | none =>
      rw [isFirst] at polled
      cases polled
  | some first =>
      simp only [isFirst] at polled
      split_ifs at polled with notZombie
      cases polled
      exact ⟨not_not.mp notZombie, rfl, rfl⟩

namespace Counts

variable {table after : ProcTable limits}
variable {running : Fin limits.maxProc → Nat}
variable {child curproc : Fin limits.maxProc}

theorem of_same
    (counts : table.Counts running)
    (pstate : after.pstate = table.pstate)
    (count : ∀ pid, (after.pcb pid).threadCount = (table.pcb pid).threadCount) :
    after.Counts running where
  count := fun pid => (count pid).trans (counts.count pid)
  alive := by
    rw [pstate]
    exact counts.alive

/-- `sys_Exec` before the main thread is created. -/
theorem created
    (counts : table.Counts running)
    (newproc : Fin limits.maxProc)
    (newParent : Option (Fin limits.maxProc))
    (call : Option Task)
    (argl : Int)
    (args : List UInt8) :
    (table.created newproc newParent call argl args).Counts running where
  count := by
    intro pid
    rw [← counts.count pid]
    by_cases same : pid = newproc
    · subst same
      simp [ProcTable.created]
    · simp [ProcTable.created, same]
  alive := by
    intro pid positive
    rw [created_pstate, Function.update_apply]
    split_ifs
    · rfl
    · exact counts.alive positive

/-- `thread_count++` -/
theorem enter
    (counts : table.Counts running)
    (isAlive : table.pstate curproc = .alive) :
    (table.enter curproc).Counts
      (Function.update running curproc (running curproc + 1)) where
  count := by
    intro pid
    by_cases isCur : pid = curproc
    · subst isCur
      simp [ProcTable.enter, modifyPcb, counts.count]
    · simp [ProcTable.enter, modifyPcb, counts.count, isCur]
  alive := by
    intro pid positive
    rw [(sameTree_enter table curproc).pstate]
    by_cases isCur : pid = curproc
    · rw [isCur]
      exact isAlive
    · rw [Function.update_of_ne isCur] at positive
      exact counts.alive positive

/-- `thread_count--` -/
theorem leave
    (counts : table.Counts running)
    (hasThread : 0 < running curproc) :
    (table.leave curproc).Counts
      (Function.update running curproc (running curproc - 1)) where
  count := by
    intro pid
    by_cases isCur : pid = curproc
    · subst isCur
      simp only [ProcTable.leave, modifyPcb, Function.update_self, counts.count]
      omega
    · simp [ProcTable.leave, modifyPcb, counts.count, isCur]
  alive := by
    intro pid positive
    rw [(sameTree_leave table curproc).pstate]
    by_cases isCur : pid = curproc
    · rw [isCur]
      exact counts.alive hasThread
    · rw [Function.update_of_ne isCur] at positive
      exact counts.alive positive

/-- Reaping a process that is not alive. -/
theorem reap
    (counts : table.Counts running)
    (notAlive : table.pstate child ≠ .alive) :
    (table.cleanupZombie child).2.Counts running where
  count := by
    intro pid
    rw [← counts.count pid]
    by_cases same : pid = child
    · subst same
      simp [cleanupZombie, releasePCB, modifyPcb]
    · simp [cleanupZombie, releasePCB, modifyPcb, same]
  alive := by
    intro pid positive
    have isAlive := counts.alive positive
    rw [cleanupZombie_pstate, Function.update_of_ne]
    · exact isAlive
    · rintro rfl
      exact notAlive isAlive

/-- What `sys_Exit` does before `sys_ThreadExit`. -/
theorem exitPath
    {stored : Option Int}
    (counts : table.Counts running)
    (path : ExitPath curproc stored table after) :
    after.Counts running ∧ Fades table after := by
  induction path with
  | refl => exact ⟨counts, .refl⟩
  | @store table after exitval path inductionHypothesis =>
      have same : SameLives table (table.modifyPcb curproc fun block =>
          { block with exitval := exitval }) :=
        .of_modifyPcb table curproc rfl rfl rfl
      obtain ⟨countsAfter, fades⟩ := inductionHypothesis
        (counts.of_same same.pstate same.count)
      exact ⟨countsAfter, (Fades.of_same same.pstate same.mainTask).trans fades⟩
  | @reap table after child exitval reaped polled path inductionHypothesis =>
      obtain ⟨isZombie, -, rfl⟩ := zombie_of_pollAny polled
      obtain ⟨countsAfter, fades⟩ := inductionHypothesis
        (counts.reap (by simp [isZombie]))
      exact ⟨countsAfter, (Fades.of_cleanupZombie table child).trans fades⟩

/-- The end of a process whose threads have all ended. -/
theorem endProcess
    (counts : table.Counts running)
    (noThread : running curproc = 0)
    (ended : table.endProcess curproc = .ok after) :
    after.Counts running ∧ Fades table after := by
  obtain ⟨pstate, columns⟩ := endProcess_lives ended
  refine ⟨⟨?_, ?_⟩, .of_ended pstate fun pid => (columns pid).1⟩
  · intro pid
    rw [(columns pid).2]
    exact counts.count pid
  · intro pid positive
    rw [pstate, Function.update_of_ne]
    · exact counts.alive positive
    · rintro rfl
      omega

end Counts

/-! ## Changes that keep the table sound -/

namespace Sound

variable {table after : ProcTable limits}
variable {running : Fin limits.maxProc → Nat}
variable {parent child curproc newproc : Fin limits.maxProc}

theorem of_same
    (sound : table.Sound running)
    (same : SameTree table after)
    (count : ∀ pid, (after.pcb pid).threadCount = (table.pcb pid).threadCount) :
    after.Sound running where
  toCounts := sound.toCounts.of_same same.pstate count
  tree := by
    obtain ⟨children, exited, frees, tree⟩ := sound.tree
    exact ⟨children, exited, frees, tree.of_same same⟩
  system := by
    rw [same.pstate]
    exact sound.system
  init := by
    rw [same.pstate]
    exact sound.init

/-- A process with a parent is neither of the first two. -/
theorem high_of_isParent
    (sound : table.Sound running)
    (isParent : table.IsParent child parent) :
    1 < child.val := by
  obtain ⟨_, _, _, tree⟩ := sound.tree
  by_contra low
  have none := (tree.orphan isParent.1).mpr (by omega)
  rw [isParent.2] at none
  cases none

/-- `sys_Exec` before the main thread is created. -/
theorem created
    (sound : table.Sound running)
    (isFree : table.freelist = some newproc)
    (isAlive : table.pstate curproc = .alive)
    (notSystem : curproc.val ≠ 0)
    (call : Option Task)
    (argl : Int)
    (args : List UInt8) :
    (table.created newproc (newParent newproc (some curproc)) call argl
      args).Sound running where
  toCounts := sound.toCounts.created newproc _ call argl args
  tree := by
    obtain ⟨children, exited, frees, tree⟩ := sound.tree
    obtain ⟨longer, fewer, treeAfter⟩ := tree.created isFree call argl args
      fun _ => ⟨curproc, rfl, isAlive, notSystem⟩
    exact ⟨longer, exited, fewer, treeAfter⟩
  system := by
    intro pid isSystem
    rw [created_pstate, Function.update_apply]
    split_ifs
    · rfl
    · exact sound.system isSystem
  init := by
    intro pid isInit
    rw [created_pstate, Function.update_apply]
    split_ifs
    · simp
    · exact sound.init isInit

/-- `thread_count++` -/
theorem enter
    (sound : table.Sound running)
    (isAlive : table.pstate curproc = .alive) :
    (table.enter curproc).Sound
      (Function.update running curproc (running curproc + 1)) where
  toCounts := sound.toCounts.enter isAlive
  tree := by
    obtain ⟨children, exited, frees, tree⟩ := sound.tree
    exact ⟨children, exited, frees, tree.of_same (sameTree_enter table curproc)⟩
  system := by
    rw [(sameTree_enter table curproc).pstate]
    exact sound.system
  init := by
    rw [(sameTree_enter table curproc).pstate]
    exact sound.init

/-- `thread_count--` -/
theorem leave
    (sound : table.Sound running)
    (hasThread : 0 < running curproc) :
    (table.leave curproc).Sound
      (Function.update running curproc (running curproc - 1)) where
  toCounts := sound.toCounts.leave hasThread
  tree := by
    obtain ⟨children, exited, frees, tree⟩ := sound.tree
    exact ⟨children, exited, frees, tree.of_same (sameTree_leave table curproc)⟩
  system := by
    rw [(sameTree_leave table curproc).pstate]
    exact sound.system
  init := by
    rw [(sameTree_leave table curproc).pstate]
    exact sound.init

/-- Reaping a zombie. -/
theorem reap
    (sound : table.Sound running)
    (isZombie : table.pstate child = .zombie)
    (isParent : table.IsParent child parent) :
    (table.cleanupZombie child).2.Sound running where
  toCounts := sound.toCounts.reap (by simp [isZombie])
  tree := by
    obtain ⟨children, exited, frees, tree⟩ := sound.tree
    exact ⟨_, _, _, tree.reap isZombie⟩
  system := by
    intro pid isSystem
    have high := sound.high_of_isParent isParent
    rw [cleanupZombie_pstate, Function.update_of_ne]
    · exact sound.system isSystem
    · rintro rfl
      omega
  init := by
    intro pid isInit
    have high := sound.high_of_isParent isParent
    rw [cleanupZombie_pstate, Function.update_of_ne]
    · exact sound.init isInit
    · rintro rfl
      omega

/-- The zombie that `wait_for_any_child` finds is a child. -/
theorem pollAny
    {exitval : Int}
    (sound : table.Sound running)
    (polled : table.pollAny parent = .ok (.reaped child exitval after)) :
    table.pstate child = .zombie ∧ table.IsParent child parent ∧
      exitval = (table.pcb child).exitval ∧
        after = (table.cleanupZombie child).2 := by
  obtain ⟨isZombie, isExitval, isAfter⟩ := zombie_of_pollAny polled
  refine ⟨isZombie, ?_, isExitval, isAfter⟩
  obtain ⟨children, exited, frees, tree⟩ := sound.tree
  rcases tree.pollAny parent with ⟨-, none⟩ | ⟨-, -, waits⟩ |
    ⟨found, rest, isExited, reaped⟩
  · rw [none] at polled
    cases polled
  · rw [waits] at polled
    cases polled
  · rw [reaped] at polled
    cases polled
    have member : child ∈ exited parent := by
      rw [isExited]
      exact List.mem_cons_self ..
    exact tree.mem_children.mp (tree.exited_subset parent member)

/-- What `sys_Exit` does before `sys_ThreadExit`. -/
theorem exitPath
    {stored : Option Int}
    (sound : table.Sound running)
    (path : ExitPath curproc stored table after) :
    after.Sound running ∧ Shrinks table after := by
  induction path with
  | refl => exact ⟨sound, .refl⟩
  | @store table after exitval path inductionHypothesis =>
      have same : SameTree table (table.modifyPcb curproc fun block =>
          { block with exitval := exitval }) :=
        sameTree_modifyPcb table curproc rfl rfl
      have lives : SameLives table (table.modifyPcb curproc fun block =>
          { block with exitval := exitval }) :=
        .of_modifyPcb table curproc rfl rfl rfl
      obtain ⟨soundAfter, shrinks⟩ := inductionHypothesis
        (sound.of_same same lives.count)
      exact ⟨soundAfter, (Shrinks.of_same same lives.mainTask).trans shrinks⟩
  | @reap table after child exitval reaped polled path inductionHypothesis =>
      obtain ⟨isZombie, isParent, -, rfl⟩ := sound.pollAny polled
      obtain ⟨soundAfter, shrinks⟩ := inductionHypothesis
        (sound.reap isZombie isParent)
      exact ⟨soundAfter, (Shrinks.of_cleanupZombie table child).trans shrinks⟩

/-- The end of a process whose threads have all ended. -/
theorem endProcess
    (sound : table.Sound running)
    (isAlive : table.pstate curproc = .alive)
    (notSystem : curproc.val ≠ 0)
    (noThread : running curproc = 0)
    (ended : table.endProcess curproc = .ok after) :
    after.Sound running ∧ Ended table after curproc := by
  obtain ⟨children, exited, frees, tree⟩ := sound.tree
  obtain ⟨treeAfter, isEnd⟩ : (∃ children exited,
      after.Tree children exited frees) ∧ Ended table after curproc := by
    by_cases isInit : curproc.val = 1
    · rcases tree.endProcess_init isInit isAlive with
        ⟨-, failed⟩ | ⟨-, succeeded, treeAfter, isEnd⟩
      · rw [failed] at ended
        cases ended
      · rw [succeeded] at ended
        cases ended
        exact ⟨⟨children, exited, treeAfter⟩, isEnd⟩
    · obtain ⟨result, children, exited, succeeded, treeAfter, isEnd⟩ :=
        tree.endProcess_eq_ok (by omega) isAlive
      rw [succeeded] at ended
      cases ended
      exact ⟨⟨children, exited, treeAfter⟩, isEnd⟩
  refine ⟨⟨(sound.toCounts.endProcess noThread ended).1, ?_, ?_, ?_⟩, isEnd⟩
  · obtain ⟨children, exited, treeAfter⟩ := treeAfter
    exact ⟨children, exited, frees, treeAfter⟩
  · intro pid isSystem
    rw [isEnd.pstate, Function.update_of_ne]
    · exact sound.system isSystem
    · rintro rfl
      exact notSystem isSystem
  · intro pid isInit
    rw [isEnd.pstate, Function.update_apply]
    split_ifs
    · simp
    · exact sound.init isInit

end Sound
end ProcTable
end TinierOS
