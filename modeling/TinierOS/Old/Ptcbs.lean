import TinierOS.Old.Kernel
import TinierOS.Library.Counting
import TinierOS.Library.RingLists
import Mathlib.Logic.Relation

/-!
# The PTCBs of the old kernel

Each process heads a ring of PTCBs.  A PTCB belongs to one thread, outlives it,
and is freed by the last call of `ThreadJoin` that waited for it.  The steps of
the threads are put together from a few moves, and each of them keeps this.
-/

namespace TinierOS

variable {limits : Limits} {π : Type}

/-- The rings of PTCBs: each process heads a ring, each PTCB has a node. -/
def oldPtcbLayout (limits : Limits) (π : Type) :
    Layout (Fin limits.maxProc) π (OldPtcbNode limits π) where
  sentinel := .list
  cell := .node
  sentinel_injective := by
    intro first second equal
    simpa using equal
  cell_injective := by
    intro first second equal
    simpa using equal
  sentinel_ne_cell := by simp

/-- The part of the kernel that is about PTCBs. -/
structure PtcbTable (limits : Limits) (π : Type) where
  threads : List (OldThread limits π)
  ptcb : π → OldPtcb
  live : π → Bool
  lists : RlHeap (OldPtcbNode limits π) (Option π)

/-- Whether a call waits for the thread of a PTCB. -/
def OldCall.joins [DecidableEq π] (ptcb : π) : OldCall limits π → Bool
  | .joining other _ => other = ptcb
  | _ => false

namespace PtcbTable

/-- A thread goes on at another point. -/
def move
    (table : PtcbTable limits π)
    (t : Nat)
    (thread : OldThread limits π)
    (call : OldCall limits π) : PtcbTable limits π :=
  { table with threads := table.threads.set t { thread with call := call } }

variable [DecidableEq π]

/-- Assign to some fields of one PTCB. -/
def modifyPtcb
    (table : PtcbTable limits π)
    (ptcb : π)
    (change : OldPtcb → OldPtcb) : PtcbTable limits π :=
  { table with
    ptcb := Function.update table.ptcb ptcb (change (table.ptcb ptcb)) }

/-- The number of threads that wait for the thread of a PTCB. -/
def joiners (table : PtcbTable limits π) (ptcb : π) : Nat :=
  table.threads.countP fun thread => thread.call.joins ptcb

/-- The part of the table that a new thread changes. -/
def start
    (table : PtcbTable limits π)
    (owner : Fin limits.maxProc)
    (task : Option Task)
    (argl : Int)
    (args : Nat)
    (ptcb : π) : PtcbTable limits π where
  threads := table.threads ++ [⟨owner, ptcb, .own⟩]
  ptcb := Function.update table.ptcb ptcb
    { thread := table.threads.length, task := task, argl := argl
      args := args, exitval := 0, exited := false, detached := false
      refcount := 0 }
  live := Function.update table.live ptcb true
  lists := (table.lists.rlnodeInit (.node ptcb) (some ptcb)).rlistPushBack
    (.list owner) (.node ptcb)

/-- The last call of `ThreadJoin` frees the PTCB. -/
def free (table : PtcbTable limits π) (ptcb : π) : PtcbTable limits π :=
  { table with
    live := Function.update table.live ptcb false
    lists := table.lists.rlistRemove (.node ptcb) }

/-- The rings hold the live PTCBs, each of which belongs to one thread of its
process; `refcount` counts at least the calls that wait. -/
structure Sound
    (table : PtcbTable limits π)
    (lists : Fin limits.maxProc → List π) : Prop where
  rings : (oldPtcbLayout limits π).Represents table.lists.links lists
    fun ptcb => table.live ptcb = true
  key : ∀ {ptcb}, table.live ptcb = true →
    (table.lists (.node ptcb)).obj = some ptcb
  listed : ∀ {ptcb}, table.live ptcb = true → ∃ pid, ptcb ∈ lists pid
  thread : ∀ {pid ptcb}, ptcb ∈ lists pid → ∃ thread,
    table.threads[(table.ptcb ptcb).thread]? = some thread ∧
      thread.owner = pid ∧ thread.ptcb = ptcb ∧
      ((table.ptcb ptcb).exited = false ∧ thread.call.isExited = false ∨
        (table.ptcb ptcb).exited = true ∧
          thread.call = .exited (table.ptcb ptcb).exitval)
  own : ∀ {t thread}, table.threads[t]? = some thread →
    thread.call.isExited = false →
      table.live thread.ptcb = true ∧ (table.ptcb thread.ptcb).thread = t
  joins : ∀ thread ∈ table.threads, ∀ ptcb target,
    thread.call = .joining ptcb target →
      ptcb ∈ lists thread.owner ∧ (table.ptcb ptcb).thread = target
  refcount : ∀ {ptcb}, table.live ptcb = true →
    (table.joiners ptcb : Int) ≤ (table.ptcb ptcb).refcount ∧
      ((table.ptcb ptcb).detached = false →
        (table.ptcb ptcb).refcount = table.joiners ptcb)

/-- What a thread does to the PTCBs. -/
inductive Move
    (t : Nat)
    (table : PtcbTable limits π) : PtcbTable limits π → Prop
  /-- The thread goes on at another point. -/
  | goes
      (thread : OldThread limits π)
      (call : OldCall limits π)
      (isThread : table.threads[t]? = some thread)
      (notExited : thread.call.isExited = false)
      (notJoining : ∀ ptcb target, thread.call ≠ .joining ptcb target)
      (goesOn : call.isExited = false)
      (joinsNone : ∀ ptcb target, call ≠ .joining ptcb target) :
      Move t table (table.move t thread call)
  /-- `create_ptcb` -/
  | starts
      (owner : Fin limits.maxProc)
      (task : Option Task)
      (argl : Int)
      (args : Nat)
      (ptcb : π)
      (notLive : table.live ptcb = false) :
      Move t table (table.start owner task argl args ptcb)
  /-- `sys_ThreadExit` -/
  | exits
      (thread : OldThread limits π)
      (exitval : Int)
      (isThread : table.threads[t]? = some thread)
      (notExited : thread.call.isExited = false)
      (notJoining : ∀ ptcb target, thread.call ≠ .joining ptcb target) :
      Move t table ((table.move t thread (.exited exitval)).modifyPtcb
        thread.ptcb fun block =>
          { block with exitval := exitval, exited := true })
  /-- `sys_ThreadJoin` before its loop. -/
  | begins
      (thread : OldThread limits π)
      (node : OldPtcbNode limits π)
      (ptcb : π)
      (isThread : table.threads[t]? = some thread)
      (notExited : thread.call.isExited = false)
      (notJoining : ∀ ptcb target, thread.call ≠ .joining ptcb target)
      (found : table.lists.rlistFind (table.threads.length + 1)
        (.list thread.owner) (some ptcb) none = some (some node))
      (notDetached : (table.ptcb ptcb).detached = false) :
      Move t table ((table.move t thread
        (.joining ptcb (table.ptcb ptcb).thread)).modifyPtcb ptcb fun block =>
          { block with refcount := block.refcount + 1 })
  /-- `sys_ThreadJoin` after its loop, when the thread has been detached. -/
  | leaves
      (thread : OldThread limits π)
      (ptcb : π)
      (target : Nat)
      (isThread : table.threads[t]? = some thread)
      (isJoining : thread.call = .joining ptcb target)
      (isDetached : (table.ptcb ptcb).detached = true) :
      Move t table (table.move t thread .own)
  /-- `sys_ThreadJoin` after its loop, when the thread has ended. -/
  | returns
      (thread : OldThread limits π)
      (ptcb : π)
      (target : Nat)
      (isThread : table.threads[t]? = some thread)
      (isJoining : thread.call = .joining ptcb target)
      (notDetached : (table.ptcb ptcb).detached = false)
      (hasExited : (table.ptcb ptcb).exited = true)
      (more : (table.ptcb ptcb).refcount - 1 ≠ 0) :
      Move t table ((table.move t thread .own).modifyPtcb ptcb fun block =>
        { block with refcount := block.refcount - 1 })
  /-- The same, for the last call that waits. -/
  | frees
      (thread : OldThread limits π)
      (ptcb : π)
      (target : Nat)
      (isThread : table.threads[t]? = some thread)
      (isJoining : thread.call = .joining ptcb target)
      (notDetached : (table.ptcb ptcb).detached = false)
      (hasExited : (table.ptcb ptcb).exited = true)
      (last : (table.ptcb ptcb).refcount - 1 = 0) :
      Move t table (((table.move t thread .own).modifyPtcb ptcb fun block =>
        { block with refcount := block.refcount - 1 }).free ptcb)
  /-- `sys_ThreadDetach` -/
  | detaches
      (ptcb : π)
      (notExited : (table.ptcb ptcb).exited = false) :
      Move t table (table.modifyPtcb ptcb fun block =>
        { block with detached := true })

/-! ## Keeping the PTCBs -/

section Keeping

variable {table : PtcbTable limits π}
variable {lists : Fin limits.maxProc → List π}
variable {t : Nat}
variable {thread : OldThread limits π}
variable {call : OldCall limits π}
variable {ptcb : π}

omit [DecidableEq π] in
theorem getElem?_move
    (isThread : table.threads[t]? = some thread)
    (other : Nat) :
    (table.move t thread call).threads[other]? =
      if other = t then some { thread with call := call }
      else table.threads[other]? := by
  obtain ⟨inRange, -⟩ := List.getElem?_eq_some_iff.mp isThread
  rw [move, List.getElem?_set]
  by_cases same : t = other
  · subst same
    simp [inRange]
  · simp [same, Ne.symm same]

/-- A thread stops or starts waiting. -/
theorem joiners_move
    (isThread : table.threads[t]? = some thread)
    (call : OldCall limits π)
    (ptcb : π) :
    (table.move t thread call).joiners ptcb +
        (if thread.call.joins ptcb = true then 1 else 0) =
      table.joiners ptcb + (if call.joins ptcb = true then 1 else 0) :=
  countP_set_add isThread (fun thread => thread.call.joins ptcb)
    { thread with call := call }

theorem joins_eq_false
    (joinsNone : ∀ ptcb target, call ≠ .joining ptcb target)
    (ptcb : π) :
    call.joins ptcb = false := by
  cases call with
  | joining other target => exact absurd rfl (joinsNone other target)
  | _ => rfl

namespace Sound

/-- A thread's own PTCB is in the ring of its process. -/
theorem own_listed
    (sound : table.Sound lists)
    (isThread : table.threads[t]? = some thread)
    (notExited : thread.call.isExited = false) :
    thread.ptcb ∈ lists thread.owner := by
  obtain ⟨isLive, isOwn⟩ := sound.own isThread notExited
  obtain ⟨pid, member⟩ := sound.listed isLive
  obtain ⟨found, isFound, isOwner, -⟩ := sound.thread member
  rw [isOwn, isThread] at isFound
  cases isFound
  rw [isOwner]
  exact member

/-- The PTCB of a thread that runs says so. -/
theorem own_running
    (sound : table.Sound lists)
    (isThread : table.threads[t]? = some thread)
    (notExited : thread.call.isExited = false) :
    (table.ptcb thread.ptcb).exited = false := by
  obtain ⟨found, isFound, -, -, state⟩ :=
    sound.thread (sound.own_listed isThread notExited)
  rw [(sound.own isThread notExited).2, isThread] at isFound
  cases isFound
  rcases state with ⟨running, -⟩ | ⟨-, exited⟩
  · exact running
  · rw [exited] at notExited
    cases notExited

/-- A ring is no longer than the list of the threads. -/
theorem length_le
    (sound : table.Sound lists)
    (pid : Fin limits.maxProc) :
    (lists pid).length ≤ table.threads.length := by
  have injective : ((lists pid).map fun ptcb => (table.ptcb ptcb).thread).Nodup := by
    apply (sound.rings.nodup pid).map_on
    intro first firstMember second secondMember same
    obtain ⟨one, isOne, -, isFirst, -⟩ := sound.thread firstMember
    obtain ⟨two, isTwo, -, isSecond, -⟩ := sound.thread secondMember
    rw [same, isTwo] at isOne
    cases isOne
    exact isFirst.symm.trans isSecond
  have subset : ((lists pid).map fun ptcb => (table.ptcb ptcb).thread) ⊆
      List.range table.threads.length := by
    intro index member
    obtain ⟨ptcb, listed, rfl⟩ := List.mem_map.mp member
    obtain ⟨found, isFound, -⟩ := sound.thread listed
    exact List.mem_range.mpr (List.getElem?_eq_some_iff.mp isFound).1
  have shorter := (List.subperm_of_subset injective subset).length_le
  simpa using shorter

/-- `rlist_find` finds exactly the PTCBs of the process. -/
theorem find_eq
    (sound : table.Sound lists)
    (pid : Fin limits.maxProc)
    (tid : Option π) :
    (table.lists.rlistFind (table.threads.length + 1) (.list pid) tid none =
      some none ∧ ∀ ptcb ∈ lists pid, tid ≠ some ptcb) ∨
    ∃ ptcb ∈ lists pid, tid = some ptcb ∧
      table.lists.rlistFind (table.threads.length + 1) (.list pid) tid none =
        some (some (.node ptcb)) := by
  have key : ∀ ptcb ∈ lists pid, (table.lists (.node ptcb)).obj = some ptcb :=
    fun ptcb member => sound.key (sound.rings.alive member)
  have enough : ((lists pid).map (oldPtcbLayout limits π).cell).length <
      table.threads.length + 1 := by
    rw [List.length_map]
    have := sound.length_le pid
    omega
  have found := RlHeap.rlistFind_eq (sound.rings.ring pid) enough tid none
  cases isFound : ((lists pid).map (oldPtcbLayout limits π).cell).find?
      fun node => (table.lists node).obj = tid with
  | none =>
      rw [isFound] at found
      refine .inl ⟨found, ?_⟩
      rintro ptcb member rfl
      have differs := List.find?_eq_none.mp isFound _
        (List.mem_map_of_mem member)
      exact differs (decide_eq_true (key ptcb member))
  | some node =>
      rw [isFound] at found
      obtain ⟨ptcb, member, rfl⟩ :=
        List.mem_map.mp (List.mem_of_find?_eq_some isFound)
      have isKey := List.find?_some isFound
      refine .inr ⟨ptcb, member, ?_, found⟩
      have same := key ptcb member
      rw [← same]
      exact (of_decide_eq_true isKey).symm

/-- Other blocks may be stored, if only the counts and `detached` change. -/
theorem blocks
    (sound : table.Sound lists)
    {change : π → OldPtcb}
    (same : ∀ ptcb, (change ptcb).thread = (table.ptcb ptcb).thread ∧
      (change ptcb).exited = (table.ptcb ptcb).exited ∧
      (change ptcb).exitval = (table.ptcb ptcb).exitval)
    (refcount : ∀ {ptcb}, table.live ptcb = true →
      (table.joiners ptcb : Int) ≤ (change ptcb).refcount ∧
        ((change ptcb).detached = false →
          (change ptcb).refcount = table.joiners ptcb)) :
    ({ table with ptcb := change } : PtcbTable limits π).Sound lists where
  rings := sound.rings
  key := sound.key
  listed := sound.listed
  thread := by
    intro pid ptcb member
    obtain ⟨sameThread, sameExited, sameValue⟩ := same ptcb
    simp only [sameThread, sameExited, sameValue]
    exact sound.thread member
  own := by
    intro t thread isThread notExited
    simp only [(same thread.ptcb).1]
    exact sound.own isThread notExited
  joins := by
    intro thread member ptcb target isJoining
    simp only [(same ptcb).1]
    exact sound.joins thread member ptcb target isJoining
  refcount := refcount

/-- A thread that does not end goes on at another point; counts may change. -/
theorem moved
    (sound : table.Sound lists)
    (isThread : table.threads[t]? = some thread)
    (notExited : thread.call.isExited = false)
    (goesOn : call.isExited = false)
    {change : π → OldPtcb}
    (same : ∀ ptcb, (change ptcb).thread = (table.ptcb ptcb).thread ∧
      (change ptcb).exited = (table.ptcb ptcb).exited ∧
      (change ptcb).exitval = (table.ptcb ptcb).exitval)
    (joins : ∀ ptcb target, call = .joining ptcb target →
      ptcb ∈ lists thread.owner ∧ (table.ptcb ptcb).thread = target)
    (refcount : ∀ {ptcb}, table.live ptcb = true →
      ((table.move t thread call).joiners ptcb : Int) ≤ (change ptcb).refcount ∧
        ((change ptcb).detached = false →
          (change ptcb).refcount = (table.move t thread call).joiners ptcb)) :
    ({ table.move t thread call with ptcb := change } :
      PtcbTable limits π).Sound lists where
  rings := sound.rings
  key := sound.key
  listed := sound.listed
  thread := by
    intro pid ptcb member
    obtain ⟨sameThread, sameExited, sameValue⟩ := same ptcb
    obtain ⟨found, isFound, isOwner, isPtcb, state⟩ := sound.thread member
    simp only [sameThread, sameExited, sameValue, getElem?_move isThread]
    by_cases isSelf : (table.ptcb ptcb).thread = t
    · rw [isSelf, isThread] at isFound
      cases isFound
      refine ⟨_, if_pos isSelf, isOwner, isPtcb, .inl ⟨?_, goesOn⟩⟩
      rcases state with ⟨running, -⟩ | ⟨-, exited⟩
      · exact running
      · rw [exited] at notExited
        cases notExited
    · exact ⟨found, (if_neg isSelf).trans isFound, isOwner, isPtcb, state⟩
  own := by
    intro other found isFound runs
    simp only [getElem?_move isThread] at isFound
    split_ifs at isFound with isSelf
    · cases isFound
      subst isSelf
      have own := sound.own isThread notExited
      rw [← (same thread.ptcb).1] at own
      exact own
    · rw [(same found.ptcb).1]
      exact sound.own isFound runs
  joins := by
    intro found member ptcb target isJoining
    rw [(same ptcb).1]
    rcases List.mem_or_eq_of_mem_set member with old | rfl
    · exact sound.joins found old ptcb target isJoining
    · exact joins ptcb target isJoining
  refcount := refcount

/-- A thread ends. -/
theorem exits
    (sound : table.Sound lists)
    (isThread : table.threads[t]? = some thread)
    (notExited : thread.call.isExited = false)
    (notJoining : ∀ ptcb target, thread.call ≠ .joining ptcb target)
    (exitval : Int) :
    ((table.move t thread (.exited exitval)).modifyPtcb thread.ptcb fun block =>
      { block with exitval := exitval, exited := true }).Sound lists := by
  have isOwn := (sound.own isThread notExited).2
  have kept : ∀ ptcb,
      (((table.move t thread (.exited exitval)).modifyPtcb thread.ptcb
        fun block => { block with
          exitval := exitval, exited := true }).ptcb ptcb).thread =
            (table.ptcb ptcb).thread ∧
      (((table.move t thread (.exited exitval)).modifyPtcb thread.ptcb
        fun block => { block with
          exitval := exitval, exited := true }).ptcb ptcb).refcount =
            (table.ptcb ptcb).refcount ∧
      (((table.move t thread (.exited exitval)).modifyPtcb thread.ptcb
        fun block => { block with
          exitval := exitval, exited := true }).ptcb ptcb).detached =
            (table.ptcb ptcb).detached := by
    intro ptcb
    by_cases same : ptcb = thread.ptcb
    · subst same
      simp [modifyPtcb, move]
    · simp [modifyPtcb, move, same]
  constructor
  case rings => exact sound.rings
  case key => exact sound.key
  case listed => exact sound.listed
  case thread =>
    intro pid ptcb member
    obtain ⟨found, isFound, isOwner, isPtcb, state⟩ := sound.thread member
    rw [(kept ptcb).1]
    by_cases isSelf : (table.ptcb ptcb).thread = t
    · rw [isSelf, isThread] at isFound
      cases isFound
      refine ⟨{ thread with call := .exited exitval }, ?_, isOwner, isPtcb,
        .inr ?_⟩
      · rw [isSelf]
        exact (getElem?_move isThread t).trans (if_pos rfl)
      · simp [modifyPtcb, ← isPtcb]
    · refine ⟨found, (getElem?_move isThread _).trans
        ((if_neg isSelf).trans isFound), isOwner, isPtcb, ?_⟩
      have different : ptcb ≠ thread.ptcb := by
        rintro rfl
        exact isSelf isOwn
      simpa [modifyPtcb, move, different] using state
  case own =>
    intro other found isFound runs
    have isFound' := (getElem?_move isThread other).symm.trans isFound
    rw [(kept found.ptcb).1]
    split_ifs at isFound' with isSelf
    · cases isFound'
      cases runs
    · exact sound.own isFound' runs
  case joins =>
    intro found member ptcb target isJoining
    rw [(kept ptcb).1]
    rcases List.mem_or_eq_of_mem_set member with old | rfl
    · exact sound.joins found old ptcb target isJoining
    · cases isJoining
  case refcount =>
    intro ptcb isLive
    have counted := joiners_move isThread (.exited exitval) ptcb
    rw [joins_eq_false notJoining] at counted
    simp only [OldCall.joins, Bool.false_eq_true, if_false, Nat.add_zero]
      at counted
    have same : ((table.move t thread (.exited exitval)).modifyPtcb thread.ptcb
        fun block => { block with
          exitval := exitval, exited := true }).joiners ptcb =
        table.joiners ptcb := counted
    rw [same, (kept ptcb).2.1, (kept ptcb).2.2]
    exact sound.refcount isLive

/-- A PTCB for which nobody waits and whose thread has ended may be freed. -/
theorem free
    (sound : table.Sound lists)
    (isLive : table.live ptcb = true)
    (hasExited : (table.ptcb ptcb).exited = true)
    (unused : table.joiners ptcb = 0) :
    (table.free ptcb).Sound fun pid => (lists pid).erase ptcb := by
  have stillLive : ∀ {other}, (table.free ptcb).live other = true ↔
      other ≠ ptcb ∧ table.live other = true := by
    intro other
    by_cases same : other = ptcb
    · subst same
      simp [PtcbTable.free]
    · simp [PtcbTable.free, same]
  have stillListed : ∀ {pid other}, other ∈ (lists pid).erase ptcb ↔
      other ≠ ptcb ∧ other ∈ lists pid := by
    intro pid other
    exact (sound.rings.nodup pid).mem_erase_iff
  constructor
  case rings =>
    have removed := sound.rings.unlink isLive
    show (oldPtcbLayout limits π).Represents
      (table.lists.rlistRemove (.node ptcb)).links _ _
    rw [RlHeap.rlistRemove_links]
    apply removed.weaken
    · intro other live
      exact (stillLive.mp live).2
    · intro pid other member
      obtain ⟨different, listed⟩ := stillListed.mp member
      exact stillLive.mpr ⟨different, sound.rings.alive listed⟩
  case key =>
    intro other live
    show (table.lists.rlistRemove (.node ptcb) (.node other)).obj = _
    rw [RlHeap.rlistRemove_obj]
    exact sound.key (stillLive.mp live).2
  case listed =>
    intro other live
    obtain ⟨different, wasLive⟩ := stillLive.mp live
    obtain ⟨pid, member⟩ := sound.listed wasLive
    exact ⟨pid, stillListed.mpr ⟨different, member⟩⟩
  case thread =>
    intro pid other member
    exact sound.thread (stillListed.mp member).2
  case own =>
    intro other found isFound runs
    have own := sound.own isFound runs
    refine ⟨stillLive.mpr ⟨?_, own.1⟩, own.2⟩
    rintro rfl
    rw [sound.own_running isFound runs] at hasExited
    cases hasExited
  case joins =>
    intro found member other target isJoining
    obtain ⟨listed, isTarget⟩ := sound.joins found member other target isJoining
    refine ⟨stillListed.mpr ⟨?_, listed⟩, isTarget⟩
    rintro rfl
    have joins := List.countP_eq_zero.mp unused found member
    simp [isJoining, OldCall.joins] at joins
  case refcount =>
    intro other live
    exact sound.refcount (stillLive.mp live).2

/-- A PTCB that is not live is in no ring and nobody waits for its thread. -/
theorem of_notLive
    (sound : table.Sound lists)
    (notLive : table.live ptcb = false) :
    (∀ pid, ptcb ∉ lists pid) ∧ table.joiners ptcb = 0 := by
  have unlisted : ∀ pid, ptcb ∉ lists pid := by
    intro pid member
    have isLive := sound.rings.alive member
    rw [notLive] at isLive
    cases isLive
  refine ⟨unlisted, ?_⟩
  rw [joiners, List.countP_eq_zero]
  intro thread member joins
  cases called : thread.call with
  | joining other target =>
      rw [called] at joins
      obtain rfl : other = ptcb := of_decide_eq_true joins
      exact unlisted _ (sound.joins thread member other target called).1
  | _ =>
      rw [called] at joins
      cases joins

/-- `create_ptcb` -/
theorem start
    (sound : table.Sound lists)
    (notLive : table.live ptcb = false)
    (owner : Fin limits.maxProc)
    (task : Option Task)
    (argl : Int)
    (args : Nat) :
    (table.start owner task argl args ptcb).Sound
      (Function.update lists owner (lists owner ++ [ptcb])) := by
  obtain ⟨unlisted, noJoiners⟩ := sound.of_notLive notLive
  have isLive : ∀ {other}, (table.start owner task argl args ptcb).live other =
      true ↔ other = ptcb ∨ table.live other = true := by
    intro other
    by_cases same : other = ptcb
    · subst same
      simp [PtcbTable.start]
    · simp [PtcbTable.start, same]
  have isListed : ∀ {pid other}, other ∈
      Function.update lists owner (lists owner ++ [ptcb]) pid ↔
        (other = ptcb ∧ pid = owner) ∨ other ∈ lists pid := by
    intro pid other
    by_cases same : pid = owner
    · subst same
      simp [or_comm]
    · simp [same]
  have block : ∀ {other}, other ≠ ptcb →
      (table.start owner task argl args ptcb).ptcb other = table.ptcb other :=
    fun different => Function.update_of_ne different ..
  have different : ∀ {other pid}, other ∈ lists pid → other ≠ ptcb := by
    rintro other pid member rfl
    exact unlisted pid member
  have grown : ∀ {index : Nat} {found : OldThread limits π},
      table.threads[index]? = some found →
      (table.start owner task argl args ptcb).threads[index]? =
        some found := by
    intro index found isFound
    rw [PtcbTable.start, List.getElem?_append_left
      (List.getElem?_eq_some_iff.mp isFound).1]
    exact isFound
  constructor
  case rings =>
    have live : (fun other => (table.start owner task argl args ptcb).live
        other = true) = fun other => other = ptcb ∨ table.live other = true := by
      funext other
      exact propext isLive
    rw [live]
    have pushed := (sound.rings.single unlisted).push_back (.inl rfl) unlisted
      owner
    show (oldPtcbLayout limits π).Represents (RlHeap.rlistPushBack
      (table.lists.rlnodeInit (.node ptcb) (some ptcb)) (.list owner)
        (.node ptcb)).links _ _
    rw [RlHeap.rlistPushBack_links, RlHeap.rlnodeInit_links]
    exact pushed
  case key =>
    intro other live
    show (RlHeap.rlistPushBack (table.lists.rlnodeInit (.node ptcb) (some ptcb))
      (.list owner) (.node ptcb) (.node other)).obj = _
    rw [RlHeap.rlistPushBack_obj]
    by_cases same : other = ptcb
    · subst same
      exact RlHeap.rlnodeInit_obj_self ..
    · rw [RlHeap.rlnodeInit_of_ne (by simpa using same)]
      exact sound.key ((isLive.mp live).resolve_left same)
  case listed =>
    intro other live
    rcases isLive.mp live with rfl | wasLive
    · exact ⟨owner, isListed.mpr (.inl ⟨rfl, rfl⟩)⟩
    · obtain ⟨pid, member⟩ := sound.listed wasLive
      exact ⟨pid, isListed.mpr (.inr member)⟩
  case thread =>
    intro pid other member
    rcases isListed.mp member with ⟨rfl, rfl⟩ | listed
    · refine ⟨⟨pid, other, .own⟩, ?_, rfl, rfl, .inl ⟨?_, rfl⟩⟩
      · simp [PtcbTable.start]
      · simp [PtcbTable.start]
    · rw [block (different listed)]
      obtain ⟨found, isFound, rest⟩ := sound.thread listed
      exact ⟨found, grown isFound, rest⟩
  case own =>
    intro index found isFound runs
    by_cases isNew : index < table.threads.length
    · rw [PtcbTable.start, List.getElem?_append_left isNew] at isFound
      have own := sound.own isFound runs
      rw [block]
      · exact ⟨isLive.mpr (.inr own.1), own.2⟩
      · intro same
        rw [same, notLive] at own
        cases own.1
    · rw [PtcbTable.start, List.getElem?_append_right (by omega)] at isFound
      obtain ⟨inRange, isFound⟩ := List.getElem?_eq_some_iff.mp isFound
      have last : index = table.threads.length := by
        simp only [List.length_singleton] at inRange
        omega
      subst last
      simp only [Nat.sub_self, List.getElem_cons_zero] at isFound
      subst isFound
      exact ⟨isLive.mpr (.inl rfl), by simp [PtcbTable.start]⟩
  case joins =>
    intro found member other target isJoining
    rcases List.mem_append.mp member with old | new
    · obtain ⟨listed, isTarget⟩ := sound.joins found old other target isJoining
      rw [block (different listed)]
      exact ⟨isListed.mpr (.inr listed), isTarget⟩
    · obtain rfl := List.mem_singleton.mp new
      cases isJoining
  case refcount =>
    intro other live
    have same : (table.start owner task argl args ptcb).joiners other =
        table.joiners other := by
      rw [joiners, PtcbTable.start, List.countP_append, List.countP_singleton]
      simp [OldCall.joins, joiners]
    rw [same]
    by_cases isNew : other = ptcb
    · subst isNew
      simp [PtcbTable.start, noJoiners]
    · rw [block isNew]
      exact sound.refcount ((isLive.mp live).resolve_left isNew)

/-- Where a thread is now does not matter when it neither waited for a thread nor
does so now. -/
theorem goes
    (sound : table.Sound lists)
    (isThread : table.threads[t]? = some thread)
    (notExited : thread.call.isExited = false)
    (notJoining : ∀ ptcb target, thread.call ≠ .joining ptcb target)
    (goesOn : call.isExited = false)
    (joinsNone : ∀ ptcb target, call ≠ .joining ptcb target) :
    (table.move t thread call).Sound lists := by
  refine sound.moved isThread notExited goesOn (fun _ => ⟨rfl, rfl, rfl⟩) ?_ ?_
  · intro ptcb target isJoining
    exact absurd isJoining (joinsNone ptcb target)
  · intro ptcb isLive
    have counted := joiners_move isThread call ptcb
    rw [joins_eq_false notJoining, joins_eq_false joinsNone] at counted
    have same : (table.move t thread call).joiners ptcb = table.joiners ptcb :=
      Nat.add_right_cancel counted
    rw [same]
    exact sound.refcount isLive

/-- `sys_ThreadJoin` before its loop. -/
theorem begins
    (sound : table.Sound lists)
    (isThread : table.threads[t]? = some thread)
    (notExited : thread.call.isExited = false)
    (notJoining : ∀ ptcb target, thread.call ≠ .joining ptcb target)
    (listed : ptcb ∈ lists thread.owner)
    (notDetached : (table.ptcb ptcb).detached = false) :
    ((table.move t thread (.joining ptcb (table.ptcb ptcb).thread)).modifyPtcb
      ptcb fun block =>
        { block with refcount := block.refcount + 1 }).Sound lists := by
  refine sound.moved isThread notExited rfl ?_ ?_ ?_
  · intro other
    by_cases same : other = ptcb
    · subst same
      simp [move]
    · simp [move, same]
  · intro other target isJoining
    cases isJoining
    exact ⟨listed, rfl⟩
  · intro other isLive
    have counted := joiners_move isThread
      (.joining ptcb (table.ptcb ptcb).thread) other
    rw [joins_eq_false notJoining] at counted
    obtain ⟨least, exact'⟩ := sound.refcount isLive
    by_cases same : other = ptcb
    · subst same
      simp only [OldCall.joins, decide_true, if_true, Bool.false_eq_true,
        if_false, Nat.add_zero] at counted
      rw [counted, move, Function.update_self]
      have equal := exact' notDetached
      refine ⟨?_, fun _ => ?_⟩
      · push_cast
        omega
      · push_cast
        omega
    · simp only [OldCall.joins, Ne.symm same, decide_false, Bool.false_eq_true,
        if_false, Nat.add_zero] at counted
      rw [counted, move, Function.update_of_ne same]
      exact ⟨least, exact'⟩

/-- A call of `sys_ThreadJoin` ends; the count may go down. -/
theorem joined
    {target : Nat}
    (sound : table.Sound lists)
    (isThread : table.threads[t]? = some thread)
    (isJoining : thread.call = .joining ptcb target)
    (notDetached : (table.ptcb ptcb).detached = false) :
    ((table.move t thread .own).modifyPtcb ptcb fun block =>
      { block with refcount := block.refcount - 1 }).Sound lists ∧
    ((table.move t thread .own).modifyPtcb ptcb fun block =>
      { block with refcount := block.refcount - 1 }).joiners ptcb =
        (table.ptcb ptcb).refcount - 1 := by
  have member := List.mem_of_getElem? isThread
  have isLive := sound.rings.alive
    (sound.joins thread member ptcb target isJoining).1
  have fewer : ∀ other, (table.move t thread .own).joiners other +
      (if ptcb = other then 1 else 0) = table.joiners other := by
    intro other
    have counted := joiners_move isThread .own other
    simpa [isJoining, OldCall.joins] using counted
  constructor
  · refine sound.moved isThread (by rw [isJoining]; rfl) rfl ?_ (by simp) ?_
    · intro other
      by_cases same : other = ptcb
      · subst same
        simp [move]
      · simp [move, same]
    · intro other otherLive
      have counted := fewer other
      obtain ⟨least, exact'⟩ := sound.refcount otherLive
      by_cases same : other = ptcb
      · subst same
        rw [if_pos rfl] at counted
        rw [move, Function.update_self]
        have equal := exact' notDetached
        refine ⟨?_, fun _ => ?_⟩
        · show ((table.move t thread .own).joiners other : Int) ≤
            (table.ptcb other).refcount - 1
          omega
        · show (table.ptcb other).refcount - 1 =
            ((table.move t thread .own).joiners other : Int)
          omega
      · rw [if_neg (Ne.symm same), Nat.add_zero] at counted
        rw [counted, move, Function.update_of_ne same]
        exact ⟨least, exact'⟩
  · have counted := fewer ptcb
    rw [if_pos rfl] at counted
    have equal := (sound.refcount isLive).2 notDetached
    show ((table.move t thread .own).joiners ptcb : Int) = _
    omega

/-- Every move keeps the PTCBs. -/
theorem of_move
    {after : PtcbTable limits π}
    (sound : table.Sound lists)
    (move : table.Move t after) :
    ∃ lists, after.Sound lists := by
  cases move with
  | goes thread call isThread notExited notJoining goesOn joinsNone =>
      exact ⟨lists, sound.goes isThread notExited notJoining goesOn joinsNone⟩
  | starts owner task argl args ptcb notLive =>
      exact ⟨_, sound.start notLive owner task argl args⟩
  | exits thread exitval isThread notExited notJoining =>
      exact ⟨lists, sound.exits isThread notExited notJoining exitval⟩
  | begins thread node ptcb isThread notExited notJoining found notDetached =>
      rcases sound.find_eq thread.owner (some ptcb) with
        ⟨missing, -⟩ | ⟨other, listed, same, -⟩
      · rw [missing] at found
        cases found
      · cases same
        exact ⟨lists, sound.begins isThread notExited notJoining listed
          notDetached⟩
  | leaves thread ptcb target isThread isJoining isDetached =>
      refine ⟨lists, sound.moved isThread (by rw [isJoining]; rfl) rfl
        (fun _ => ⟨rfl, rfl, rfl⟩) (by simp) ?_⟩
      intro other isLive
      have counted := joiners_move isThread .own other
      obtain ⟨least, exact'⟩ := sound.refcount isLive
      simp only [isJoining, OldCall.joins, decide_eq_true_eq,
        Bool.false_eq_true, if_false, Nat.add_zero] at counted
      by_cases same : ptcb = other
      · subst same
        rw [if_pos rfl] at counted
        refine ⟨?_, fun notDetached => ?_⟩
        · show ((table.move t thread .own).joiners ptcb : Int) ≤
            (table.ptcb ptcb).refcount
          omega
        · change (table.ptcb ptcb).detached = false at notDetached
          rw [isDetached] at notDetached
          cases notDetached
      · rw [if_neg same, Nat.add_zero] at counted
        rw [counted]
        exact ⟨least, exact'⟩
  | returns thread ptcb target isThread isJoining notDetached hasExited more =>
      exact ⟨lists, (sound.joined isThread isJoining notDetached).1⟩
  | frees thread ptcb target isThread isJoining notDetached hasExited last =>
      obtain ⟨joined, counted⟩ := sound.joined isThread isJoining notDetached
      have member := List.mem_of_getElem? isThread
      have isLive := sound.rings.alive
        (sound.joins thread member ptcb target isJoining).1
      refine ⟨_, joined.free isLive ?_ ?_⟩
      · simpa [modifyPtcb, PtcbTable.move] using hasExited
      · omega
  | detaches ptcb notExited =>
      refine ⟨lists, sound.blocks ?_ ?_⟩
      · intro other
        by_cases same : other = ptcb
        · subst same
          simp
        · simp [same]
      · intro other isLive
        obtain ⟨least, exact'⟩ := sound.refcount isLive
        by_cases same : other = ptcb
        · subst same
          rw [Function.update_self]
          exact ⟨least, by simp⟩
        · rw [Function.update_of_ne same]
          exact ⟨least, exact'⟩

/-- So does a sequence of moves. -/
theorem of_moves
    {after : PtcbTable limits π}
    (sound : table.Sound lists)
    (moves : Relation.ReflTransGen (Move t) table after) :
    ∃ lists, after.Sound lists := by
  induction moves with
  | refl => exact ⟨lists, sound⟩
  | tail _ move inductionHypothesis =>
      obtain ⟨lists, sound⟩ := inductionHypothesis
      exact sound.of_move move

end Sound
end Keeping

end PtcbTable
end TinierOS
