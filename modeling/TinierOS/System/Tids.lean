import TinierOS.System.Steps

/-!
# Thread identifiers

A tid is the address of a PTCB.  Thread slots are taken again when their threads
have exited, PTCBs are not: a thread gets a PTCB that has never been used, and
when it exits the PTCB keeps its exit value for good.
-/

namespace TinierOS

variable {limits : Limits}

/-- The value that a step passes to `Exit` or `ThreadExit`. -/
def Action.leaves : Action limits → Option Int
  | .exit exitval _ | .threadExit exitval _ => some exitval
  | _ => none

/-- The tid that `CreateThread` returned. -/
def Reply.newTid : Reply limits → Option (Fin limits.maxThreads)
  | .createThread tid => tid
  | _ => .none

theorem Reply.Blank.newTid
    {reply : Reply limits}
    (blank : reply.Blank) :
    reply.newTid = .none := by
  cases reply with
  | createThread tid => cases blank
  | _ => rfl

namespace Kernel

/-- Threads, their tids and the exit values are as before. -/
structure TidsKept (before after : Kernel limits) : Prop where
  used : after.threadUsed = before.threadUsed
  tidOf : after.tidOf = before.tidOf
  ptcbUsed : after.ptcbUsed = before.ptcbUsed
  exited : ∀ ptcb, (after.ptcb ptcb).exited = (before.ptcb ptcb).exited
  exitval : ∀ ptcb, (after.ptcb ptcb).exitval = (before.ptcb ptcb).exitval

theorem TidsKept.of_eq
    {before after : Kernel limits}
    (sched : after.sched = before.sched)
    (ptcbUsed : after.ptcbUsed = before.ptcbUsed)
    (ptcb : after.ptcb = before.ptcb) :
    TidsKept before after := by
  refine ⟨?_, ?_, ptcbUsed, ?_, ?_⟩
  · simp only [threadUsed, sched]
  · funext slot
    simp only [Kernel.tidOf, sched]
  · intro tid
    rw [ptcb]
  · intro tid
    rw [ptcb]

/-- A thread was started in a slot, with a PTCB if one was free. -/
structure TidGiven
    (before after : Kernel limits)
    (slot : Fin limits.maxThreads) : Prop where
  free : before.threadUsed slot = false
  used : after.threadUsed = Function.update before.threadUsed slot true
  tidOf : after.tidOf = Function.update before.tidOf slot before.freePtcb
  ptcbUsed : ∀ ptcb, after.ptcbUsed ptcb = true ↔
    before.ptcbUsed ptcb = true ∨ before.freePtcb = some ptcb
  fresh : ∀ ptcb, before.freePtcb = some ptcb →
    (after.ptcb ptcb).exited = false
  others : ∀ ptcb, before.freePtcb ≠ some ptcb →
    after.ptcb ptcb = before.ptcb ptcb

/-- The thread in a slot exited with a value. -/
structure TidLeft
    (before after : Kernel limits)
    (slot : Fin limits.maxThreads)
    (exitval : Int) : Prop where
  used : after.threadUsed = Function.update before.threadUsed slot false
  tidOf : after.tidOf = before.tidOf
  ptcbUsed : after.ptcbUsed = before.ptcbUsed
  marked : ∀ ptcb, before.tidOf slot = some ptcb →
    (after.ptcb ptcb).exited = true ∧ (after.ptcb ptcb).exitval = exitval
  others : ∀ ptcb, before.tidOf slot ≠ some ptcb →
    after.ptcb ptcb = before.ptcb ptcb

/-- Each thread has a tid of its own, whose PTCB is in use and has not been
marked. -/
structure TidsDistinct (kernel : Kernel limits) : Prop where
  distinct : ∀ {first second tid}, kernel.threadUsed first = true →
    kernel.threadUsed second = true → kernel.tidOf first = some tid →
      kernel.tidOf second = some tid → first = second
  live : ∀ {slot tid}, kernel.threadUsed slot = true →
    kernel.tidOf slot = some tid →
      kernel.ptcbUsed tid = true ∧ (kernel.ptcb tid).exited = false

theorem TidLeft.fewer
    {before after : Kernel limits}
    {slot : Fin limits.maxThreads}
    {exitval : Int}
    (left : TidLeft before after slot exitval)
    (other : Fin limits.maxThreads)
    (used : after.threadUsed other = true) :
    before.threadUsed other = true := by
  rw [left.used, Function.update_apply] at used
  split_ifs at used
  exact used

theorem freePtcb_unused
    {kernel : Kernel limits}
    {ptcb : Fin limits.maxThreads}
    (free : kernel.freePtcb = some ptcb) :
    kernel.ptcbUsed ptcb = false := by
  simpa using firstIndex_test free

namespace TidsDistinct

variable {before after : Kernel limits}

theorem of_kept
    (tids : before.TidsDistinct)
    (kept : TidsKept before after) :
    after.TidsDistinct := by
  constructor
  · intro first second tid usedFirst usedSecond isFirst isSecond
    rw [kept.used] at usedFirst usedSecond
    rw [kept.tidOf] at isFirst isSecond
    exact tids.distinct usedFirst usedSecond isFirst isSecond
  · intro slot tid usedSlot isTid
    rw [kept.used] at usedSlot
    rw [kept.tidOf] at isTid
    rw [kept.ptcbUsed, kept.exited]
    exact tids.live usedSlot isTid

/-- A new thread gets a PTCB that nobody has. -/
theorem of_given
    {slot : Fin limits.maxThreads}
    (tids : before.TidsDistinct)
    (given : TidGiven before after slot) :
    after.TidsDistinct := by
  have taken : ∀ {other tid}, other ≠ slot → after.threadUsed other = true →
      after.tidOf other = some tid →
        before.threadUsed other = true ∧ before.tidOf other = some tid ∧
          before.freePtcb ≠ some tid := by
    intro other tid different usedOther isTid
    rw [given.used, Function.update_of_ne different] at usedOther
    rw [given.tidOf, Function.update_of_ne different] at isTid
    refine ⟨usedOther, isTid, fun free => ?_⟩
    have unused := freePtcb_unused free
    rw [(tids.live usedOther isTid).1] at unused
    cases unused
  have new : ∀ {tid}, after.tidOf slot = some tid →
      before.freePtcb = some tid := by
    intro tid isTid
    rwa [given.tidOf, Function.update_self] at isTid
  constructor
  · intro first second tid usedFirst usedSecond isFirst isSecond
    by_cases firstNew : first = slot
    · subst firstNew
      by_contra different
      exact (taken (Ne.symm different) usedSecond isSecond).2.2 (new isFirst)
    · obtain ⟨wasFirst, hadFirst, notFree⟩ :=
        taken firstNew usedFirst isFirst
      have secondOld : second ≠ slot := by
        rintro rfl
        exact notFree (new isSecond)
      obtain ⟨wasSecond, hadSecond, -⟩ := taken secondOld usedSecond isSecond
      exact tids.distinct wasFirst wasSecond hadFirst hadSecond
  · intro other tid usedOther isTid
    by_cases isNew : other = slot
    · subst isNew
      exact ⟨(given.ptcbUsed tid).mpr (.inr (new isTid)),
        given.fresh tid (new isTid)⟩
    · obtain ⟨wasUsed, had, notFree⟩ := taken isNew usedOther isTid
      obtain ⟨inUse, notExited⟩ := tids.live wasUsed had
      refine ⟨(given.ptcbUsed tid).mpr (.inl inUse), ?_⟩
      rw [given.others tid notFree]
      exact notExited

/-- Only the tid of the thread that exits is marked. -/
theorem of_left
    {slot : Fin limits.maxThreads}
    {exitval : Int}
    (tids : before.TidsDistinct)
    (usedSlot : before.threadUsed slot = true)
    (left : TidLeft before after slot exitval) :
    after.TidsDistinct := by
  have stays : ∀ {other}, after.threadUsed other = true →
      other ≠ slot ∧ before.threadUsed other = true := by
    intro other usedOther
    rw [left.used, Function.update_apply] at usedOther
    split_ifs at usedOther with isSlot
    exact ⟨isSlot, usedOther⟩
  constructor
  · intro first second tid usedFirst usedSecond isFirst isSecond
    rw [left.tidOf] at isFirst isSecond
    exact tids.distinct (stays usedFirst).2 (stays usedSecond).2 isFirst
      isSecond
  · intro other tid usedOther isTid
    obtain ⟨different, wasUsed⟩ := stays usedOther
    rw [left.tidOf] at isTid
    have notMarked : before.tidOf slot ≠ some tid := fun same =>
      different (tids.distinct wasUsed usedSlot isTid same)
    rw [left.ptcbUsed, left.others tid notMarked]
    exact tids.live wasUsed isTid

end TidsDistinct

/-! ## The calls -/

theorem tidGiven_of_started
    {first before after : Kernel limits}
    {slot : Fin limits.maxThreads}
    {proc : Fin limits.maxProc}
    {func : ThreadFunc}
    {task : Option Task}
    {argl : Int}
    {args : ArgPtr limits}
    (started : ThreadStarted before after slot proc task argl args)
    (frame : StartFrame before after slot func)
    (sched : before.sched = first.sched)
    (ptcbUsed : before.ptcbUsed = first.ptcbUsed)
    (ptcb : before.ptcb = first.ptcb) :
    TidGiven first after slot := by
  have free : before.freePtcb = first.freePtcb := by
    simp only [freePtcb, ptcbUsed]
  have used : before.threadUsed = first.threadUsed := by
    simp only [threadUsed, sched]
  have tidOf : before.tidOf = first.tidOf := by
    funext other
    simp only [Kernel.tidOf, sched]
  refine ⟨?_, ?_, ?_, ?_, ?_, ?_⟩
  · rw [← used]
    exact Sched.freeSlot_eq_some started.thread.free
  · rw [← used]
    exact started.thread.used
  · rw [← tidOf, ← free]
    exact frame.tidOf
  · intro tid
    rw [← free, ← ptcbUsed]
    rcases started.ptcbs with ⟨full, same⟩ | ⟨new, taken⟩
    · simp [full, same.ptcbUsed]
    · rw [taken.ptcbUsed, taken.free, Function.update_apply]
      by_cases isNew : tid = new
      · simp [isNew]
      · simp [isNew, Ne.symm isNew]
  · intro tid isFree
    rw [started.block tid (free.trans isFree)]
  · intro tid notFree
    rw [frame.ptcb tid (by rwa [free]), ptcb]

/-- A thread that exits marks its PTCB. -/
theorem tidLeft_markThreadExit
    {kernel marked : Kernel limits}
    {slot : Fin limits.maxThreads}
    {proc : Fin limits.maxProc}
    {exitval : Int}
    {sched : Sched limits}
    (tcbs : marked.sched = kernel.sched)
    (ptcbUsed : marked.ptcbUsed = kernel.ptcbUsed)
    (ptcb : marked.ptcb = kernel.ptcb)
    (owners : Sched.SameOwners kernel.sched sched)
    (used : sched.threadUsed =
      Function.update kernel.sched.threadUsed slot false) :
    TidLeft kernel { marked.markThreadExit (.slot slot) proc exitval with
      sched := sched } slot exitval := by
  refine ⟨used, ?_, ptcbUsed, ?_, ?_⟩
  · funext other
    exact owners.ptcb _
  · intro tid isTid
    have isPtcb : (marked.sched.tcb (.slot slot)).ptcb = some tid := by
      rw [tcbs]
      exact isTid
    simp [markThreadExit, isPtcb]
  · intro tid notTid
    have notPtcb : (marked.sched.tcb (.slot slot)).ptcb ≠ some tid := by
      rw [tcbs]
      exact notTid
    cases isPtcb : (marked.sched.tcb (.slot slot)).ptcb with
    | none => simp [markThreadExit, isPtcb, ptcb]
    | some other =>
        have different : tid ≠ other := by
          rintro rfl
          exact notPtcb isPtcb
        simp [markThreadExit, isPtcb, different, ptcb]

/-! ## Every step -/

theorem TidsKept.of_sched
    {before after : Kernel limits}
    {sched : Sched limits}
    (kernel : after = { before with sched := sched })
    (owners : Sched.SameOwners before.sched sched)
    (used : sched.threadUsed = before.sched.threadUsed) :
    TidsKept before after := by
  subst kernel
  refine ⟨used, ?_, rfl, fun _ => rfl, fun _ => rfl⟩
  funext slot
  exact owners.ptcb _

theorem tidsKept_of_sysThreadDetach
    (kernel : Kernel limits)
    (tid : Option (Fin limits.maxThreads)) :
    TidsKept kernel (kernel.sysThreadDetach tid).2 := by
  cases tid with
  | none => exact .of_eq rfl rfl rfl
  | some ptcb =>
      refine ⟨rfl, rfl, rfl, ?_, ?_⟩ <;> intro other <;>
        by_cases same : other = ptcb <;> simp [sysThreadDetach, same]

/-- `sys_CreateThread` starts a thread and returns its tid, or does nothing. -/
theorem CreateOutcome.tids
    {before after : Kernel limits}
    {proc : Fin limits.maxProc}
    {task : Option Task}
    {argl : Int}
    {args : ArgPtr limits}
    {tid : Option (Fin limits.maxThreads)}
    (outcome : CreateOutcome before proc task argl args tid after) :
    TidsKept before after ∧ tid = none ∨
      ∃ slot, TidGiven before after slot ∧ tid = before.freePtcb := by
  cases outcome with
  | refused reason => exact .inl ⟨.of_eq rfl rfl rfl, rfl⟩
  | started slot isTask started frame =>
      exact .inr ⟨slot, tidGiven_of_started started frame rfl rfl rfl, rfl⟩

/-- `sys_Exec` starts a thread, or leaves the threads as they are. -/
theorem ExecOutcome.tids
    {before after : Kernel limits}
    {call : Option Task}
    {argl : Int}
    {args : ArgPtr limits}
    {memory : Nat → UInt8}
    {pid : Option (Fin limits.maxProc)}
    (outcome : ExecOutcome before call argl args memory pid after) :
    TidsKept before after ∨ ∃ slot, TidGiven before after slot := by
  have rest : ∀ newproc,
      (before.prepared newproc call argl args memory).sched = before.sched ∧
      (before.prepared newproc call argl args memory).ptcbUsed =
        before.ptcbUsed ∧
      (before.prepared newproc call argl args memory).ptcb = before.ptcb := by
    intro newproc
    obtain ⟨-, -, -, ptcbUsed, -, ptcb⟩ :=
      before.prepared_rest newproc call argl args memory
    exact ⟨before.prepared_sched newproc call argl args memory, ptcbUsed, ptcb⟩
  cases outcome with
  | full noPcb => exact .inl (.of_eq rfl rfl rfl)
  | threadless newproc free noCall =>
      obtain ⟨sched, ptcbUsed, ptcb⟩ := rest newproc
      exact .inl (.of_eq sched ptcbUsed ptcb)
  | failed newproc free isCall noSlot =>
      obtain ⟨sched, ptcbUsed, ptcb⟩ := rest newproc
      exact .inl (.of_eq sched ptcbUsed ptcb)
  | started newproc slot free isCall started frame =>
      obtain ⟨sched, ptcbUsed, ptcb⟩ := rest newproc
      exact .inr ⟨slot, tidGiven_of_started started frame sched ptcbUsed ptcb⟩

end Kernel

namespace System

open Kernel

/-- What a step does to the threads and their tids. -/
inductive TidEffect
    (before : System limits)
    (action : Action limits)
    (after : System limits) : Prop
  | kept
      (notExit : action.leaves = none)
      (tids : TidsKept before.kernel after.kernel)
      (noTid : after.reply.newTid = none)
  | given
      (slot : Fin limits.maxThreads)
      (notExit : action.leaves = none)
      (tids : TidGiven before.kernel after.kernel slot)
      (reply : ∀ tid, after.reply.newTid = some tid →
        before.kernel.freePtcb = some tid)
  | left
      (slot : Fin limits.maxThreads)
      (exitval : Int)
      (isCurrent : before.currentSlot = some slot)
      (exits : action.leaves = some exitval)
      (tids : TidLeft before.kernel after.kernel slot exitval)
      (noTid : after.reply.newTid = none)

variable {before after : System limits}
variable {action : Action limits}

theorem not_leaves_of_plain
    (plain : action.writes = false) :
    action.leaves = none := by
  cases action with
  | exit exitval clock => cases plain
  | threadExit exitval clock => cases plain
  | _ => rfl

theorem Performs.tidEffect
    (performs : Performs before action after)
    (sound : before.Sound) :
    TidEffect before action after := by
  have streams : ((∃ major minor result, before.kernel.openStream major minor =
        .ok (result, after.kernel)) ∨
      ∃ fd result, before.kernel.sysClose fd = .ok (result, after.kernel)) →
      TidsKept before.kernel after.kernel := by
    intro call
    obtain ⟨FIDT, fcb, freelist, kernel⟩ := streams_withFiles call
    rw [kernel]
    exact .of_eq rfl rfl rfl
  cases performs with
  | passes sched plain kernel owners used reply =>
      exact .kept (not_leaves_of_plain plain) (.of_sched kernel owners used)
        reply.newTid
  | joined slot ptcb exitval plain isCurrent loop exited kernel reply =>
      refine .kept (not_leaves_of_plain plain) ?_ (by rw [reply]; rfl)
      rw [kernel]
      exact .of_eq rfl rfl rfl
  | reaped child status plain kernel reply =>
      refine .kept (not_leaves_of_plain plain) ?_ (by rw [reply]; rfl)
      rw [kernel]
      exact .of_eq rfl rfl rfl
  | executed pid executed reply =>
      have noTid : after.reply.newTid = none := by
        rw [reply]
        rfl
      rcases (sysExec_outcome sound.resting executed).tids with
        kept | ⟨slot, given⟩
      · exact .kept rfl kept noTid
      · exact .given slot rfl given fun tid isNew => by
          rw [noTid] at isNew
          cases isNew
  | exited slot proc sched isCurrent owned kernel owners used reply =>
      refine .left slot _ isCurrent rfl ?_ (by rw [reply]; rfl)
      rw [kernel]
      exact tidLeft_markThreadExit rfl rfl rfl owners used
  | threadExited slot proc sched isCurrent owned kernel owners used reply =>
      refine .left slot _ isCurrent rfl ?_ (by rw [reply]; rfl)
      rw [kernel]
      exact tidLeft_markThreadExit rfl rfl rfl owners used
  | created slot tid isCurrent created reply =>
      obtain ⟨proc, owned⟩ := sound.owned slot (sound.current_used isCurrent)
      have outcome := sysCreateThread_outcome sound.resting
        (currentSlot_eq_some.mp isCurrent) owned created
      have newTid : after.reply.newTid = tid := by
        rw [reply]
        rfl
      rcases outcome.tids with ⟨kept, refused⟩ | ⟨new, given, isFree⟩
      · exact .kept rfl kept (newTid.trans refused)
      · refine .given new rfl given fun other isOther => ?_
        rw [← isFree, ← newTid, isOther]
  | detached kernel reply =>
      refine .kept rfl ?_ (by rw [reply]; rfl)
      rw [kernel]
      exact tidsKept_of_sysThreadDetach _ _
  | opened fid opens opened reply =>
      refine .kept ?_ (streams (.inl ⟨_, _, _, opened⟩)) (by rw [reply]; rfl)
      cases action <;> first | rfl | cases opens
  | closed result closed reply =>
      exact .kept rfl (streams (.inr ⟨_, _, closed⟩)) (by rw [reply]; rfl)

end System
end TinierOS
