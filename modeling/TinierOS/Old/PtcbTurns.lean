import TinierOS.Old.Ptcbs
import TinierOS.Old.ProcRuns

/-!
# What a step does to the PTCBs of the old kernel

Every step of a thread is a sequence of moves on the PTCBs.
-/

namespace TinierOS

variable {limits : Limits} {π : Type}

namespace OldKernel

/-- The part of the kernel that is about PTCBs. -/
def ptcbTable (kernel : OldKernel limits π) : PtcbTable limits π where
  threads := kernel.threads
  ptcb := kernel.ptcb
  live := kernel.live
  lists := kernel.ptcbLists

variable [DecidableEq π]
variable {kernel middle after : OldKernel limits π}
variable {t : Nat}
variable {thread : OldThread limits π}

/-- A sequence of moves of one thread. -/
abbrev PtcbMoves
    (t : Nat)
    (before after : PtcbTable limits π) : Prop :=
  Relation.ReflTransGen (PtcbTable.Move t) before after

/-- A thread that neither ends nor waits for another one, before and after. -/
structure Unjoined (thread : OldThread limits π) (call : OldCall limits π) :
    Prop where
  notExited : thread.call.isExited = false
  notJoining : ∀ ptcb target, thread.call ≠ .joining ptcb target
  goesOn : call.isExited = false
  joinsNone : ∀ ptcb target, call ≠ .joining ptcb target

omit [DecidableEq π] in
theorem Unjoined.returns
    {call : OldCall limits π}
    (unjoined : Unjoined thread call) :
    Unjoined thread .own :=
  ⟨unjoined.notExited, unjoined.notJoining, rfl, by simp⟩

omit [DecidableEq π] in
theorem unjoined_of_own
    (isOwn : thread.call = .own) :
    Unjoined thread .own := by
  constructor <;> simp [isOwn, OldCall.isExited]

/-- A step that leaves the PTCBs alone. -/
theorem ptcbMoves_goes
    {call : OldCall limits π}
    (isThread : kernel.threads[t]? = some thread)
    (unjoined : Unjoined thread call)
    (isAfter : after.ptcbTable = { kernel.ptcbTable with
      threads := kernel.threads.modify t fun thread =>
        { thread with call := call } }) :
    PtcbMoves t kernel.ptcbTable after.ptcbTable := by
  rw [isAfter, modify_eq_set isThread]
  exact .single (.goes thread call isThread unjoined.notExited
    unjoined.notJoining unjoined.goesOn unjoined.joinsNone)

/-- A step that creates a thread. -/
theorem ptcbMoves_starts
    {owner : Fin limits.maxProc}
    {task : Option Task}
    {argl : Int}
    {args : Nat}
    {ptcb : π}
    (isThread : kernel.threads[t]? = some thread)
    (isOwn : thread.call = .own)
    (notLive : kernel.live ptcb = false)
    (isAfter : after.ptcbTable = { (kernel.ptcbTable.start owner task argl args
      ptcb) with
        threads := (kernel.threads ++ [OldThread.mk owner ptcb .own]).modify t
          fun thread => { thread with call := .own } }) :
    PtcbMoves t kernel.ptcbTable after.ptcbTable := by
  have unjoined := unjoined_of_own isOwn
  have stillThread : (kernel.threads ++
      [OldThread.mk owner ptcb .own])[t]? = some thread :=
    getElem?_append_new isThread
  rw [isAfter, modify_eq_set stillThread]
  exact .tail (.single (.starts owner task argl args ptcb notLive))
    (.goes thread .own stillThread unjoined.notExited unjoined.notJoining rfl
      unjoined.joinsNone)

/-! ## Calls that do not wait for threads -/

theorem ptcbMoves_sysExec
    {call : Option Task}
    {argl : Int}
    {args : Nat}
    {memory : Nat → UInt8}
    {ptcb : π}
    {curproc newproc : Option (Fin limits.maxProc)}
    (isThread : kernel.threads[t]? = some thread)
    (isOwn : thread.call = .own)
    (notLive : kernel.live ptcb = false)
    (ran : kernel.sysExec curproc call argl args memory ptcb =
      .ok (newproc, middle)) :
    PtcbMoves t kernel.ptcbTable
      (middle.returning t (.exec newproc)).ptcbTable := by
  obtain ⟨⟨result, procs⟩, -, isMiddle⟩ := exists_of_bind_eq_ok ran
  cases result with
  | none =>
      cases isMiddle
      exact ptcbMoves_goes isThread (unjoined_of_own isOwn) rfl
  | some pid =>
      cases call with
      | none =>
          cases isMiddle
          exact ptcbMoves_goes isThread (unjoined_of_own isOwn) rfl
      | some task =>
          cases isMiddle
          exact ptcbMoves_starts isThread isOwn notLive rfl

theorem ptcbMoves_sysThreadExit
    {exitval : Int}
    (isThread : kernel.threads[t]? = some thread)
    (unjoined : Unjoined thread .own)
    (same : middle.ptcbTable = kernel.ptcbTable)
    (ran : middle.sysThreadExit t thread.owner thread.ptcb exitval =
      .ok after) :
    PtcbMoves t kernel.ptcbTable after.ptcbTable := by
  have moved : after.ptcbTable = (kernel.ptcbTable.move t thread
      (.exited exitval)).modifyPtcb thread.ptcb fun block =>
        { block with exitval := exitval, exited := true } := by
    rw [← same]
    have isThread' : middle.threads[t]? = some thread := by
      rw [show middle.threads = kernel.threads from
        congrArg PtcbTable.threads same]
      exact isThread
    unfold sysThreadExit at ran
    split_ifs at ran
    obtain ⟨left, isLeft, isAfter⟩ := exists_of_bind_eq_ok ran
    cases isAfter
    unfold endIfLast at isLeft
    split_ifs at isLeft
    · obtain ⟨procs, -, isKernel⟩ := exists_of_bind_eq_ok isLeft
      split_ifs at isKernel
      cases isKernel
      show PtcbTable.mk (middle.threads.modify t _) _ _ _ = _
      rw [modify_eq_set isThread']
      rfl
    · cases isLeft
      show PtcbTable.mk (middle.threads.modify t _) _ _ _ = _
      rw [modify_eq_set isThread']
      rfl
  rw [moved]
  exact .single (.exits thread exitval isThread unjoined.notExited
    unjoined.notJoining)

theorem ptcbMoves_exitLoop
    {exitval : Int}
    (isThread : kernel.threads[t]? = some thread)
    (unjoined : Unjoined thread .own)
    (same : middle.ptcbTable = kernel.ptcbTable)
    (ran : middle.exitLoop t thread.owner thread.ptcb exitval = .ok after) :
    PtcbMoves t kernel.ptcbTable after.ptcbTable := by
  obtain ⟨⟨ended, procs⟩, -, isAfter⟩ := exists_of_bind_eq_ok ran
  simp only at isAfter
  split_ifs at isAfter
  · refine ptcbMoves_sysThreadExit isThread unjoined ?_ isAfter
    exact same
  · cases isAfter
    have exiting : Unjoined thread (.exiting exitval) :=
      ⟨unjoined.notExited, unjoined.notJoining, rfl, by simp⟩
    refine ptcbMoves_goes isThread exiting ?_
    rw [← same, ← show middle.threads = kernel.threads from
      congrArg PtcbTable.threads same]
    rfl

theorem ptcbMoves_waitOutcome
    {call : OldCall limits π}
    (isThread : kernel.threads[t]? = some thread)
    (unjoined : Unjoined thread call)
    (outcome : ProcTable.WaitOutcome limits) :
    PtcbMoves t kernel.ptcbTable
      (kernel.waitOutcome t call outcome).ptcbTable := by
  cases outcome with
  | noChild => exact ptcbMoves_goes isThread unjoined.returns rfl
  | waits => exact ptcbMoves_goes isThread unjoined rfl
  | reaped child exitval procs =>
      exact ptcbMoves_goes isThread unjoined.returns rfl

theorem ptcbMoves_waitAnyLoop
    (isThread : kernel.threads[t]? = some thread)
    (unjoined : Unjoined thread .own)
    (ran : kernel.waitAnyLoop t thread.owner = .ok after) :
    PtcbMoves t kernel.ptcbTable after.ptcbTable := by
  obtain ⟨outcome, -, isAfter⟩ := exists_of_bind_eq_ok ran
  cases isAfter
  exact ptcbMoves_waitOutcome isThread
    ⟨unjoined.notExited, unjoined.notJoining, rfl, by simp⟩ outcome

theorem ptcbMoves_waitChildLoop
    (isThread : kernel.threads[t]? = some thread)
    (unjoined : Unjoined thread .own)
    (child : Fin limits.maxProc) :
    PtcbMoves t kernel.ptcbTable (kernel.waitChildLoop t child).ptcbTable :=
  ptcbMoves_waitOutcome isThread
    ⟨unjoined.notExited, unjoined.notJoining, rfl, by simp⟩ _

/-! ## Joining and detaching -/

omit [DecidableEq π] in
/-- A thread that stays where it is. -/
theorem move_self
    {table : PtcbTable limits π}
    (isThread : table.threads[t]? = some thread) :
    table.move t thread thread.call = table := by
  obtain ⟨inRange, rfl⟩ := List.getElem?_eq_some_iff.mp isThread
  show PtcbTable.mk (table.threads.set t _) _ _ _ = table
  rw [List.set_getElem_self]

/-- The loop of `sys_ThreadJoin`, and what follows it, by a thread that waits in
`table`. -/
theorem ptcbMoves_joinLoop
    {table : PtcbTable limits π}
    {ptcb : π}
    {target : Nat}
    (isThread : table.threads[t]? = some thread)
    (isJoining : thread.call = .joining ptcb target)
    (isTable : ∀ call, { kernel.ptcbTable with
        threads := kernel.threads.modify t fun thread =>
          { thread with call := call } } = table.move t thread call)
    (ran : kernel.joinLoop t ptcb target = .ok after) :
    PtcbMoves t table after.ptcbTable := by
  have blocks : kernel.ptcb = table.ptcb :=
    congrArg PtcbTable.ptcb (isTable .own)
  unfold joinLoop at ran
  simp only at ran
  split_ifs at ran with freed detached exited last
  · cases ran
    rw [blocks] at detached
    have isAfter : (kernel.returning t (.threadJoin none)).ptcbTable =
        table.move t thread .own := isTable .own
    rw [isAfter]
    exact .single (.leaves thread ptcb target isThread isJoining detached)
  · cases ran
    rw [blocks] at detached exited
    have count : (table.ptcb ptcb).refcount - 1 = 0 := by
      rw [← blocks]
      simpa [modifyPtcb] using last
    apply Relation.ReflTransGen.single
    have freed := PtcbTable.Move.frees thread ptcb target isThread isJoining
      (Bool.eq_false_of_not_eq_true detached) exited count
    rw [← isTable .own] at freed
    exact freed
  · cases ran
    rw [blocks] at detached exited
    have count : (table.ptcb ptcb).refcount - 1 ≠ 0 := by
      rw [← blocks]
      simpa [modifyPtcb] using last
    apply Relation.ReflTransGen.single
    have returned := PtcbTable.Move.returns thread ptcb target isThread
      isJoining (Bool.eq_false_of_not_eq_true detached) exited count
    rw [← isTable .own] at returned
    exact returned
  · cases ran
    have isAfter : (kernel.goto t (.joining ptcb target)).ptcbTable = table := by
      rw [← move_self isThread, isJoining]
      exact isTable _
    rw [isAfter]

/-- The node that `findPtcb` finds. -/
theorem exists_of_findPtcb
    {curproc : Fin limits.maxProc}
    {tid : Option π}
    {ptcb : π}
    (found : kernel.findPtcb curproc tid = .ok (some ptcb)) :
    ∃ node, kernel.ptcbLists.rlistFind (kernel.threads.length + 1)
      (.list curproc) (some ptcb) none = some (some node) := by
  unfold findPtcb at found
  cases searched : kernel.ptcbLists.rlistFind (kernel.threads.length + 1)
      (.list curproc) tid none with
  | none =>
      rw [searched] at found
      cases found
  | some result =>
      rw [searched] at found
      cases result with
      | none => cases found
      | some node =>
          have isKey := RlHeap.rlistFindLoop_key searched
          have isTid : tid = some ptcb := isKey.symm.trans (Except.ok.inj found)
          rw [isTid] at searched
          exact ⟨node, searched⟩

/-- `sys_ThreadJoin` -/
theorem ptcbMoves_sysThreadJoin
    {tid : Option π}
    (isThread : kernel.threads[t]? = some thread)
    (isOwn : thread.call = .own)
    (ran : kernel.sysThreadJoin t thread.owner thread.ptcb tid = .ok after) :
    PtcbMoves t kernel.ptcbTable after.ptcbTable := by
  have unjoined := unjoined_of_own isOwn
  unfold sysThreadJoin at ran
  split_ifs at ran with isSelf
  · cases ran
    exact ptcbMoves_goes isThread unjoined rfl
  obtain ⟨found, isFound, isAfter⟩ := exists_of_bind_eq_ok ran
  cases found with
  | none =>
      cases isAfter
      exact ptcbMoves_goes isThread unjoined rfl
  | some ptcb =>
      simp only at isAfter
      split_ifs at isAfter with freed detached
      · cases isAfter
        exact ptcbMoves_goes isThread unjoined rfl
      · obtain ⟨node, searched⟩ := exists_of_findPtcb isFound
        let joining : OldCall limits π :=
          .joining ptcb (kernel.ptcb ptcb).thread
        have isBegun : ((kernel.ptcbTable.move t thread joining).modifyPtcb ptcb
            fun block => { block with
              refcount := block.refcount + 1 }).threads[t]? =
            some { thread with call := joining } :=
          (PtcbTable.getElem?_move isThread t).trans (if_pos rfl)
        refine .head (.begins thread node ptcb isThread unjoined.notExited
          unjoined.notJoining searched
            (Bool.eq_false_of_not_eq_true detached)) ?_
        refine ptcbMoves_joinLoop isBegun ?_ ?_ isAfter
        · simp [joining, modifyPtcb]
        · intro call
          show PtcbTable.mk (kernel.threads.modify t _) _ _ _ =
            PtcbTable.mk ((kernel.threads.set t _).set t _) _ _ _
          rw [List.set_set, modify_eq_set isThread]
          rfl

/-- `sys_ThreadDetach` -/
theorem ptcbMoves_sysThreadDetach
    {tid : Option π}
    (isThread : kernel.threads[t]? = some thread)
    (isOwn : thread.call = .own)
    (ran : kernel.sysThreadDetach t thread.owner tid = .ok after) :
    PtcbMoves t kernel.ptcbTable after.ptcbTable := by
  have unjoined := unjoined_of_own isOwn
  obtain ⟨found, -, isAfter⟩ := exists_of_bind_eq_ok ran
  cases found with
  | none =>
      cases isAfter
      exact ptcbMoves_goes isThread unjoined rfl
  | some ptcb =>
      simp only at isAfter
      split_ifs at isAfter with freed exited
      · cases isAfter
        exact ptcbMoves_goes isThread unjoined rfl
      · cases isAfter
        refine .head (.detaches ptcb (Bool.eq_false_of_not_eq_true exited)) ?_
        show PtcbMoves t _ (PtcbTable.mk (kernel.threads.modify t _) _ _ _)
        rw [modify_eq_set isThread]
        exact .single (.goes thread .own isThread unjoined.notExited
          unjoined.notJoining rfl unjoined.joinsNone)

/-- A waiting call goes on. -/
theorem ptcbMoves_resume
    (isThread : kernel.threads[t]? = some thread)
    (waiting : thread.call.isWaiting = true)
    (ran : kernel.threadStep t thread (.resume t) = .ok after) :
    PtcbMoves t kernel.ptcbTable after.ptcbTable := by
  unfold threadStep at ran
  have unjoined : (∀ ptcb target, thread.call ≠ .joining ptcb target) →
      thread.call.isExited = false → Unjoined thread .own :=
    fun notJoining notExited => ⟨notExited, notJoining, rfl, by simp⟩
  cases called : thread.call with
  | own =>
      rw [called] at waiting
      cases waiting
  | waitsFor child =>
      rw [called] at ran
      cases ran
      exact ptcbMoves_waitChildLoop isThread
        (unjoined (by simp [called]) (by rw [called]; rfl)) child
  | waitsAny =>
      rw [called] at ran
      exact ptcbMoves_waitAnyLoop isThread
        (unjoined (by simp [called]) (by rw [called]; rfl)) ran
  | exiting exitval =>
      rw [called] at ran
      exact ptcbMoves_exitLoop isThread
        (unjoined (by simp [called]) (by rw [called]; rfl)) rfl ran
  | joining ptcb target =>
      rw [called] at ran
      refine ptcbMoves_joinLoop isThread called ?_ ran
      intro call
      rw [modify_eq_set isThread]
      rfl
  | streaming fcb =>
      rw [called] at ran
      cases ran
      exact ptcbMoves_goes isThread
        (unjoined (by simp [called]) (by rw [called]; rfl)) rfl
  | exited exitval =>
      rw [called] at waiting
      cases waiting

/-- Every step is a sequence of moves. -/
theorem ptcbMoves_of_step
    {action : OldAction π}
    (isThread : kernel.threads[action.thread]? = some thread)
    (takes : kernel.Takes thread action)
    (ran : kernel.step action = .ok after) :
    PtcbMoves action.thread kernel.ptcbTable after.ptcbTable := by
  unfold step at ran
  rw [isThread] at ran
  simp only at ran
  have own : thread.call = .own → Unjoined thread .own := unjoined_of_own
  have opened : ∀ {streams}, thread.call = .own →
      kernel.returnOpened action.thread streams = .ok after →
        PtcbMoves action.thread kernel.ptcbTable after.ptcbTable := by
    intro streams isOwn returned
    obtain ⟨result, -, isAfter⟩ := exists_of_bind_eq_ok returned
    cases isAfter
    exact ptcbMoves_goes isThread (own isOwn) rfl
  cases action with
  | exec t call argl args memory ptcb =>
      obtain ⟨⟨newproc, middle⟩, executed, isAfter⟩ := exists_of_bind_eq_ok ran
      cases isAfter
      exact ptcbMoves_sysExec isThread takes.1 takes.2 executed
  | exit t exitval =>
      change kernel.sysExit t thread.owner thread.ptcb exitval = .ok after at ran
      unfold sysExit at ran
      simp only at ran
      split_ifs at ran
      · refine ptcbMoves_exitLoop isThread (own takes) ?_ ran
        rfl
      · refine ptcbMoves_sysThreadExit isThread (own takes) ?_ ran
        rfl
  | waitChild t cpid =>
      change kernel.sysWaitChild t thread.owner cpid = .ok after at ran
      unfold sysWaitChild at ran
      split_ifs at ran
      · obtain ⟨found, -, isAfter⟩ := exists_of_bind_eq_ok ran
        cases found with
        | none =>
            cases isAfter
            exact ptcbMoves_goes isThread (own takes) rfl
        | some child =>
            cases isAfter
            exact ptcbMoves_waitChildLoop isThread (own takes) child
      · exact ptcbMoves_waitAnyLoop isThread (own takes) ran
  | createThread t task argl args ptcb =>
      cases ran
      cases task with
      | none => exact ptcbMoves_goes isThread (own takes.1) rfl
      | some task => exact ptcbMoves_starts isThread takes.1 takes.2 rfl
  | threadExit t exitval =>
      exact ptcbMoves_sysThreadExit isThread (own takes) rfl ran
  | threadJoin t tid => exact ptcbMoves_sysThreadJoin isThread takes ran
  | threadDetach t tid => exact ptcbMoves_sysThreadDetach isThread takes ran
  | openNull t => exact opened takes ran
  | openTerminal t termno => exact opened takes ran
  | openInfo t => exact opened takes ran
  | pipe t => exact opened takes ran
  | close t fd =>
      cases ran
      exact ptcbMoves_goes isThread (own takes) rfl
  | dup2 t oldfd newfd =>
      cases ran
      exact ptcbMoves_goes isThread (own takes) rfl
  | startTransfer t fd =>
      change Except.ok (kernel.beginTransfer t
        (kernel.files.startTransfer thread.owner fd)) = .ok after at ran
      cases started : kernel.files.startTransfer thread.owner fd with
      | mk found files =>
          rw [started] at ran
          cases found with
          | none =>
              cases ran
              exact ptcbMoves_goes isThread (own takes) rfl
          | some fcb =>
              cases ran
              have unjoined := own takes
              exact ptcbMoves_goes isThread
                (⟨unjoined.notExited, unjoined.notJoining, rfl, by simp⟩ :
                  Unjoined thread (.streaming fcb)) rfl
  | resume t => exact ptcbMoves_resume isThread takes ran

/-! ## Runs -/

/-- The PTCBs when the scheduler starts. -/
theorem Booted.ptcbs
    {start : OldKernel limits π}
    (booted : Booted start) :
    ∃ lists, start.ptcbTable.Sound lists := by
  obtain ⟨ports, task, argl, args, ptcb, system, init, systemArgs, initArgs,
    -, -, -, -, rfl⟩ := booted
  have empty : (initial limits π ports).ptcbTable.Sound fun _ => [] := by
    have ready : ∀ pid, (initial limits π ports).ptcbLists (.list pid) =
        { obj := none, prev := .list pid, next := .list pid } := by
      intro pid
      exact RlHeap.rlnodeInit_foldl_of_mem _ (fun _ => none)
        (oldPtcbLayout limits π).sentinel_injective (List.mem_finRange pid)
    constructor
    case rings =>
      apply Layout.Represents.of_singletons
      · intro pid
        constructor
        · show ((initial limits π ports).ptcbLists (.list pid)).next = .list pid
          rw [ready]
        · show ((initial limits π ports).ptcbLists (.list pid)).prev = .list pid
          rw [ready]
      · intro ptcb isLive
        cases isLive
    case key =>
      intro ptcb isLive
      cases isLive
    case listed =>
      intro ptcb isLive
      cases isLive
    case thread =>
      intro pid ptcb member
      cases member
    case own =>
      intro t thread isThread
      cases isThread
    case joins =>
      intro thread member
      cases member
    case refcount =>
      intro ptcb isLive
      cases isLive
  exact ⟨_, empty.start rfl init (some task) argl args⟩

theorem Occurs.ptcbs
    (occurs : Occurs kernel) :
    ∃ lists, kernel.ptcbTable.Sound lists := by
  refine occurs.invariant
    (motive := fun kernel => ∃ lists, kernel.ptcbTable.Sound lists)
    Booted.ptcbs ?_
  intro before after action ⟨lists, sound⟩ enabled stepped
  obtain ⟨thread, isThread, takes, -⟩ := exists_thread enabled
  exact sound.of_moves (ptcbMoves_of_step isThread takes stepped)

end OldKernel
end TinierOS
