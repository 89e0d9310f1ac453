import TinierOS.Old.FileSteps
import TinierOS.Old.ProcRuns

/-!
# What a step does to the file table of the old kernel

Every step of a thread makes one of a few changes to the file table.
-/

namespace TinierOS

variable {limits : Limits} {π : Type}

namespace OldThread

/-- The thread is in the `Read` or `Write` function of the FCB. -/
def streams (thread : OldThread limits π) (fcb : Fin limits.maxFiles) : Bool :=
  match thread.call with
  | .streaming other => other = fcb
  | _ => false

end OldThread

namespace OldKernel

/-- The number of threads in the `Read` or `Write` function of an FCB. -/
def streaming
    (threads : List (OldThread limits π))
    (fcb : Fin limits.maxFiles) : Nat :=
  threads.countP fun thread => thread.streams fcb

variable {kernel after : OldKernel limits π}
variable {threads : List (OldThread limits π)}
variable {thread : OldThread limits π}
variable {call : OldCall limits π}
variable {t : Nat}
variable {fcb : Fin limits.maxFiles}

/-! ## Counting calls -/

/-- A call that is in no `Read` or `Write` function. -/
def Streamless (call : OldCall limits π) : Prop :=
  ∀ fcb, call ≠ .streaming fcb

theorem Streamless.streams
    (streamless : Streamless thread.call)
    (fcb : Fin limits.maxFiles) :
    thread.streams fcb = false := by
  unfold OldThread.streams
  split
  · exact absurd ‹_› (streamless _)
  · rfl

/-- A thread goes from one call to another. -/
theorem streaming_set
    (isThread : threads[t]? = some thread)
    (before : Streamless thread.call)
    (after : Streamless call) :
    streaming (threads.set t { thread with call := call }) =
      streaming threads := by
  funext fcb
  have counted := countP_set_add isThread (fun thread => thread.streams fcb)
    { thread with call := call }
  have streamless : Streamless ({ thread with call := call } :
      OldThread limits π).call := after
  rw [before.streams, streamless.streams] at counted
  exact Nat.add_right_cancel counted

/-- A thread begins to read or to write. -/
theorem streaming_set_start
    (isThread : threads[t]? = some thread)
    (before : Streamless thread.call)
    (fcb : Fin limits.maxFiles) :
    streaming (threads.set t { thread with call := .streaming fcb }) =
      Function.update (streaming threads) fcb (streaming threads fcb + 1) := by
  funext other
  have counted := countP_set_add isThread (fun thread => thread.streams other)
    { thread with call := .streaming fcb }
  rw [before.streams] at counted
  by_cases same : other = fcb
  · subst same
    rw [Function.update_self]
    simpa [streaming, OldThread.streams] using counted
  · rw [Function.update_of_ne same]
    simpa [streaming, OldThread.streams, Ne.symm same] using counted

/-- A thread has read or written. -/
theorem streaming_set_end
    (isThread : threads[t]? = some thread)
    (isStreaming : thread.call = .streaming fcb) :
    streaming (threads.set t { thread with call := .own }) =
        Function.update (streaming threads) fcb (streaming threads fcb - 1) ∧
      streaming threads fcb ≠ 0 := by
  have isIn : thread.streams fcb = true := by
    simp [OldThread.streams, isStreaming]
  have positive : 0 < streaming threads fcb :=
    List.countP_pos_iff.mpr ⟨thread, List.mem_of_getElem? isThread, isIn⟩
  refine ⟨?_, Nat.ne_of_gt positive⟩
  funext other
  have counted := countP_set_add isThread (fun thread => thread.streams other)
    { thread with call := .own }
  by_cases same : other = fcb
  · subst same
    have isOut : ({ thread with call := .own } :
        OldThread limits π).streams other = false := rfl
    rw [isIn, isOut] at counted
    rw [Function.update_self]
    exact Nat.eq_sub_of_add_eq counted
  · rw [Function.update_of_ne same]
    simpa [streaming, OldThread.streams, isStreaming, Ne.symm same] using counted

/-- A new thread is in its own code. -/
theorem streaming_append
    (threads : List (OldThread limits π))
    (owner : Fin limits.maxProc)
    (ptcb : π) :
    streaming (threads ++ [OldThread.mk owner ptcb .own]) =
      streaming threads := by
  funext fcb
  rw [streaming, List.countP_append, List.countP_singleton]
  rfl

end OldKernel

/-! ## Processes that stay alive -/

namespace ProcTable

variable {table after : ProcTable limits}
variable {curproc pid : Fin limits.maxProc}

/-- Reaping leaves the living processes alive. -/
theorem cleanupZombie_alive
    {child : Fin limits.maxProc}
    (notAlive : table.pstate child ≠ .alive)
    (isAlive : table.pstate pid = .alive) :
    (table.cleanupZombie child).2.pstate pid = .alive := by
  rw [cleanupZombie_pstate, Function.update_of_ne]
  · exact isAlive
  · rintro rfl
    exact notAlive isAlive

theorem ExitPath.alive
    {stored : Option Int}
    (path : ExitPath curproc stored table after)
    (isAlive : table.pstate pid = .alive) :
    after.pstate pid = .alive := by
  induction path with
  | refl => exact isAlive
  | @store table after exitval path inductionHypothesis =>
      have same : SameTree table (table.modifyPcb curproc fun block =>
          { block with exitval := exitval }) :=
        sameTree_modifyPcb table curproc rfl rfl
      apply inductionHypothesis
      rw [same.pstate]
      exact isAlive
  | @reap table after child exitval reaped polled path inductionHypothesis =>
      obtain ⟨isZombie, -, rfl⟩ := zombie_of_pollAny polled
      exact inductionHypothesis
        (cleanupZombie_alive (by simp [isZombie]) isAlive)

end ProcTable

namespace OldKernel

variable {kernel : OldKernel limits π}
variable {thread : OldThread limits π}
variable {t : Nat}

/-- Only the process of the thread may end. -/
theorem ProcTurn.alive
    {stored : Option Int}
    {after : ProcTable limits}
    {changed : List (OldThread limits π)}
    {pid : Fin limits.maxProc}
    (turn : ProcTurn kernel t thread stored after changed)
    (isAlive : kernel.procs.pstate pid = .alive)
    (different : pid ≠ thread.owner) :
    after.pstate pid = .alive := by
  have leave : ∀ {procs : ProcTable limits}, procs.pstate pid = .alive →
      (procs.leave thread.owner).pstate pid = .alive := by
    intro procs stays
    rw [(ProcTable.sameTree_leave procs thread.owner).pstate]
    exact stays
  have created : ∀ new call argl args, (kernel.procs.created new
      (ProcTable.newParent new (some thread.owner)) call argl args).pstate pid =
        .alive := by
    intro new call argl args
    rw [ProcTable.created_pstate, Function.update_apply]
    split_ifs
    · rfl
    · exact isAlive
  cases turn with
  | goes call goesOn child notExiting => exact isAlive
  | createsEmpty newproc argl args isFree => exact created newproc ..
  | creates newproc task argl args ptcb isFree =>
      rw [(ProcTable.sameTree_enter _ newproc).pstate]
      exact created newproc ..
  | spawns ptcb =>
      rw [(ProcTable.sameTree_enter _ thread.owner).pstate]
      exact isAlive
  | reapsChild child isChild notAlive =>
      exact ProcTable.cleanupZombie_alive notAlive isAlive
  | reapsAny child exitval procs polled =>
      obtain ⟨isZombie, -, rfl⟩ := ProcTable.zombie_of_pollAny polled
      exact ProcTable.cleanupZombie_alive (by simp [isZombie]) isAlive
  | exitWaits stored exitval procs isInit path =>
      exact path.alive isAlive
  | leaves stored exitval procs path others =>
      exact leave (path.alive isAlive)
  | ends stored exitval procs result path last ended =>
      rw [(ProcTable.endProcess_lives ended).1, Function.update_of_ne different]
      exact leave (path.alive isAlive)

/-! ## Turns -/

/-- What a step of a thread of process `owner` may do to the file table and to the
numbers of calls of `Read` and `Write` in progress. -/
inductive FileTurn
    (owner : Fin limits.maxProc)
    (files : FileTable limits)
    (io : Fin limits.maxFiles → Nat) :
    FileTable limits → (Fin limits.maxFiles → Nat) → Prop
  | keeps : FileTurn owner files io files io
  | opens
      {after : FileTable limits}
      {fids : Option (List (Fin limits.maxFileid))}
      (num : Nat)
      (found : Bool)
      (opened : files.openStreams owner num found = .ok (fids, after)) :
      FileTurn owner files io after io
  | closes (fd : Int) : FileTurn owner files io (files.sysClose owner fd) io
  | duplicates
      (oldfd newfd : Int) :
      FileTurn owner files io (files.sysDup2 owner oldfd newfd).2 io
  | starts
      {after : FileTable limits}
      {fd : Int}
      (fcb : Fin limits.maxFiles)
      (started : files.startTransfer owner fd = (some fcb, after)) :
      FileTurn owner files io after (Function.update io fcb (io fcb + 1))
  | ends
      (fcb : Fin limits.maxFiles)
      (inUse : io fcb ≠ 0) :
      FileTurn owner files io (files.FCBDecref fcb)
        (Function.update io fcb (io fcb - 1))

/-- A turn keeps the counts, and changes only the descriptors of its process. -/
theorem FileTurn.sound
    {owner : Fin limits.maxProc}
    {files after : FileTable limits}
    {io ioAfter : Fin limits.maxFiles → Nat}
    (turn : FileTurn owner files io after ioAfter)
    (sound : files.Sound fun fcb => files.held fcb + io fcb) :
    after.Sound (fun fcb => after.held fcb + ioAfter fcb) ∧
    ∀ place : Fin limits.maxProc × Fin limits.maxFileid, place.1 ≠ owner →
      after.fidt place = files.fidt place := by
  cases turn with
  | keeps => exact ⟨sound, fun _ _ => rfl⟩
  | opens num found opened =>
      obtain ⟨result, final, ran, soundAfter, others, -, -⟩ :=
        sound.openStreams owner num found
      rw [ran] at opened
      cases opened
      exact ⟨soundAfter, others⟩
  | closes fd => exact sound.sysClose owner fd
  | duplicates oldfd newfd => exact sound.sysDup2 owner oldfd newfd
  | starts fcb started =>
      obtain ⟨soundAfter, fidt⟩ := sound.startTransfer started
      refine ⟨soundAfter, fun place _ => ?_⟩
      rw [fidt]
  | ends fcb inUse =>
      refine ⟨sound.endTransfer inUse, fun place _ => ?_⟩
      rw [FileTable.FCBDecref_fidt]

/-- A turn leaves the streams that are in use at their FCBs. -/
theorem FileTurn.stream
    {owner : Fin limits.maxProc}
    {files after : FileTable limits}
    {io ioAfter : Fin limits.maxFiles → Nat}
    {fcb : Fin limits.maxFiles}
    (turn : FileTurn owner files io after ioAfter)
    (sound : files.Sound fun fcb => files.held fcb + io fcb)
    (isUsed : files.held fcb + io fcb ≠ 0) :
    (after.fcb fcb).stream = (files.fcb fcb).stream := by
  cases turn with
  | keeps => rfl
  | opens num found opened =>
      obtain ⟨result, final, ran, -, -, stream, -⟩ :=
        sound.openStreams owner num found
      rw [ran] at opened
      cases opened
      exact stream fcb isUsed
  | closes fd => exact files.sysClose_stream owner fd fcb
  | duplicates oldfd newfd => exact files.sysDup2_stream owner oldfd newfd fcb
  | @starts _ fd started begun =>
      have stream := files.startIO_stream owner fd fcb
      rw [begun] at stream
      exact stream
  | ends ended inUse => exact files.FCBDecref_stream ended fcb

/-- What a step does to the file table and to the processes with descriptors. -/
inductive FileStep
    (kernel after : OldKernel limits π)
    (thread : OldThread limits π) : Prop
  /-- The process of the thread stays alive. -/
  | turns
      (turn : FileTurn thread.owner kernel.files (streaming kernel.threads)
        after.files (streaming after.threads))
      (stays : after.procs.pstate thread.owner = .alive)
  /-- `sys_Exec` -/
  | inherits
      (newproc : Fin limits.maxProc)
      (isFree : kernel.procs.freelist = some newproc)
      (isAlive : after.procs.pstate newproc = .alive)
      (files : after.files = FileTable.inheritFiles thread.owner newproc
        (List.finRange limits.maxFileid) kernel.files)
      (io : streaming after.threads = streaming kernel.threads)
      (stays : after.procs.pstate thread.owner = .alive)
  /-- The process ends. -/
  | exits
      (files : after.files = FileTable.closeFiles thread.owner
        (List.finRange limits.maxFileid) kernel.files)
      (io : streaming after.threads = streaming kernel.threads)

/-- The FCBs count the descriptors and the calls of `Read` and `Write` in
progress, and only living processes have descriptors. -/
structure FilesSound (kernel : OldKernel limits π) : Prop where
  sound : kernel.files.Sound fun fcb =>
    kernel.files.held fcb + streaming kernel.threads fcb
  alive : ∀ {pid fid}, kernel.files.fidt (pid, fid) ≠ none →
    kernel.procs.pstate pid = .alive

/-- Every step keeps the counts. -/
theorem FilesSound.step
    {after : OldKernel limits π}
    (holds : kernel.FilesSound)
    (living : Living kernel.procs kernel.threads)
    (others : ∀ {pid}, kernel.procs.pstate pid = .alive → pid ≠ thread.owner →
      after.procs.pstate pid = .alive)
    (step : FileStep kernel after thread) :
    after.FilesSound := by
  cases step with
  | turns turn stays =>
      obtain ⟨soundAfter, same⟩ := turn.sound holds.sound
      refine ⟨soundAfter, ?_⟩
      intro pid fid inUse
      by_cases isOwner : pid = thread.owner
      · rw [isOwner]
        exact stays
      · rw [same (pid, fid) isOwner] at inUse
        exact others (holds.alive inUse) isOwner
  | inherits newproc isFree isAlive files io stays =>
      obtain ⟨children, exited, frees, tree⟩ := living.sound.tree
      have wasFree : kernel.procs.pstate newproc = .free := tree.freelist_free isFree
      have empty : ∀ fid ∈ List.finRange limits.maxFileid,
          kernel.files.fidt (newproc, fid) = none := by
        intro fid _
        by_contra inUse
        have wasAlive := holds.alive inUse
        rw [wasFree] at wasAlive
        cases wasAlive
      obtain ⟨soundAfter, same⟩ := holds.sound.inheritFiles thread.owner
        (List.nodup_finRange _) empty
      rw [← files] at soundAfter same
      rw [← io] at soundAfter
      refine ⟨soundAfter, ?_⟩
      intro pid fid inUse
      by_cases isOwner : pid = thread.owner
      · rw [isOwner]
        exact stays
      · by_cases isNew : pid = newproc
        · rw [isNew]
          exact isAlive
        · rw [same (pid, fid) isNew] at inUse
          exact others (holds.alive inUse) isOwner
  | exits files io =>
      obtain ⟨soundAfter, fidt⟩ := holds.sound.closeFiles thread.owner
        (List.finRange limits.maxFileid)
      rw [← files] at soundAfter fidt
      rw [← io] at soundAfter
      refine ⟨soundAfter, ?_⟩
      intro pid fid inUse
      rw [fidt] at inUse
      split_ifs at inUse with isOwner
      · exact absurd rfl inUse
      · refine others (holds.alive inUse) ?_
        rintro rfl
        exact isOwner ⟨rfl, List.mem_finRange fid⟩

/-- Every step leaves the streams that are in use at their FCBs. -/
theorem FilesSound.stream
    {after : OldKernel limits π}
    {fcb : Fin limits.maxFiles}
    (holds : kernel.FilesSound)
    (step : FileStep kernel after thread)
    (isUsed : kernel.files.held fcb + streaming kernel.threads fcb ≠ 0) :
    (after.files.fcb fcb).stream = (kernel.files.fcb fcb).stream := by
  cases step with
  | turns turn stays => exact turn.stream holds.sound isUsed
  | inherits newproc isFree isAlive files io stays =>
      rw [files]
      exact FileTable.inheritFiles_stream ..
  | exits files io =>
      rw [files]
      exact FileTable.closeFiles_stream ..

/-! ## The turn that a step makes -/

variable {middle after : OldKernel limits π}
variable {call : OldCall limits π}

/-- A thread that goes on keeps its process alive. -/
theorem owner_alive
    {procs : ProcTable limits}
    {threads : List (OldThread limits π)}
    (living : Living procs (threads.set t { thread with call := call }))
    (isThread : threads[t]? = some thread)
    (goesOn : call.isExited = false) :
    procs.pstate thread.owner = .alive := by
  have stays := List.getElem?_set_self (a := { thread with call := call })
    (List.getElem?_eq_some_iff.mp isThread).1
  have positive := running_pos (List.mem_of_getElem? stays) goesOn
  exact living.sound.alive positive

/-- A step that leaves the numbers of calls of `Read` and `Write` alone. -/
theorem fileStep_goes
    (isThread : kernel.threads[t]? = some thread)
    (livingAfter : Living after.procs after.threads)
    (before : Streamless thread.call)
    (call : OldCall limits π)
    (goesOn : call.isExited = false)
    (streamless : Streamless call)
    (threads : after.threads =
      kernel.threads.modify t fun thread => { thread with call := call })
    (turn : FileTurn thread.owner kernel.files (streaming kernel.threads)
      after.files (streaming kernel.threads)) :
    FileStep kernel after thread := by
  rw [modify_eq_set isThread] at threads
  rw [threads] at livingAfter
  refine .turns ?_ (owner_alive livingAfter isThread goesOn)
  rw [threads, streaming_set isThread before streamless]
  exact turn

/-- A step that returns to the thread's own code. -/
theorem fileStep_returning
    (isThread : kernel.threads[t]? = some thread)
    (livingAfter : Living after.procs after.threads)
    (before : Streamless thread.call)
    (threads : after.threads =
      kernel.threads.modify t fun thread => { thread with call := .own })
    (turn : FileTurn thread.owner kernel.files (streaming kernel.threads)
      after.files (streaming kernel.threads)) :
    FileStep kernel after thread :=
  fileStep_goes isThread livingAfter before .own rfl (by simp [Streamless])
    threads turn

/-- A call that opens streams. -/
theorem fileStep_returnOpened
    {num : Nat}
    {found : Bool}
    (isThread : kernel.threads[t]? = some thread)
    (livingAfter : Living after.procs after.threads)
    (before : Streamless thread.call)
    (ran : kernel.returnOpened t
      (kernel.files.openStreams thread.owner num found) = .ok after) :
    FileStep kernel after thread := by
  obtain ⟨⟨fids, files⟩, opened, isAfter⟩ := exists_of_bind_eq_ok ran
  cases isAfter
  exact fileStep_returning isThread livingAfter before rfl (.opens num found opened)

/-- What a call of `sys_WaitChild` does before it waits or returns. -/
theorem fileStep_waitOutcome
    {outcome : ProcTable.WaitOutcome limits}
    (isThread : kernel.threads[t]? = some thread)
    (livingAfter : Living (kernel.waitOutcome t call outcome).procs
      (kernel.waitOutcome t call outcome).threads)
    (before : Streamless thread.call)
    (goesOn : call.isExited = false)
    (streamless : Streamless call) :
    FileStep kernel (kernel.waitOutcome t call outcome) thread := by
  cases outcome with
  | noChild => exact fileStep_returning isThread livingAfter before rfl .keeps
  | waits =>
      exact fileStep_goes isThread livingAfter before call goesOn streamless rfl
        .keeps
  | reaped child exitval procs =>
      exact fileStep_returning isThread livingAfter before rfl .keeps

theorem fileStep_waitAnyLoop
    (isThread : kernel.threads[t]? = some thread)
    (livingAfter : Living after.procs after.threads)
    (before : Streamless thread.call)
    (ran : kernel.waitAnyLoop t thread.owner = .ok after) :
    FileStep kernel after thread := by
  obtain ⟨outcome, -, isAfter⟩ := exists_of_bind_eq_ok ran
  cases isAfter
  exact fileStep_waitOutcome isThread livingAfter before rfl
    (by simp [Streamless])

theorem fileStep_waitChildLoop
    {child : Fin limits.maxProc}
    (isThread : kernel.threads[t]? = some thread)
    (livingAfter : Living (kernel.waitChildLoop t child).procs
      (kernel.waitChildLoop t child).threads)
    (before : Streamless thread.call) :
    FileStep kernel (kernel.waitChildLoop t child) thread :=
  fileStep_waitOutcome isThread livingAfter before rfl (by simp [Streamless])

theorem fileStep_waitChild
    {cpid : Int}
    (isThread : kernel.threads[t]? = some thread)
    (livingAfter : Living after.procs after.threads)
    (before : Streamless thread.call)
    (ran : kernel.sysWaitChild t thread.owner cpid = .ok after) :
    FileStep kernel after thread := by
  unfold sysWaitChild at ran
  split_ifs at ran
  · obtain ⟨found, -, isAfter⟩ := exists_of_bind_eq_ok ran
    cases found with
    | none =>
        cases isAfter
        exact fileStep_returning isThread livingAfter before rfl .keeps
    | some child =>
        cases isAfter
        exact fileStep_waitChildLoop isThread livingAfter before
  · exact fileStep_waitAnyLoop isThread livingAfter before ran

variable [DecidableEq π]

/-- `sys_Exec` -/
theorem fileStep_exec
    {task : Option Task}
    {argl : Int}
    {args : Nat}
    {memory : Nat → UInt8}
    {ptcb : π}
    {newproc : Option (Fin limits.maxProc)}
    (isThread : kernel.threads[t]? = some thread)
    (livingAfter : Living (middle.returning t (.exec newproc)).procs
      (middle.returning t (.exec newproc)).threads)
    (before : Streamless thread.call)
    (ran : kernel.sysExec (some thread.owner) task argl args memory ptcb =
      .ok (newproc, middle)) :
    FileStep kernel (middle.returning t (.exec newproc)) thread := by
  obtain ⟨⟨result, procs⟩, executed, isMiddle⟩ := exists_of_bind_eq_ok ran
  rcases ProcTable.exec_eq_ok executed with
    ⟨-, rfl, rfl⟩ | ⟨pid, bytes, isFree, rfl, -, -, rfl⟩
  · cases isMiddle
    exact fileStep_returning isThread livingAfter before rfl .keeps
  have created : ∀ procs : ProcTable limits, procs = kernel.procs.created pid
      (ProcTable.newParent pid (some thread.owner)) task argl bytes →
      procs.pstate pid = .alive := by
    rintro procs rfl
    rw [ProcTable.created_pstate, Function.update_self]
  -- The threads and the state of the new process, whether it has a task or not.
  obtain ⟨stays, io, isAlive, files⟩ :
      (middle.returning t (.exec newproc)).procs.pstate thread.owner = .alive ∧
      streaming (middle.returning t (.exec newproc)).threads =
        streaming kernel.threads ∧
      (middle.returning t (.exec newproc)).procs.pstate pid = .alive ∧
      (middle.returning t (.exec newproc)).files =
        kernel.files.newFiles pid
          (ProcTable.newParent pid (some thread.owner)) := by
    cases task with
    | none =>
        cases isMiddle
        have threads := modify_eq_set isThread .own
        change Living _ (kernel.threads.modify t _) at livingAfter
        rw [threads] at livingAfter
        refine ⟨owner_alive livingAfter isThread rfl, ?_, created _ rfl, rfl⟩
        show streaming (kernel.threads.modify t _) = _
        rw [threads]
        exact streaming_set isThread before (by simp [Streamless])
    | some task =>
        cases isMiddle
        have isOld : (kernel.threads ++ [OldThread.mk pid ptcb .own])[t]? =
            some thread := getElem?_append_new isThread
        have threads := modify_eq_set isOld .own
        change Living _ ((kernel.threads ++
          [OldThread.mk pid ptcb .own]).modify t _) at livingAfter
        rw [threads] at livingAfter
        refine ⟨owner_alive livingAfter isOld rfl, ?_, ?_, rfl⟩
        · show streaming ((kernel.threads ++
            [OldThread.mk pid ptcb .own]).modify t _) = _
          rw [threads, streaming_set isOld before (by simp [Streamless])]
          exact streaming_append kernel.threads pid ptcb
        · show (ProcTable.enter _ pid).pstate pid = .alive
          rw [(ProcTable.sameTree_enter _ pid).pstate]
          exact created _ rfl
  cases inherits : ProcTable.newParent pid (some thread.owner) with
  | none =>
      rw [inherits] at files
      refine .turns ?_ stays
      rw [io, files]
      exact .keeps
  | some parent =>
      obtain rfl : parent = thread.owner := by
        unfold ProcTable.newParent at inherits
        split_ifs at inherits
        exact (Option.some.inj inherits).symm
      rw [inherits] at files
      exact .inherits pid isFree isAlive files io stays

/-- `sys_CreateThread` -/
theorem fileStep_createThread
    (isThread : kernel.threads[t]? = some thread)
    (before : Streamless thread.call)
    (task : Option Task)
    (argl : Int)
    (args : Nat)
    (ptcb : π)
    (reply : OldReply limits π)
    (livingAfter : Living
      ((kernel.sysCreateThread thread.owner task argl args ptcb).2.returning t
        reply).procs
      ((kernel.sysCreateThread thread.owner task argl args ptcb).2.returning t
        reply).threads) :
    FileStep kernel
      ((kernel.sysCreateThread thread.owner task argl args ptcb).2.returning t
        reply) thread := by
  cases task with
  | none => exact fileStep_returning isThread livingAfter before rfl .keeps
  | some task =>
      have isOld : (kernel.threads ++
          [OldThread.mk thread.owner ptcb .own])[t]? = some thread :=
        getElem?_append_new isThread
      have threads := modify_eq_set isOld .own
      change Living _ ((kernel.threads ++
        [OldThread.mk thread.owner ptcb .own]).modify t _) at livingAfter
      rw [threads] at livingAfter
      refine .turns ?_ (owner_alive livingAfter isOld rfl)
      show FileTurn thread.owner kernel.files (streaming kernel.threads)
        kernel.files (streaming ((kernel.threads ++
          [OldThread.mk thread.owner ptcb .own]).modify t _))
      rw [threads, streaming_set isOld before (by simp [Streamless]),
        streaming_append]
      exact .keeps

/-- `sys_ThreadExit`, after what `sys_Exit` may do before it. -/
theorem fileStep_sysThreadExit
    {exitval : Int}
    (isThread : kernel.threads[t]? = some thread)
    (livingAfter : Living after.procs after.threads)
    (before : Streamless thread.call)
    (threads : middle.threads = kernel.threads)
    (files : middle.files = kernel.files)
    (ran : middle.sysThreadExit t thread.owner thread.ptcb exitval =
      .ok after) :
    FileStep kernel after thread := by
  unfold sysThreadExit at ran
  split_ifs at ran with isFreed
  obtain ⟨left, isLeft, isAfter⟩ := exists_of_bind_eq_ok ran
  cases isAfter
  have io : streaming (middle.threads.modify t fun thread =>
      { thread with call := .exited exitval }) = streaming kernel.threads := by
    rw [threads, modify_eq_set isThread]
    exact streaming_set isThread before (by simp [Streamless])
  unfold endIfLast at isLeft
  split_ifs at isLeft with last
  · obtain ⟨procs, ended, isKernel⟩ := exists_of_bind_eq_ok isLeft
    split_ifs at isKernel
    cases isKernel
    refine .exits ?_ io
    show FileTable.closeFiles _ _ middle.files = _
    rw [files]
  · cases isLeft
    refine .turns ?_ ?_
    · show FileTurn thread.owner kernel.files (streaming kernel.threads)
        middle.files (streaming (middle.threads.modify t _))
      rw [files, io]
      exact .keeps
    · apply livingAfter.sound.alive
      have count := livingAfter.sound.count thread.owner
      change (((middle.procs.leave thread.owner).pcb
        thread.owner).threadCount : Int) = _ at count
      change ¬((middle.procs.leave thread.owner).pcb
        thread.owner).threadCount = 0 at last
      rw [count] at last
      omega

theorem fileStep_exitLoop
    {exitval : Int}
    (isThread : kernel.threads[t]? = some thread)
    (livingAfter : Living after.procs after.threads)
    (before : Streamless thread.call)
    (threads : middle.threads = kernel.threads)
    (files : middle.files = kernel.files)
    (ran : middle.exitLoop t thread.owner thread.ptcb exitval = .ok after) :
    FileStep kernel after thread := by
  obtain ⟨⟨ended, procs⟩, -, isAfter⟩ := exists_of_bind_eq_ok ran
  simp only at isAfter
  split_ifs at isAfter
  · refine fileStep_sysThreadExit isThread livingAfter before ?_ ?_ isAfter
    · exact threads
    · exact files
  · cases isAfter
    refine fileStep_goes isThread livingAfter before (.exiting exitval) rfl
      (by simp [Streamless]) ?_ ?_
    · show middle.threads.modify t _ = _
      rw [threads]
    · show FileTurn thread.owner kernel.files (streaming kernel.threads)
        middle.files (streaming kernel.threads)
      rw [files]
      exact .keeps

/-- The loop of `sys_ThreadJoin` leaves the file table alone. -/
theorem fileStep_joinLoop
    {ptcb : π}
    {target : Nat}
    (isThread : kernel.threads[t]? = some thread)
    (livingAfter : Living after.procs after.threads)
    (before : Streamless thread.call)
    (threads : middle.threads = kernel.threads)
    (files : middle.files = kernel.files)
    (ran : middle.joinLoop t ptcb target = .ok after) :
    FileStep kernel after thread := by
  have turn : FileTurn thread.owner kernel.files (streaming kernel.threads)
      middle.files (streaming kernel.threads) := by
    rw [files]
    exact .keeps
  have goes : ∀ call : OldCall limits π, middle.threads.modify t (fun thread =>
      { thread with call := call }) = kernel.threads.modify t fun thread =>
        { thread with call := call } := by
    intro call
    rw [threads]
  unfold joinLoop at ran
  simp only at ran
  split_ifs at ran with freed detached exited last
  · cases ran
    exact fileStep_returning isThread livingAfter before (goes .own) turn
  · cases ran
    exact fileStep_returning isThread livingAfter before (goes .own) turn
  · cases ran
    exact fileStep_returning isThread livingAfter before (goes .own) turn
  · cases ran
    exact fileStep_goes isThread livingAfter before (.joining ptcb target) rfl
      (by simp [Streamless]) (goes _) turn

theorem fileStep_threadJoin
    {tid : Option π}
    (isThread : kernel.threads[t]? = some thread)
    (livingAfter : Living after.procs after.threads)
    (before : Streamless thread.call)
    (ran : kernel.sysThreadJoin t thread.owner thread.ptcb tid = .ok after) :
    FileStep kernel after thread := by
  unfold sysThreadJoin at ran
  split_ifs at ran
  · cases ran
    exact fileStep_returning isThread livingAfter before rfl .keeps
  · obtain ⟨found, -, isAfter⟩ := exists_of_bind_eq_ok ran
    cases found with
    | none =>
        cases isAfter
        exact fileStep_returning isThread livingAfter before rfl .keeps
    | some ptcb =>
        simp only at isAfter
        split_ifs at isAfter
        · cases isAfter
          exact fileStep_returning isThread livingAfter before rfl .keeps
        · refine fileStep_joinLoop isThread livingAfter before ?_ ?_ isAfter
          · rfl
          · rfl

theorem fileStep_threadDetach
    {tid : Option π}
    (isThread : kernel.threads[t]? = some thread)
    (livingAfter : Living after.procs after.threads)
    (before : Streamless thread.call)
    (ran : kernel.sysThreadDetach t thread.owner tid = .ok after) :
    FileStep kernel after thread := by
  obtain ⟨found, -, isAfter⟩ := exists_of_bind_eq_ok ran
  cases found with
  | none =>
      cases isAfter
      exact fileStep_returning isThread livingAfter before rfl .keeps
  | some ptcb =>
      simp only at isAfter
      split_ifs at isAfter
      · cases isAfter
        exact fileStep_returning isThread livingAfter before rfl .keeps
      · cases isAfter
        exact fileStep_returning isThread livingAfter before rfl .keeps

/-- A waiting call goes on. -/
theorem fileStep_resume
    (isThread : kernel.threads[t]? = some thread)
    (livingAfter : Living after.procs after.threads)
    (waiting : thread.call.isWaiting = true)
    (ran : kernel.threadStep t thread (.resume t) = .ok after) :
    FileStep kernel after thread := by
  unfold threadStep at ran
  cases called : thread.call with
  | own | exited exitval =>
      rw [called] at waiting
      cases waiting
  | waitsFor child =>
      rw [called] at ran
      cases ran
      exact fileStep_waitChildLoop isThread livingAfter (by simp [Streamless, called])
  | waitsAny =>
      rw [called] at ran
      exact fileStep_waitAnyLoop isThread livingAfter (by simp [Streamless, called])
        ran
  | exiting exitval =>
      rw [called] at ran
      exact fileStep_exitLoop isThread livingAfter (by simp [Streamless, called])
        rfl rfl ran
  | joining ptcb target =>
      rw [called] at ran
      exact fileStep_joinLoop isThread livingAfter (by simp [Streamless, called])
        rfl rfl ran
  | streaming fcb =>
      rw [called] at ran
      cases ran
      have threads := modify_eq_set isThread .own
      change Living _ (kernel.threads.modify t _) at livingAfter
      rw [threads] at livingAfter
      obtain ⟨io, inUse⟩ := streaming_set_end isThread called
      refine .turns ?_ (owner_alive livingAfter isThread rfl)
      show FileTurn thread.owner kernel.files (streaming kernel.threads)
        (kernel.files.FCBDecref fcb) (streaming (kernel.threads.modify t _))
      rw [threads, io]
      exact .ends fcb inUse

/-- Every step of a thread is one of the turns. -/
theorem fileStep_of_step
    {action : OldAction π}
    (isThread : kernel.threads[action.thread]? = some thread)
    (takes : kernel.Takes thread action)
    (ran : kernel.step action = .ok after)
    (livingAfter : Living after.procs after.threads) :
    FileStep kernel after thread := by
  have own : thread.call = .own → Streamless thread.call := by
    intro isOwn fcb
    rw [isOwn]
    simp
  unfold step at ran
  rw [isThread] at ran
  simp only at ran
  cases action with
  | exec t call argl args memory ptcb =>
      obtain ⟨⟨newproc, middle⟩, executed, isAfter⟩ := exists_of_bind_eq_ok ran
      cases isAfter
      exact fileStep_exec isThread livingAfter (own takes.1) executed
  | exit t exitval =>
      change kernel.sysExit t thread.owner thread.ptcb exitval = .ok after at ran
      unfold sysExit at ran
      simp only at ran
      split_ifs at ran
      · refine fileStep_exitLoop isThread livingAfter (own takes) ?_ ?_ ran
        · rfl
        · rfl
      · refine fileStep_sysThreadExit isThread livingAfter (own takes) ?_ ?_ ran
        · rfl
        · rfl
  | waitChild t cpid =>
      exact fileStep_waitChild isThread livingAfter (own takes) ran
  | createThread t task argl args ptcb =>
      cases ran
      exact fileStep_createThread isThread (own takes.1) task argl args ptcb _
        livingAfter
  | threadExit t exitval =>
      exact fileStep_sysThreadExit isThread livingAfter (own takes) rfl rfl ran
  | threadJoin t tid =>
      exact fileStep_threadJoin isThread livingAfter (own takes) ran
  | threadDetach t tid =>
      exact fileStep_threadDetach isThread livingAfter (own takes) ran
  | openNull t => exact fileStep_returnOpened isThread livingAfter (own takes) ran
  | openTerminal t termno =>
      exact fileStep_returnOpened isThread livingAfter (own takes) ran
  | openInfo t => exact fileStep_returnOpened isThread livingAfter (own takes) ran
  | pipe t => exact fileStep_returnOpened isThread livingAfter (own takes) ran
  | close t fd =>
      cases ran
      exact fileStep_returning isThread livingAfter (own takes) rfl (.closes fd)
  | dup2 t oldfd newfd =>
      cases ran
      exact fileStep_returning isThread livingAfter (own takes) rfl
        (.duplicates oldfd newfd)
  | startTransfer t fd =>
      change Except.ok (kernel.beginTransfer t
        (kernel.files.startTransfer thread.owner fd)) = .ok after at ran
      cases started : kernel.files.startTransfer thread.owner fd with
      | mk found files =>
          rw [started] at ran
          cases found with
          | none =>
              cases ran
              exact fileStep_returning isThread livingAfter (own takes) rfl .keeps
          | some fcb =>
              cases ran
              have isOld : kernel.threads[t]? = some thread := isThread
              have threads := modify_eq_set isOld (.streaming fcb)
              change Living _ (kernel.threads.modify t _) at livingAfter
              rw [threads] at livingAfter
              refine .turns ?_ (owner_alive livingAfter isOld rfl)
              show FileTurn thread.owner kernel.files (streaming kernel.threads)
                files (streaming (kernel.threads.modify t _))
              rw [threads, streaming_set_start isOld (own takes)]
              exact .starts fcb started
  | resume t => exact fileStep_resume isThread livingAfter takes ran

/-! ## Runs -/

end OldKernel

namespace FileTable

/-- `initialize_files` builds the free list as the new kernel does, and changes
nothing else. -/
theorem initializeFiles_eq (limits : Limits) :
    (zero limits).initializeFiles = { zero limits with
      freelist := (Kernel.zero limits).initializeFiles.freelist } := by
  have old : ∀ (fcbs : List (Fin limits.maxFiles)) (heap : RlHeap
      (FcbNode limits) (Option (Fin limits.maxFiles))),
      fcbs.foldl (fun files fcb =>
        { FileTable.modifyFcb files fcb fun block =>
            { block with refcount := 0 } with
          freelist := (files.freelist.rlnodeInit (.node fcb)
            (some fcb)).rlistPushBack .freelist (.node fcb) })
        { zero limits with freelist := heap } =
      { zero limits with
        freelist := fcbs.foldl (fun heap fcb =>
          (heap.rlnodeInit (.node fcb) (some fcb)).rlistPushBack .freelist
            (.node fcb)) heap } := by
    intro fcbs
    induction fcbs with
    | nil => exact fun heap => rfl
    | cons fcb fcbs inductionHypothesis =>
        intro heap
        have same : Function.update (zero limits).fcb fcb ⟨0, 0⟩ =
            (zero limits).fcb :=
          Function.update_eq_self fcb _
        rw [List.foldl_cons, List.foldl_cons, ← inductionHypothesis]
        congr 1
        show FileTable.mk _ (Function.update (zero limits).fcb fcb ⟨0, 0⟩) _ _ _ =
          _
        rw [same]
        rfl
  have new : ∀ (fcbs : List (Fin limits.maxFiles)) (kernel : Kernel limits),
      (fcbs.foldl (fun (kernel : Kernel limits) fcb =>
        { kernel.modifyFcb fcb fun block => { block with refcount := 0 } with
          freelist := (kernel.freelist.rlnodeInit (.node fcb)
            (some fcb)).rlistPushBack .freelist (.node fcb) })
        kernel).freelist = fcbs.foldl (fun heap fcb =>
        (heap.rlnodeInit (.node fcb) (some fcb)).rlistPushBack .freelist
          (.node fcb)) kernel.freelist := by
    intro fcbs
    induction fcbs with
    | nil => exact fun kernel => rfl
    | cons fcb fcbs inductionHypothesis =>
        exact fun kernel => inductionHypothesis _
  rw [Kernel.initializeFiles, new, initializeFiles]
  exact old _ _

/-- When the scheduler starts all FCBs are free. -/
theorem initializeFiles_sound (limits : Limits) :
    (zero limits).initializeFiles.Sound fun _ => 0 := by
  have frees := (Kernel.zero limits).initializeFiles_freeList
  rw [initializeFiles_eq]
  refine ⟨List.finRange limits.maxFiles, ⟨⟨frees.represents, frees.key⟩, ?_, ?_⟩,
    fun fcb _ => List.mem_finRange fcb, ?_⟩
  · intro fcb notFree
    exact absurd (List.mem_finRange fcb) notFree
  · exact fun _ => rfl
  · constructor
    case bound => exact fun isUsed => absurd rfl isUsed
    case distinct => exact fun isUsed => absurd rfl isUsed
    case nodup => exact List.nodup_nil
    case closed =>
      intro stream
      simp [zero]

end FileTable

namespace OldKernel

variable [DecidableEq π]

theorem Booted.files
    {start : OldKernel limits π}
    (booted : Booted start) :
    start.FilesSound := by
  obtain ⟨ports, task, argl, args, ptcb, system, init, systemArgs, initArgs,
    -, -, -, -, rfl⟩ := booted
  have none : (FileTable.zero limits).initializeFiles.fidt = fun _ => none := by
    rw [FileTable.initializeFiles_eq]
    rfl
  constructor
  case sound =>
    have unheld : (FileTable.zero limits).initializeFiles.held = fun _ => 0 := by
      funext fcb
      rw [FileTable.held, none, countWhere_eq_zero_iff]
      exact fun _ => rfl
    show (FileTable.zero limits).initializeFiles.Sound fun fcb =>
      (FileTable.zero limits).initializeFiles.held fcb +
        streaming [OldThread.mk init ptcb .own] fcb
    rw [unheld]
    exact FileTable.initializeFiles_sound limits
  case alive =>
    intro pid fid inUse
    exact absurd (congrFun none (pid, fid)) inUse

/-- The file table in every reached state. -/
theorem Reached.files
    {kernel : OldKernel limits π}
    (reached : Reached kernel) :
    kernel.FilesSound := by
  refine (reached.invariant Booted.files ?_).2
  intro before action after living holds enabled stepped livingAfter
  obtain ⟨thread, isThread, takes, -⟩ := exists_thread enabled
  have turn := procTurn_of_step isThread takes stepped
    (living.exiting thread (List.mem_of_getElem? isThread))
  exact holds.step living turn.alive
    (fileStep_of_step isThread takes stepped livingAfter)

end OldKernel
end TinierOS
