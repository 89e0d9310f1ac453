import TinierOS.Old.FileTurns

/-!
# Streams in the runs of the old kernel

What the file table of the old kernel holds in the states of the runs in which
nobody waits for a process that has been reaped.  In the other runs a PCB may be
given to two processes, and the descriptors of the first one are lost.
-/

namespace TinierOS

variable {limits : Limits} {π : Type}

namespace OldKernel

variable [DecidableEq π]
variable {kernel : OldKernel limits π}

/-- The number of descriptors and of calls of `Read` and `Write` in progress that
use an FCB. -/
def uses (kernel : OldKernel limits π) (fcb : Fin limits.maxFiles) : Nat :=
  kernel.files.held fcb + streaming kernel.threads fcb

/-- An FCB is in the free list as long as nothing uses it, and else counts its
uses.  Only living processes have descriptors. -/
theorem Reached.streamReferences
    (reached : Reached kernel) :
    (∃ frees, FreeFcbs kernel.files.freelist frees ∧
      (∀ fcb, fcb ∈ frees ↔ kernel.uses fcb = 0) ∧
      ∀ fcb, fcb ∉ frees →
        (kernel.files.fcb fcb).refcount = kernel.uses fcb) ∧
    ∀ pid fid, kernel.files.fidt (pid, fid) ≠ none →
      kernel.procs.pstate pid = .alive := by
  obtain ⟨⟨frees, counts, noLeak, -⟩, alive⟩ := reached.files
  refine ⟨⟨frees, counts.free, ?_, ?_⟩, fun pid fid => alive⟩
  · exact fun fcb => ⟨counts.unused, noLeak fcb⟩
  · exact fun fcb notFree => counts.refcount notFree

/-- Two processes and a call of `Read` use the first end of a pipe. -/
theorem streamReferences_inherited :
    ∃ kernel : OldKernel ⟨4, 4, 2, 3⟩ Nat,
      (Reached kernel ∧ kernel.uses 0 = 3 ∧ kernel.uses 1 = 2) ∧
      (∃ frees, FreeFcbs kernel.files.freelist frees ∧
        (∀ fcb, fcb ∈ frees ↔ kernel.uses fcb = 0) ∧
        ∀ fcb, fcb ∉ frees →
          (kernel.files.fcb fcb).refcount = kernel.uses fcb) ∧
      ∀ pid fid, kernel.files.fidt (pid, fid) ≠ none →
        kernel.procs.pstate pid = .alive := by
  obtain ⟨kernel, reached, passed⟩ : ∃ kernel : OldKernel ⟨4, 4, 2, 3⟩ Nat,
      Reached kernel ∧ decide (kernel.uses 0 = 3 ∧ kernel.uses 1 = 2) = true :=
    exists_reached_of_any (fun _ => 0) 0
      [.pipe 0, .exec 0 (some 1) 0 0 (fun _ => 0) 1, .startTransfer 1 0]
      (by decide +kernel)
  exact ⟨kernel, ⟨reached, of_decide_eq_true passed⟩, reached.streamReferences⟩

/-- Every stream that has been opened is open at exactly one FCB, which is in use,
or has been closed exactly once, and no FCB in use has it any more. -/
theorem Reached.streamsOnce
    (reached : Reached kernel) :
    kernel.files.closed.Nodup ∧
    (∀ fcb, kernel.uses fcb ≠ 0 →
      (kernel.files.fcb fcb).stream < kernel.files.opened) ∧
    ∀ stream, stream < kernel.files.opened →
      (stream ∈ kernel.files.closed ∧
        ∀ fcb, kernel.uses fcb ≠ 0 →
          (kernel.files.fcb fcb).stream ≠ stream) ∨
      (stream ∉ kernel.files.closed ∧
        ∃! fcb, kernel.uses fcb ≠ 0 ∧
          (kernel.files.fcb fcb).stream = stream) := by
  obtain ⟨frees, -, -, streams⟩ := reached.files.sound
  refine ⟨streams.nodup, fun fcb => streams.bound, ?_⟩
  intro stream isOpened
  by_cases isClosed : stream ∈ kernel.files.closed
  · exact .inl ⟨isClosed, (streams.closed.mp isClosed).2⟩
  · refine .inr ⟨isClosed, ?_⟩
    obtain ⟨fcb, isUsed, isAt⟩ : ∃ fcb, kernel.uses fcb ≠ 0 ∧
        (kernel.files.fcb fcb).stream = stream := by
      by_contra nowhere
      exact isClosed (streams.closed.mpr ⟨isOpened, fun fcb isUsed same =>
        nowhere ⟨fcb, isUsed, same⟩⟩)
    refine ⟨fcb, ⟨isUsed, isAt⟩, ?_⟩
    rintro other ⟨otherUsed, otherAt⟩
    exact streams.distinct otherUsed isUsed (otherAt.trans isAt.symm)

/-- One end of a pipe is closed, and the other is open in another process. -/
theorem streamsOnce_pipe :
    ∃ kernel : OldKernel ⟨4, 4, 2, 3⟩ Nat,
      (Reached kernel ∧ kernel.files.opened = 2 ∧ kernel.files.closed = [0]) ∧
      kernel.files.closed.Nodup ∧
      (∀ fcb, kernel.uses fcb ≠ 0 →
        (kernel.files.fcb fcb).stream < kernel.files.opened) ∧
      ∀ stream, stream < kernel.files.opened →
        (stream ∈ kernel.files.closed ∧
          ∀ fcb, kernel.uses fcb ≠ 0 →
            (kernel.files.fcb fcb).stream ≠ stream) ∨
        (stream ∉ kernel.files.closed ∧
          ∃! fcb, kernel.uses fcb ≠ 0 ∧
            (kernel.files.fcb fcb).stream = stream) := by
  obtain ⟨kernel, reached, passed⟩ : ∃ kernel : OldKernel ⟨4, 4, 2, 3⟩ Nat,
      Reached kernel ∧ decide (kernel.files.opened = 2 ∧
        kernel.files.closed = [0]) = true :=
    exists_reached_of_any (fun _ => 0) 0
      [.pipe 0, .exec 0 (some 1) 0 0 (fun _ => 0) 1, .close 0 0, .close 0 1,
        .dup2 1 1 0]
      (by decide +kernel)
  exact ⟨kernel, ⟨reached, of_decide_eq_true passed⟩, reached.streamsOnce⟩

/-! ## Reading and writing -/

omit [DecidableEq π] in
/-- A step of one thread leaves the others where they are. -/
theorem ProcTurn.getElem?_of_ne
    {t u : Nat}
    {thread other : OldThread limits π}
    {stored : Option Int}
    {procs : ProcTable limits}
    {changed : List (OldThread limits π)}
    (turn : ProcTurn kernel t thread stored procs changed)
    (different : u ≠ t)
    (isOther : kernel.threads[u]? = some other) :
    changed[u]? = some other := by
  have set : ∀ call, (kernel.threads.set t
      { thread with call := call })[u]? = some other := by
    intro call
    rw [List.getElem?_set_ne (Ne.symm different)]
    exact isOther
  have append : ∀ new call, ((kernel.threads ++ [new]).set t
      { thread with call := call })[u]? = some other := by
    intro new call
    rw [List.getElem?_set_ne (Ne.symm different)]
    exact getElem?_append_new isOther
  cases turn with
  | goes call | exitWaits stored exitval | leaves stored exitval
    | ends stored exitval => exact set _
  | createsEmpty | reapsChild | reapsAny => exact set .own
  | creates | spawns => exact append _ .own

/-- A thread in the `Read` or `Write` function of a stream keeps using that
stream, and the stream stays open, whatever the other threads do as long as nobody
waits for a process that has been reaped. -/
theorem Reached.streamStays
    {later : OldKernel limits π}
    {t : Nat}
    {thread : OldThread limits π}
    {fcb : Fin limits.maxFiles}
    (reached : Reached kernel)
    (isThread : kernel.threads[t]? = some thread)
    (isStreaming : thread.call = .streaming fcb)
    (continues : Reachable step
      (fun before action => before.Allowed action ∧ action.thread ≠ t) kernel
        later) :
    later.threads[t]? = some thread ∧
      (later.files.fcb fcb).stream = (kernel.files.fcb fcb).stream ∧
      (kernel.files.fcb fcb).stream ∉ later.files.closed ∧
      0 < (later.files.fcb fcb).refcount := by
  have holds : Reached later ∧ later.threads[t]? = some thread ∧
      (later.files.fcb fcb).stream = (kernel.files.fcb fcb).stream := by
    refine continues.invariant (motive := fun later => Reached later ∧
      later.threads[t]? = some thread ∧ (later.files.fcb fcb).stream =
        (kernel.files.fcb fcb).stream) ⟨reached, isThread, rfl⟩ ?_
    rintro before after action ⟨beforeReached, stays, stream⟩
      ⟨⟨enabled, noneStranded⟩, isOther⟩ stepped
    obtain ⟨ports, task, argl, args, memory, ptcb, start, booted, run⟩ :=
      beforeReached
    have beforeReached : Reached before :=
      ⟨ports, task, argl, args, memory, ptcb, start, booted, run⟩
    have afterReached : Reached after :=
      ⟨ports, task, argl, args, memory, ptcb, start, booted,
        run.tail ⟨enabled, noneStranded⟩ stepped⟩
    obtain ⟨acting, isActing, takes, -⟩ := exists_thread enabled
    have turn := procTurn_of_step isActing takes stepped
      (beforeReached.living.exiting acting (List.mem_of_getElem? isActing))
    have inUse := (streaming_set_end stays isStreaming).2
    refine ⟨afterReached, turn.getElem?_of_ne (Ne.symm isOther) stays, ?_⟩
    rw [← stream]
    exact beforeReached.files.stream
      (fileStep_of_step isActing takes stepped afterReached.living) (by omega)
  obtain ⟨laterReached, stays, stream⟩ := holds
  obtain ⟨frees, counts, -, streams⟩ := laterReached.files.sound
  have inUse := (streaming_set_end stays isStreaming).2
  have isUsed : later.files.held fcb + streaming later.threads fcb ≠ 0 := by
    omega
  refine ⟨stays, stream, ?_, ?_⟩
  · rw [← stream]
    intro isClosed
    exact (streams.closed.mp isClosed).2 fcb isUsed rfl
  · rw [counts.refcount fun isFree => isUsed (counts.unused isFree)]
    omega

/-- The other threads close the descriptors of a pipe that is being read. -/
theorem streamStays_closed :
    ∃ (kernel later : OldKernel ⟨4, 4, 2, 3⟩ Nat)
      (thread : OldThread ⟨4, 4, 2, 3⟩ Nat),
      (Reached kernel ∧ kernel.threads[1]? = some thread ∧
        thread.call = .streaming 0 ∧ later.files.held 0 = 0 ∧
        Reachable step (fun before action => before.Allowed action ∧
          action.thread ≠ 1) kernel later) ∧
      later.threads[1]? = some thread ∧
      (later.files.fcb 0).stream = (kernel.files.fcb 0).stream ∧
      (kernel.files.fcb 0).stream ∉ later.files.closed ∧
      0 < (later.files.fcb 0).refcount := by
  have ran : ∃ kernel : OldKernel ⟨4, 4, 2, 3⟩ Nat, Reached kernel ∧
      (kernel.threads[1]?.any (fun (thread : OldThread ⟨4, 4, 2, 3⟩ Nat) =>
        decide (thread.call = .streaming 0)) &&
        (runActions step (fun (before : OldKernel ⟨4, 4, 2, 3⟩ Nat) action =>
          before.Allowed action ∧ action.thread ≠ 1) [.close 0 0] kernel).any
            fun later => decide (later.files.held 0 = 0)) = true :=
    exists_reached_of_any (fun _ => 0) 0
      [.pipe 0, .createThread 0 (some 1) 0 0 1, .startTransfer 1 0] (by decide +kernel)
  obtain ⟨kernel, reached, passed⟩ := ran
  obtain ⟨isReading, runs⟩ := Bool.and_eq_true_iff.mp passed
  obtain ⟨later, continues, closed⟩ :=
    exists_reachable_of_any [OldAction.close 0 0] runs
  cases isThread : kernel.threads[1]? with
  | none =>
      rw [isThread] at isReading
      cases isReading
  | some thread =>
      rw [isThread] at isReading
      have isStreaming : thread.call = .streaming 0 := of_decide_eq_true isReading
      exact ⟨kernel, later, thread, ⟨reached, isThread, isStreaming,
        of_decide_eq_true closed, continues⟩,
        reached.streamStays isThread isStreaming continues⟩

end OldKernel
end TinierOS
