import TinierOS.Old.ProcRuns

/-!
# The information stream

`procinfo_read` of `old/kernel_proc.c`, and the runs of the kernel in which a
stream that `sys_OpenInfo` has opened is read now and then.

The thread count of a process is never negative.  No byte is copied when the
length is zero, whatever the pointer is.
-/

namespace TinierOS

variable {limits : Limits}

/-- `PROCINFO_MAX_ARGS_SIZE` -/
def procinfoMaxArgsSize : Nat := 128

/-- `procinfo` -/
structure ProcInfo (limits : Limits) where
  pid : Fin limits.maxProc
  ppid : Option (Fin limits.maxProc)
  alive : Bool
  threadCount : Int
  mainTask : Option Task
  argl : Int
  args : Fin procinfoMaxArgsSize → UInt8

/-- `procinfo_cb` -/
structure ProcInfoCb (limits : Limits) where
  cursor : Nat
  info : ProcInfo limits

/-- What `procinfo_read` returns: -1, 0, or 1 with what it stores in the buffer. -/
inductive ProcInfoReply (limits : Limits)
  | failed
  | ended
  | entry (info : ProcInfo limits)

/-- `memcpy` of the first bytes of an argument to `info.args`. -/
def copyArgs
    (size : Nat)
    (args : Option (List UInt8))
    (old : Fin procinfoMaxArgsSize → UInt8) :
    Except OldFault (Fin procinfoMaxArgsSize → UInt8) :=
  if size = 0 then .ok old
  else match args with
    | none => .error .nullPointer
    | some bytes =>
        if bytes.length < size then .error .outOfBounds
        else .ok fun i => if i.val < size then bytes.getD i.val 0 else old i

namespace ProcTable

/-- The loop of `procinfo_read`, with the number of turns left: the first process
number in use from `cursor` on, unless the cursor gets to `MAX_PROC`. -/
def usedFrom
    (table : ProcTable limits) : Nat → Nat → Option (Fin limits.maxProc)
  | 0, _ => none
  | turns + 1, cursor =>
      if inRange : cursor < limits.maxProc then
        if table.pstate ⟨cursor, inRange⟩ = .free then
          table.usedFrom turns (cursor + 1)
        else some ⟨cursor, inRange⟩
      else none

/-- The number of bytes that `procinfo_read` copies of an argument. -/
def copiedSize (argl : Int) : Nat :=
  if (procinfoMaxArgsSize : Int) < argl then procinfoMaxArgsSize else argl.toNat

/-- `procinfo_read`: the information about a process is put over the old one.  A
negative length is a large `size_t`. -/
def procinfoOf
    (table : ProcTable limits)
    (pid : Fin limits.maxProc)
    (old : ProcInfo limits) : Except OldFault (ProcInfo limits) :=
  if (table.pcb pid).argl < 0 then .error .outOfBounds
  else (copyArgs (copiedSize (table.pcb pid).argl) (table.pcb pid).args
    old.args).map fun args =>
      { pid := pid
        ppid := table.parent pid
        alive := table.pstate pid = .alive
        threadCount := (table.pcb pid).threadCount
        mainTask := (table.pcb pid).mainTask
        argl := (table.pcb pid).argl
        args := args }

/-- `procinfo_read` -/
def procinfoRead
    (table : ProcTable limits)
    (cb : ProcInfoCb limits) :
    Except OldFault (ProcInfoReply limits × ProcInfoCb limits) :=
  if cb.cursor < 1 ∨ limits.maxProc < cb.cursor then .ok (.failed, cb)
  else if cb.cursor = limits.maxProc then .ok (.ended, cb)
  else match table.usedFrom (limits.maxProc - cb.cursor) cb.cursor with
    | none => .ok (.ended, { cb with cursor := limits.maxProc })
    | some pid => (table.procinfoOf pid cb.info).map fun info =>
        (.entry info, { cursor := pid.val + 1, info := info })

/-- The first process number in use from the cursor on. -/
structure IsNext
    (table : ProcTable limits)
    (cursor : Nat)
    (pid : Fin limits.maxProc) : Prop where
  behind : cursor ≤ pid.val
  used : table.pstate pid ≠ .free
  between : ∀ other : Fin limits.maxProc, cursor ≤ other.val → other < pid →
    table.pstate other = .free

variable {table : ProcTable limits}

theorem IsNext.unique
    {cursor : Nat}
    {pid other : Fin limits.maxProc}
    (isNext : table.IsNext cursor pid)
    (isNext' : table.IsNext cursor other) :
    pid = other := by
  rcases lt_trichotomy pid other with before | same | after
  · exact absurd (isNext'.between pid isNext.behind before) isNext.used
  · exact same
  · exact absurd (isNext.between other isNext'.behind after) isNext'.used

/-- The search goes over process numbers that are free. -/
theorem usedFrom_eq_some
    {turns cursor : Nat}
    {pid : Fin limits.maxProc}
    (found : table.usedFrom turns cursor = some pid) :
    table.IsNext cursor pid := by
  induction turns generalizing cursor with
  | zero => cases found
  | succ turns inductionHypothesis =>
      unfold usedFrom at found
      split_ifs at found with inRange isFree
      · obtain ⟨behind, used, between⟩ := inductionHypothesis found
        refine ⟨by omega, used, fun other isBehind before => ?_⟩
        by_cases isFirst : other.val = cursor
        · subst isFirst
          exact isFree
        · exact between other (by omega) before
      · cases found
        refine ⟨le_rfl, isFree, fun other isBehind before => ?_⟩
        exact absurd (Fin.lt_def.mp before) (Nat.not_lt.mpr isBehind)

/-- The search ends at `MAX_PROC` when no process number is in use. -/
theorem usedFrom_eq_none
    {turns cursor : Nat}
    (enough : limits.maxProc ≤ cursor + turns)
    (found : table.usedFrom turns cursor = none)
    (pid : Fin limits.maxProc)
    (isBehind : cursor ≤ pid.val) :
    table.pstate pid = .free := by
  induction turns generalizing cursor with
  | zero =>
      have inRange := pid.isLt
      omega
  | succ turns inductionHypothesis =>
      unfold usedFrom at found
      split_ifs at found with inRange isFree
      · by_cases isFirst : pid.val = cursor
        · subst isFirst
          exact isFree
        · exact inductionHypothesis (by omega) found (by omega)
      · have bound := pid.isLt
        omega

end ProcTable

/-- The information is that of a process in the table, with as much of its argument
as there is room for. -/
structure ProcInfo.Describes
    (info : ProcInfo limits)
    (table : ProcTable limits) : Prop where
  used : table.pstate info.pid ≠ .free
  ppid : info.ppid = table.parent info.pid
  alive : info.alive = true ↔ table.pstate info.pid = .alive
  threadCount : info.threadCount = (table.pcb info.pid).threadCount
  mainTask : info.mainTask = (table.pcb info.pid).mainTask
  argl : info.argl = (table.pcb info.pid).argl
  args : ∀ i, (i.val : Int) < info.argl → ∃ bytes,
    (table.pcb info.pid).args = some bytes ∧ bytes[i.val]? = some (info.args i)

/-- The bytes that have been copied are those of the argument. -/
theorem copyArgs_eq_ok
    {size : Nat}
    {args : Option (List UInt8)}
    {old new : Fin procinfoMaxArgsSize → UInt8}
    {i : Fin procinfoMaxArgsSize}
    (ran : copyArgs size args old = .ok new)
    (copied : i.val < size) :
    ∃ bytes, args = some bytes ∧ bytes[i.val]? = some (new i) := by
  unfold copyArgs at ran
  rw [if_neg (by omega)] at ran
  cases args with
  | none => cases ran
  | some bytes =>
      dsimp only at ran
      split_ifs at ran with short
      cases ran
      have inRange : i.val < bytes.length := by omega
      refine ⟨bytes, rfl, ?_⟩
      dsimp only
      rw [if_pos copied, List.getD_eq_getElem?_getD,
        List.getElem?_eq_getElem inRange, Option.getD_some]

namespace ProcTable

variable {table : ProcTable limits}

theorem describes_of_procinfoOf
    {pid : Fin limits.maxProc}
    {old info : ProcInfo limits}
    (used : table.pstate pid ≠ .free)
    (ran : table.procinfoOf pid old = .ok info) :
    info.pid = pid ∧ info.Describes table := by
  unfold procinfoOf at ran
  split_ifs at ran with negative
  obtain ⟨args, copied, rfl⟩ := exists_of_map_eq_ok ran
  refine ⟨rfl, ?_⟩
  constructor
  case used => exact used
  case alive => exact decide_eq_true_iff
  case args =>
    intro i inArgs
    refine copyArgs_eq_ok copied ?_
    have inBuffer := i.isLt
    unfold copiedSize
    split_ifs
    · exact inBuffer
    · simp only at inArgs
      omega
  all_goals rfl

/-- A read gives the next process in use, or finds that there is none. -/
theorem procinfoRead_cases
    {cb after : ProcInfoCb limits}
    {reply : ProcInfoReply limits}
    (positive : 1 ≤ cb.cursor)
    (inTable : cb.cursor ≤ limits.maxProc)
    (ran : table.procinfoRead cb = .ok (reply, after)) :
    (reply = .ended ∧ after.cursor = limits.maxProc ∧
      ∀ pid : Fin limits.maxProc, cb.cursor ≤ pid.val →
        table.pstate pid = .free) ∨
    ∃ info, reply = .entry info ∧ info.Describes table ∧
      after.cursor = info.pid.val + 1 ∧ table.IsNext cb.cursor info.pid := by
  unfold procinfoRead at ran
  rw [if_neg (by omega)] at ran
  split_ifs at ran with isLast
  · cases ran
    refine .inl ⟨rfl, isLast, fun pid isBehind => ?_⟩
    have inRange := pid.isLt
    omega
  · cases found : table.usedFrom (limits.maxProc - cb.cursor) cb.cursor with
    | none =>
        rw [found] at ran
        cases ran
        exact .inl ⟨rfl, rfl, usedFrom_eq_none (by omega) found⟩
    | some pid =>
        rw [found] at ran
        obtain ⟨info, described, result⟩ := exists_of_map_eq_ok ran
        cases result
        have isNext := usedFrom_eq_some found
        obtain ⟨rfl, describes⟩ := describes_of_procinfoOf isNext.used described
        exact .inr ⟨info, rfl, describes, rfl, isNext⟩

/-- The argument is as long as what is copied of it. -/
def Readable (table : ProcTable limits) (pid : Fin limits.maxProc) : Prop :=
  0 ≤ (table.pcb pid).argl ∧ ((table.pcb pid).argl = 0 ∨
    ∃ bytes, (table.pcb pid).args = some bytes ∧
      copiedSize (table.pcb pid).argl ≤ bytes.length)

theorem procinfoOf_ok_iff
    {pid : Fin limits.maxProc}
    (old : ProcInfo limits) :
    (∃ info, table.procinfoOf pid old = .ok info) ↔ table.Readable pid := by
  have isZero : 0 ≤ (table.pcb pid).argl →
      (copiedSize (table.pcb pid).argl = 0 ↔ (table.pcb pid).argl = 0) := by
    intro positive
    unfold copiedSize
    split_ifs with long
    · have isPositive := (Int.natCast_nonneg procinfoMaxArgsSize).trans_lt long
      exact iff_of_false (by decide) isPositive.ne'
    · omega
  unfold procinfoOf Readable
  by_cases negative : (table.pcb pid).argl < 0
  · rw [if_pos negative]
    exact iff_of_false (by simp) fun readable => by omega
  · have positive := Int.not_lt.mp negative
    rw [if_neg negative, ← isZero positive]
    unfold copyArgs
    by_cases isEmpty : copiedSize (table.pcb pid).argl = 0
    · simp [isEmpty, positive, Except.map]
    · cases (table.pcb pid).args with
      | none => simp [isEmpty, Except.map]
      | some bytes =>
          by_cases short : bytes.length < copiedSize (table.pcb pid).argl
          · simp [isEmpty, short, Except.map]
          · simp [isEmpty, short, positive, Nat.not_lt.mp short, Except.map]

/-- A read returns unless it comes to a process whose argument is too short. -/
theorem procinfoRead_ok_iff
    (cb : ProcInfoCb limits)
    (positive : 1 ≤ cb.cursor)
    (inTable : cb.cursor ≤ limits.maxProc) :
    (∃ result, table.procinfoRead cb = .ok result) ↔
      ∀ pid, table.IsNext cb.cursor pid → table.Readable pid := by
  unfold procinfoRead
  rw [if_neg (by omega)]
  split_ifs with isLast
  · refine iff_of_true ⟨_, rfl⟩ fun pid isNext => ?_
    have behind := isNext.behind
    have inRange := pid.isLt
    omega
  · cases found : table.usedFrom (limits.maxProc - cb.cursor) cb.cursor with
    | none =>
        refine iff_of_true ⟨_, rfl⟩ fun pid isNext => ?_
        exact absurd (usedFrom_eq_none (by omega) found pid isNext.behind)
          isNext.used
    | some pid =>
        have isNext := usedFrom_eq_some found
        constructor
        · rintro ⟨result, ran⟩ other isNext'
          obtain ⟨info, described, -⟩ := exists_of_map_eq_ok ran
          rw [← isNext.unique isNext']
          exact (procinfoOf_ok_iff cb.info).mp ⟨info, described⟩
        · intro readable
          obtain ⟨info, described⟩ :=
            (procinfoOf_ok_iff cb.info).mpr (readable pid isNext)
          dsimp only
          rw [described]
          exact ⟨_, rfl⟩

end ProcTable

/-! ## Reading the stream while the kernel runs -/

/-- The kernel and an information stream; the process numbers that have been in use
ever since the stream was opened; what the reads have given, the first one first,
with the table at that moment; and whether one has returned 0, or -1. -/
structure InfoStream (limits : Limits) (π : Type) where
  kernel : OldKernel limits π
  cb : ProcInfoCb limits
  steady : Fin limits.maxProc → Bool
  entries : List (ProcTable limits × ProcInfo limits)
  ended : Bool
  failed : Bool

/-- What happens next. -/
inductive InfoAction (π : Type)
  | kernel (action : OldAction π)
  | read

namespace InfoStream

variable {π : Type} [DecidableEq π]

/-- A read returns. -/
def answer
    (stream : InfoStream limits π)
    (cb : ProcInfoCb limits) : ProcInfoReply limits → InfoStream limits π
  | .failed => { stream with cb := cb, failed := true }
  | .ended => { stream with cb := cb, ended := true }
  | .entry info => { stream with
      cb := cb
      entries := stream.entries ++ [(stream.kernel.procs, info)] }

/-- The kernel has taken a step. -/
def follow
    (stream : InfoStream limits π)
    (after : OldKernel limits π) : InfoStream limits π :=
  { stream with
    kernel := after
    steady := fun pid => stream.steady pid && after.procs.pstate pid ≠ .free }

/-- One step. -/
def step
    (stream : InfoStream limits π) :
    InfoAction π → Except OldFault (InfoStream limits π)
  | .kernel action => (stream.kernel.step action).map stream.follow
  | .read => (stream.kernel.procs.procinfoRead stream.cb).map fun result =>
      stream.answer result.2 result.1

/-- The kernel takes the steps that it may take, and the stream is read at any
time. -/
def Allowed (stream : InfoStream limits π) : InfoAction π → Prop
  | .kernel action => stream.kernel.Enabled action
  | .read => True

instance
    (stream : InfoStream limits π)
    (action : InfoAction π) :
    Decidable (stream.Allowed action) :=
  match action with
  | .kernel action => inferInstanceAs (Decidable (stream.kernel.Enabled action))
  | .read => inferInstanceAs (Decidable True)

/-- `sys_OpenInfo`: the cursor is 1, and the rest of the object is what `xmalloc`
returns. -/
def start
    (kernel : OldKernel limits π)
    (info : ProcInfo limits) : InfoStream limits π where
  kernel := kernel
  cb := { cursor := 1, info := info }
  steady := fun pid => kernel.procs.pstate pid ≠ .free
  entries := []
  ended := false
  failed := false

/-- The states of all runs that open a stream at some time. -/
def Reached (stream : InfoStream limits π) : Prop :=
  ∃ kernel info, kernel.Occurs ∧
    Reachable step Allowed (start kernel info) stream

/-- The process numbers that have been read. -/
def pids (stream : InfoStream limits π) : List (Fin limits.maxProc) :=
  stream.entries.map fun entry => entry.2.pid

/-- What holds in every run. -/
structure Sound (stream : InfoStream limits π) : Prop where
  positive : 1 ≤ stream.cb.cursor
  inTable : stream.cb.cursor ≤ limits.maxProc
  steady : ∀ pid, stream.steady pid = true →
    stream.kernel.procs.pstate pid ≠ .free
  describes : ∀ entry ∈ stream.entries, entry.2.Describes entry.1
  below : ∀ pid ∈ stream.pids, pid.val < stream.cb.cursor
  increasing : stream.pids.Pairwise (· < ·)
  read : ∀ pid : Fin limits.maxProc, 1 ≤ pid.val →
    pid.val < stream.cb.cursor → stream.steady pid = true → pid ∈ stream.pids
  ended : stream.ended = true → stream.cb.cursor = limits.maxProc
  failed : stream.failed = false

variable {stream after : InfoStream limits π}

omit [DecidableEq π] in
theorem pids_entry
    (stream : InfoStream limits π)
    (cb : ProcInfoCb limits)
    (info : ProcInfo limits) :
    (stream.answer cb (.entry info)).pids = stream.pids ++ [info.pid] := by
  simp [pids, answer]

omit [DecidableEq π] in
/-- A read passes over process numbers that are free, so that none of them has been
in use all the time. -/
theorem Sound.answer
    {cb : ProcInfoCb limits}
    {reply : ProcInfoReply limits}
    (sound : stream.Sound)
    (ran : stream.kernel.procs.procinfoRead stream.cb = .ok (reply, cb)) :
    (stream.answer cb reply).Sound := by
  rcases ProcTable.procinfoRead_cases sound.positive sound.inTable ran with
    ⟨rfl, isLast, free⟩ | ⟨info, rfl, describes, next, behind, -, free⟩
  · constructor
    case positive =>
      have positive := sound.positive
      have inTable := sound.inTable
      show 1 ≤ cb.cursor
      omega
    case inTable => exact isLast.le
    case steady => exact sound.steady
    case describes => exact sound.describes
    case below =>
      intro pid _
      show pid.val < cb.cursor
      rw [isLast]
      exact pid.isLt
    case increasing => exact sound.increasing
    case read =>
      intro pid isProcess _ steady
      by_cases before : pid.val < stream.cb.cursor
      · exact sound.read pid isProcess before steady
      · exact absurd (free pid (Nat.not_lt.mp before)) (sound.steady pid steady)
    case ended => exact fun _ => isLast
    case failed => exact sound.failed
  · have inRange := info.pid.isLt
    constructor
    case positive =>
      show 1 ≤ cb.cursor
      omega
    case inTable =>
      show cb.cursor ≤ limits.maxProc
      omega
    case steady => exact sound.steady
    case describes =>
      intro entry member
      rcases List.mem_append.mp member with earlier | isNew
      · exact sound.describes entry earlier
      · rw [List.mem_singleton.mp isNew]
        exact describes
    case below =>
      intro pid member
      rw [pids_entry, List.mem_append, List.mem_singleton] at member
      show pid.val < cb.cursor
      rcases member with earlier | rfl
      · have before := sound.below pid earlier
        omega
      · omega
    case increasing =>
      rw [pids_entry]
      refine List.pairwise_append.mpr
        ⟨sound.increasing, List.pairwise_singleton .., ?_⟩
      intro pid earlier new isNew
      rw [List.mem_singleton.mp isNew]
      exact Fin.lt_def.mpr ((sound.below pid earlier).trans_le behind)
    case read =>
      intro pid isProcess before steady
      rw [pids_entry, List.mem_append, List.mem_singleton]
      by_cases earlier : pid.val < stream.cb.cursor
      · exact .inl (sound.read pid isProcess earlier steady)
      · by_cases isNew : pid = info.pid
        · exact .inr isNew
        · have between : pid < info.pid := by
            have upTo : pid.val < cb.cursor := before
            have apart := Fin.val_ne_of_ne isNew
            exact Fin.lt_def.mpr (by omega)
          exact absurd (free pid (Nat.not_lt.mp earlier) between)
            (sound.steady pid steady)
    case ended =>
      intro ended
      have atEnd := sound.ended ended
      omega
    case failed => exact sound.failed

omit [DecidableEq π] in
/-- Whatever the kernel does, what has been read stays as it is. -/
theorem Sound.follow
    (sound : stream.Sound)
    (after : OldKernel limits π) :
    (stream.follow after).Sound := by
  constructor
  case steady =>
    intro pid steady
    exact of_decide_eq_true (Bool.and_eq_true_iff.mp steady).2
  case read =>
    intro pid isProcess before steady
    exact sound.read pid isProcess before (Bool.and_eq_true_iff.mp steady).1
  case positive => exact sound.positive
  case inTable => exact sound.inTable
  case describes => exact sound.describes
  case below => exact sound.below
  case increasing => exact sound.increasing
  case ended => exact sound.ended
  case failed => exact sound.failed

theorem Sound.step
    {action : InfoAction π}
    (sound : stream.Sound)
    (stepped : stream.step action = .ok after) :
    after.Sound := by
  cases action with
  | kernel action =>
      obtain ⟨kernel, -, rfl⟩ := exists_of_map_eq_ok stepped
      exact sound.follow kernel
  | read =>
      obtain ⟨⟨reply, cb⟩, ran, rfl⟩ := exists_of_map_eq_ok stepped
      exact sound.answer ran

omit [DecidableEq π] in
theorem sound_start
    {kernel : OldKernel limits π}
    (positive : 1 ≤ limits.maxProc)
    (info : ProcInfo limits) :
    (start kernel info).Sound := by
  constructor
  case positive => exact le_rfl
  case inTable => exact positive
  case steady => exact fun pid steady => of_decide_eq_true steady
  case describes => exact nofun
  case below => exact nofun
  case increasing => exact .nil
  case read =>
    intro pid isProcess before
    exact absurd isProcess (Nat.not_le.mpr before)
  case ended => exact nofun
  case failed => rfl

theorem Reached.sound
    (reached : stream.Reached) :
    stream.Sound := by
  obtain ⟨kernel, info, ⟨_, _, _, _, _, _, _, booted, -⟩, run⟩ := reached
  obtain ⟨-, -, -, -, -, -, init, -, -, -, isInit, -⟩ :=
    OldKernel.booted_of_boot booted
  have inRange := init.isLt
  exact run.invariant (motive := Sound) (sound_start (by omega) info)
    fun sound _ => sound.step

/-- In every run the entries of an information stream are processes in increasing
order, each as it was when it was read.  Once a read has returned 0, every process
that has been in use all the time, but the one of the scheduler, has been read.  No
read returns -1, and one fails only at a process whose argument is no longer
there. -/
theorem Reached.lists_processes
    (reached : stream.Reached) :
    stream.failed = false ∧ stream.pids.Pairwise (· < ·) ∧
    (∀ entry ∈ stream.entries, entry.2.Describes entry.1) ∧
    (stream.ended = true → ∀ pid : Fin limits.maxProc, 1 ≤ pid.val →
      stream.steady pid = true → pid ∈ stream.pids) ∧
    ((∃ after, stream.step .read = .ok after) ↔
      ∀ pid, stream.kernel.procs.IsNext stream.cb.cursor pid →
        stream.kernel.procs.Readable pid) := by
  have sound := reached.sound
  refine ⟨sound.failed, sound.increasing, sound.describes, ?_, ?_⟩
  · intro ended pid isProcess steady
    refine sound.read pid isProcess ?_ steady
    rw [sound.ended ended]
    exact pid.isLt
  · rw [← ProcTable.procinfoRead_ok_iff stream.cb sound.positive sound.inTable]
    constructor
    · rintro ⟨after, stepped⟩
      obtain ⟨result, ran, -⟩ := exists_of_map_eq_ok stepped
      exact ⟨result, ran⟩
    · rintro ⟨result, ran⟩
      rw [step, ran]
      exact ⟨_, rfl⟩

/-- A process is created and found by the second read. -/
theorem lists_processes_two :
    ∃ stream : InfoStream ⟨4, 4, 1, 1⟩ Nat,
      (stream.pids = [1, 2] ∧ stream.ended = true ∧ stream.steady 1 = true) ∧
      stream.failed = false ∧ stream.pids.Pairwise (· < ·) ∧
      (∀ entry ∈ stream.entries, entry.2.Describes entry.1) ∧
      (stream.ended = true → ∀ pid : Fin 4, 1 ≤ pid.val →
        stream.steady pid = true → pid ∈ stream.pids) ∧
      ((∃ after, stream.step .read = .ok after) ↔
        ∀ pid, stream.kernel.procs.IsNext stream.cb.cursor pid →
          stream.kernel.procs.Readable pid) := by
  have ran : ∃ (kernel : OldKernel ⟨4, 4, 1, 1⟩ Nat)
      (stream : InfoStream ⟨4, 4, 1, 1⟩ Nat),
      OldKernel.boot ⟨4, 4, 1, 1⟩ 1 0 0 0 (fun _ => 0) 0 = .ok kernel ∧
      Reachable step Allowed
        (start kernel ⟨0, none, false, 0, none, 0, fun _ => 0⟩) stream ∧
      decide (stream.pids = [1, 2] ∧ stream.ended = true ∧
        stream.steady 1 = true) = true :=
    exists_reachable_of_booted
      [.read, .kernel (.exec 0 (some 1) 3 64 (fun _ => 7) 1), .read, .read]
      (by decide +kernel)
  obtain ⟨kernel, stream, booted, run, passed⟩ := ran
  have booting : kernel.Occurs := ⟨1, 0, 0, 0, fun _ => 0, 0, kernel, booted, .refl⟩
  exact ⟨stream, of_decide_eq_true passed,
    Reached.lists_processes ⟨kernel, _, booting, run⟩⟩

end InfoStream
end TinierOS
