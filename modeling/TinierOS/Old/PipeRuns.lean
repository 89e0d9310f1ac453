import TinierOS.Old.Pipe

/-!
# Pipes are lossless queues

Any number of calls of `pipe_read` and `pipe_write` on one pipe, in any
interleaving at the calls of `kernel_wait`, and the closing of the writer.
-/

namespace TinierOS

/-- A call of `pipe_read` or `pipe_write`; it has no result while it waits. -/
structure PipeCall where
  write : Bool
  buf : Nat → UInt8
  n : Nat
  result : Option Int

/-- A pipe, the calls made so far, the bytes that calls of `pipe_write` have
accepted and those that calls of `pipe_read` have returned, in the order in which
the calls completed, and whether a call has returned -1 from the middle of its
transfer. -/
structure PipeRun (α : Type) where
  pipe : Pipe α
  calls : List PipeCall
  accepted : List UInt8
  returned : List UInt8
  torn : Bool

/-- What happens next. -/
inductive PipeAction
  | write (buf : Nat → UInt8) (n : Nat)
  | read (n : Nat)
  /-- A waiting call comes back from `kernel_wait`. -/
  | resume (call : Nat)
  | closeWriter

namespace PipeOutcome

/-- The value that the call returns, unless it waits. -/
def result : PipeOutcome → Option Int
  | .waits => none
  | .fails => some (-1)
  | .torn => some (-1)
  | .moved bytes => some bytes.length

/-- The bytes that the call has moved. -/
def bytes : PipeOutcome → List UInt8
  | .moved bytes => bytes
  | _ => []

/-- Whether the transfer was broken off. -/
def isTorn : PipeOutcome → Bool
  | .torn => true
  | _ => false

end PipeOutcome

namespace PipeRun

variable {α : Type} [DecidableEq α]

/-- The run after a stretch of a call of `pipe_write`. -/
def wrote
    (run : PipeRun α)
    (outcome : PipeOutcome × Pipe α)
    (calls : List PipeCall) : PipeRun α :=
  { run with
    pipe := outcome.2
    calls := calls
    accepted := run.accepted ++ outcome.1.bytes
    torn := run.torn || outcome.1.isTorn }

/-- The run after a stretch of a call of `pipe_read`. -/
def read
    (run : PipeRun α)
    (outcome : PipeOutcome × Pipe α)
    (calls : List PipeCall) : PipeRun α :=
  { run with
    pipe := outcome.2
    calls := calls
    returned := run.returned ++ outcome.1.bytes
    torn := run.torn || outcome.1.isTorn }

/-- A waiting call goes on. -/
def resume
    (limits : PipeLimits)
    (run : PipeRun α)
    (index : Nat)
    (call : PipeCall) : PipeRun α :=
  if call.write then
    let outcome := run.pipe.writeFrom limits call.buf call.n
    run.wrote outcome
      (run.calls.set index { call with result := outcome.1.result })
  else
    let outcome := run.pipe.readFrom limits call.n
    run.read outcome
      (run.calls.set index { call with result := outcome.1.result })

/-- One step. -/
def step
    (limits : PipeLimits)
    (run : PipeRun α) : PipeAction → PipeRun α
  | .write buf n =>
      let outcome := run.pipe.pipeWrite limits buf n
      run.wrote outcome (run.calls ++ [⟨true, buf, n, outcome.1.result⟩])
  | .read n =>
      let outcome := run.pipe.pipeRead limits n
      run.read outcome (run.calls ++ [⟨false, fun _ => 0, n, outcome.1.result⟩])
  | .resume index =>
      match run.calls[index]? with
      | some ⟨write, buf, n, none⟩ =>
          run.resume limits index ⟨write, buf, n, none⟩
      | _ => run
  | .closeWriter => { run with pipe := run.pipe.pipeWriterClose }

/-- Sizes are at most `INT_MAX`, and the writer is closed only when no
`pipe_write` is in progress. -/
def Allowed
    (limits : PipeLimits)
    (run : PipeRun α) : PipeAction → Prop
  | .write _ n => n ≤ limits.intMax
  | .read n => n ≤ limits.intMax
  | .resume _ => True
  | .closeWriter => ∀ call ∈ run.calls, call.write = true → call.result ≠ none

instance
    (limits : PipeLimits)
    (run : PipeRun α)
    (action : PipeAction) :
    Decidable (run.Allowed limits action) :=
  match action with
  | .write _ n => inferInstanceAs (Decidable (n ≤ limits.intMax))
  | .read n => inferInstanceAs (Decidable (n ≤ limits.intMax))
  | .resume _ => inferInstanceAs (Decidable True)
  | .closeWriter => inferInstanceAs (Decidable (∀ _ ∈ _, _ → _))

/-- A pipe on which no call has been made. -/
def start (pipe : Pipe α) : PipeRun α := ⟨pipe, [], [], [], false⟩

end PipeRun

namespace Pipe

variable {α : Type} {limits : PipeLimits}

/-- The bytes in the buffer: what stands in the cells from `r_pos` on. -/
def buffered (pipe : Pipe α) : List UInt8 :=
  (List.range pipe.bufferBytes).map fun index =>
    (pipe.cells ((fun cell => (pipe.cells cell).next)^[index] pipe.rPos)).c

theorem Stores.buffered
    {pipe : Pipe α}
    {contents : List UInt8}
    {rest : List α}
    (stores : Stores limits pipe contents rest) :
    pipe.buffered = contents := by
  have size := stores.size
  have fits := stores.fits
  have places : ∀ index ≤ rest.length, (pipe.rPos :: rest)[index]? =
      some ((fun cell => (pipe.cells cell).next)^[index] pipe.rPos) := by
    intro index inRing
    induction index with
    | zero => rfl
    | succ index inductionHypothesis =>
        have isSecond : (rest ++ [pipe.rPos])[index]? = some rest[index] := by
          rw [List.getElem?_append_left (by omega)]
          exact List.getElem?_eq_getElem (by omega)
        have follows := stores.ring.segment.next_getElem
          (inductionHypothesis (by omega)) isSecond
        rw [List.getElem?_cons_succ, Function.iterate_succ_apply',
          List.getElem?_eq_getElem (by omega), ← follows]
        rfl
  apply List.ext_getElem?
  intro index
  unfold Pipe.buffered
  rw [List.getElem?_map, stores.counted]
  by_cases inContents : index < contents.length
  · have place := congrArg (·[index]?) stores.marks
    simp only [List.getElem?_map, places index (by omega), Option.map_some,
      List.getElem?_append_left inContents] at place
    rw [List.getElem?_range inContents, Option.map_some, ← place]
  · rw [List.getElem?_eq_none (by simpa using inContents),
      List.getElem?_eq_none (by omega), Option.map_none]

variable [DecidableEq α]

/-- From its waiting loop on, `pipe_write` waits when the buffer is full, and
else adds as many bytes as fit. -/
theorem Stores.writeFrom
    {pipe : Pipe α}
    {contents : List UInt8}
    {rest : List α}
    {n : Nat}
    (stores : Stores limits pipe contents rest)
    (sizeFits : limits.bufferSize ≤ limits.intMax)
    (isOpen : pipe.reader ≠ none)
    (small : n ≤ limits.intMax)
    (buf : Nat → UInt8) :
    pipe.writeFrom limits buf n = (.waits, pipe) ∨
      ∃ count after,
        pipe.writeFrom limits buf n = (.moved ((List.range count).map buf), after) ∧
        Stores limits after (contents ++ (List.range count).map buf) rest ∧
        after.writer = pipe.writer ∧ after.reader = pipe.reader := by
  have fits := stores.fits
  have difference : (limits.bufferSize : Int) - pipe.bufferBytes =
      ((limits.bufferSize - contents.length : Nat) : Int) := by
    rw [stores.counted]
    omega
  have available : limits.signed
      (limits.unsigned (limits.bufferSize - pipe.bufferBytes)) =
        ((limits.bufferSize - contents.length : Nat) : Int) := by
    rw [difference, PipeLimits.unsigned_of_le (by omega),
      PipeLimits.signed_of_le (by omega)]
  rw [Pipe.writeFrom, available]
  by_cases full : limits.bufferSize - contents.length = 0
  · left
    rw [full]
    exact if_pos ⟨rfl, isOpen⟩
  · right
    have notFull : ¬(((limits.bufferSize - contents.length : Nat) : Int) = 0 ∧
        pipe.reader ≠ none) := by
      omega
    have least : (if n < limits.bufferSize - contents.length then n
        else limits.bufferSize - contents.length) =
          min n (limits.bufferSize - contents.length) := by
      split <;> omega
    obtain ⟨after, ran, storesAll, sameWriter, sameReader⟩ :=
      stores.writeLoop buf (min n (limits.bufferSize - contents.length)) 0 sizeFits
        (by omega)
    rw [← List.range_eq_range'] at storesAll
    refine ⟨_, after, ?_, storesAll, sameWriter, sameReader⟩
    rw [if_neg notFull, if_neg isOpen, PipeLimits.unsigned_of_le (by omega), least,
      PipeLimits.signed_of_le (by omega)]
    simp only [Int.toNat_natCast, ran]

/-- From its waiting loop on, `pipe_read` waits when the buffer is empty and the
writer is open, and else takes the oldest bytes. -/
theorem Stores.readFrom
    {pipe : Pipe α}
    {contents : List UInt8}
    {rest : List α}
    {n : Nat}
    (stores : Stores limits pipe contents rest)
    (sizeFits : limits.bufferSize ≤ limits.intMax)
    (small : n ≤ limits.intMax) :
    pipe.writer ≠ none ∧ pipe.readFrom limits n = (.waits, pipe) ∨
      ∃ after others,
        pipe.readFrom limits n = (.moved (contents.take n), after) ∧
        Stores limits after (contents.drop n) others ∧
        after.writer = pipe.writer ∧ after.reader = pipe.reader := by
  have fits := stores.fits
  rw [Pipe.readFrom]
  by_cases waits : pipe.bufferBytes = 0 ∧ pipe.writer ≠ none
  · exact .inl ⟨waits.2, if_pos waits⟩
  · right
    rw [if_neg waits]
    by_cases ended : pipe.writer = none ∧ pipe.bufferBytes = 0
    · have empty : contents = [] := by
        rw [← List.length_eq_zero_iff, ← stores.counted]
        exact ended.2
      subst empty
      exact ⟨pipe, rest, by rw [if_pos ended, List.take_nil],
        by rwa [List.drop_nil], rfl, rfl⟩
    · have least : (if n < pipe.bufferBytes then n else pipe.bufferBytes) =
          min n contents.length := by
        rw [stores.counted]
        split <;> omega
      obtain ⟨after, others, ran, storesAll, sameWriter, sameReader⟩ :=
        stores.readLoop (min n contents.length) sizeFits (by omega)
      rw [← List.take_eq_take_min] at ran
      rw [← List.drop_eq_drop_min] at storesAll
      refine ⟨after, others, ?_, storesAll, sameWriter, sameReader⟩
      rw [if_neg ended, least, PipeLimits.signed_of_le (by omega)]
      simp only [Int.toNat_natCast, ran]

end Pipe

namespace PipeRun

variable {α : Type} [DecidableEq α] {limits : PipeLimits}

/-- A first-in first-out queue of bytes with the calls around it: the abstract
state is the bytes in the buffer. -/
structure Queued
    (limits : PipeLimits)
    (run : PipeRun α)
    (contents : List UInt8)
    (rest : List α) : Prop where
  stores : run.pipe.Stores limits contents rest
  fifo : run.returned ++ contents = run.accepted
  whole : run.torn = false
  reader : run.pipe.reader ≠ none
  closed : run.pipe.writer = none →
    ∀ call ∈ run.calls, call.write = true → call.result ≠ none
  sizes : ∀ call ∈ run.calls, call.n ≤ limits.intMax

omit [DecidableEq α] in
/-- What a call of `pipe_write` does to the queue. -/
theorem Queued.wrote
    {run : PipeRun α}
    {contents : List UInt8}
    {rest : List α}
    {outcome : PipeOutcome × Pipe α}
    {calls : List PipeCall}
    (queued : run.Queued limits contents rest)
    (isOutcome : outcome = (.waits, run.pipe) ∨ outcome = (.fails, run.pipe) ∨
      ∃ bytes after, outcome = (.moved bytes, after) ∧
        after.Stores limits (contents ++ bytes) rest ∧
        after.writer = run.pipe.writer ∧ after.reader = run.pipe.reader)
    (closed : run.pipe.writer = none →
      ∀ call ∈ calls, call.write = true → call.result ≠ none)
    (sizes : ∀ call ∈ calls, call.n ≤ limits.intMax) :
    ∃ contents rest, (run.wrote outcome calls).Queued limits contents rest := by
  rcases isOutcome with rfl | rfl | ⟨bytes, after, rfl, stores, sameWriter,
    sameReader⟩
  · exact ⟨contents, rest, queued.stores, by simpa [PipeRun.wrote,
      PipeOutcome.bytes] using queued.fifo, by simpa [PipeRun.wrote,
      PipeOutcome.isTorn] using queued.whole, queued.reader, closed, sizes⟩
  · exact ⟨contents, rest, queued.stores, by simpa [PipeRun.wrote,
      PipeOutcome.bytes] using queued.fifo, by simpa [PipeRun.wrote,
      PipeOutcome.isTorn] using queued.whole, queued.reader, closed, sizes⟩
  · refine ⟨contents ++ bytes, rest, stores, ?_, ?_, ?_, ?_, sizes⟩
    · simp only [PipeRun.wrote, PipeOutcome.bytes]
      rw [← queued.fifo, List.append_assoc]
    · simpa [PipeRun.wrote, PipeOutcome.isTorn] using queued.whole
    · exact sameReader ▸ queued.reader
    · exact fun isClosed => closed (sameWriter ▸ isClosed)

omit [DecidableEq α] in
/-- What a call of `pipe_read` does to the queue. -/
theorem Queued.read
    {run : PipeRun α}
    {contents : List UInt8}
    {rest : List α}
    {outcome : PipeOutcome × Pipe α}
    {calls : List PipeCall}
    (queued : run.Queued limits contents rest)
    (isOutcome : outcome = (.waits, run.pipe) ∨
      ∃ n after others, outcome = (.moved (contents.take n), after) ∧
        after.Stores limits (contents.drop n) others ∧
        after.writer = run.pipe.writer ∧ after.reader = run.pipe.reader)
    (closed : run.pipe.writer = none →
      ∀ call ∈ calls, call.write = true → call.result ≠ none)
    (sizes : ∀ call ∈ calls, call.n ≤ limits.intMax) :
    ∃ contents rest, (run.read outcome calls).Queued limits contents rest := by
  rcases isOutcome with rfl | ⟨n, after, others, rfl, stores, sameWriter,
    sameReader⟩
  · exact ⟨contents, rest, queued.stores, by simpa [PipeRun.read,
      PipeOutcome.bytes] using queued.fifo, by simpa [PipeRun.read,
      PipeOutcome.isTorn] using queued.whole, queued.reader, closed, sizes⟩
  · refine ⟨contents.drop n, others, stores, ?_, ?_, ?_, ?_, sizes⟩
    · simp only [PipeRun.read, PipeOutcome.bytes]
      rw [List.append_assoc, List.take_append_drop]
      exact queued.fifo
    · simpa [PipeRun.read, PipeOutcome.isTorn] using queued.whole
    · exact sameReader ▸ queued.reader
    · exact fun isClosed => closed (sameWriter ▸ isClosed)

/-- `pipe_read` with an open reader is what it does from its waiting loop on. -/
theorem pipeRead_eq
    {pipe : Pipe α}
    (n : Nat)
    (isOpen : pipe.reader ≠ none) :
    pipe.pipeRead limits n = pipe.readFrom limits n := by
  rw [Pipe.pipeRead, if_neg isOpen, Pipe.readFrom]
  by_cases ended : pipe.writer = none ∧ pipe.bufferBytes = 0
  · have noWait : ¬(pipe.bufferBytes = 0 ∧ pipe.writer ≠ none) :=
      fun waits => waits.2 ended.1
    rw [if_pos ended, if_neg noWait, if_pos ended]
  · rw [if_neg ended]

/-- The outcomes of `pipe_read` from its waiting loop on. -/
theorem Queued.readFrom
    {run : PipeRun α}
    {contents : List UInt8}
    {rest : List α}
    {n : Nat}
    (queued : run.Queued limits contents rest)
    (sizeFits : limits.bufferSize ≤ limits.intMax)
    (small : n ≤ limits.intMax) :
    run.pipe.readFrom limits n = (.waits, run.pipe) ∨
      ∃ count after others,
        run.pipe.readFrom limits n = (.moved (contents.take count), after) ∧
        after.Stores limits (contents.drop count) others ∧
        after.writer = run.pipe.writer ∧ after.reader = run.pipe.reader := by
  rcases queued.stores.readFrom sizeFits small with ⟨_, waits⟩ |
    ⟨after, others, moved⟩
  · exact .inl waits
  · exact .inr ⟨n, after, others, moved⟩

/-- The outcomes of `pipe_write` from its waiting loop on. -/
theorem Queued.writeFrom
    {run : PipeRun α}
    {contents : List UInt8}
    {rest : List α}
    {n : Nat}
    (queued : run.Queued limits contents rest)
    (sizeFits : limits.bufferSize ≤ limits.intMax)
    (small : n ≤ limits.intMax)
    (buf : Nat → UInt8) :
    run.pipe.writeFrom limits buf n = (.waits, run.pipe) ∨
      ∃ bytes after, run.pipe.writeFrom limits buf n = (.moved bytes, after) ∧
        after.Stores limits (contents ++ bytes) rest ∧
        after.writer = run.pipe.writer ∧ after.reader = run.pipe.reader := by
  rcases queued.stores.writeFrom sizeFits queued.reader small buf with waits |
    ⟨count, after, moved⟩
  · exact .inl waits
  · exact .inr ⟨_, after, moved⟩

/-- A member of a list with one entry replaced. -/
theorem forall_mem_set
    {calls : List PipeCall}
    {property : PipeCall → Prop}
    {call : PipeCall}
    (index : Nat)
    (holds : ∀ other ∈ calls, property other)
    (replaced : property call) :
    ∀ other ∈ calls.set index call, property other := by
  intro other member
  rcases List.mem_or_eq_of_mem_set member with old | rfl
  · exact holds other old
  · exact replaced

/-- A member of a list with one entry more. -/
theorem forall_mem_append
    {calls : List PipeCall}
    {property : PipeCall → Prop}
    {call : PipeCall}
    (holds : ∀ other ∈ calls, property other)
    (added : property call) :
    ∀ other ∈ calls ++ [call], property other := by
  intro other member
  rcases List.mem_append.mp member with old | isNew
  · exact holds other old
  · rw [List.mem_singleton.mp isNew]
    exact added

/-- A waiting call goes on. -/
theorem Queued.resume
    {run : PipeRun α}
    {contents : List UInt8}
    {rest : List α}
    {index : Nat}
    {call : PipeCall}
    (queued : run.Queued limits contents rest)
    (sizeFits : limits.bufferSize ≤ limits.intMax)
    (isCall : run.calls[index]? = some call)
    (waiting : call.result = none) :
    ∃ contents rest,
      (run.resume limits index call).Queued limits contents rest := by
  have member := List.mem_of_getElem? isCall
  have small := queued.sizes call member
  rw [PipeRun.resume]
  split
  · next isWrite =>
      have isOpen : run.pipe.writer ≠ none :=
        fun isClosed => queued.closed isClosed call member isWrite waiting
      refine queued.wrote ?_ (fun isClosed => absurd isClosed isOpen)
        (forall_mem_set index queued.sizes small)
      exact (queued.writeFrom sizeFits small call.buf).imp_right .inr
  · next isRead =>
      refine queued.read ?_ ?_ (forall_mem_set index queued.sizes small)
      · rcases queued.readFrom sizeFits small with waits |
          ⟨count, after, others, moved⟩
        · exact .inl waits
        · exact .inr ⟨count, after, others, moved⟩
      · intro isClosed
        exact forall_mem_set index (queued.closed isClosed)
          fun isWrite => absurd isWrite isRead

/-- Every step keeps the queue. -/
theorem Queued.step
    {run : PipeRun α}
    {contents : List UInt8}
    {rest : List α}
    {action : PipeAction}
    (queued : run.Queued limits contents rest)
    (sizeFits : limits.bufferSize ≤ limits.intMax)
    (allowed : run.Allowed limits action) :
    ∃ contents rest, (run.step limits action).Queued limits contents rest := by
  cases action with
  | write buf n =>
      have sizes := forall_mem_append queued.sizes
        (show (PipeCall.mk true buf n
          (run.pipe.pipeWrite limits buf n).1.result).n ≤ limits.intMax
            from allowed)
      by_cases isOpen : run.pipe.writer = none
      · have fails : run.pipe.pipeWrite limits buf n = (.fails, run.pipe) :=
          if_pos (.inl isOpen)
        refine queued.wrote (.inr (.inl fails)) ?_ sizes
        intro isClosed
        apply forall_mem_append (queued.closed isClosed)
        intro _
        rw [fails]
        exact Option.some_ne_none _
      · have noFailure : ¬(run.pipe.writer = none ∨ run.pipe.reader = none) :=
          fun closed => closed.elim isOpen queued.reader
        have entered : run.pipe.pipeWrite limits buf n =
            run.pipe.writeFrom limits buf n := if_neg noFailure
        refine queued.wrote ?_ (fun isClosed => absurd isClosed isOpen) sizes
        rw [entered]
        exact (queued.writeFrom sizeFits allowed buf).imp_right .inr
  | read n =>
      refine queued.read ?_ ?_ (forall_mem_append queued.sizes allowed)
      · rw [pipeRead_eq n queued.reader]
        rcases queued.readFrom sizeFits allowed with waits |
          ⟨count, after, others, moved⟩
        · exact .inl waits
        · exact .inr ⟨count, after, others, moved⟩
      · intro isClosed
        exact forall_mem_append (queued.closed isClosed) (fun isWrite => nomatch isWrite)
  | resume index =>
      simp only [PipeRun.step]
      split
      · next isCall => exact queued.resume sizeFits isCall rfl
      · exact ⟨contents, rest, queued⟩
  | closeWriter =>
      obtain ⟨ring, size, marks, writePos, counted, fits⟩ := queued.stores
      exact ⟨contents, rest, ⟨ring, size, marks, writePos, counted, fits⟩,
        queued.fifo, queued.whole, queued.reader, fun _ => allowed, queued.sizes⟩

/-- What holds of a pipe at every moment. -/
structure Lossless (limits : PipeLimits) (run : PipeRun α) : Prop where
  bounded : run.pipe.bufferBytes ≤ limits.bufferSize
  fifo : run.returned ++ run.pipe.buffered = run.accepted
  whole : run.torn = false
  /-- When the writer has been closed nothing is added any more, and reading
  takes the remaining bytes, oldest first, without waiting. -/
  drained : run.pipe.writer = none →
    (∀ call ∈ run.calls, call.write = true → call.result ≠ none) ∧
    ∀ n ≤ limits.intMax, ∃ after,
      run.pipe.pipeRead limits n =
        (.moved (run.pipe.buffered.take n), after) ∧
      run.pipe.readFrom limits n =
        (.moved (run.pipe.buffered.take n), after) ∧
      after.buffered = run.pipe.buffered.drop n

theorem Queued.lossless
    {run : PipeRun α}
    {contents : List UInt8}
    {rest : List α}
    (queued : run.Queued limits contents rest)
    (sizeFits : limits.bufferSize ≤ limits.intMax) :
    run.Lossless limits := by
  have isBuffered := queued.stores.buffered
  refine ⟨?_, ?_, queued.whole, ?_⟩
  · rw [queued.stores.counted]
    exact queued.stores.fits
  · rw [isBuffered]
    exact queued.fifo
  · intro isClosed
    refine ⟨queued.closed isClosed, ?_⟩
    intro n small
    rcases queued.stores.readFrom sizeFits small with ⟨isOpen, _⟩ |
      ⟨after, others, moved, stores, _, _⟩
    · exact absurd isClosed isOpen
    · refine ⟨after, ?_, ?_, ?_⟩
      · rw [pipeRead_eq n queued.reader, moved, isBuffered]
      · rw [moved, isBuffered]
      · rw [stores.buffered, isBuffered]

/-- A pipe made by `pipe_init` is a lossless bounded queue in every run, whatever
the bytes are: what has been returned and what is in the buffer is what has been
accepted, and no write is broken off. -/
theorem pipe_lossless
    (limits : PipeLimits)
    (null : α)
    (heap : CHeap α)
    (startNode : α)
    (nodes : List α)
    (writer reader : Nat)
    (run : PipeRun α)
    (room : 1 ≤ limits.bufferSize)
    (sizeFits : limits.bufferSize ≤ limits.intMax)
    (real : startNode ≠ null)
    (distinct : (startNode :: nodes).Nodup)
    (allocated : nodes.length = limits.bufferSize)
    (reached : Reachable (fun run action => (.ok (run.step limits action) :
      Except Unit (PipeRun α))) (Allowed limits)
        (start (Pipe.pipeInit null heap startNode nodes writer reader)) run) :
    run.Lossless limits := by
  have stores := Pipe.stores_pipeInit heap writer reader real distinct allocated room
  have initially : (start (Pipe.pipeInit null heap startNode nodes writer
      reader)).Queued limits [] nodes := by
    refine ⟨stores, rfl, rfl, Option.some_ne_none reader, ?_, ?_⟩
    · exact fun _ call member => absurd member List.not_mem_nil
    · exact fun call member => absurd member List.not_mem_nil
  have queued : ∃ contents rest, run.Queued limits contents rest := by
    refine reached.invariant
      (motive := fun run => ∃ contents rest, run.Queued limits contents rest)
      ⟨[], nodes, initially⟩ ?_
    rintro before after action ⟨contents, rest, queued⟩ allowed stepped
    cases stepped
    exact queued.step sizeFits allowed
  obtain ⟨contents, rest, queued⟩ := queued
  exact queued.lossless sizeFits

/-- With room for two bytes: a write is cut short, the next one waits until a
byte has been read, and the writer is closed.  Every byte is zero. -/
theorem pipe_lossless_two :
    ∃ run : PipeRun Nat, (run.accepted = [0, 0, 0] ∧ run.returned = [0] ∧
      run.pipe.writer = none) ∧ run.Lossless ⟨2, 32767⟩ := by
  have ran : ∃ run : PipeRun Nat,
      Reachable (fun run action => (.ok (run.step ⟨2, 32767⟩ action) :
        Except Unit (PipeRun Nat))) (Allowed ⟨2, 32767⟩)
          (start (Pipe.pipeInit 0 (fun _ => ⟨0, 0, 9⟩) 1 [2, 3] 0 1)) run ∧
      decide (run.accepted = [0, 0, 0] ∧ run.returned = [0] ∧
        run.pipe.writer = none) = true :=
    exists_reachable_of_any [.write (fun _ => 0) 3, .write (fun _ => 0) 1,
      .read 1, .resume 1, .closeWriter] (by decide)
  obtain ⟨run, reached, test⟩ := ran
  exact ⟨run, of_decide_eq_true test, pipe_lossless ⟨2, 32767⟩ 0 _ 1 [2, 3] 0 1
    run (by decide) (by decide) (by decide) (by decide) rfl reached⟩

end PipeRun
end TinierOS
