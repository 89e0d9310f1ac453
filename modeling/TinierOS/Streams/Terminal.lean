import TinierOS.Library.Labelled
import TinierOS.Library.Transition
import TinierOS.Streams.Devices

/-!
# The serial terminal

The UART and the calls of `Read` and `Write` on terminal 0.  The receiver is a
queue whose front is taken by each read of `UDR0`; a write of `UDR0` hands one
byte to the transmitter.  Every call polls in a loop of its own, and the calls go
on in any order: the scheduler decides at each yield who is next, and nothing
about that choice is assumed here.
-/

namespace TinierOS

/-- A call of `Read` or `Write` in or after its loop, and what it returned. -/
structure TerminalCall where
  transfer : Transfer
  result : Option Int

/-- A call that reaches the loop of the serial device. -/
def TerminalCall.fresh
    (write : Bool)
    (buf : Nat → UInt8)
    (size : Nat) : TerminalCall where
  transfer :=
    { write := write, devno := 0, buf := buf, size := size, count := 0 }
  result := none

/-- The receiver, the calls made so far, and what went through `UDR0`: the bytes
read from it, which of them a call has stored in its buffer, and the bytes
written to it, each with the number of the call. -/
structure Terminal where
  fifo : List UInt8
  calls : List TerminalCall
  removed : List UInt8
  stored : List (Nat × UInt8)
  sent : List (Nat × UInt8)

/-- What happens to the terminal. -/
inductive TerminalAction
  /-- The receiver completes a byte. -/
  | arrive (byte : UInt8)
  /-- `USART_RX_vect` -/
  | interrupt
  /-- A call of `Read` or `Write` reaches the device. -/
  | start (write : Bool) (buf : Nat → UInt8) (size : Nat)
  /-- One pass of the loop of a call; `UDRE0` tells whether it may send. -/
  | pass (call : Nat) (ready : Bool)

namespace Transfer

/-- The first bytes of the buffer. -/
def bytes (transfer : Transfer) (count : Nat) : List UInt8 :=
  (List.range count).map transfer.buf

theorem bytes_succ (transfer : Transfer) (count : Nat) :
    transfer.bytes (count + 1) =
      transfer.bytes count ++ [transfer.buf count] := by
  simp [bytes, List.range_succ]

theorem bytes_prefix
    {count more : Nat}
    (transfer : Transfer)
    (fewer : count ≤ more) :
    transfer.bytes count <+: transfer.bytes more := by
  apply List.IsPrefix.map
  rw [← Nat.min_eq_left fewer, ← List.take_range]
  exact List.take_prefix count _

end Transfer

namespace Terminal

/-- No call and no byte so far. -/
def idle : Terminal := ⟨[], [], [], [], []⟩

/-- What `bios_read_serial` and `bios_write_serial` find. -/
def lines (terminal : Terminal) (ready : Bool) : SerialLines where
  received := fun _ => terminal.fifo.head?
  ready := fun _ => ready

/-- A read of `UDR0` takes the front of the receiver. -/
def readUdr (terminal : Terminal) : Terminal :=
  { terminal with
    fifo := terminal.fifo.tail
    removed := terminal.removed ++ terminal.fifo.head?.toList }

/-- A byte was moved by a call in its loop. -/
def moved (terminal : Terminal) (call : Nat) (transfer : Transfer) : Terminal :=
  if transfer.write then
    { terminal with
      sent := terminal.sent ++ [(call, transfer.buf transfer.count)] }
  else
    { terminal.readUdr with
      stored := terminal.stored ++
        terminal.fifo.head?.toList.map (fun byte => (call, byte)) }

/-- One pass of the loop of a call. -/
def pass
    (terminal : Terminal)
    (call : Nat)
    (transfer : Transfer)
    (ready : Bool) : Terminal :=
  match transfer.pass (terminal.lines ready) with
  | .finished => { terminal with
      calls := terminal.calls.set call
        ⟨transfer, some (intOfUnsigned transfer.count)⟩ }
  | .moved later => { terminal.moved call transfer with
      calls := terminal.calls.set call ⟨later, none⟩ }
  | .blocked => terminal

/-- One step. -/
def step (terminal : Terminal) : TerminalAction → Terminal
  | .arrive byte => { terminal with fifo := terminal.fifo ++ [byte] }
  -- `dummy` is not used again, and the registered handler returns at once.
  | .interrupt => terminal.readUdr
  | .start write buf size =>
      { terminal with
        calls := terminal.calls ++ [TerminalCall.fresh write buf size] }
  | .pass call ready =>
      match terminal.calls[call]? with
      | some ⟨transfer, none⟩ => terminal.pass call transfer ready
      | _ => terminal

/-! ## What one step does -/

/-- What a pass of a call does, with everything that decides it. -/
inductive Passed
    (terminal : Terminal)
    (call : Nat)
    (transfer : Transfer)
    (ready : Bool) : Terminal → Prop
  /-- The loop of `serial_write` or `serial_read` is over. -/
  | finished
      (enough : transfer.write → transfer.size ≤ transfer.count) :
      Passed terminal call transfer ready { terminal with
        calls := terminal.calls.set call
          ⟨transfer, some (intOfUnsigned transfer.count)⟩ }
  /-- `bios_write_serial` stored the next byte of the buffer. -/
  | sent
      (isWrite : transfer.write = true)
      (more : transfer.count < transfer.size) :
      Passed terminal call transfer ready { terminal with
        calls := terminal.calls.set call
          ⟨{ transfer with count := transfer.count + 1 }, none⟩
        sent := terminal.sent ++ [(call, transfer.buf transfer.count)] }
  /-- `bios_read_serial` stored a byte in the buffer. -/
  | received
      (byte : UInt8)
      (later : List UInt8)
      (isRead : transfer.write = false)
      (more : transfer.count < transfer.size)
      (front : terminal.fifo = byte :: later) :
      Passed terminal call transfer ready { terminal with
        fifo := later
        calls := terminal.calls.set call
          ⟨{ transfer with
            buf := Function.update transfer.buf transfer.count byte
            count := transfer.count + 1 }, none⟩
        removed := terminal.removed ++ [byte]
        stored := terminal.stored ++ [(call, byte)] }
  /-- The call yields. -/
  | blocked : Passed terminal call transfer ready terminal

theorem passed_pass
    (terminal : Terminal)
    (call : Nat)
    (transfer : Transfer)
    (ready : Bool) :
    Passed terminal call transfer ready
      (terminal.pass call transfer ready) := by
  cases direction : transfer.write with
  | true =>
      have loop : transfer.pass (terminal.lines ready) =
          transfer.serialWrite (terminal.lines ready) := if_pos direction
      rw [pass, loop, Transfer.serialWrite]
      by_cases more : transfer.count < transfer.size
      · rw [if_pos more]
        cases ready with
        | true =>
            rw [if_pos (by rfl)]
            simp only [moved, if_pos direction]
            exact .sent direction more
        | false =>
            rw [if_neg (by simp [lines])]
            exact .blocked
      · rw [if_neg more]
        exact .finished fun _ => not_lt.mp more
  | false =>
      have isRead : ¬transfer.write = true := by simp [direction]
      have loop : transfer.pass (terminal.lines ready) =
          transfer.serialRead (terminal.lines ready) := if_neg isRead
      rw [pass, loop, Transfer.serialRead]
      by_cases more : transfer.count < transfer.size
      · rw [if_pos more]
        by_cases empty : terminal.fifo = []
        · have nothing : (terminal.lines ready).received transfer.devno = none := by
            simp [lines, empty]
          rw [nothing]
          by_cases started : 0 < transfer.count
          · simp only [if_pos started]
            exact .finished fun isWrite => absurd isWrite isRead
          · simp only [if_neg started]
            exact .blocked
        · obtain ⟨byte, later, front⟩ := List.exists_cons_of_ne_nil empty
          have something : (terminal.lines ready).received transfer.devno =
              some byte := by
            simp [lines, front]
          rw [something]
          simp only [moved, if_neg isRead, readUdr, front, List.tail_cons,
            List.head?_cons, Option.toList_some, List.map_cons, List.map_nil]
          exact .received byte later direction more front
      · rw [if_neg more]
        exact .finished fun isWrite => absurd isWrite isRead

/-! ## What the calls have moved -/

/-- How the log of one direction stands to one call: it has what the call
counts, and a call of the other direction has no part in it. -/
def Counted
    (log : List (Nat × UInt8))
    (write : Bool)
    (call : Nat) : Option TerminalCall → Prop
  | none => Labelled.part log call = []
  | some made =>
      made.transfer.count ≤ made.transfer.size ∧
        Labelled.part log call =
          if made.transfer.write = write then
            made.transfer.bytes made.transfer.count
          else []

/-- The logs and the calls agree, and a call of `Write` that has returned has
sent its whole buffer and returned its count. -/
structure Consistent (terminal : Terminal) : Prop where
  sent : ∀ call, Counted terminal.sent true call terminal.calls[call]?
  stored : ∀ call, Counted terminal.stored false call terminal.calls[call]?
  returned : ∀ (call : Nat) (made : TerminalCall) (result : Int),
    terminal.calls[call]? = some made →
    made.transfer.write = true → made.result = some result →
      made.transfer.count = made.transfer.size ∧
        result = intOfUnsigned made.transfer.count

theorem consistent_idle : idle.Consistent where
  sent := fun _ => rfl
  stored := fun _ => rfl
  returned := by simp [idle]

/-- A log that gets nothing of a call still agrees with it. -/
theorem Counted.append_of_ne
    {log : List (Nat × UInt8)}
    {write : Bool}
    {call other : Nat}
    {made : Option TerminalCall}
    (counted : Counted log write other made)
    (byte : UInt8)
    (different : call ≠ other) :
    Counted (log ++ [(call, byte)]) write other made := by
  have same : Labelled.part (log ++ [(call, byte)]) other =
      Labelled.part log other := by
    rw [Labelled.part_append, Labelled.part_singleton_of_ne byte different,
      List.append_nil]
  cases made <;> simpa only [Counted, same] using counted

/-- The next byte of a call goes to the end of its part. -/
theorem part_append_self
    (log : List (Nat × UInt8))
    (call : Nat)
    (byte : UInt8) :
    Labelled.part (log ++ [(call, byte)]) call =
      Labelled.part log call ++ [byte] := by
  rw [Labelled.part_append, Labelled.part_singleton_self]

/-- Only the entry of one call changes, and it agrees with the logs again. -/
theorem Consistent.of_set
    {terminal after : Terminal}
    {call : Nat}
    {made : TerminalCall}
    (consistent : terminal.Consistent)
    (callsAre : after.calls = terminal.calls.set call made)
    (present : call < terminal.calls.length)
    (sent : Counted after.sent true call (some made))
    (stored : Counted after.stored false call (some made))
    (sentOthers : ∀ other, call ≠ other → ∀ entry,
      Counted terminal.sent true other entry →
        Counted after.sent true other entry)
    (storedOthers : ∀ other, call ≠ other → ∀ entry,
      Counted terminal.stored false other entry →
        Counted after.stored false other entry)
    (returned : ∀ result, made.transfer.write = true →
      made.result = some result →
        made.transfer.count = made.transfer.size ∧
          result = intOfUnsigned made.transfer.count) :
    after.Consistent := by
  have own : after.calls[call]? = some made := by
    rw [callsAre, List.getElem?_set_self present]
  have others : ∀ other, call ≠ other →
      after.calls[other]? = terminal.calls[other]? := by
    intro other different
    rw [callsAre, List.getElem?_set_ne different]
  refine ⟨?_, ?_, ?_⟩
  · intro other
    by_cases same : call = other
    · rw [← same, own]
      exact sent
    · rw [others other same]
      exact sentOthers other same _ (consistent.sent other)
  · intro other
    by_cases same : call = other
    · rw [← same, own]
      exact stored
    · rw [others other same]
      exact storedOthers other same _ (consistent.stored other)
  · intro other entry result isEntry
    by_cases same : call = other
    · rw [← same, own, Option.some.injEq] at isEntry
      subst isEntry
      exact returned result
    · rw [others other same] at isEntry
      exact consistent.returned other entry result isEntry

/-- Reading `UDR0` and receiving a byte change no log of a call. -/
theorem Consistent.congr
    {terminal after : Terminal}
    (consistent : terminal.Consistent)
    (sameCalls : after.calls = terminal.calls)
    (sameSent : after.sent = terminal.sent)
    (sameStored : after.stored = terminal.stored) :
    after.Consistent := by
  refine ⟨?_, ?_, ?_⟩
  · rw [sameCalls, sameSent]
    exact consistent.sent
  · rw [sameCalls, sameStored]
    exact consistent.stored
  · rw [sameCalls]
    exact consistent.returned

/-- A new call has moved nothing. -/
theorem Consistent.start
    {terminal : Terminal}
    (consistent : terminal.Consistent)
    (write : Bool)
    (buf : Nat → UInt8)
    (size : Nat) :
    (terminal.step (.start write buf size)).Consistent := by
  have entries : ∀ call : Nat,
      (terminal.calls ++ [TerminalCall.fresh write buf size])[call]? =
        terminal.calls[call]? ∨
      terminal.calls[call]? = none ∧
        (terminal.calls ++ [TerminalCall.fresh write buf size])[call]? =
          some (TerminalCall.fresh write buf size) := by
    intro call
    rcases lt_trichotomy call terminal.calls.length with old | rfl | beyond
    · exact .inl (List.getElem?_append_left old)
    · exact .inr (by simp)
    · refine .inl ?_
      rw [List.getElem?_eq_none (by simp; omega),
        List.getElem?_eq_none (by omega)]
  have counted : ∀ log direction call, Counted log direction call none →
      Counted log direction call (some (TerminalCall.fresh write buf size)) := by
    intro log direction call noPart
    refine ⟨Nat.zero_le _, ?_⟩
    rw [show Labelled.part log call = [] from noPart]
    split <;> rfl
  refine ⟨?_, ?_, ?_⟩
  · intro call
    have before := consistent.sent call
    rcases entries call with same | ⟨absent, isNew⟩
    · rwa [step, same]
    · rw [absent] at before
      rw [step, isNew]
      exact counted _ _ _ before
  · intro call
    have before := consistent.stored call
    rcases entries call with same | ⟨absent, isNew⟩
    · rwa [step, same]
    · rw [absent] at before
      rw [step, isNew]
      exact counted _ _ _ before
  · intro call made result isMade isWrite hasResult
    rcases entries call with same | ⟨absent, isNew⟩
    · rw [step, same] at isMade
      exact consistent.returned call made result isMade isWrite hasResult
    · rw [step, isNew, Option.some.injEq] at isMade
      subst isMade
      cases hasResult

theorem Consistent.pass
    {terminal after : Terminal}
    {call : Nat}
    {transfer : Transfer}
    {ready : Bool}
    (consistent : terminal.Consistent)
    (isCall : terminal.calls[call]? = some ⟨transfer, none⟩)
    (passed : Passed terminal call transfer ready after) :
    after.Consistent := by
  have present : call < terminal.calls.length :=
    (List.getElem?_eq_some_iff.mp isCall).1
  have sent := consistent.sent call
  have stored := consistent.stored call
  rw [isCall] at sent stored
  cases passed with
  | blocked => exact consistent
  | finished enough =>
      refine consistent.of_set rfl present sent stored (fun _ _ _ same => same)
        (fun _ _ _ same => same) ?_
      intro result isWrite hasResult
      cases hasResult
      exact ⟨le_antisymm sent.1 (enough isWrite), rfl⟩
  | sent isWrite more =>
      refine consistent.of_set rfl present ⟨more, ?_⟩ ⟨more, ?_⟩ ?_
        (fun _ _ _ same => same) (fun _ _ noResult => nomatch noResult)
      · have so := sent.2
        simp only [isWrite, if_true] at so ⊢
        rw [part_append_self, so]
        exact (transfer.bytes_succ transfer.count).symm
      · have so := stored.2
        simp only [isWrite] at so ⊢
        exact so
      · exact fun other different _ counted => counted.append_of_ne _ different
  | received byte later isRead more front =>
      refine consistent.of_set rfl present ⟨more, ?_⟩ ⟨more, ?_⟩
        (fun _ _ _ same => same) ?_ (fun _ _ noResult => nomatch noResult)
      · have so := sent.2
        simp only [isRead] at so ⊢
        exact so
      · have so := stored.2
        simp only [isRead, if_true] at so ⊢
        rw [part_append_self, so, Transfer.bytes_succ]
        congr 1
        · apply List.map_congr_left
          intro index inBuffer
          rw [List.mem_range] at inBuffer
          exact (Function.update_of_ne (Nat.ne_of_lt inBuffer) ..).symm
        · simp
      · exact fun other different _ counted => counted.append_of_ne _ different

theorem Consistent.step
    {terminal : Terminal}
    (consistent : terminal.Consistent)
    (action : TerminalAction) :
    (terminal.step action).Consistent := by
  cases action with
  | arrive byte => exact consistent.congr rfl rfl rfl
  | interrupt => exact consistent.congr rfl rfl rfl
  | start write buf size => exact consistent.start write buf size
  | pass call ready =>
      simp only [Terminal.step]
      split
      · next transfer isCall =>
          exact consistent.pass isCall (passed_pass terminal call transfer ready)
      · exact consistent

/-! ## Who takes the received bytes -/

/-- Every received byte that was taken has been stored in the buffer of a call
of `Read`, in the order in which the bytes were taken. -/
structure Delivered (terminal : Terminal) : Prop where
  all : terminal.removed = terminal.stored.map Prod.snd
  buffered : ∀ call byte, (call, byte) ∈ terminal.stored →
    ∃ made, terminal.calls[call]? = some made ∧ made.transfer.write = false ∧
      Labelled.part terminal.stored call =
        made.transfer.bytes made.transfer.count

/-- Whatever is not the interrupt stores the bytes that it takes. -/
theorem step_stores
    {action : TerminalAction}
    (terminal : Terminal)
    (noInterrupt : action ≠ .interrupt) :
    ∃ moved : List (Nat × UInt8),
      (terminal.step action).stored = terminal.stored ++ moved ∧
      (terminal.step action).removed =
        terminal.removed ++ moved.map Prod.snd := by
  cases action with
  | arrive byte => exact ⟨[], by simp [step], by simp [step]⟩
  | interrupt => exact absurd rfl noInterrupt
  | start write buf size => exact ⟨[], by simp [step], by simp [step]⟩
  | pass call ready =>
      simp only [step]
      split
      · next transfer _ =>
          have passed := passed_pass terminal call transfer ready
          generalize terminal.pass call transfer ready = after at passed ⊢
          cases passed with
          | finished enough => exact ⟨[], by simp, by simp⟩
          | sent isWrite more => exact ⟨[], by simp, by simp⟩
          | received byte later isRead more front => exact ⟨[(call, byte)], rfl, rfl⟩
          | blocked => exact ⟨[], by simp, by simp⟩
      · exact ⟨[], by simp, by simp⟩

/-- The interrupt takes a byte and stores nothing. -/
theorem step_interrupt
    {terminal : Terminal}
    (received : terminal.fifo ≠ []) :
    ∃ byte, (terminal.step .interrupt).removed = terminal.removed ++ [byte] ∧
      (terminal.step .interrupt).stored = terminal.stored := by
  obtain ⟨byte, later, front⟩ := List.exists_cons_of_ne_nil received
  exact ⟨byte, by simp [step, readUdr, front], rfl⟩

theorem Consistent.buffered
    {terminal : Terminal}
    {call : Nat}
    {byte : UInt8}
    (consistent : terminal.Consistent)
    (isStored : (call, byte) ∈ terminal.stored) :
    ∃ made, terminal.calls[call]? = some made ∧ made.transfer.write = false ∧
      Labelled.part terminal.stored call =
        made.transfer.bytes made.transfer.count := by
  have counted := consistent.stored call
  have member : byte ∈ Labelled.part terminal.stored call :=
    Labelled.mem_part isStored
  cases isMade : terminal.calls[call]? with
  | none =>
      rw [isMade] at counted
      rw [show Labelled.part terminal.stored call = [] from counted] at member
      cases member
  | some made =>
      rw [isMade] at counted
      cases direction : made.transfer.write with
      | true =>
          have noPart := counted.2
          rw [direction, if_neg (by decide)] at noPart
          rw [noPart] at member
          cases member
      | false =>
          have part := counted.2
          rw [direction, if_pos rfl] at part
          exact ⟨made, rfl, direction, part⟩

/-! ## Whole runs -/

/-- All steps of a run. -/
def run (terminal : Terminal) (actions : List TerminalAction) : Terminal :=
  actions.foldl step terminal

/-- What a call keeps from its start: its direction, its size, and the bytes it
has to send if it is a call of `Write`. -/
def origin (made : TerminalCall) : Bool × Nat × List UInt8 :=
  (made.transfer.write, made.transfer.size,
    if made.transfer.write then made.transfer.bytes made.transfer.size else [])

/-- The calls that a run starts, in order. -/
def started (actions : List TerminalAction) : List TerminalCall :=
  actions.filterMap fun
    | .start write buf size => some (TerminalCall.fresh write buf size)
    | _ => none

/-- The bytes that the call with a given number has to send: its buffer if it is
a call of `Write`. -/
def toSend (actions : List TerminalAction) (call : Nat) : List UInt8 :=
  match (started actions)[call]? with
  | some made => (origin made).2.2
  | none => []

/-- A pass changes neither the size of a call nor what it has to send. -/
theorem origins_pass
    {terminal after : Terminal}
    {call : Nat}
    {transfer : Transfer}
    {ready : Bool}
    (isCall : terminal.calls[call]? = some ⟨transfer, none⟩)
    (passed : Passed terminal call transfer ready after) :
    after.calls.map origin = terminal.calls.map origin := by
  have unchanged : ∀ made, origin made = origin ⟨transfer, none⟩ →
      (terminal.calls.set call made).map origin = terminal.calls.map origin := by
    intro made same
    obtain ⟨present, isEntry⟩ := List.getElem?_eq_some_iff.mp isCall
    rw [List.map_set, same, ← isEntry]
    have inMap : call < (terminal.calls.map origin).length := by
      rwa [List.length_map]
    rw [← List.getElem_map origin (h := inMap), List.set_getElem_self]
  cases passed with
  | blocked => rfl
  | finished => exact unchanged _ rfl
  | sent isWrite more => exact unchanged _ rfl
  | received byte later isRead more front =>
      apply unchanged
      simp [origin, isRead]

theorem origins_run (actions : List TerminalAction) :
    (idle.run actions).calls.map origin = (started actions).map origin := by
  induction actions using List.reverseRecOn with
  | nil => rfl
  | append_singleton actions action inductionHypothesis =>
      rw [run, List.foldl_append, started, List.filterMap_append, List.map_append,
        ← started, ← inductionHypothesis]
      simp only [List.foldl_cons, List.foldl_nil]
      cases action with
      | arrive byte => simp [step, run]
      | interrupt => simp [step, readUdr, run]
      | start write buf size => simp [step, run]
      | pass call ready =>
          simp only [step, List.filterMap_cons, List.filterMap_nil, List.map_nil,
            List.append_nil]
          split
          · next transfer isCall =>
              exact origins_pass isCall (passed_pass _ call transfer ready)
          · rfl

theorem consistent_run (actions : List TerminalAction) :
    (idle.run actions).Consistent := by
  induction actions using List.reverseRecOn with
  | nil => exact consistent_idle
  | append_singleton actions action inductionHypothesis =>
      rw [run, List.foldl_append]
      exact inductionHypothesis.step action

/-- Every call of the run is one that it started. -/
theorem exists_started
    {actions : List TerminalAction}
    {call : Nat}
    {made : TerminalCall}
    (isMade : (idle.run actions).calls[call]? = some made) :
    ∃ begun, (started actions)[call]? = some begun ∧
      origin made = origin begun := by
  have same := congrArg (·[call]?) (origins_run actions)
  simp only [List.getElem?_map, isMade, Option.map_some] at same
  cases isBegun : (started actions)[call]? with
  | none =>
      rw [isBegun] at same
      cases same
  | some begun =>
      rw [isBegun] at same
      exact ⟨begun, rfl, Option.some.inj same⟩

/-- What a call of the run has to send, read off the call itself. -/
theorem toSend_of_made
    {actions : List TerminalAction}
    {call : Nat}
    {made : TerminalCall}
    (isMade : (idle.run actions).calls[call]? = some made) :
    toSend actions call =
      if made.transfer.write then made.transfer.bytes made.transfer.size
      else [] := by
  obtain ⟨begun, isBegun, sameOrigin⟩ := exists_started isMade
  rw [toSend, isBegun]
  exact (congrArg (·.2.2) sameOrigin).symm

/-- The size of a call of `Write` is an argument of one of the starts. -/
theorem exists_start_of_made
    {actions : List TerminalAction}
    {call : Nat}
    {made : TerminalCall}
    (isMade : (idle.run actions).calls[call]? = some made) :
    ∃ buf, .start made.transfer.write buf made.transfer.size ∈ actions := by
  obtain ⟨begun, isBegun, sameOrigin⟩ := exists_started isMade
  have member := List.mem_of_getElem? isBegun
  obtain ⟨action, inRun, isStart⟩ := List.mem_filterMap.mp member
  cases action with
  | start write buf size =>
      cases isStart
      have sameWrite : made.transfer.write = write := congrArg (·.1) sameOrigin
      have sameSize : made.transfer.size = size := congrArg (·.2.1) sameOrigin
      rw [sameWrite, sameSize]
      exact ⟨buf, inRun⟩
  | arrive byte => cases isStart
  | interrupt => cases isStart
  | pass call ready => cases isStart

/-- At every moment the values stored to `UDR0` are an order-preserving merge of
prefixes of the buffers of the calls of `Write`, however the calls take turns,
and a call that has returned has had its whole buffer stored. -/
theorem run_merges_writes
    (actions : List TerminalAction)
    (fits : ∀ buf size, .start true buf size ∈ actions → size ≤ intMax) :
    Labelled.MergesPrefixes (idle.run actions).sent (toSend actions) ∧
      ∀ (call : Nat) (made : TerminalCall) (result : Int),
        (idle.run actions).calls[call]? = some made →
        made.transfer.write = true →
        made.result = some result →
        Labelled.part (idle.run actions).sent call =
            made.transfer.bytes made.transfer.size ∧
          toSend actions call = made.transfer.bytes made.transfer.size ∧
          result = made.transfer.size := by
  have consistent := consistent_run actions
  constructor
  · intro call
    have counted := consistent.sent call
    cases isMade : (idle.run actions).calls[call]? with
    | none =>
        rw [isMade] at counted
        rw [show Labelled.part (idle.run actions).sent call = [] from counted]
        exact List.nil_prefix
    | some made =>
        rw [isMade] at counted
        rw [counted.2, toSend_of_made isMade]
        split
        · exact made.transfer.bytes_prefix counted.1
        · exact List.nil_prefix
  · intro call made result isMade isWrite hasResult
    have counted := consistent.sent call
    obtain ⟨whole, isCount⟩ :=
      consistent.returned call made result isMade isWrite hasResult
    rw [isMade] at counted
    have sentAll := counted.2
    rw [if_pos isWrite, whole] at sentAll
    refine ⟨sentAll, ?_, ?_⟩
    · rw [toSend_of_made isMade, if_pos isWrite]
    · obtain ⟨buf, isStart⟩ := exists_start_of_made isMade
      rw [isWrite] at isStart
      rw [isCount, whole]
      exact intOfUnsigned_of_le (fits buf _ isStart)

/-- Two writers take turns, and one of them is done. -/
theorem run_merges_writes_two :
    let actions : List TerminalAction :=
      [.start true (fun _ => 65) 1, .start true (fun _ => 66) 2, .pass 1 true,
        .pass 1 false, .pass 0 true, .pass 0 false, .pass 1 true]
    (idle.run actions).sent = [(1, 66), (0, 65), (1, 66)] ∧
      Labelled.MergesPrefixes (idle.run actions).sent (toSend actions) := by
  intro actions
  refine ⟨by decide, (run_merges_writes actions ?_).1⟩
  intro buf size isStart
  simp only [actions, List.mem_cons, TerminalAction.start.injEq, reduceCtorEq,
    List.not_mem_nil, or_false, true_and] at isStart
  rcases isStart with ⟨-, rfl⟩ | ⟨-, rfl⟩
  · decide
  · decide

end Terminal
end TinierOS
