import TinierOS.Streams.Defs

/-!
# Reading and writing streams

`sys_Read` and `sys_Write` of `src/kernel/kernel_streams.c` and the device
functions of `src/kernel/kernel_dev.c` they call.  The serial device polls its
line: it yields while nothing can be transferred, so a call that has reached it
is a transfer in progress, one pass of its loop at a time.
-/

namespace TinierOS

variable {limits : Limits}

/-- A device that a stream can be bound to: the null device or a terminal. -/
inductive Device
  | null
  | serial (devno : Fin maxTerminals)
  deriving DecidableEq

/-- What `bios_read_serial` and `bios_write_serial` find on the lines: a
received byte, and whether the transmitter is ready. -/
structure SerialLines where
  received : Fin maxTerminals → Option UInt8
  ready : Fin maxTerminals → Bool

/-- A call of `serial_read` or `serial_write` in its loop. -/
structure Transfer where
  write : Bool
  devno : Fin maxTerminals
  buf : Nat → UInt8
  size : Nat
  count : Nat

/-- `INT_MAX`; an `int` has 16 bits. -/
abbrev intMax : Nat := 32767

/-- The `unsigned int` that a device function returns as an `int`. -/
def intOfUnsigned (value : Nat) : Int :=
  (BitVec.ofNat 16 value).toInt

theorem intOfUnsigned_of_le
    {value : Nat}
    (fits : value ≤ intMax) :
    intOfUnsigned value = value := by
  simp only [intOfUnsigned, BitVec.toInt, BitVec.toNat_ofNat]
  simp only [intMax] at fits
  rw [if_pos (by omega), Nat.mod_eq_of_lt (by omega)]

namespace Transfer

/-- The outcomes of one pass of the loop. -/
inductive Outcome
  /-- The loop ends and the count is returned. -/
  | finished
  /-- A byte was transferred. -/
  | moved (transfer : Transfer)
  /-- The line is not ready: the thread yields. -/
  | blocked

/-- One pass of the loop of `serial_read`. -/
def serialRead (transfer : Transfer) (lines : SerialLines) : Outcome :=
  if transfer.count < transfer.size then
    match lines.received transfer.devno with
    | some byte => .moved { transfer with
        buf := Function.update transfer.buf transfer.count byte
        count := transfer.count + 1 }
    | none => if 0 < transfer.count then .finished else .blocked
  else .finished

/-- One pass of the loop of `serial_write`. -/
def serialWrite (transfer : Transfer) (lines : SerialLines) : Outcome :=
  if transfer.count < transfer.size then
    if lines.ready transfer.devno then
      .moved { transfer with count := transfer.count + 1 }
    else .blocked
  else .finished

/-- One pass of the loop that the transfer is in. -/
def pass (transfer : Transfer) (lines : SerialLines) : Outcome :=
  if transfer.write then transfer.serialWrite lines
  else transfer.serialRead lines

/-- The bytes counted so far are within the size, and the size is an `int`. -/
structure Fits (transfer : Transfer) : Prop where
  counted : transfer.count ≤ transfer.size
  size : transfer.size ≤ intMax

/-- A pass moves one byte at most, on the line and within the size that the
transfer has from its call. -/
theorem pass_moved
    {transfer moved : Transfer}
    {lines : SerialLines}
    (passed : transfer.pass lines = .moved moved) :
    transfer.count < transfer.size ∧ moved.count = transfer.count + 1 ∧
      moved.size = transfer.size := by
  unfold Transfer.pass at passed
  split at passed
  · unfold serialWrite at passed
    split at passed
    · split at passed <;> cases passed
      exact ⟨‹_›, rfl, rfl⟩
    · cases passed
  · unfold serialRead at passed
    split at passed
    · split at passed
      · cases passed
        exact ⟨‹_›, rfl, rfl⟩
      · split at passed <;> cases passed
    · cases passed

theorem Fits.pass
    {transfer moved : Transfer}
    {lines : SerialLines}
    (fits : transfer.Fits)
    (passed : transfer.pass lines = .moved moved) :
    moved.Fits := by
  obtain ⟨more, counted, sameSize⟩ := pass_moved passed
  constructor
  · rw [counted, sameSize]
    exact more
  · rw [sameSize]
    exact fits.size

/-- The count that a transfer returns is not negative. -/
theorem Fits.result
    {transfer : Transfer}
    (fits : transfer.Fits) :
    intOfUnsigned transfer.count = transfer.count :=
  intOfUnsigned_of_le (fits.counted.trans fits.size)

end Transfer

namespace FCB

/-- The device whose functions a stream call of this FCB reaches.  The functions
of the serial device read the number of the line through the stream object. -/
def device (fcb : FCB) : Except Fault (Option Device) :=
  match fcb.streamfunc, fcb.streamobj with
  | none, _ => .ok none
  | some .null, _ => .ok (some .null)
  | some .serial, some devno => .ok (some (.serial devno))
  | some .serial, none => .error .nullPointer

end FCB

namespace Kernel

/-- The common part of `sys_Read` and `sys_Write`: the device that the call
reaches, or `none` when it returns -1. -/
def streamDevice
    (kernel : Kernel limits)
    (fd : Int) : Except Fault (Option Device) :=
  match kernel.currentProc with
  | none => .error .nullPointer
  | some cur =>
      match kernel.getStreamFcb cur fd with
      | none => .ok none
      | some (_, fcb) => (kernel.fcb fcb).device

end Kernel

/-- A call of `sys_Read` or `sys_Write` that returns, or that is in the loop of
the serial device. -/
inductive Dispatch
  | returns (result : Int) (buf : Nat → UInt8)
  | transfers (transfer : Transfer)

/-- `nulldev_read` fills the buffer with zeros. -/
def nulldevRead (buf : Nat → UInt8) (size : Nat) : Nat → UInt8 :=
  fun index => if index < size then 0 else buf index

/-- What the call does with the device that it reaches. -/
def Dispatch.of
    (write : Bool)
    (buf : Nat → UInt8)
    (size : Nat) : Option Device → Dispatch
  | none => .returns (-1) buf
  | some .null => .returns (intOfUnsigned size)
      (if write then buf else nulldevRead buf size)
  | some (.serial devno) => .transfers
      { write := write, devno := devno, buf := buf, size := size, count := 0 }

/-- `sys_Read` -/
def Kernel.sysRead
    (kernel : Kernel limits)
    (fd : Int)
    (buf : Nat → UInt8)
    (size : Nat) : Except Fault Dispatch :=
  (kernel.streamDevice fd).map (Dispatch.of false buf size)

/-- `sys_Write` -/
def Kernel.sysWrite
    (kernel : Kernel limits)
    (fd : Int)
    (buf : Nat → UInt8)
    (size : Nat) : Except Fault Dispatch :=
  (kernel.streamDevice fd).map (Dispatch.of true buf size)

end TinierOS
