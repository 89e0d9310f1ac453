import TinierOS.Proc.Defs

/-!
# Streams

`src/kernel/kernel_streams.c` and the part of `src/kernel/kernel_dev.c` it
calls when a stream is opened or closed: the file table with its free list, and
the descriptor table of the current process.
-/

namespace TinierOS
namespace Kernel

variable {limits : Limits}

/-- Assign to some fields of one FCB. -/
def modifyFcb
    (kernel : Kernel limits)
    (fcb : Fin limits.maxFiles)
    (change : FCB → FCB) : Kernel limits :=
  { kernel with fcb := Function.update kernel.fcb fcb (change (kernel.fcb fcb)) }

/-- `initialize_files` -/
def initializeFiles (kernel : Kernel limits) : Kernel limits :=
  (List.finRange limits.maxFiles).foldl
    (fun kernel fcb =>
      { kernel.modifyFcb fcb fun block => { block with refcount := 0 } with
        freelist := (kernel.freelist.rlnodeInit (.node fcb)
          (some fcb)).rlistPushBack .freelist (.node fcb) })
    { kernel with freelist := kernel.freelist.rlnodeInit .freelist none }

/-- `acquire_FCB` -/
def acquireFCB
    (kernel : Kernel limits) :
    Except Fault (Option (Fin limits.maxFiles) × Kernel limits) :=
  if kernel.freelist.isRlistEmpty .freelist then .ok (none, kernel)
  else
    let popped := kernel.freelist.rlistPopFront .freelist
    match (popped.2 popped.1).obj with
    | none => .error .nullPointer
    | some fcb => .ok (some fcb,
        { kernel with freelist := popped.2 }.modifyFcb fcb fun block =>
          { block with refcount := 0 })

/-- `release_FCB` -/
def releaseFCB
    (kernel : Kernel limits)
    (fcb : Fin limits.maxFiles) : Kernel limits :=
  { kernel with
    freelist := kernel.freelist.rlistPushBack .freelist (.node fcb) }

/-- `FCB_incref` of a non-null pointer. -/
def FCBIncref
    (kernel : Kernel limits)
    (fcb : Fin limits.maxFiles) : Kernel limits :=
  kernel.modifyFcb fcb fun block => { block with refcount := block.refcount + 1 }

/-- `FCB_decref` of a non-null pointer.  The `Close` functions of both devices
return 0 and have no other effect. -/
def FCBDecref
    (kernel : Kernel limits)
    (fcb : Fin limits.maxFiles) : Int × Kernel limits :=
  let kernel := kernel.modifyFcb fcb fun block =>
    { block with refcount := block.refcount - 1 }
  if (kernel.fcb fcb).refcount = 0 then (0, kernel.releaseFCB fcb)
  else (0, kernel)

/-- Assign to one entry of a descriptor table. -/
def setFidt
    (kernel : Kernel limits)
    (pcb : Fin limits.maxProc)
    (fid : Fin limits.maxFileid)
    (entry : Option (Fin limits.maxFiles)) : Kernel limits :=
  kernel.modifyPcb pcb fun block =>
    { block with FIDT := Function.update block.FIDT fid entry }

/-- The first descriptor of a process that is not in use. -/
def freeFid
    (kernel : Kernel limits)
    (pcb : Fin limits.maxProc) : Option (Fin limits.maxFileid) :=
  firstIndex fun fid => (kernel.pcb pcb).FIDT fid = none

/-- `FCB_reserve(1, fid, fcb)` by process `cur`: `none` when it returns 0. -/
def FCBReserveOne
    (kernel : Kernel limits)
    (cur : Fin limits.maxProc) :
    Except Fault
      (Option (Fin limits.maxFileid × Fin limits.maxFiles) × Kernel limits) :=
  match kernel.freeFid cur with
  | none => .ok (none, kernel)
  | some fid => do
      match ← kernel.acquireFCB with
      | (none, kernel) => return (none, kernel)
      | (some fcb, kernel) =>
          return (some (fid, fcb),
            (kernel.setFidt cur fid (some fcb)).FCBIncref fcb)

/-- `FCB_unreserve(1, fid, fcb)` by process `cur`. -/
def FCBUnreserveOne
    (kernel : Kernel limits)
    (cur : Fin limits.maxProc)
    (fid : Fin limits.maxFileid)
    (fcb : Fin limits.maxFiles) : Kernel limits :=
  (kernel.setFidt cur fid none).releaseFCB fcb

/-! ## Reserving several descriptors -/

/-- First loop of `FCB_reserve`: the descriptors found before the table ends,
with one cursor `f` through all searches. -/
def reserveFids
    (FIDT : Fin limits.maxFileid → Option (Fin limits.maxFiles)) :
    Nat → Nat → List (Fin limits.maxFileid)
  | 0, _ => []
  | num + 1, f =>
      let f := seekIndex (fun fid => FIDT fid = none) f
      if inRange : f < limits.maxFileid then
        ⟨f, inRange⟩ :: reserveFids FIDT num (f + 1)
      else []

/-- Second loop of `FCB_reserve`: the FCBs acquired before the free list is
empty. -/
def acquireFCBs
    (kernel : Kernel limits) :
    Nat → Except Fault (List (Fin limits.maxFiles) × Kernel limits)
  | 0 => .ok ([], kernel)
  | num + 1 => do
      match ← kernel.acquireFCB with
      | (none, kernel) => return ([], kernel)
      | (some fcb, kernel) =>
          let (rest, kernel) ← kernel.acquireFCBs num
          return (fcb :: rest, kernel)

/-- Third loop of `FCB_reserve`. -/
def installFCBs
    (kernel : Kernel limits)
    (cur : Fin limits.maxProc) :
    List (Fin limits.maxFileid) → List (Fin limits.maxFiles) → Kernel limits
  | fid :: fids, fcb :: fcbs =>
      ((kernel.setFidt cur fid (some fcb)).FCBIncref fcb).installFCBs cur
        fids fcbs
  | _, _ => kernel

/-- `FCB_reserve(num, fid, fcb)` by process `cur`: `none` when it returns 0.  The
rollback releases the acquired FCBs from the last to the first. -/
def FCBReserve
    (kernel : Kernel limits)
    (cur : Fin limits.maxProc)
    (num : Nat) :
    Except Fault
      (Option (List (Fin limits.maxFileid) × List (Fin limits.maxFiles)) ×
        Kernel limits) :=
  let fids := reserveFids (kernel.pcb cur).FIDT num 0
  if fids.length < num then .ok (none, kernel)
  else do
    let (fcbs, kernel) ← kernel.acquireFCBs num
    if fcbs.length < num then
      return (none, fcbs.reverse.foldl releaseFCB kernel)
    else
      return (some (fids, fcbs), kernel.installFCBs cur fids fcbs)

/-- `FCB_unreserve(num, fid, fcb)` by process `cur`. -/
def FCBUnreserve
    (kernel : Kernel limits)
    (cur : Fin limits.maxProc) :
    List (Fin limits.maxFileid) → List (Fin limits.maxFiles) → Kernel limits
  | fid :: fids, fcb :: fcbs =>
      ((kernel.setFidt cur fid none).releaseFCB fcb).FCBUnreserve cur fids fcbs
  | _, _ => kernel

/-- The number of devices of a type. -/
def deviceNo : DeviceType → Nat
  | .null => 1
  | .serial => maxTerminals

/-- `device_open`: `none` when it returns -1, else the stream object. -/
def deviceOpen
    (major : DeviceType)
    (minor : Nat) : Option (Option (Fin maxTerminals)) :=
  if deviceNo major ≤ minor then none
  else match major with
    | .null => some none
    | .serial => some (if exists' : minor < maxTerminals then
        some ⟨minor, exists'⟩ else none)

/-- `open_stream`, with `none` for `NOFILE`. -/
def openStream
    (kernel : Kernel limits)
    (major : DeviceType)
    (minor : Nat) :
    Except Fault (Option (Fin limits.maxFileid) × Kernel limits) :=
  match kernel.currentProc with
  | none => .error .nullPointer
  | some cur => do
      match ← kernel.FCBReserveOne cur with
      | (none, kernel) => return (none, kernel)
      | (some (fid, fcb), kernel) =>
          match deviceOpen major minor with
          | none => return (none, kernel.FCBUnreserveOne cur fid fcb)
          | some streamobj =>
              return (some fid, kernel.modifyFcb fcb fun block =>
                { block with streamobj := streamobj, streamfunc := some major })

/-- `get_stream_fcb`: the descriptor and its FCB. -/
def getStreamFcb
    (kernel : Kernel limits)
    (cur : Fin limits.maxProc)
    (fid : Int) : Option (Fin limits.maxFileid × Fin limits.maxFiles) :=
  if inRange : 0 ≤ fid ∧ fid.toNat < limits.maxFileid then
    ((kernel.pcb cur).FIDT ⟨fid.toNat, inRange.2⟩).map
      fun fcb => (⟨fid.toNat, inRange.2⟩, fcb)
  else none

/-- `sys_Close` -/
def sysClose
    (kernel : Kernel limits)
    (fd : Int) : Except Fault (Int × Kernel limits) :=
  match kernel.currentProc with
  | none => .error .nullPointer
  | some cur =>
      match kernel.getStreamFcb cur fd with
      | none => .ok (0, kernel)
      | some (fid, fcb) => .ok ((kernel.setFidt cur fid none).FCBDecref fcb)

end Kernel
end TinierOS
