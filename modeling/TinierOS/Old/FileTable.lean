import TinierOS.Streams.Defs
import TinierOS.Old.ProcTable

/-!
# The file table of the old kernel

`old/kernel_streams.c`: the FCBs with their reference counts and free list, the
descriptor tables of all processes, and the loops over descriptors in `sys_Exec`
and `sys_ThreadExit`.

A stream is opened when the object and the functions of an FCB are set, and
closed when its `Close` function is called.  Streams are numbered in the order
in which they are opened.
-/

namespace TinierOS

variable {limits : Limits}

/-- `FCB`; the object and the functions are named by the number of the stream. -/
structure OldFcb where
  refcount : Int
  stream : Nat

/-- `FT`, `FCB_freelist`, the `FIDT` of every PCB, the number of streams opened so
far and the closed ones, the latest first. -/
structure FileTable (limits : Limits) where
  fidt : Fin limits.maxProc × Fin limits.maxFileid →
    Option (Fin limits.maxFiles)
  fcb : Fin limits.maxFiles → OldFcb
  freelist : RlHeap (FcbNode limits) (Option (Fin limits.maxFiles))
  opened : Nat
  closed : List Nat

namespace FileTable

/-- Static storage before `boot`. -/
def zero (limits : Limits) : FileTable limits where
  fidt := fun _ => none
  fcb := fun _ => ⟨0, 0⟩
  freelist := fun _ => { obj := none, prev := .null, next := .null }
  opened := 0
  closed := []

/-- Assign to some fields of one FCB. -/
def modifyFcb
    (files : FileTable limits)
    (fcb : Fin limits.maxFiles)
    (change : OldFcb → OldFcb) : FileTable limits :=
  { files with fcb := Function.update files.fcb fcb (change (files.fcb fcb)) }

/-- Assign to one descriptor. -/
def setFidt
    (files : FileTable limits)
    (place : Fin limits.maxProc × Fin limits.maxFileid)
    (entry : Option (Fin limits.maxFiles)) : FileTable limits :=
  { files with fidt := Function.update files.fidt place entry }

/-- `initialize_files` -/
def initializeFiles (files : FileTable limits) : FileTable limits :=
  (List.finRange limits.maxFiles).foldl
    (fun files fcb =>
      { files.modifyFcb fcb fun block => { block with refcount := 0 } with
        freelist := (files.freelist.rlnodeInit (.node fcb)
          (some fcb)).rlistPushBack .freelist (.node fcb) })
    { files with freelist := files.freelist.rlnodeInit .freelist none }

/-- `acquire_FCB` -/
def acquireFCB
    (files : FileTable limits) :
    Except OldFault (Option (Fin limits.maxFiles) × FileTable limits) :=
  if files.freelist.isRlistEmpty .freelist then .ok (none, files)
  else
    let popped := files.freelist.rlistPopFront .freelist
    match (popped.2 popped.1).obj with
    | none => .error .nullPointer
    | some fcb => .ok (some fcb,
        { files with freelist := popped.2 }.modifyFcb fcb fun block =>
          { block with refcount := 0 })

/-- `release_FCB` -/
def releaseFCB
    (files : FileTable limits)
    (fcb : Fin limits.maxFiles) : FileTable limits :=
  { files with
    freelist := files.freelist.rlistPushBack .freelist (.node fcb) }

/-- `FCB_incref` -/
def FCBIncref
    (files : FileTable limits)
    (fcb : Fin limits.maxFiles) : FileTable limits :=
  files.modifyFcb fcb fun block => { block with refcount := block.refcount + 1 }

/-- `FCB_decref`: the last reference closes the stream. -/
def FCBDecref
    (files : FileTable limits)
    (fcb : Fin limits.maxFiles) : FileTable limits :=
  let files := files.modifyFcb fcb fun block =>
    { block with refcount := block.refcount - 1 }
  if (files.fcb fcb).refcount = 0 then
    { files with closed := (files.fcb fcb).stream :: files.closed }.releaseFCB
      fcb
  else files

/-! ## Reserving descriptors -/

/-- Second loop of `FCB_reserve`: the FCBs acquired before the free list is
empty. -/
def acquireFCBs :
    Nat → FileTable limits →
      Except OldFault (List (Fin limits.maxFiles) × FileTable limits)
  | 0, files => .ok ([], files)
  | num + 1, files => do
      match ← files.acquireFCB with
      | (none, files) => return ([], files)
      | (some fcb, files) =>
          let (rest, files) ← acquireFCBs num files
          return (fcb :: rest, files)

/-- Third loop of `FCB_reserve`. -/
def installFCBs
    (cur : Fin limits.maxProc) :
    List (Fin limits.maxFileid) → List (Fin limits.maxFiles) →
      FileTable limits → FileTable limits
  | fid :: fids, fcb :: fcbs, files =>
      installFCBs cur fids fcbs
        ((files.setFidt (cur, fid) (some fcb)).FCBIncref fcb)
  | _, _, files => files

/-- `FCB_reserve(num, fid, fcb)` by process `cur`: `none` when it returns 0.  The
first loop is that of the new kernel. -/
def FCBReserve
    (files : FileTable limits)
    (cur : Fin limits.maxProc)
    (num : Nat) :
    Except OldFault
      (Option (List (Fin limits.maxFileid) × List (Fin limits.maxFiles)) ×
        FileTable limits) :=
  let fids := Kernel.reserveFids (fun fid => files.fidt (cur, fid)) num 0
  if fids.length < num then .ok (none, files)
  else do
    let (fcbs, files) ← acquireFCBs num files
    if fcbs.length < num then
      return (none, fcbs.reverse.foldl releaseFCB files)
    else
      return (some (fids, fcbs), installFCBs cur fids fcbs files)

/-- `FCB_unreserve(num, fid, fcb)` by process `cur`. -/
def FCBUnreserve
    (cur : Fin limits.maxProc) :
    List (Fin limits.maxFileid) → List (Fin limits.maxFiles) →
      FileTable limits → Except OldFault (FileTable limits)
  | fid :: fids, fcb :: fcbs, files =>
      if files.fidt (cur, fid) = some fcb then
        FCBUnreserve cur fids fcbs
          ((files.setFidt (cur, fid) none).releaseFCB fcb)
      else .error .assertion
  | _, _, files => .ok files

/-! ## Opening and closing -/

/-- The object and the functions of an FCB are set. -/
def setStream
    (files : FileTable limits)
    (fcb : Fin limits.maxFiles) : FileTable limits :=
  { files.modifyFcb fcb fun block => { block with stream := files.opened } with
    opened := files.opened + 1 }

/-- A call that reserves descriptors and then opens a stream for each, or gives
the descriptors back when the object is not there. -/
def openStreams
    (files : FileTable limits)
    (cur : Fin limits.maxProc)
    (num : Nat)
    (exists' : Bool) :
    Except OldFault (Option (List (Fin limits.maxFileid)) × FileTable limits) := do
  match ← files.FCBReserve cur num with
  | (none, files) => return (none, files)
  | (some (fids, fcbs), files) =>
      if exists' then return (some fids, fcbs.foldl setStream files)
      else do
        let files ← FCBUnreserve cur fids fcbs files
        return (none, files)

/-- `sys_OpenNull` -/
def sysOpenNull (files : FileTable limits) (cur : Fin limits.maxProc) :=
  files.openStreams cur 1 true

/-- `sys_OpenTerminal`; `ports` is `bios_serial_ports()`. -/
def sysOpenTerminal
    (files : FileTable limits)
    (cur : Fin limits.maxProc)
    (ports termno : Nat) :=
  files.openStreams cur 1 (termno < ports)

/-- `sys_OpenInfo` -/
def sysOpenInfo (files : FileTable limits) (cur : Fin limits.maxProc) :=
  files.openStreams cur 1 true

/-- `sys_Pipe` -/
def sysPipe (files : FileTable limits) (cur : Fin limits.maxProc) :=
  files.openStreams cur 2 true

/-- The bound of a descriptor. -/
theorem fid_lt
    {fid : Int}
    (inRange : 0 ≤ fid ∧ fid.toNat < limits.maxFileid) :
    fid.toNat < limits.maxFileid := inRange.2

/-- `get_fcb`: the descriptor and its FCB. -/
def getFcb
    (files : FileTable limits)
    (cur : Fin limits.maxProc)
    (fid : Int) : Option (Fin limits.maxFileid × Fin limits.maxFiles) :=
  if inRange : 0 ≤ fid ∧ fid.toNat < limits.maxFileid then
    (files.fidt (cur, ⟨fid.toNat, fid_lt inRange⟩)).map
      fun fcb => (⟨fid.toNat, fid_lt inRange⟩, fcb)
  else none

/-- `sys_Close` -/
def sysClose
    (files : FileTable limits)
    (cur : Fin limits.maxProc)
    (fd : Int) : FileTable limits :=
  match files.getFcb cur fd with
  | none => files
  | some (fid, fcb) => (files.setFidt (cur, fid) none).FCBDecref fcb

/-- `sys_Dup2` -/
def sysDup2
    (files : FileTable limits)
    (cur : Fin limits.maxProc)
    (oldfd newfd : Int) : Int × FileTable limits :=
  if inRange : (0 ≤ oldfd ∧ oldfd.toNat < limits.maxFileid) ∧
      0 ≤ newfd ∧ newfd.toNat < limits.maxFileid then
    let newplace := (cur, (⟨newfd.toNat, inRange.2.2⟩ : Fin limits.maxFileid))
    match files.fidt (cur, ⟨oldfd.toNat, inRange.1.2⟩), files.fidt newplace with
    | none, _ => (-1, files)
    | some old, none =>
        (0, (files.FCBIncref old).setFidt newplace (some old))
    | some old, some new =>
        if old = new then (0, files)
        else (0, ((files.FCBDecref new).FCBIncref old).setFidt newplace
          (some old))
  else (-1, files)

/-- `sys_Exec`: the loop that inherits the streams of the parent. -/
def inheritFiles
    (curproc newproc : Fin limits.maxProc) :
    List (Fin limits.maxFileid) → FileTable limits → FileTable limits
  | [], files => files
  | fid :: fids, files =>
      let entry := files.fidt (curproc, fid)
      let files := files.setFidt (newproc, fid) entry
      match entry with
      | none => inheritFiles curproc newproc fids files
      | some fcb => inheritFiles curproc newproc fids (files.FCBIncref fcb)

/-- The streams of a new process are those of its parent, if it has one. -/
def newFiles
    (files : FileTable limits)
    (newproc : Fin limits.maxProc) :
    Option (Fin limits.maxProc) → FileTable limits
  | none => files
  | some curproc =>
      inheritFiles curproc newproc (List.finRange limits.maxFileid) files

/-- `sys_ThreadExit`: the loop that closes the streams of the process. -/
def closeFiles
    (curproc : Fin limits.maxProc) :
    List (Fin limits.maxFileid) → FileTable limits → FileTable limits
  | [], files => files
  | fid :: fids, files =>
      match files.fidt (curproc, fid) with
      | none => closeFiles curproc fids files
      | some fcb =>
          closeFiles curproc fids
            ((files.FCBDecref fcb).setFidt (curproc, fid) none)

/-- The beginning of `sys_Read` and `sys_Write`: the stream cannot be closed while
it is used. -/
def startTransfer
    (files : FileTable limits)
    (cur : Fin limits.maxProc)
    (fd : Int) : Option (Fin limits.maxFiles) × FileTable limits :=
  match files.getFcb cur fd with
  | none => (none, files)
  | some (_, fcb) => (some fcb, files.FCBIncref fcb)

end FileTable
end TinierOS
