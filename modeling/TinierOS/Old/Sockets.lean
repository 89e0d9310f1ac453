import Mathlib.Data.List.Basic
import Mathlib.Logic.Function.Basic
import TinierOS.Library.Transition

/-!
# Sockets

`old/kernel_socket.c` with what it uses of `old/kernel_streams.c`: `sys_Socket`,
`sys_Listen`, `sys_Accept`, `sys_Connect` and `sys_Close`, called by any number
of processes.

A system call runs without interruption between its calls of `kernel_wait` and
`kernel_timedwait`; a call that waits may come back at any time and for any
reason.  Memory is always available.  Sockets, requests and pipes are numbered
in the order of their allocation; request queues are lists of request numbers,
and of a pipe only its two ends are described.
-/

namespace TinierOS

/-- `MAX_PORT`, `MAX_FILEID` and `MAX_FILES`. -/
structure SocketLimits where
  maxPort : Nat
  maxFileid : Nat
  maxFiles : Nat

/-- `socket_type` -/
inductive SocketType
  | listener
  | unbound
  | peer
  deriving DecidableEq

/-- `socket_cb`: the queue of `listener_s` and the pipes of `peer_s` besides the
common fields. -/
structure SocketCb where
  refcount : Nat
  fcb : Nat
  type : SocketType
  port : Int
  queue : List Nat
  readPipe : Option Nat
  writePipe : Option Nat

/-- `connection_request` -/
structure ConnectionRequest where
  admitted : Bool
  peer : Nat

/-- The ends of a `pipe_cb`. -/
structure PipeEnds where
  reader : Option Nat
  writer : Option Nat
  deriving DecidableEq

/-- `FCB`; the stream of every open file is a socket. -/
structure SocketFcb where
  refcount : Nat
  streamobj : Nat

/-- A call of `sys_Accept` that waits. -/
structure AcceptCall (π : Type) where
  process : π
  listener : Nat
  port : Int

/-- What a call of `sys_Connect` returned, the type of its socket at that moment,
and whether the socket was connected. -/
structure ConnectReturn where
  value : Int
  type : SocketType
  connected : Bool
  deriving DecidableEq

/-- A call of `sys_Connect` that has enqueued a request; it has no result while
it waits. -/
structure ConnectCall where
  cSocket : Nat
  result : Option ConnectReturn

/-- A successful call of `sys_Accept`: the process and the file id it returned,
the request it took, the socket that made the request, the peer socket and the
two pipes. -/
structure AcceptRecord (π : Type) where
  process : π
  fid : Nat
  request : Nat
  socket : Nat
  peer : Nat
  pipe1 : Nat
  pipe2 : Nat

/-- The kernel, and what has happened: the sockets that have been closed, the
ports and sockets of the successful calls of `sys_Listen`, and the successful
calls of `sys_Accept`. -/
structure SocketKernel (π : Type) where
  fidt : π → Nat → Option Nat
  fcbs : Nat → SocketFcb
  freelist : List Nat
  sockets : Nat → SocketCb
  socketCount : Nat
  requests : Nat → ConnectionRequest
  requestCount : Nat
  pipes : Nat → PipeEnds
  pipeCount : Nat
  portMap : Int → Option Nat
  accepting : List (AcceptCall π)
  connecting : Nat → ConnectCall
  closed : Nat → Bool
  listened : List (Int × Nat)
  accepts : List (AcceptRecord π)

/-- An access to `PORT_MAP` outside of its bounds, and the use of a null
pointer. -/
inductive SocketFault
  | portMapBounds
  | nullPointer
  deriving DecidableEq

/-- How a system call ends its stretch. -/
inductive SocketOutcome
  | waits
  | returns (value : Int)
  deriving DecidableEq

/-- What happens next. -/
inductive SocketAction (π : Type)
  | socket (process : π) (port : Int)
  | listen (process : π) (sock : Int)
  | accept (process : π) (lsock : Int)
  | connect (process : π) (sock : Int) (port : Int)
  | close (process : π) (fd : Int)
  /-- A call of `sys_Accept` comes back from `kernel_wait`. -/
  | resumeAccept (call : Nat)
  /-- A call of `sys_Connect` comes back from `kernel_timedwait`, which returns
  1 if the call was signalled. -/
  | resumeConnect (request : Nat) (signalled : Bool)

namespace SocketKernel

variable {π : Type} [DecidableEq π]

omit [DecidableEq π] in
/-- The fields of a socket change. -/
def modifySocket
    (kernel : SocketKernel π)
    (socket : Nat)
    (change : SocketCb → SocketCb) : SocketKernel π :=
  { kernel with
    sockets := Function.update kernel.sockets socket
      (change (kernel.sockets socket)) }

omit [DecidableEq π] in
/-- `PORT_MAP[port]` -/
def portMapAt
    (limits : SocketLimits)
    (kernel : SocketKernel π)
    (port : Int) : Except SocketFault (Option Nat) :=
  if 0 ≤ port ∧ port < limits.maxPort then .ok (kernel.portMap port)
  else .error .portMapBounds

omit [DecidableEq π] in
/-- `PORT_MAP[port] = entry` -/
def setPortMap
    (limits : SocketLimits)
    (kernel : SocketKernel π)
    (port : Int)
    (entry : Option Nat) : Except SocketFault (SocketKernel π) :=
  if 0 ≤ port ∧ port < limits.maxPort then
    .ok { kernel with portMap := Function.update kernel.portMap port entry }
  else .error .portMapBounds

omit [DecidableEq π] in
/-- `get_fcb` -/
def getFcb
    (limits : SocketLimits)
    (kernel : SocketKernel π)
    (process : π)
    (fid : Int) : Option Nat :=
  if fid < 0 ∨ limits.maxFileid ≤ fid then none
  else kernel.fidt process fid.toNat

/-- `FCB_reserve` for one file: the file id, the FCB and the kernel
afterwards. -/
def fcbReserve
    (limits : SocketLimits)
    (kernel : SocketKernel π)
    (process : π) : Option (Nat × Nat × SocketKernel π) :=
  match (List.range limits.maxFileid).find? fun fid =>
      (kernel.fidt process fid).isNone, kernel.freelist with
  | some fid, fcb :: freelist =>
      some (fid, fcb, { kernel with
        freelist := freelist
        fidt := Function.update kernel.fidt process
          (Function.update (kernel.fidt process) fid (some fcb))
        fcbs := Function.update kernel.fcbs fcb
          { kernel.fcbs fcb with refcount := 1 } })
  | _, _ => none

/-- `sys_Socket` -/
def sysSocket
    (limits : SocketLimits)
    (kernel : SocketKernel π)
    (process : π)
    (port : Int) : Int × SocketKernel π :=
  if port < 0 ∨ limits.maxPort < port then (-1, kernel)
  else match kernel.fcbReserve limits process with
    | none => (-1, kernel)
    | some (fid, fcb, kernel) =>
        (fid, { kernel with
          sockets := Function.update kernel.sockets kernel.socketCount
            ⟨0, fcb, .unbound, port, [], none, none⟩
          socketCount := kernel.socketCount + 1
          fcbs := Function.update kernel.fcbs fcb
            { kernel.fcbs fcb with streamobj := kernel.socketCount } })

omit [DecidableEq π] in
/-- `sys_Listen` -/
def sysListen
    (limits : SocketLimits)
    (kernel : SocketKernel π)
    (process : π)
    (sock : Int) : Except SocketFault (Int × SocketKernel π) :=
  match kernel.getFcb limits process sock with
  | none => .ok (-1, kernel)
  | some fcb =>
      let listener := (kernel.fcbs fcb).streamobj
      let port := (kernel.sockets listener).port
      if port = 0 then .ok (-1, kernel)
      else do
        let entry ← kernel.portMapAt limits port
        if entry ≠ none ∨ (kernel.sockets listener).type ≠ .unbound then
          return (-1, kernel)
        else
          let kernel ← kernel.setPortMap limits port (some listener)
          let kernel := kernel.modifySocket listener fun socket =>
            { socket with type := .listener, queue := [] }
          return (0, { kernel with
            listened := kernel.listened ++ [(port, listener)] })

omit [DecidableEq π] in
/-- The new `pipe_cb`s of `sys_Accept`, and the two sockets that become peers. -/
def joinPeers
    (kernel : SocketKernel π)
    (socket peer : Nat) : SocketKernel π :=
  let kernel := kernel.modifySocket peer fun cb => { cb with type := .peer }
  let kernel := kernel.modifySocket socket fun cb => { cb with type := .peer }
  let pipe1 := kernel.pipeCount
  let pipe2 := kernel.pipeCount + 1
  let ends1 : PipeEnds :=
    ⟨some (kernel.sockets peer).fcb, some (kernel.sockets socket).fcb⟩
  let ends2 : PipeEnds :=
    ⟨some (kernel.sockets socket).fcb, some (kernel.sockets peer).fcb⟩
  let kernel := { kernel with
    pipes := Function.update (Function.update kernel.pipes pipe1 ends1)
      pipe2 ends2
    pipeCount := kernel.pipeCount + 2 }
  let kernel := kernel.modifySocket peer fun cb =>
    { cb with readPipe := some pipe1, writePipe := some pipe2 }
  kernel.modifySocket socket fun cb =>
    { cb with readPipe := some pipe2, writePipe := some pipe1 }

omit [DecidableEq π] in
/-- `listener->refcount--` -/
def decref (kernel : SocketKernel π) (listener : Nat) : SocketKernel π :=
  kernel.modifySocket listener fun socket =>
    { socket with refcount := socket.refcount - 1 }

/-- `sys_Accept` after the request has been taken off the queue. -/
def admitRequest
    (limits : SocketLimits)
    (kernel : SocketKernel π)
    (call : AcceptCall π)
    (request : Nat) : SocketOutcome × SocketKernel π :=
  let created := kernel.sysSocket limits call.process
    (kernel.sockets call.listener).port
  let kernel := created.2
  match kernel.getFcb limits call.process created.1 with
  | none => (.returns (-1), kernel.decref call.listener)
  | some fcb =>
      let kernel := { kernel with
        requests := Function.update kernel.requests request
          { kernel.requests request with admitted := true } }
      let peer := (kernel.fcbs fcb).streamobj
      let socket := (kernel.requests request).peer
      let record : AcceptRecord π :=
        ⟨call.process, created.1.toNat, request, socket, peer,
          kernel.pipeCount, kernel.pipeCount + 1⟩
      let kernel := { kernel.joinPeers socket peer with
        accepts := kernel.accepts ++ [record] }
      (.returns created.1, kernel.decref call.listener)

/-- `sys_Accept` from its waiting loop on. -/
def acceptFrom
    (limits : SocketLimits)
    (kernel : SocketKernel π)
    (call : AcceptCall π) :
    Except SocketFault (SocketOutcome × SocketKernel π) := do
  let entry ← kernel.portMapAt limits call.port
  let listener := kernel.sockets call.listener
  if listener.queue = [] ∧ entry ≠ none then return (.waits, kernel)
  else if entry = none then return (.returns (-1), kernel.decref call.listener)
  else
    let entry ← kernel.portMapAt limits listener.port
    if listener.type ≠ .listener ∨ entry ≠ some call.listener then
      return (.returns (-1), kernel.decref call.listener)
    else match listener.queue with
      | [] => .error .nullPointer
      | request :: queue =>
          let kernel := kernel.modifySocket call.listener fun socket =>
            { socket with queue := queue }
          return kernel.admitRequest limits call request

/-- `sys_Accept` -/
def sysAccept
    (limits : SocketLimits)
    (kernel : SocketKernel π)
    (process : π)
    (lsock : Int) : Except SocketFault (SocketKernel π) :=
  match kernel.getFcb limits process lsock with
  | none => .ok kernel
  | some fcb =>
      let listener := (kernel.fcbs fcb).streamobj
      if (kernel.sockets listener).type ≠ .listener then .ok kernel
      else
        let kernel := kernel.modifySocket listener fun socket =>
          { socket with refcount := socket.refcount + 1 }
        let call : AcceptCall π :=
          ⟨process, listener, (kernel.sockets listener).port⟩
        match kernel.acceptFrom limits call with
        | .error fault => .error fault
        | .ok (.waits, kernel) =>
            .ok { kernel with accepting := kernel.accepting ++ [call] }
        | .ok (.returns _, kernel) => .ok kernel

/-- A waiting call of `sys_Accept` goes on. -/
def resumeAccept
    (limits : SocketLimits)
    (kernel : SocketKernel π)
    (index : Nat) : Except SocketFault (SocketKernel π) :=
  match kernel.accepting[index]? with
  | none => .ok kernel
  | some call =>
      match kernel.acceptFrom limits call with
      | .error fault => .error fault
      | .ok (.waits, kernel) => .ok kernel
      | .ok (.returns _, kernel) =>
          .ok { kernel with accepting := kernel.accepting.eraseIdx index }

omit [DecidableEq π] in
/-- `sys_Connect` after its checks, up to its wait: the request is put on the
queue of the listener. -/
def enqueueRequest
    (kernel : SocketKernel π)
    (rSocket cSocket : Nat) : SocketKernel π :=
  let request := kernel.requestCount
  let kernel := { kernel with
    requests := Function.update kernel.requests request ⟨false, rSocket⟩
    requestCount := kernel.requestCount + 1
    connecting := Function.update kernel.connecting request ⟨cSocket, none⟩ }
  kernel.modifySocket cSocket fun socket =>
    { socket with
      refcount := socket.refcount + 1
      queue := socket.queue ++ [request] }

omit [DecidableEq π] in
/-- `sys_Connect`: it returns -1, or waits with a new request. -/
def sysConnect
    (limits : SocketLimits)
    (kernel : SocketKernel π)
    (process : π)
    (sock port : Int) :
    Except SocketFault (SocketOutcome × SocketKernel π) :=
  match kernel.getFcb limits process sock with
  | none => .ok (.returns (-1), kernel)
  | some fcb =>
      if port ≤ 0 ∨ (limits.maxPort : Int) - 1 ≤ port then
        .ok (.returns (-1), kernel)
      else do
        match ← kernel.portMapAt limits port with
        | none => return (.returns (-1), kernel)
        | some cSocket =>
            let rSocket := (kernel.fcbs fcb).streamobj
            if (kernel.sockets cSocket).type ≠ .listener then
              return (.returns (-1), kernel)
            else if (kernel.sockets rSocket).type ≠ .unbound then
              return (.returns (-1), kernel)
            else return (.waits, kernel.enqueueRequest rSocket cSocket)

omit [DecidableEq π] in
/-- Whether some call of `sys_Accept` has joined the socket with another. -/
def isConnected (kernel : SocketKernel π) (socket : Nat) : Bool :=
  kernel.accepts.any fun record =>
    record.socket = socket ∨ record.peer = socket

omit [DecidableEq π] in
/-- A waiting call of `sys_Connect` goes on: it waits again if it was signalled
and its request has not been admitted, and else it returns. -/
def resumeConnect
    (kernel : SocketKernel π)
    (request : Nat)
    (signalled : Bool) : SocketKernel π :=
  let call := kernel.connecting request
  let admitted := (kernel.requests request).admitted
  let socket := (kernel.requests request).peer
  if request < kernel.requestCount ∧ call.result = none then
    if signalled ∧ ¬admitted then kernel
    else
      let result : ConnectReturn :=
        ⟨if admitted then 0 else -1, (kernel.sockets socket).type,
          kernel.isConnected socket⟩
      { kernel.decref call.cSocket with
        connecting := Function.update kernel.connecting request
          { call with result := some result } }
  else kernel

omit [DecidableEq π] in
/-- `pipe_reader_close` -/
def pipeReaderClose
    (kernel : SocketKernel π) : Option Nat → SocketKernel π
  | none => kernel
  | some pipe => { kernel with
      pipes := Function.update kernel.pipes pipe
        { kernel.pipes pipe with reader := none } }

omit [DecidableEq π] in
/-- `pipe_writer_close` -/
def pipeWriterClose
    (kernel : SocketKernel π) : Option Nat → SocketKernel π
  | none => kernel
  | some pipe => { kernel with
      pipes := Function.update kernel.pipes pipe
        { kernel.pipes pipe with writer := none } }

omit [DecidableEq π] in
/-- `socket_close` -/
def socketClose
    (limits : SocketLimits)
    (kernel : SocketKernel π)
    (socket : Nat) : Except SocketFault (SocketKernel π) :=
  let kernel := { kernel with
    closed := Function.update kernel.closed socket true }
  let cSocket := kernel.sockets socket
  match cSocket.type with
  | .unbound => .ok kernel
  | .listener => kernel.setPortMap limits cSocket.port none
  | .peer =>
      let kernel := kernel.pipeReaderClose cSocket.readPipe
      let kernel := kernel.modifySocket socket fun cb =>
        { cb with readPipe := none }
      let kernel := kernel.pipeWriterClose cSocket.writePipe
      .ok (kernel.modifySocket socket fun cb => { cb with writePipe := none })

omit [DecidableEq π] in
/-- `FCB_decref` -/
def fcbDecref
    (limits : SocketLimits)
    (kernel : SocketKernel π)
    (fcb : Nat) : Except SocketFault (SocketKernel π) :=
  let kernel := { kernel with
    fcbs := Function.update kernel.fcbs fcb
      { kernel.fcbs fcb with refcount := (kernel.fcbs fcb).refcount - 1 } }
  if (kernel.fcbs fcb).refcount = 0 then do
    let kernel ← kernel.socketClose limits (kernel.fcbs fcb).streamobj
    return { kernel with freelist := kernel.freelist ++ [fcb] }
  else .ok kernel

/-- `sys_Close` -/
def sysClose
    (limits : SocketLimits)
    (kernel : SocketKernel π)
    (process : π)
    (fd : Int) : Except SocketFault (SocketKernel π) :=
  match kernel.getFcb limits process fd with
  | none => .ok kernel
  | some fcb =>
      { kernel with
        fidt := Function.update kernel.fidt process
          (Function.update (kernel.fidt process) fd.toNat none) }.fcbDecref
            limits fcb

/-- One step. -/
def step
    (limits : SocketLimits)
    (kernel : SocketKernel π) :
    SocketAction π → Except SocketFault (SocketKernel π)
  | .socket process port => .ok (kernel.sysSocket limits process port).2
  | .listen process sock =>
      (kernel.sysListen limits process sock).map Prod.snd
  | .accept process lsock => kernel.sysAccept limits process lsock
  | .connect process sock port =>
      (kernel.sysConnect limits process sock port).map Prod.snd
  | .close process fd => kernel.sysClose limits process fd
  | .resumeAccept index => kernel.resumeAccept limits index
  | .resumeConnect request signalled =>
      .ok (kernel.resumeConnect request signalled)

/-- The kernel after `initialize_files` and `initialize_processes`: no file is
open and no socket exists. -/
def start
    (limits : SocketLimits)
    (fcbs : Nat → SocketFcb)
    (sockets : Nat → SocketCb)
    (requests : Nat → ConnectionRequest)
    (pipes : Nat → PipeEnds)
    (connecting : Nat → ConnectCall) : SocketKernel π where
  fidt := fun _ _ => none
  fcbs := fcbs
  freelist := List.range limits.maxFiles
  sockets := sockets
  socketCount := 0
  requests := requests
  requestCount := 0
  pipes := pipes
  pipeCount := 0
  portMap := fun _ => none
  accepting := []
  connecting := connecting
  closed := fun _ => false
  listened := []
  accepts := []

/-- A kernel without sockets, for one process. -/
def booted (limits : SocketLimits) : SocketKernel Unit :=
  start limits (fun _ => ⟨0, 0⟩)
    (fun _ => ⟨0, 0, .unbound, 0, [], none, none⟩) (fun _ => ⟨false, 0⟩)
    (fun _ => ⟨none, none⟩) (fun _ => ⟨0, none⟩)

end SocketKernel
end TinierOS
