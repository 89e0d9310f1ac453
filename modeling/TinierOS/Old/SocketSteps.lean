import TinierOS.Old.Sockets

/-!
# What the socket calls do

One lemma for each system call, up to the reference counts of the sockets, which
no other field depends on while the sockets are in use.
-/

namespace TinierOS

/-- Two sockets that differ in their reference counts only. -/
structure SocketCb.Same (socket other : SocketCb) : Prop where
  fcb : other.fcb = socket.fcb
  type : other.type = socket.type
  port : other.port = socket.port
  queue : other.queue = socket.queue
  readPipe : other.readPipe = socket.readPipe
  writePipe : other.writePipe = socket.writePipe

theorem SocketCb.Same.refl (socket : SocketCb) : Same socket socket :=
  ⟨rfl, rfl, rfl, rfl, rfl, rfl⟩

theorem SocketCb.Same.trans
    {socket other third : SocketCb}
    (first : Same socket other)
    (second : Same other third) :
    Same socket third where
  fcb := second.fcb.trans first.fcb
  type := second.type.trans first.type
  port := second.port.trans first.port
  queue := second.queue.trans first.queue
  readPipe := second.readPipe.trans first.readPipe
  writePipe := second.writePipe.trans first.writePipe

namespace SocketKernel

variable {π : Type}

/-- Two kernels that differ in the reference counts of sockets and in the list of
waiting calls of `sys_Accept` only. -/
structure Quiet (kernel other : SocketKernel π) : Prop where
  fidt : other.fidt = kernel.fidt
  fcbs : other.fcbs = kernel.fcbs
  freelist : other.freelist = kernel.freelist
  sockets : ∀ socket, (kernel.sockets socket).Same (other.sockets socket)
  socketCount : other.socketCount = kernel.socketCount
  requests : other.requests = kernel.requests
  requestCount : other.requestCount = kernel.requestCount
  pipes : other.pipes = kernel.pipes
  pipeCount : other.pipeCount = kernel.pipeCount
  portMap : other.portMap = kernel.portMap
  connecting : other.connecting = kernel.connecting
  closed : other.closed = kernel.closed
  listened : other.listened = kernel.listened
  accepts : other.accepts = kernel.accepts

namespace Quiet

variable {kernel other third : SocketKernel π}

theorem refl (kernel : SocketKernel π) : Quiet kernel kernel :=
  ⟨rfl, rfl, rfl, fun _ => .refl _, rfl, rfl, rfl, rfl, rfl, rfl, rfl, rfl, rfl, rfl⟩

theorem trans
    (first : Quiet kernel other)
    (second : Quiet other third) :
    Quiet kernel third where
  fidt := second.fidt.trans first.fidt
  fcbs := second.fcbs.trans first.fcbs
  freelist := second.freelist.trans first.freelist
  sockets := fun socket => (first.sockets socket).trans (second.sockets socket)
  socketCount := second.socketCount.trans first.socketCount
  requests := second.requests.trans first.requests
  requestCount := second.requestCount.trans first.requestCount
  pipes := second.pipes.trans first.pipes
  pipeCount := second.pipeCount.trans first.pipeCount
  portMap := second.portMap.trans first.portMap
  connecting := second.connecting.trans first.connecting
  closed := second.closed.trans first.closed
  listened := second.listened.trans first.listened
  accepts := second.accepts.trans first.accepts

/-- A change of one socket that does not look at its reference count. -/
theorem modifySocket
    {change change' : SocketCb → SocketCb}
    (quiet : Quiet kernel other)
    (socket : Nat)
    (blind : ∀ {first second : SocketCb}, first.Same second →
      (change first).Same (change' second)) :
    Quiet (kernel.modifySocket socket change)
      (other.modifySocket socket change') := by
  refine { quiet with sockets := fun other' => ?_ }
  simp only [SocketKernel.modifySocket]
  rcases eq_or_ne other' socket with rfl | apart
  · rw [Function.update_self, Function.update_self]
    exact blind (quiet.sockets other')
  · rw [Function.update_of_ne apart, Function.update_of_ne apart]
    exact quiet.sockets other'

/-- A change of a reference count. -/
theorem modifyRefcount
    (kernel : SocketKernel π)
    (socket : Nat)
    (count : SocketCb → Nat) :
    Quiet kernel (kernel.modifySocket socket fun cb =>
      { cb with refcount := count cb }) := by
  refine { refl kernel with sockets := fun other => ?_ }
  simp only [SocketKernel.modifySocket]
  rcases eq_or_ne other socket with rfl | apart
  · rw [Function.update_self]
    exact ⟨rfl, rfl, rfl, rfl, rfl, rfl⟩
  · rw [Function.update_of_ne apart]
    exact .refl _

theorem decref (kernel : SocketKernel π) (listener : Nat) :
    Quiet kernel (kernel.decref listener) :=
  modifyRefcount kernel listener fun cb => cb.refcount - 1

end Quiet

variable [DecidableEq π]

/-- The kernel after `sys_Socket` has made a socket with the given file id and
FCB. -/
def created
    (kernel : SocketKernel π)
    (process : π)
    (fid fcb : Nat)
    (freelist : List Nat)
    (port : Int) : SocketKernel π :=
  { kernel with
    fidt := Function.update kernel.fidt process
      (Function.update (kernel.fidt process) fid (some fcb))
    fcbs := Function.update kernel.fcbs fcb ⟨1, kernel.socketCount⟩
    freelist := freelist
    sockets := Function.update kernel.sockets kernel.socketCount
      ⟨0, fcb, .unbound, port, [], none, none⟩
    socketCount := kernel.socketCount + 1 }

section Created

variable {kernel : SocketKernel π} {process : π} {fid fcb : Nat}
variable {freelist : List Nat} {port : Int}

/-- The earlier sockets stay as they are. -/
theorem created_sockets_of_lt
    {socket : Nat}
    (made : socket < kernel.socketCount) :
    (kernel.created process fid fcb freelist port).sockets socket =
      kernel.sockets socket :=
  Function.update_of_ne (Nat.ne_of_lt made) _ _

theorem created_sockets_self :
    (kernel.created process fid fcb freelist port).sockets kernel.socketCount =
      ⟨0, fcb, .unbound, port, [], none, none⟩ :=
  Function.update_self ..

end Created

/-- What `sys_Socket` needs: a free file id of the process and a free FCB. -/
structure Available
    (limits : SocketLimits)
    (kernel : SocketKernel π)
    (process : π)
    (fid fcb : Nat)
    (freelist : List Nat) : Prop where
  inRange : fid < limits.maxFileid
  unused : kernel.fidt process fid = none
  free : kernel.freelist = fcb :: freelist

theorem sysSocket_cases
    (limits : SocketLimits)
    (kernel : SocketKernel π)
    (process : π)
    (port : Int) :
    kernel.sysSocket limits process port = (-1, kernel) ∨
      ∃ fid fcb freelist,
        kernel.Available limits process fid fcb freelist ∧
        0 ≤ port ∧ port ≤ limits.maxPort ∧
        kernel.sysSocket limits process port =
          ((fid : Int), kernel.created process fid fcb freelist port) := by
  unfold sysSocket fcbReserve
  split_ifs with illegal
  · exact .inl rfl
  · cases found : (List.range limits.maxFileid).find? fun fid =>
        (kernel.fidt process fid).isNone with
    | none => exact .inl rfl
    | some fid =>
        cases free : kernel.freelist with
        | nil => exact .inl rfl
        | cons fcb freelist =>
            have inRange := List.mem_range.mp (List.mem_of_find?_eq_some found)
            have unused := List.find?_some found
            refine .inr ⟨fid, fcb, freelist, ⟨inRange, ?_, free⟩, by omega,
              by omega, ?_⟩
            · simpa using unused
            · simp [created]

/-- The file id of a new socket leads to it. -/
theorem getFcb_created
    {limits : SocketLimits}
    {kernel : SocketKernel π}
    {process : π}
    {fid fcb : Nat}
    {freelist : List Nat}
    (available : kernel.Available limits process fid fcb freelist)
    (port : Int) :
    (kernel.created process fid fcb freelist port).getFcb limits process fid =
      some fcb := by
  have inRange := available.inRange
  unfold getFcb
  rw [if_neg (by omega)]
  simp [created]

/-! ## The effect of each call -/

omit [DecidableEq π] in
/-- The queue of a listener after its first request has been taken. -/
def popQueue
    (kernel : SocketKernel π)
    (listener : Nat)
    (queue : List Nat) : SocketKernel π :=
  kernel.modifySocket listener fun socket => { socket with queue := queue }

omit [DecidableEq π] in
/-- A socket has become the listener of its port. -/
def listening (kernel : SocketKernel π) (listener : Nat) : SocketKernel π :=
  let port := (kernel.sockets listener).port
  let kernel := kernel.modifySocket listener fun socket =>
    { socket with type := .listener, queue := [] }
  { kernel with
    portMap := Function.update kernel.portMap port (some listener)
    listened := kernel.listened ++ [(port, listener)] }

omit [DecidableEq π] in
/-- A request has been admitted and its socket joined with a peer. -/
def admitted
    (kernel : SocketKernel π)
    (process : π)
    (fid request peer : Nat) : SocketKernel π :=
  let socket := (kernel.requests request).peer
  let record : AcceptRecord π :=
    ⟨process, fid, request, socket, peer, kernel.pipeCount,
      kernel.pipeCount + 1⟩
  let kernel := { kernel with
    requests := Function.update kernel.requests request
      { kernel.requests request with admitted := true } }
  { kernel.joinPeers socket peer with accepts := kernel.accepts ++ [record] }

omit [DecidableEq π] in
/-- A call of `sys_Connect` has returned. -/
def returned (kernel : SocketKernel π) (request : Nat) : SocketKernel π :=
  let admitted := (kernel.requests request).admitted
  let socket := (kernel.requests request).peer
  { kernel with
    connecting := Function.update kernel.connecting request
      { kernel.connecting request with
        result := some ⟨if admitted then 0 else -1,
          (kernel.sockets socket).type, kernel.isConnected socket⟩ } }

omit [DecidableEq π] in
/-- A socket has been closed. -/
def socketClosed (kernel : SocketKernel π) (socket : Nat) : SocketKernel π :=
  let kernel := { kernel with
    closed := Function.update kernel.closed socket true }
  let cSocket := kernel.sockets socket
  match cSocket.type with
  | .unbound => kernel
  | .listener => { kernel with
      portMap := Function.update kernel.portMap cSocket.port none }
  | .peer =>
      let kernel := kernel.pipeReaderClose cSocket.readPipe
      let kernel := kernel.pipeWriterClose cSocket.writePipe
      kernel.modifySocket socket fun cb =>
        { cb with readPipe := none, writePipe := none }

/-- A file id has been given up, and with it a reference to its FCB. -/
def unreferenced
    (kernel : SocketKernel π)
    (process : π)
    (fid fcb : Nat) : SocketKernel π :=
  { kernel with
    fidt := Function.update kernel.fidt process
      (Function.update (kernel.fidt process) fid none)
    fcbs := Function.update kernel.fcbs fcb
      { kernel.fcbs fcb with refcount := (kernel.fcbs fcb).refcount - 1 } }

omit [DecidableEq π] in
/-- An FCB has been released. -/
def releaseFcb (kernel : SocketKernel π) (fcb : Nat) : SocketKernel π :=
  { kernel with freelist := kernel.freelist ++ [fcb] }

omit [DecidableEq π] in
/-- The call of `sys_Accept` that a step goes on with. -/
def callOf
    (limits : SocketLimits)
    (kernel : SocketKernel π) : SocketAction π → Option (AcceptCall π)
  | .accept process lsock =>
      (kernel.getFcb limits process lsock).bind fun fcb =>
        let listener := (kernel.fcbs fcb).streamobj
        if (kernel.sockets listener).type = .listener then
          some ⟨process, listener, (kernel.sockets listener).port⟩
        else none
  | .resumeAccept index => kernel.accepting[index]?
  | _ => none

omit [DecidableEq π] in
/-- The call of `sys_Accept` will take this request and leave this queue. -/
structure Takes
    (kernel : SocketKernel π)
    (call : AcceptCall π)
    (request : Nat)
    (queue : List Nat) : Prop where
  inUse : kernel.portMap call.port ≠ none
  isListener : (kernel.sockets call.listener).type = .listener
  current : kernel.portMap (kernel.sockets call.listener).port =
    some call.listener
  queued : (kernel.sockets call.listener).queue = request :: queue

/-- What one step can do, up to the reference counts of sockets. -/
inductive Turn (limits : SocketLimits) (kernel : SocketKernel π) :
    SocketAction π → SocketKernel π → Prop
  | stays
      (action : SocketAction π) :
      Turn limits kernel action kernel
  | creates
      {process : π}
      {port : Int}
      {fid fcb : Nat}
      {freelist : List Nat}
      (available : kernel.Available limits process fid fcb freelist)
      (legal : 0 ≤ port ∧ port ≤ limits.maxPort) :
      Turn limits kernel (.socket process port)
        (kernel.created process fid fcb freelist port)
  | listens
      {process : π}
      {sock : Int}
      {fcb : Nat}
      (isFile : kernel.getFcb limits process sock = some fcb)
      (bound : (kernel.sockets (kernel.fcbs fcb).streamobj).port ≠ 0)
      (unused : kernel.portMap
        (kernel.sockets (kernel.fcbs fcb).streamobj).port = none)
      (unbound : (kernel.sockets (kernel.fcbs fcb).streamobj).type = .unbound) :
      Turn limits kernel (.listen process sock)
        (kernel.listening (kernel.fcbs fcb).streamobj)
  | enqueues
      {process : π}
      {sock port : Int}
      {fcb cSocket : Nat}
      (isFile : kernel.getFcb limits process sock = some fcb)
      (isPort : kernel.portMap port = some cSocket)
      (isListener : (kernel.sockets cSocket).type = .listener)
      (unbound : (kernel.sockets (kernel.fcbs fcb).streamobj).type = .unbound) :
      Turn limits kernel (.connect process sock port)
        (kernel.enqueueRequest (kernel.fcbs fcb).streamobj cSocket)
  | drops
      {action : SocketAction π}
      {call : AcceptCall π}
      {request : Nat}
      {queue : List Nat}
      (isCall : kernel.callOf limits action = some call)
      (takes : kernel.Takes call request queue) :
      Turn limits kernel action (kernel.popQueue call.listener queue)
  | admits
      {action : SocketAction π}
      {call : AcceptCall π}
      {request fid fcb : Nat}
      {queue freelist : List Nat}
      (isCall : kernel.callOf limits action = some call)
      (takes : kernel.Takes call request queue)
      (available : kernel.Available limits call.process fid fcb freelist) :
      Turn limits kernel action
        (((kernel.popQueue call.listener queue).created call.process fid fcb
          freelist (kernel.sockets call.listener).port).admitted call.process
            fid request kernel.socketCount)
  | returns
      {request : Nat}
      {signalled : Bool}
      (made : request < kernel.requestCount)
      (waits : (kernel.connecting request).result = none) :
      Turn limits kernel (.resumeConnect request signalled)
        (kernel.returned request)
  | unreferences
      {process : π}
      {fd : Int}
      {fcb : Nat}
      (isFile : kernel.getFcb limits process fd = some fcb)
      (shared : (kernel.fcbs fcb).refcount - 1 ≠ 0) :
      Turn limits kernel (.close process fd)
        (kernel.unreferenced process fd.toNat fcb)
  | closes
      {process : π}
      {fd : Int}
      {fcb : Nat}
      (isFile : kernel.getFcb limits process fd = some fcb) :
      Turn limits kernel (.close process fd)
        (((kernel.unreferenced process fd.toNat fcb).socketClosed
          (kernel.fcbs fcb).streamobj).releaseFcb fcb)

omit [DecidableEq π] in
theorem portMapAt_eq_ok
    {limits : SocketLimits}
    {kernel : SocketKernel π}
    {port : Int}
    {entry : Option Nat} :
    kernel.portMapAt limits port = .ok entry ↔
      (0 ≤ port ∧ port < limits.maxPort) ∧ kernel.portMap port = entry := by
  unfold portMapAt
  split_ifs with inBounds
  · simp [inBounds]
  · simp [inBounds]

omit [DecidableEq π] in
theorem setPortMap_eq_ok
    {limits : SocketLimits}
    {kernel after : SocketKernel π}
    {port : Int}
    {entry : Option Nat} :
    kernel.setPortMap limits port entry = .ok after ↔
      (0 ≤ port ∧ port < limits.maxPort) ∧
        { kernel with portMap := Function.update kernel.portMap port entry } =
          after := by
  unfold setPortMap
  split_ifs with inBounds
  · simp [inBounds]
  · simp [inBounds]

theorem turn_of_listen
    {limits : SocketLimits}
    {kernel after : SocketKernel π}
    {process : π}
    {sock : Int}
    (stepped : kernel.step limits (.listen process sock) = .ok after) :
    Turn limits kernel (.listen process sock) after := by
  obtain ⟨result, called, rfl⟩ := exists_of_map_eq_ok stepped
  unfold sysListen at called
  cases isFile : kernel.getFcb limits process sock with
  | none =>
      rw [isFile] at called
      cases called
      exact .stays _
  | some fcb =>
      simp only [isFile] at called
      split_ifs at called with notBound
      · cases called
        exact .stays _
      · obtain ⟨entry, looked, called⟩ := exists_of_bind_eq_ok called
        obtain ⟨inBounds, isEntry⟩ := portMapAt_eq_ok.mp looked
        split_ifs at called with rejected
        · cases called
          exact .stays _
        · rw [not_or, not_not, not_not] at rejected
          obtain ⟨mapped, set, called⟩ := exists_of_bind_eq_ok called
          obtain ⟨_, rfl⟩ := setPortMap_eq_ok.mp set
          cases called
          exact .listens isFile notBound (isEntry.trans rejected.1) rejected.2

theorem turn_of_socket
    {limits : SocketLimits}
    {kernel after : SocketKernel π}
    {process : π}
    {port : Int}
    (stepped : kernel.step limits (.socket process port) = .ok after) :
    Turn limits kernel (.socket process port) after := by
  simp only [step] at stepped
  cases stepped
  obtain failed | ⟨fid, fcb, freelist, available, atLeast, atMost, made⟩ :=
    sysSocket_cases limits kernel process port
  · rw [failed]
    exact .stays _
  · rw [made]
    exact .creates available ⟨atLeast, atMost⟩

theorem turn_of_connect
    {limits : SocketLimits}
    {kernel after : SocketKernel π}
    {process : π}
    {sock port : Int}
    (stepped : kernel.step limits (.connect process sock port) = .ok after) :
    Turn limits kernel (.connect process sock port) after := by
  obtain ⟨result, called, rfl⟩ := exists_of_map_eq_ok stepped
  unfold sysConnect at called
  cases isFile : kernel.getFcb limits process sock with
  | none =>
      rw [isFile] at called
      cases called
      exact .stays _
  | some fcb =>
      simp only [isFile] at called
      by_cases illegal : port ≤ 0 ∨ (limits.maxPort : Int) - 1 ≤ port
      · rw [if_pos illegal] at called
        cases called
        exact .stays _
      · rw [if_neg illegal] at called
        obtain ⟨entry, looked, called⟩ := exists_of_bind_eq_ok called
        obtain ⟨_, isPort⟩ := portMapAt_eq_ok.mp looked
        cases entry with
        | none =>
            cases called
            exact .stays _
        | some cSocket =>
            simp only at called
            split_ifs at called with notListener notUnbound
            · cases called
              exact .stays _
            · cases called
              exact .stays _
            · cases called
              exact .enqueues isFile isPort (not_not.mp notListener)
                (not_not.mp notUnbound)

theorem turn_of_resumeConnect
    {limits : SocketLimits}
    {kernel after : SocketKernel π}
    {request : Nat}
    {signalled : Bool}
    (stepped : kernel.step limits (.resumeConnect request signalled) =
      .ok after) :
    ∃ last, Turn limits kernel (.resumeConnect request signalled) last ∧
      Quiet last after := by
  simp only [step, resumeConnect] at stepped
  by_cases waiting : request < kernel.requestCount ∧
      (kernel.connecting request).result = none
  · rw [if_pos waiting] at stepped
    by_cases again : signalled = true ∧
        ¬(kernel.requests request).admitted = true
    · rw [if_pos again] at stepped
      cases stepped
      exact ⟨kernel, .stays _, .refl _⟩
    · rw [if_neg again] at stepped
      cases stepped
      refine ⟨_, .returns waiting.1 waiting.2, ?_⟩
      exact { Quiet.decref kernel (kernel.connecting request).cSocket with
        connecting := rfl }
  · rw [if_neg waiting] at stepped
    cases stepped
    exact ⟨kernel, .stays _, .refl _⟩

omit [DecidableEq π] in
theorem socketClose_eq_ok
    {limits : SocketLimits}
    {kernel after : SocketKernel π}
    {socket : Nat}
    (closed : kernel.socketClose limits socket = .ok after) :
    after = kernel.socketClosed socket := by
  unfold socketClose at closed
  unfold socketClosed
  cases type : (kernel.sockets socket).type with
  | unbound =>
      simp only [type] at closed ⊢
      cases closed
      rfl
  | listener =>
      simp only [type] at closed ⊢
      exact (setPortMap_eq_ok.mp closed).2.symm
  | peer =>
      simp only [type] at closed ⊢
      cases closed
      cases (kernel.sockets socket).readPipe <;>
        cases (kernel.sockets socket).writePipe <;>
          simp [modifySocket, pipeReaderClose, pipeWriterClose]

theorem turn_of_close
    {limits : SocketLimits}
    {kernel after : SocketKernel π}
    {process : π}
    {fd : Int}
    (stepped : kernel.step limits (.close process fd) = .ok after) :
    Turn limits kernel (.close process fd) after := by
  simp only [step, sysClose] at stepped
  cases isFile : kernel.getFcb limits process fd with
  | none =>
      rw [isFile] at stepped
      cases stepped
      exact .stays _
  | some fcb =>
      simp only [isFile, fcbDecref, Function.update_self] at stepped
      split_ifs at stepped with last
      · obtain ⟨closed, ran, released⟩ := exists_of_bind_eq_ok stepped
        cases released
        rw [socketClose_eq_ok ran]
        exact .closes isFile
      · cases stepped
        exact .unreferences isFile last

omit [DecidableEq π] in
theorem popQueue_port
    (kernel : SocketKernel π)
    (listener : Nat)
    (queue : List Nat) :
    ((kernel.popQueue listener queue).sockets listener).port =
      (kernel.sockets listener).port := by
  simp [popQueue, modifySocket]

/-- The request that a call of `sys_Accept` has taken is admitted, unless the
process has no file to spare. -/
theorem admit_cases
    (limits : SocketLimits)
    (kernel : SocketKernel π)
    (call : AcceptCall π)
    (request : Nat)
    (queue : List Nat) :
    Quiet (kernel.popQueue call.listener queue)
        ((kernel.popQueue call.listener queue).admitRequest limits call request).2 ∨
      ∃ fid fcb freelist,
        kernel.Available limits call.process fid fcb freelist ∧
        Quiet (((kernel.popQueue call.listener queue).created call.process fid
          fcb freelist (kernel.sockets call.listener).port).admitted call.process
            fid request kernel.socketCount)
          ((kernel.popQueue call.listener queue).admitRequest limits call request).2 := by
  unfold admitRequest
  rw [popQueue_port]
  obtain failed | ⟨fid, fcb, freelist, available, _, _, made⟩ :=
    sysSocket_cases limits (kernel.popQueue call.listener queue) call.process
      (kernel.sockets call.listener).port
  · rw [failed]
    exact .inl (.decref _ _)
  · rw [made]
    simp only [getFcb_created available]
    exact .inr ⟨fid, fcb, freelist, ⟨available.inRange, available.unused,
      available.free⟩, by
        simpa [admitted, created, popQueue, modifySocket] using Quiet.decref _ _⟩

/-- A call of `sys_Accept` that goes on waits, returns -1, takes a request in
vain, or admits one. -/
theorem acceptFrom_cases
    {limits : SocketLimits}
    {kernel after : SocketKernel π}
    {call : AcceptCall π}
    {outcome : SocketOutcome}
    (ran : kernel.acceptFrom limits call = .ok (outcome, after)) :
    Quiet kernel after ∨
      ∃ request queue, kernel.Takes call request queue ∧
        (Quiet (kernel.popQueue call.listener queue) after ∨
          ∃ fid fcb freelist,
            kernel.Available limits call.process fid fcb freelist ∧
            Quiet (((kernel.popQueue call.listener queue).created call.process
              fid fcb freelist (kernel.sockets call.listener).port).admitted
                call.process fid request kernel.socketCount) after) := by
  obtain ⟨entry, looked, ran⟩ := exists_of_bind_eq_ok ran
  obtain ⟨_, isEntry⟩ := portMapAt_eq_ok.mp looked
  by_cases empty : (kernel.sockets call.listener).queue = [] ∧ entry ≠ none
  · rw [if_pos empty] at ran
    cases ran
    exact .inl (.refl _)
  rw [if_neg empty] at ran
  by_cases unused : entry = none
  · rw [if_pos unused] at ran
    cases ran
    exact .inl (.decref _ _)
  rw [if_neg unused] at ran
  obtain ⟨again, lookedAgain, ran⟩ := exists_of_bind_eq_ok ran
  obtain ⟨_, isAgain⟩ := portMapAt_eq_ok.mp lookedAgain
  by_cases stale : (kernel.sockets call.listener).type ≠ .listener ∨
      again ≠ some call.listener
  · rw [if_pos stale] at ran
    cases ran
    exact .inl (.decref _ _)
  rw [if_neg stale] at ran
  rw [not_or, not_not, not_not] at stale
  cases queued : (kernel.sockets call.listener).queue with
  | nil =>
      rw [queued] at ran
      cases ran
  | cons request queue =>
      simp only [queued] at ran
      have isAfter : (kernel.popQueue call.listener queue).admitRequest limits call
          request = (outcome, after) := Except.ok.inj ran
      refine .inr ⟨request, queue, ⟨?_, stale.1, ?_, queued⟩, ?_⟩
      · rw [isEntry]
        exact unused
      · rw [isAgain]
        exact stale.2
      · have cases := admit_cases limits kernel call request queue
        rwa [isAfter] at cases

/-! ### Reference counts do not matter -/

namespace Quiet

variable {kernel other : SocketKernel π}

omit [DecidableEq π] in
theorem popQueue
    (quiet : Quiet kernel other)
    (listener : Nat)
    (queue : List Nat) :
    Quiet (kernel.popQueue listener queue) (other.popQueue listener queue) :=
  quiet.modifySocket listener fun same =>
    ⟨same.fcb, same.type, same.port, rfl, same.readPipe, same.writePipe⟩

theorem created
    (quiet : Quiet kernel other)
    (process : π)
    (fid fcb : Nat)
    (freelist : List Nat)
    (port : Int) :
    Quiet (kernel.created process fid fcb freelist port)
      (other.created process fid fcb freelist port) := by
  refine { quiet with
    fidt := ?_
    fcbs := ?_
    freelist := rfl
    sockets := ?_
    socketCount := ?_ }
  · simp only [SocketKernel.created, quiet.fidt]
  · simp only [SocketKernel.created, quiet.fcbs, quiet.socketCount]
  · intro socket
    simp only [SocketKernel.created, quiet.socketCount]
    rcases eq_or_ne socket kernel.socketCount with rfl | apart
    · rw [Function.update_self, Function.update_self]
      exact .refl _
    · rw [Function.update_of_ne apart, Function.update_of_ne apart]
      exact quiet.sockets socket
  · simp only [SocketKernel.created, quiet.socketCount]

omit [DecidableEq π] in
theorem joinPeers
    (quiet : Quiet kernel other)
    (socket peer : Nat) :
    Quiet (kernel.joinPeers socket peer) (other.joinPeers socket peer) := by
  have peers : ∀ {first second : SocketCb}, first.Same second →
      SocketCb.Same { first with type := .peer }
        { second with type := .peer } := fun same =>
    ⟨same.fcb, rfl, same.port, same.queue, same.readPipe, same.writePipe⟩
  have first := (quiet.modifySocket peer peers).modifySocket socket peers
  have sameCount : other.pipeCount = kernel.pipeCount := quiet.pipeCount
  unfold SocketKernel.joinPeers
  refine (modifySocket ?_ peer ?_).modifySocket socket ?_
  · refine { first with
      pipes := ?_
      pipeCount := ?_ }
    · simp only [first.pipes, first.pipeCount, (first.sockets _).fcb]
    · simp only [first.pipeCount]
  · intro _ _ same
    refine ⟨same.fcb, same.type, same.port, same.queue, ?_, ?_⟩
    · simp only [SocketKernel.modifySocket, sameCount]
    · simp only [SocketKernel.modifySocket, sameCount]
  · intro _ _ same
    refine ⟨same.fcb, same.type, same.port, same.queue, ?_, ?_⟩
    · simp only [SocketKernel.modifySocket, sameCount]
    · simp only [SocketKernel.modifySocket, sameCount]

omit [DecidableEq π] in
theorem admitted
    (quiet : Quiet kernel other)
    (process : π)
    (fid request peer : Nat) :
    Quiet (kernel.admitted process fid request peer)
      (other.admitted process fid request peer) := by
  have samePeer : (other.requests request).peer =
      (kernel.requests request).peer := by rw [quiet.requests]
  have admits : Quiet
      { kernel with
        requests := Function.update kernel.requests request
          { kernel.requests request with admitted := true } }
      { other with
        requests := Function.update other.requests request
          { other.requests request with admitted := true } } :=
    { quiet with requests := by simp only [quiet.requests] }
  have joined := admits.joinPeers (kernel.requests request).peer peer
  unfold SocketKernel.admitted
  rw [samePeer]
  refine { joined with accepts := ?_ }
  simp only [quiet.accepts, quiet.pipeCount]

omit [DecidableEq π] in
theorem takes
    {call : AcceptCall π}
    {request : Nat}
    {queue : List Nat}
    (quiet : Quiet kernel other)
    (takes : other.Takes call request queue) :
    kernel.Takes call request queue := by
  have same := quiet.sockets call.listener
  have portMap := quiet.portMap
  obtain ⟨inUse, isListener, current, queued⟩ := takes
  rw [same.type] at isListener
  rw [portMap] at inUse
  rw [portMap, same.port] at current
  rw [same.queue] at queued
  exact ⟨inUse, isListener, current, queued⟩

end Quiet

/-- A call of `sys_Accept` goes on, in a kernel that differs in reference counts
only from the one in which the step is taken. -/
theorem exists_turn_of_acceptFrom
    {limits : SocketLimits}
    {kernel other after : SocketKernel π}
    {action : SocketAction π}
    {call : AcceptCall π}
    {outcome : SocketOutcome}
    (quiet : Quiet kernel other)
    (isCall : kernel.callOf limits action = some call)
    (ran : other.acceptFrom limits call = .ok (outcome, after)) :
    ∃ last, Turn limits kernel action last ∧ Quiet last after := by
  obtain idle | ⟨request, queue, takes, dropped | ⟨fid, fcb, freelist, available,
    joined⟩⟩ := acceptFrom_cases ran
  · exact ⟨kernel, .stays _, quiet.trans idle⟩
  · exact ⟨_, .drops isCall (quiet.takes takes),
      (quiet.popQueue call.listener queue).trans dropped⟩
  · have available' : kernel.Available limits call.process fid fcb freelist :=
      ⟨available.inRange, by rw [← quiet.fidt]; exact available.unused,
        by rw [← quiet.freelist]; exact available.free⟩
    refine ⟨_, .admits isCall (quiet.takes takes) available', ?_⟩
    rw [quiet.socketCount, (quiet.sockets call.listener).port] at joined
    exact (((quiet.popQueue call.listener queue).created call.process fid fcb
      freelist _).admitted call.process fid request _).trans joined

/-- Every step is one of the turns. -/
theorem exists_turn_of_step
    {limits : SocketLimits}
    {kernel after : SocketKernel π}
    {action : SocketAction π}
    (stepped : kernel.step limits action = .ok after) :
    ∃ last, Turn limits kernel action last ∧ Quiet last after := by
  cases action with
  | socket process port => exact ⟨after, turn_of_socket stepped, .refl _⟩
  | listen process sock => exact ⟨after, turn_of_listen stepped, .refl _⟩
  | connect process sock port => exact ⟨after, turn_of_connect stepped, .refl _⟩
  | close process fd => exact ⟨after, turn_of_close stepped, .refl _⟩
  | resumeConnect request signalled => exact turn_of_resumeConnect stepped
  | resumeAccept index =>
      simp only [step, resumeAccept] at stepped
      cases isCall : kernel.accepting[index]? with
      | none =>
          rw [isCall] at stepped
          cases stepped
          exact ⟨kernel, .stays _, .refl _⟩
      | some call =>
          simp only [isCall] at stepped
          cases ran : kernel.acceptFrom limits call with
          | error fault =>
              rw [ran] at stepped
              cases stepped
          | ok result =>
              obtain ⟨outcome, reached⟩ := result
              have isCall' : kernel.callOf limits (.resumeAccept index) =
                  some call := isCall
              obtain ⟨last, turn, quiet⟩ :=
                exists_turn_of_acceptFrom (.refl kernel) isCall' ran
              rw [ran] at stepped
              cases outcome with
              | waits =>
                  cases stepped
                  exact ⟨last, turn, quiet⟩
              | returns value =>
                  cases stepped
                  exact ⟨last, turn, { quiet with }⟩
  | accept process lsock =>
      simp only [step, sysAccept] at stepped
      cases isFile : kernel.getFcb limits process lsock with
      | none =>
          rw [isFile] at stepped
          cases stepped
          exact ⟨kernel, .stays _, .refl _⟩
      | some fcb =>
          simp only [isFile] at stepped
          by_cases notListener :
              (kernel.sockets (kernel.fcbs fcb).streamobj).type ≠ .listener
          · rw [if_pos notListener] at stepped
            cases stepped
            exact ⟨kernel, .stays _, .refl _⟩
          · rw [if_neg notListener] at stepped
            have counted := Quiet.modifyRefcount kernel
              (kernel.fcbs fcb).streamobj fun cb => cb.refcount + 1
            have samePort := (counted.sockets (kernel.fcbs fcb).streamobj).port
            simp only [samePort] at stepped
            have isCall : kernel.callOf limits (.accept process lsock) =
                some ⟨process, (kernel.fcbs fcb).streamobj,
                  (kernel.sockets (kernel.fcbs fcb).streamobj).port⟩ := by
              simp [callOf, isFile, not_not.mp notListener]
            split at stepped
            · cases stepped
            · rename_i reached ran
              cases stepped
              obtain ⟨last, turn, quiet⟩ :=
                exists_turn_of_acceptFrom counted isCall ran
              exact ⟨last, turn, { quiet with }⟩
            · rename_i value reached ran
              cases stepped
              exact exists_turn_of_acceptFrom counted isCall ran

/-! ## Closing a socket -/

omit [DecidableEq π] in
/-- The pipes after a socket has closed its ends. -/
def closedPipes (kernel : SocketKernel π) (socket : Nat) : Nat → PipeEnds :=
  ((kernel.pipeReaderClose (kernel.sockets socket).readPipe).pipeWriterClose
    (kernel.sockets socket).writePipe).pipes

omit [DecidableEq π] in
/-- Closing a socket takes a listener off its port, and closes the ends of the
pipes of a peer. -/
theorem socketClosed_eq
    (kernel : SocketKernel π)
    (socket : Nat) :
    kernel.socketClosed socket =
      { kernel with
        closed := Function.update kernel.closed socket true
        portMap :=
          if (kernel.sockets socket).type = .listener then
            Function.update kernel.portMap (kernel.sockets socket).port none
          else kernel.portMap
        pipes :=
          if (kernel.sockets socket).type = .peer then kernel.closedPipes socket
          else kernel.pipes
        sockets :=
          if (kernel.sockets socket).type = .peer then
            Function.update kernel.sockets socket
              { kernel.sockets socket with readPipe := none, writePipe := none }
          else kernel.sockets } := by
  unfold socketClosed closedPipes
  cases type : (kernel.sockets socket).type with
  | unbound => simp [type]
  | listener => simp [type]
  | peer =>
      cases readPipe : (kernel.sockets socket).readPipe <;>
        cases writePipe : (kernel.sockets socket).writePipe <;>
          simp [type, readPipe, writePipe, modifySocket, pipeReaderClose,
            pipeWriterClose]

section Closed

omit [DecidableEq π]

variable (kernel : SocketKernel π) (socket : Nat)

@[simp] theorem socketClosed_fidt :
    (kernel.socketClosed socket).fidt = kernel.fidt := by
  rw [socketClosed_eq]

@[simp] theorem socketClosed_fcbs :
    (kernel.socketClosed socket).fcbs = kernel.fcbs := by
  rw [socketClosed_eq]

@[simp] theorem socketClosed_freelist :
    (kernel.socketClosed socket).freelist = kernel.freelist := by
  rw [socketClosed_eq]

@[simp] theorem socketClosed_socketCount :
    (kernel.socketClosed socket).socketCount = kernel.socketCount := by
  rw [socketClosed_eq]

@[simp] theorem socketClosed_requests :
    (kernel.socketClosed socket).requests = kernel.requests := by
  rw [socketClosed_eq]

@[simp] theorem socketClosed_requestCount :
    (kernel.socketClosed socket).requestCount = kernel.requestCount := by
  rw [socketClosed_eq]

@[simp] theorem socketClosed_pipeCount :
    (kernel.socketClosed socket).pipeCount = kernel.pipeCount := by
  rw [socketClosed_eq]

@[simp] theorem socketClosed_connecting :
    (kernel.socketClosed socket).connecting = kernel.connecting := by
  rw [socketClosed_eq]

@[simp] theorem socketClosed_listened :
    (kernel.socketClosed socket).listened = kernel.listened := by
  rw [socketClosed_eq]

@[simp] theorem socketClosed_accepts :
    (kernel.socketClosed socket).accepts = kernel.accepts := by
  rw [socketClosed_eq]

@[simp] theorem socketClosed_closed :
    (kernel.socketClosed socket).closed =
      Function.update kernel.closed socket true := by
  rw [socketClosed_eq]

theorem socketClosed_portMap_of_listener
    (isListener : (kernel.sockets socket).type = .listener) :
    (kernel.socketClosed socket).portMap =
      Function.update kernel.portMap (kernel.sockets socket).port none := by
  rw [socketClosed_eq]
  exact if_pos isListener

theorem socketClosed_portMap_of_ne
    (notListener : (kernel.sockets socket).type ≠ .listener) :
    (kernel.socketClosed socket).portMap = kernel.portMap := by
  rw [socketClosed_eq]
  exact if_neg notListener

/-- The other sockets stay as they are. -/
theorem socketClosed_sockets_of_ne
    {other : Nat}
    (apart : other ≠ socket) :
    (kernel.socketClosed socket).sockets other = kernel.sockets other := by
  rw [socketClosed_eq]
  cases type : (kernel.sockets socket).type <;> simp [apart]

/-- A socket that is closed keeps all but its pipes. -/
theorem socketClosed_common (other : Nat) :
    ((kernel.socketClosed socket).sockets other).fcb =
        (kernel.sockets other).fcb ∧
      ((kernel.socketClosed socket).sockets other).type =
        (kernel.sockets other).type ∧
      ((kernel.socketClosed socket).sockets other).port =
        (kernel.sockets other).port ∧
      ((kernel.socketClosed socket).sockets other).queue =
        (kernel.sockets other).queue := by
  rcases eq_or_ne other socket with rfl | apart
  · rw [socketClosed_eq]
    cases type : (kernel.sockets other).type <;> simp [type]
  · rw [socketClosed_sockets_of_ne _ _ apart]
    exact ⟨rfl, rfl, rfl, rfl⟩

end Closed

end SocketKernel
end TinierOS
