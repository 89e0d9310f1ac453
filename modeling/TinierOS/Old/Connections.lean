import TinierOS.Old.SocketFiles

/-!
# Requests and their calls

A request of `sys_Connect` is shared by the call that made it, which may give up
waiting at any time, and the call of `sys_Accept` that takes it off the queue.
As long as requests are admitted while their calls wait, and nobody listens on a
socket that waits for a connection, the results of the calls agree with what has
been admitted.
-/

namespace TinierOS
namespace SocketKernel

variable {π : Type}

/-- The call of `sys_Connect` waits, and its request has not been admitted. -/
structure Waiting (kernel : SocketKernel π) (request : Nat) : Prop where
  made : request < kernel.requestCount
  waits : (kernel.connecting request).result = none
  unadmitted : (kernel.requests request).admitted = false

/-- No call of `sys_Connect` waits to connect the socket. -/
def Idle (kernel : SocketKernel π) (socket : Nat) : Prop :=
  ∀ request, kernel.Waiting request → (kernel.requests request).peer ≠ socket

/-- The call that made the request has not returned, its socket has not been
closed, and no other call waits to connect this socket. -/
structure Admissible (kernel : SocketKernel π) (request : Nat) : Prop where
  waits : (kernel.connecting request).result = none
  isOpen : kernel.closed (kernel.requests request).peer = false
  alone : ∀ other, other ≠ request → kernel.Waiting other →
    (kernel.requests other).peer ≠ (kernel.requests request).peer

/-- The socket that a call of `sys_Listen` makes a listener. -/
def listensOn
    (limits : SocketLimits)
    (kernel : SocketKernel π) : SocketAction π → Option Nat
  | .listen process sock =>
      (kernel.getFcb limits process sock).bind fun fcb =>
        let listener := kernel.sockets (kernel.fcbs fcb).streamobj
        if listener.port ≠ 0 ∧ kernel.portMap listener.port = none ∧
            listener.type = .unbound then
          some (kernel.fcbs fcb).streamobj
        else none
  | _ => none

/-- The request that a call of `sys_Accept` admits when it goes on. -/
def willAdmit
    [DecidableEq π]
    (limits : SocketLimits)
    (kernel : SocketKernel π)
    (action : SocketAction π) : Option Nat :=
  (kernel.callOf limits action).bind fun call =>
    let listener := kernel.sockets call.listener
    if kernel.portMap call.port ≠ none ∧ listener.type = .listener ∧
        kernel.portMap listener.port = some call.listener ∧
        (kernel.fcbReserve limits call.process).isSome then
      listener.queue.head?
    else none

/-- The step admits no request but an admissible one, and makes no listener of a
socket that a call of `sys_Connect` waits to connect. -/
structure Undisturbed
    [DecidableEq π]
    (limits : SocketLimits)
    (kernel : SocketKernel π)
    (action : SocketAction π) : Prop where
  admits : ∀ request ∈ kernel.willAdmit limits action,
    kernel.Admissible request
  listens : ∀ socket ∈ kernel.listensOn limits action, kernel.Idle socket

instance (kernel : SocketKernel π) (request : Nat) :
    Decidable (kernel.Waiting request) :=
  decidable_of_iff
    (request < kernel.requestCount ∧
      (kernel.connecting request).result = none ∧
      (kernel.requests request).admitted = false)
    ⟨fun ⟨made, waits, unadmitted⟩ => ⟨made, waits, unadmitted⟩,
      fun ⟨made, waits, unadmitted⟩ => ⟨made, waits, unadmitted⟩⟩

instance (kernel : SocketKernel π) (socket : Nat) :
    Decidable (kernel.Idle socket) :=
  decidable_of_iff
    (∀ request < kernel.requestCount, kernel.Waiting request →
      (kernel.requests request).peer ≠ socket)
    ⟨fun idle request waiting => idle request waiting.made waiting,
      fun idle request _ waiting => idle request waiting⟩

instance (kernel : SocketKernel π) (request : Nat) :
    Decidable (kernel.Admissible request) :=
  decidable_of_iff
    ((kernel.connecting request).result = none ∧
      kernel.closed (kernel.requests request).peer = false ∧
      ∀ other < kernel.requestCount, other ≠ request → kernel.Waiting other →
        (kernel.requests other).peer ≠ (kernel.requests request).peer)
    ⟨fun ⟨waits, isOpen, alone⟩ => ⟨waits, isOpen,
        fun other apart waiting => alone other waiting.made apart waiting⟩,
      fun ⟨waits, isOpen, alone⟩ => ⟨waits, isOpen,
        fun other _ apart waiting => alone other apart waiting⟩⟩

instance
    [DecidableEq π]
    (limits : SocketLimits)
    (kernel : SocketKernel π)
    (action : SocketAction π) :
    Decidable (kernel.Undisturbed limits action) :=
  decidable_of_iff
    ((∀ request ∈ kernel.willAdmit limits action, kernel.Admissible request) ∧
      ∀ socket ∈ kernel.listensOn limits action, kernel.Idle socket)
    ⟨fun ⟨admits, listens⟩ => ⟨admits, listens⟩,
      fun ⟨admits, listens⟩ => ⟨admits, listens⟩⟩

/-- The socket and the peer of a successful call of `sys_Accept` are joined by
two pipes of opposite directions, of which each has closed its ends once it has
been closed. -/
structure Joins (kernel : SocketKernel π) (record : AcceptRecord π) : Prop where
  apart : record.socket ≠ record.peer
  isSocket : record.socket < kernel.socketCount ∧
    (kernel.sockets record.socket).type = .peer
  isPeer : record.peer < kernel.socketCount ∧
    (kernel.sockets record.peer).type = .peer
  socketPipes : kernel.closed record.socket = false →
    (kernel.sockets record.socket).readPipe = some record.pipe2 ∧
      (kernel.sockets record.socket).writePipe = some record.pipe1
  peerPipes : kernel.closed record.peer = false →
    (kernel.sockets record.peer).readPipe = some record.pipe1 ∧
      (kernel.sockets record.peer).writePipe = some record.pipe2
  toPeer : kernel.pipes record.pipe1 =
    ⟨if kernel.closed record.peer then none
      else some (kernel.sockets record.peer).fcb,
    if kernel.closed record.socket then none
      else some (kernel.sockets record.socket).fcb⟩
  toSocket : kernel.pipes record.pipe2 =
    ⟨if kernel.closed record.socket then none
      else some (kernel.sockets record.socket).fcb,
    if kernel.closed record.peer then none
      else some (kernel.sockets record.peer).fcb⟩

/-- The file id that a call of `sys_Accept` returned leads to the peer until that
is closed. -/
def Leads (kernel : SocketKernel π) (record : AcceptRecord π) : Prop :=
  kernel.closed record.peer = false →
    ∃ fcb, kernel.fidt record.process record.fid = some fcb ∧
      (kernel.fcbs fcb).streamobj = record.peer

/-! ## Queues -/

/-- The queues hold requests that have not been admitted, each at most once. -/
structure QueuesSound (kernel : SocketKernel π) : Prop where
  mapped : ∀ port listener, kernel.portMap port = some listener →
    listener < kernel.socketCount
  queued : ∀ listener < kernel.socketCount,
    ∀ request ∈ (kernel.sockets listener).queue,
      request < kernel.requestCount ∧
        (kernel.requests request).admitted = false
  nodup : ∀ listener < kernel.socketCount,
    (kernel.sockets listener).queue.Nodup
  disjoint : ∀ listener < kernel.socketCount, ∀ other < kernel.socketCount,
    ∀ request ∈ (kernel.sockets listener).queue,
      request ∈ (kernel.sockets other).queue → listener = other

/-- The request is in no queue. -/
def Unqueued (kernel : SocketKernel π) (request : Nat) : Prop :=
  ∀ listener < kernel.socketCount,
    request ∉ (kernel.sockets listener).queue

namespace QueuesSound

variable {limits : SocketLimits}
variable {kernel after : SocketKernel π}

/-- A step that adds nothing to the queues and admits no request of a queue. -/
theorem of_shorter
    (sound : kernel.QueuesSound)
    (sameCount : after.socketCount = kernel.socketCount)
    (mapped : ∀ port listener, after.portMap port = some listener →
      listener < kernel.socketCount)
    (shorter : ∀ listener < kernel.socketCount,
      (after.sockets listener).queue.Sublist (kernel.sockets listener).queue)
    (sameRequests : after.requestCount = kernel.requestCount)
    (unadmitted : ∀ listener < kernel.socketCount,
      ∀ request ∈ (after.sockets listener).queue,
        (after.requests request).admitted =
          (kernel.requests request).admitted) :
    after.QueuesSound := by
  have older : ∀ {listener request}, listener < kernel.socketCount →
      request ∈ (after.sockets listener).queue →
        request ∈ (kernel.sockets listener).queue :=
    fun made member => (shorter _ made).subset member
  constructor
  case mapped =>
      rw [sameCount]
      exact mapped
  case queued =>
      rw [sameCount, sameRequests]
      intro listener made request member
      rw [unadmitted listener made request member]
      exact sound.queued listener made request (older made member)
  case nodup =>
      rw [sameCount]
      exact fun listener made => (sound.nodup listener made).sublist
        (shorter listener made)
  case disjoint =>
      rw [sameCount]
      exact fun listener made other made' request member member' =>
        sound.disjoint listener made other made' request (older made member)
          (older made' member')

/-- A step that changes no queue. -/
theorem of_same
    (sound : kernel.QueuesSound)
    (sameCount : after.socketCount = kernel.socketCount)
    (samePortMap : after.portMap = kernel.portMap)
    (sameQueue : ∀ socket, (after.sockets socket).queue =
      (kernel.sockets socket).queue)
    (sameRequests : after.requests = kernel.requests)
    (sameRequestCount : after.requestCount = kernel.requestCount) :
    after.QueuesSound := by
  apply sound.of_shorter sameCount
  · rw [samePortMap]
    exact sound.mapped
  · intro listener _
    rw [sameQueue]
  · exact sameRequestCount
  · rw [sameRequests]
    exact fun _ _ _ _ => rfl

theorem quiet
    (sound : kernel.QueuesSound)
    (quiet : Quiet kernel after) :
    after.QueuesSound :=
  sound.of_same quiet.socketCount quiet.portMap
    (fun socket => (quiet.sockets socket).queue) quiet.requests
    quiet.requestCount

/-- The request at the head of a queue is in no queue after it has been taken. -/
theorem popQueue
    {listener request : Nat}
    {queue : List Nat}
    (sound : kernel.QueuesSound)
    (made : listener < kernel.socketCount)
    (queued : (kernel.sockets listener).queue = request :: queue) :
    (kernel.popQueue listener queue).QueuesSound ∧
      (kernel.popQueue listener queue).Unqueued request := by
  have itself : ((kernel.popQueue listener queue).sockets listener).queue =
      queue := by
    simp [SocketKernel.popQueue, modifySocket]
  have others : ∀ {other}, other ≠ listener →
      ((kernel.popQueue listener queue).sockets other).queue =
        (kernel.sockets other).queue := by
    intro other apart
    simp [SocketKernel.popQueue, modifySocket, apart]
  constructor
  · apply sound.of_shorter
    · rfl
    · exact sound.mapped
    · intro other _
      rcases eq_or_ne other listener with rfl | apart
      · rw [itself, queued]
        exact List.sublist_cons_self request queue
      · rw [others apart]
    · rfl
    · exact fun _ _ _ _ => rfl
  · intro other made' member
    have inQueue : request ∈ (kernel.sockets listener).queue := by
      rw [queued]
      exact List.mem_cons_self
    rcases eq_or_ne other listener with rfl | apart
    · rw [itself] at member
      have nodup := sound.nodup other made
      rw [queued, List.nodup_cons] at nodup
      exact nodup.1 member
    · rw [others apart] at member
      exact apart (sound.disjoint other made' listener made request member
        inQueue)

theorem listening
    (sound : kernel.QueuesSound)
    {listener : Nat}
    (made : listener < kernel.socketCount) :
    (kernel.listening listener).QueuesSound := by
  apply sound.of_shorter
  · rfl
  · intro port other isMapped
    simp only [SocketKernel.listening, modifySocket] at isMapped
    rcases eq_or_ne port (kernel.sockets listener).port with rfl | apart
    · rw [Function.update_self] at isMapped
      cases isMapped
      exact made
    · rw [Function.update_of_ne apart] at isMapped
      exact sound.mapped port other isMapped
  · intro other _
    simp only [SocketKernel.listening, modifySocket]
    rcases eq_or_ne other listener with rfl | apart
    · rw [Function.update_self]
      exact List.nil_sublist _
    · rw [Function.update_of_ne apart]
  · rfl
  · exact fun _ _ _ _ => rfl

/-- A new request is queued at one listener. -/
theorem enqueueRequest
    {rSocket cSocket : Nat}
    (sound : kernel.QueuesSound)
    (made : cSocket < kernel.socketCount) :
    (kernel.enqueueRequest rSocket cSocket).QueuesSound := by
  have itself : ((kernel.enqueueRequest rSocket cSocket).sockets cSocket).queue =
      (kernel.sockets cSocket).queue ++ [kernel.requestCount] := by
    simp [SocketKernel.enqueueRequest, modifySocket]
  have others : ∀ {other}, other ≠ cSocket →
      ((kernel.enqueueRequest rSocket cSocket).sockets other).queue =
        (kernel.sockets other).queue := by
    intro other apart
    simp [SocketKernel.enqueueRequest, modifySocket, apart]
  have member_cases : ∀ {listener request}, request ∈
      ((kernel.enqueueRequest rSocket cSocket).sockets listener).queue →
        request ∈ (kernel.sockets listener).queue ∨
          listener = cSocket ∧ request = kernel.requestCount := by
    intro listener request member
    rcases eq_or_ne listener cSocket with rfl | apart
    · rw [itself, List.mem_append, List.mem_singleton] at member
      exact member.imp_right fun isNew => ⟨rfl, isNew⟩
    · rw [others apart] at member
      exact .inl member
  have notQueued : ∀ {listener}, listener < kernel.socketCount →
      kernel.requestCount ∉ (kernel.sockets listener).queue :=
    fun made' member =>
      Nat.lt_irrefl _ (sound.queued _ made' _ member).1
  constructor
  case mapped => exact sound.mapped
  case queued =>
      intro listener made' request member
      simp only [SocketKernel.enqueueRequest, modifySocket]
      rcases member_cases member with older | ⟨_, rfl⟩
      · obtain ⟨earlier, unadmitted⟩ := sound.queued listener made' request older
        rw [Function.update_of_ne (Nat.ne_of_lt earlier)]
        exact ⟨Nat.lt_succ_of_lt earlier, unadmitted⟩
      · rw [Function.update_self]
        exact ⟨Nat.lt_succ_self _, rfl⟩
  case nodup =>
      intro listener made'
      rcases eq_or_ne listener cSocket with rfl | apart
      · rw [itself]
        exact (sound.nodup listener made').append (List.nodup_singleton _)
          (List.disjoint_singleton.mpr (notQueued made'))
      · rw [others apart]
        exact sound.nodup listener made'
  case disjoint =>
      intro listener made1 other made2 request member1 member2
      rcases member_cases member1 with older1 | ⟨rfl, rfl⟩
      · rcases member_cases member2 with older2 | ⟨rfl, rfl⟩
        · exact sound.disjoint listener made1 other made2 request older1 older2
        · exact absurd older1 (notQueued made1)
      · rcases member_cases member2 with older2 | ⟨rfl, _⟩
        · exact absurd older2 (notQueued made2)
        · rfl

theorem closes
    {closed : Nat}
    (sound : kernel.QueuesSound)
    (socket : Nat) :
    ((kernel.socketClosed socket).releaseFcb closed).QueuesSound := by
  apply sound.of_shorter
  · exact socketClosed_socketCount kernel socket
  · intro port listener isMapped
    simp only [releaseFcb] at isMapped
    by_cases isListener : (kernel.sockets socket).type = .listener
    · rw [socketClosed_portMap_of_listener kernel socket isListener] at isMapped
      rcases eq_or_ne port (kernel.sockets socket).port with rfl | apart
      · rw [Function.update_self] at isMapped
        cases isMapped
      · rw [Function.update_of_ne apart] at isMapped
        exact sound.mapped port listener isMapped
    · rw [socketClosed_portMap_of_ne kernel socket isListener] at isMapped
      exact sound.mapped port listener isMapped
  · intro listener _
    simp only [releaseFcb]
    rw [(socketClosed_common kernel socket listener).2.2.2]
  · exact socketClosed_requestCount kernel socket
  · intro _ _ _ _
    simp only [releaseFcb, socketClosed_requests]

variable [DecidableEq π]

/-- A new socket has an empty queue. -/
theorem mem_created
    {process : π}
    {fid fcb socket request : Nat}
    {freelist : List Nat}
    {port : Int}
    (made : socket < kernel.socketCount + 1)
    (member : request ∈
      ((kernel.created process fid fcb freelist port).sockets socket).queue) :
    socket < kernel.socketCount ∧
      request ∈ (kernel.sockets socket).queue := by
  rcases Nat.lt_succ_iff_lt_or_eq.mp made with earlier | rfl
  · rw [created_sockets_of_lt earlier] at member
    exact ⟨earlier, member⟩
  · rw [created_sockets_self] at member
    exact absurd member List.not_mem_nil

theorem created
    (sound : kernel.QueuesSound)
    (process : π)
    (fid fcb : Nat)
    (freelist : List Nat)
    (port : Int) :
    (kernel.created process fid fcb freelist port).QueuesSound := by
  constructor
  case mapped =>
      exact fun port' listener isMapped =>
        Nat.lt_succ_of_lt (sound.mapped port' listener isMapped)
  case queued =>
      intro listener made request member
      obtain ⟨earlier, older⟩ := mem_created made member
      exact sound.queued listener earlier request older
  case nodup =>
      intro listener made
      rcases Nat.lt_succ_iff_lt_or_eq.mp made with earlier | rfl
      · rw [created_sockets_of_lt earlier]
        exact sound.nodup listener earlier
      · rw [created_sockets_self]
        exact List.nodup_nil
  case disjoint =>
      intro listener made other made' request member member'
      obtain ⟨earlier, older⟩ := mem_created made member
      obtain ⟨earlier', older'⟩ := mem_created made' member'
      exact sound.disjoint listener earlier other earlier' request older older'

end QueuesSound

/-! ## Joining two sockets -/

/-- The record of a call of `sys_Accept` that admits the request. -/
def recordOf
    (kernel : SocketKernel π)
    (process : π)
    (fid request peer : Nat) : AcceptRecord π :=
  ⟨process, fid, request, (kernel.requests request).peer, peer,
    kernel.pipeCount, kernel.pipeCount + 1⟩

/-- Admitting a request sets its flag, makes peers of two sockets and joins them
by two new pipes. -/
theorem admitted_eq
    {request peer : Nat}
    (kernel : SocketKernel π)
    (process : π)
    (fid : Nat)
    (apart : (kernel.requests request).peer ≠ peer) :
    kernel.admitted process fid request peer =
      { kernel with
        requests := Function.update kernel.requests request
          { kernel.requests request with admitted := true }
        sockets := Function.update (Function.update kernel.sockets peer
            { kernel.sockets peer with
              type := .peer
              readPipe := some kernel.pipeCount
              writePipe := some (kernel.pipeCount + 1) })
          (kernel.requests request).peer
            { kernel.sockets (kernel.requests request).peer with
              type := .peer
              readPipe := some (kernel.pipeCount + 1)
              writePipe := some kernel.pipeCount }
        pipes := Function.update (Function.update kernel.pipes kernel.pipeCount
            ⟨some (kernel.sockets peer).fcb,
              some (kernel.sockets (kernel.requests request).peer).fcb⟩)
          (kernel.pipeCount + 1)
            ⟨some (kernel.sockets (kernel.requests request).peer).fcb,
              some (kernel.sockets peer).fcb⟩
        pipeCount := kernel.pipeCount + 2
        accepts := kernel.accepts ++
          [kernel.recordOf process fid request peer] } := by
  simp [admitted, joinPeers, modifySocket, recordOf, apart, apart.symm,
    Function.update_comm apart]

section Admitted

variable {kernel : SocketKernel π} {process : π} {fid request peer : Nat}

@[simp] theorem admitted_socketCount :
    (kernel.admitted process fid request peer).socketCount =
      kernel.socketCount := rfl

@[simp] theorem admitted_requests :
    (kernel.admitted process fid request peer).requests =
      Function.update kernel.requests request
        { kernel.requests request with admitted := true } := rfl

@[simp] theorem admitted_requestCount :
    (kernel.admitted process fid request peer).requestCount =
      kernel.requestCount := rfl

@[simp] theorem admitted_pipeCount :
    (kernel.admitted process fid request peer).pipeCount =
      kernel.pipeCount + 2 := rfl

@[simp] theorem admitted_portMap :
    (kernel.admitted process fid request peer).portMap = kernel.portMap := rfl

@[simp] theorem admitted_connecting :
    (kernel.admitted process fid request peer).connecting =
      kernel.connecting := rfl

@[simp] theorem admitted_closed :
    (kernel.admitted process fid request peer).closed = kernel.closed := rfl

@[simp] theorem admitted_accepts :
    (kernel.admitted process fid request peer).accepts =
      kernel.accepts ++ [kernel.recordOf process fid request peer] := rfl

variable (apart : (kernel.requests request).peer ≠ peer)
include apart

theorem admitted_sockets_peer :
    (kernel.admitted process fid request peer).sockets peer =
      { kernel.sockets peer with
        type := .peer
        readPipe := some kernel.pipeCount
        writePipe := some (kernel.pipeCount + 1) } := by
  rw [admitted_eq kernel process fid apart]
  simp only [Function.update_of_ne apart.symm, Function.update_self]

theorem admitted_sockets_socket :
    (kernel.admitted process fid request peer).sockets
        (kernel.requests request).peer =
      { kernel.sockets (kernel.requests request).peer with
        type := .peer
        readPipe := some (kernel.pipeCount + 1)
        writePipe := some kernel.pipeCount } := by
  rw [admitted_eq kernel process fid apart]
  simp only [Function.update_self]

theorem admitted_sockets_of_ne
    {other : Nat}
    (notSocket : other ≠ (kernel.requests request).peer)
    (notPeer : other ≠ peer) :
    (kernel.admitted process fid request peer).sockets other =
      kernel.sockets other := by
  rw [admitted_eq kernel process fid apart]
  simp only [Function.update_of_ne notSocket, Function.update_of_ne notPeer]

theorem admitted_queue (other : Nat) :
    ((kernel.admitted process fid request peer).sockets other).queue =
      (kernel.sockets other).queue := by
  rcases eq_or_ne other (kernel.requests request).peer with rfl | notSocket
  · rw [admitted_sockets_socket apart]
  · rcases eq_or_ne other peer with rfl | notPeer
    · rw [admitted_sockets_peer apart]
    · rw [admitted_sockets_of_ne apart notSocket notPeer]

end Admitted

namespace QueuesSound

variable {limits : SocketLimits}
variable {kernel after : SocketKernel π}

theorem admitted
    {request peer : Nat}
    (sound : kernel.QueuesSound)
    (process : π)
    (fid : Nat)
    (apart : (kernel.requests request).peer ≠ peer)
    (unqueued : kernel.Unqueued request) :
    (kernel.admitted process fid request peer).QueuesSound := by
  apply sound.of_shorter
  · exact admitted_socketCount
  · rw [admitted_portMap]
    exact sound.mapped
  · intro listener _
    rw [admitted_queue apart]
  · exact admitted_requestCount
  · intro listener made other member
    rw [admitted_queue apart] at member
    rw [admitted_requests, Function.update_of_ne]
    rintro rfl
    exact unqueued listener made member

end QueuesSound

/-! ## Requests -/

/-- The flag of a request, the result of its call and the successful calls of
`sys_Accept` agree. -/
structure RequestsSound (kernel : SocketKernel π) : Prop where
  made : ∀ request < kernel.requestCount,
    (kernel.requests request).peer < kernel.socketCount
  waiting : ∀ request, kernel.Waiting request →
    (kernel.sockets (kernel.requests request).peer).type = .unbound
  admitted : ∀ request < kernel.requestCount,
    (kernel.requests request).admitted = true ↔
      ∃ record ∈ kernel.accepts, record.request = request
  recorded : ∀ record ∈ kernel.accepts,
    record.request < kernel.requestCount ∧
      record.socket = (kernel.requests record.request).peer
  notPeer : ∀ record ∈ kernel.accepts, ∀ request < kernel.requestCount,
    (kernel.requests request).peer ≠ record.peer
  once : (kernel.accepts.map AcceptRecord.request).Nodup
  succeeded : ∀ request < kernel.requestCount, ∀ result,
    (kernel.connecting request).result = some result →
      (kernel.requests request).admitted = true → result.value = 0
  failed : ∀ request < kernel.requestCount, ∀ result,
    (kernel.connecting request).result = some result →
      (kernel.requests request).admitted = false →
        result = ⟨-1, .unbound, false⟩

namespace RequestsSound

variable {limits : SocketLimits}
variable {kernel after : SocketKernel π}

/-- A step that concerns no request and keeps the types of the sockets that wait
for a connection. -/
theorem of_same
    (sound : kernel.RequestsSound)
    (sameRequests : after.requests = kernel.requests)
    (sameRequestCount : after.requestCount = kernel.requestCount)
    (sameConnecting : after.connecting = kernel.connecting)
    (sameAccepts : after.accepts = kernel.accepts)
    (moreSockets : kernel.socketCount ≤ after.socketCount)
    (sameType : ∀ request, kernel.Waiting request →
      (after.sockets (kernel.requests request).peer).type =
        (kernel.sockets (kernel.requests request).peer).type) :
    after.RequestsSound := by
  constructor
  case made =>
      rw [sameRequestCount, sameRequests]
      exact fun request made =>
        Nat.lt_of_lt_of_le (sound.made request made) moreSockets
  case waiting =>
      intro request waits
      have waits' : kernel.Waiting request :=
        ⟨sameRequestCount ▸ waits.made, sameConnecting ▸ waits.waits,
          sameRequests ▸ waits.unadmitted⟩
      rw [sameRequests, sameType request waits']
      exact sound.waiting request waits'
  case admitted =>
      rw [sameRequestCount, sameRequests, sameAccepts]
      exact sound.admitted
  case recorded =>
      rw [sameRequestCount, sameRequests, sameAccepts]
      exact sound.recorded
  case notPeer =>
      rw [sameRequestCount, sameRequests, sameAccepts]
      exact sound.notPeer
  case once =>
      rw [sameAccepts]
      exact sound.once
  case succeeded =>
      rw [sameRequestCount, sameRequests, sameConnecting]
      exact sound.succeeded
  case failed =>
      rw [sameRequestCount, sameRequests, sameConnecting]
      exact sound.failed

theorem quiet
    (sound : kernel.RequestsSound)
    (quiet : Quiet kernel after) :
    after.RequestsSound :=
  sound.of_same quiet.requests quiet.requestCount quiet.connecting
    quiet.accepts (Nat.le_of_eq quiet.socketCount.symm)
    fun _ _ => (quiet.sockets _).type

theorem popQueue
    (sound : kernel.RequestsSound)
    (listener : Nat)
    (queue : List Nat) :
    (kernel.popQueue listener queue).RequestsSound := by
  apply sound.of_same
  · rfl
  · rfl
  · rfl
  · rfl
  · exact Nat.le_refl _
  · intro request _
    simp only [SocketKernel.popQueue, modifySocket]
    rcases eq_or_ne (kernel.requests request).peer listener with same | apart
    · rw [same, Function.update_self]
    · rw [Function.update_of_ne apart]

theorem created
    [DecidableEq π]
    (sound : kernel.RequestsSound)
    (process : π)
    (fid fcb : Nat)
    (freelist : List Nat)
    (port : Int) :
    (kernel.created process fid fcb freelist port).RequestsSound := by
  apply sound.of_same
  · rfl
  · rfl
  · rfl
  · rfl
  · exact Nat.le_succ _
  · intro request waits
    rw [created_sockets_of_lt (sound.made request waits.made)]

theorem listening
    {listener : Nat}
    (sound : kernel.RequestsSound)
    (idle : kernel.Idle listener) :
    (kernel.listening listener).RequestsSound := by
  apply sound.of_same
  · rfl
  · rfl
  · rfl
  · rfl
  · exact Nat.le_refl _
  · intro request waits
    simp only [SocketKernel.listening, modifySocket]
    rw [Function.update_of_ne (idle request waits)]

theorem closes
    {fcb : Nat}
    (sound : kernel.RequestsSound)
    (socket : Nat) :
    ((kernel.socketClosed socket).releaseFcb fcb).RequestsSound := by
  apply sound.of_same
  · exact socketClosed_requests kernel socket
  · exact socketClosed_requestCount kernel socket
  · exact socketClosed_connecting kernel socket
  · exact socketClosed_accepts kernel socket
  · exact Nat.le_of_eq (socketClosed_socketCount kernel socket).symm
  · exact fun _ _ => (socketClosed_common kernel socket _).2.1

/-- A call of `sys_Connect` from an unbound socket starts to wait. -/
theorem enqueueRequest
    {rSocket : Nat}
    (sound : kernel.RequestsSound)
    (cSocket : Nat)
    (made : rSocket < kernel.socketCount)
    (unbound : (kernel.sockets rSocket).type = .unbound)
    (notPeer : ∀ record ∈ kernel.accepts, rSocket ≠ record.peer) :
    (kernel.enqueueRequest rSocket cSocket).RequestsSound := by
  have sameType : ∀ socket,
      ((kernel.enqueueRequest rSocket cSocket).sockets socket).type =
        (kernel.sockets socket).type := by
    intro socket
    simp only [SocketKernel.enqueueRequest, modifySocket]
    rcases eq_or_ne socket cSocket with rfl | apart
    · rw [Function.update_self]
    · rw [Function.update_of_ne apart]
  have newRequest : (kernel.enqueueRequest rSocket cSocket).requests
      kernel.requestCount = ⟨false, rSocket⟩ :=
    Function.update_self ..
  have newCall : (kernel.enqueueRequest rSocket cSocket).connecting
      kernel.requestCount = ⟨cSocket, none⟩ :=
    Function.update_self ..
  have olderRequest : ∀ {request}, request < kernel.requestCount →
      (kernel.enqueueRequest rSocket cSocket).requests request =
        kernel.requests request :=
    fun earlier => Function.update_of_ne (Nat.ne_of_lt earlier) _ _
  have olderCall : ∀ {request}, request < kernel.requestCount →
      (kernel.enqueueRequest rSocket cSocket).connecting request =
        kernel.connecting request :=
    fun earlier => Function.update_of_ne (Nat.ne_of_lt earlier) _ _
  constructor
  case made =>
      intro request made'
      rcases Nat.lt_succ_iff_lt_or_eq.mp made' with earlier | rfl
      · rw [olderRequest earlier]
        exact sound.made request earlier
      · rw [newRequest]
        exact made
  case waiting =>
      rintro request ⟨made', waits, unadmitted⟩
      rw [sameType]
      rcases Nat.lt_succ_iff_lt_or_eq.mp made' with earlier | rfl
      · rw [olderRequest earlier] at unadmitted ⊢
        rw [olderCall earlier] at waits
        exact sound.waiting request ⟨earlier, waits, unadmitted⟩
      · rw [newRequest]
        exact unbound
  case admitted =>
      intro request made'
      rcases Nat.lt_succ_iff_lt_or_eq.mp made' with earlier | rfl
      · rw [olderRequest earlier]
        exact sound.admitted request earlier
      · rw [newRequest]
        constructor
        · intro admitted
          cases admitted
        · rintro ⟨record, member, isNew⟩
          exact absurd (sound.recorded record member).1
            (isNew ▸ Nat.lt_irrefl _)
  case recorded =>
      intro record member
      obtain ⟨earlier, isPeer⟩ := sound.recorded record member
      rw [olderRequest earlier]
      exact ⟨Nat.lt_succ_of_lt earlier, isPeer⟩
  case notPeer =>
      intro record member request made'
      rcases Nat.lt_succ_iff_lt_or_eq.mp made' with earlier | rfl
      · rw [olderRequest earlier]
        exact sound.notPeer record member request earlier
      · rw [newRequest]
        exact notPeer record member
  case once => exact sound.once
  case succeeded =>
      intro request made' result returned admitted
      rcases Nat.lt_succ_iff_lt_or_eq.mp made' with earlier | rfl
      · rw [olderRequest earlier] at admitted
        rw [olderCall earlier] at returned
        exact sound.succeeded request earlier result returned admitted
      · rw [newCall] at returned
        cases returned
  case failed =>
      intro request made' result returned unadmitted
      rcases Nat.lt_succ_iff_lt_or_eq.mp made' with earlier | rfl
      · rw [olderRequest earlier] at unadmitted
        rw [olderCall earlier] at returned
        exact sound.failed request earlier result returned unadmitted
      · rw [newCall] at returned
        cases returned

/-- A request whose call waits alone for its socket is admitted. -/
theorem admits
    {request peer : Nat}
    (sound : kernel.RequestsSound)
    (process : π)
    (fid : Nat)
    (waiting : kernel.Waiting request)
    (alone : ∀ other, other ≠ request → kernel.Waiting other →
      (kernel.requests other).peer ≠ (kernel.requests request).peer)
    (fresh : ∀ other < kernel.requestCount,
      (kernel.requests other).peer ≠ peer) :
    (kernel.admitted process fid request peer).RequestsSound := by
  have apart := fresh request waiting.made
  have itself : (kernel.admitted process fid request peer).requests request =
      { kernel.requests request with admitted := true } :=
    Function.update_self ..
  have others : ∀ {other}, other ≠ request →
      (kernel.admitted process fid request peer).requests other =
        kernel.requests other :=
    fun notThis => Function.update_of_ne notThis _ _
  have samePeer : ∀ other,
      ((kernel.admitted process fid request peer).requests other).peer =
        (kernel.requests other).peer := by
    intro other
    rcases eq_or_ne other request with rfl | notThis
    · rw [itself]
    · rw [others notThis]
  have unrecorded : ¬∃ record ∈ kernel.accepts, record.request = request := by
    rw [← sound.admitted request waiting.made, waiting.unadmitted]
    exact Bool.false_ne_true
  constructor
  case made =>
      intro other made
      rw [samePeer]
      exact sound.made other made
  case waiting =>
      rintro other ⟨made, waits, unadmitted⟩
      rw [admitted_requestCount] at made
      rw [admitted_connecting] at waits
      rcases eq_or_ne other request with rfl | notThis
      · rw [itself] at unadmitted
        cases unadmitted
      · rw [others notThis] at unadmitted ⊢
        have waiting' : kernel.Waiting other := ⟨made, waits, unadmitted⟩
        rw [admitted_sockets_of_ne apart (alone other notThis waiting')
          (fresh other made)]
        exact sound.waiting other waiting'
  case admitted =>
      intro other made
      rw [admitted_requestCount] at made
      rw [admitted_accepts]
      rcases eq_or_ne other request with rfl | notThis
      · rw [itself]
        exact iff_of_true rfl ⟨_, List.mem_append_right _
          (List.mem_singleton_self _), rfl⟩
      · rw [others notThis, sound.admitted other made]
        simp [recordOf, or_and_right, exists_or, notThis.symm]
  case recorded =>
      intro record member
      rw [admitted_accepts, List.mem_append, List.mem_singleton] at member
      rw [admitted_requestCount]
      rcases member with older | rfl
      · obtain ⟨earlier, isPeer⟩ := sound.recorded record older
        rw [others fun same => unrecorded ⟨record, older, same⟩]
        exact ⟨earlier, isPeer⟩
      · refine ⟨waiting.made, ?_⟩
        simp only [recordOf, itself]
  case notPeer =>
      intro record member other made
      rw [admitted_accepts, List.mem_append, List.mem_singleton] at member
      rw [samePeer]
      rcases member with older | rfl
      · exact sound.notPeer record older other made
      · exact fresh other made
  case once =>
      rw [admitted_accepts, List.map_append]
      refine sound.once.append (List.nodup_singleton _) ?_
      rw [List.map_singleton, List.disjoint_singleton]
      intro member
      obtain ⟨record, older, same⟩ := List.mem_map.mp member
      exact unrecorded ⟨record, older, same⟩
  case succeeded =>
      intro other made result returned admitted
      rw [admitted_requestCount] at made
      rw [admitted_connecting] at returned
      rcases eq_or_ne other request with rfl | notThis
      · rw [waiting.waits] at returned
        cases returned
      · rw [others notThis] at admitted
        exact sound.succeeded other made result returned admitted
  case failed =>
      intro other made result returned unadmitted
      rw [admitted_requestCount] at made
      rw [admitted_connecting] at returned
      rcases eq_or_ne other request with rfl | notThis
      · rw [waiting.waits] at returned
        cases returned
      · rw [others notThis] at unadmitted
        exact sound.failed other made result returned unadmitted

/-- A call of `sys_Connect` returns; if its request has not been admitted, its
socket is unbound and has not been connected. -/
theorem returned
    {request : Nat}
    (sound : kernel.RequestsSound)
    (unconnected : ∀ socket, (kernel.sockets socket).type = .unbound →
      kernel.isConnected socket = false)
    (made : request < kernel.requestCount)
    (waits : (kernel.connecting request).result = none) :
    (kernel.returned request).RequestsSound := by
  have itself : ((kernel.returned request).connecting request).result =
      some ⟨if (kernel.requests request).admitted then 0 else -1,
        (kernel.sockets (kernel.requests request).peer).type,
        kernel.isConnected (kernel.requests request).peer⟩ := by
    simp [SocketKernel.returned]
  have others : ∀ {other}, other ≠ request →
      (kernel.returned request).connecting other = kernel.connecting other :=
    fun notThis => Function.update_of_ne notThis _ _
  constructor
  case made => exact sound.made
  case waiting =>
      rintro other ⟨made', waits', unadmitted⟩
      rcases eq_or_ne other request with rfl | notThis
      · rw [itself] at waits'
        cases waits'
      · rw [others notThis] at waits'
        exact sound.waiting other ⟨made', waits', unadmitted⟩
  case admitted => exact sound.admitted
  case recorded => exact sound.recorded
  case notPeer => exact sound.notPeer
  case once => exact sound.once
  case succeeded =>
      intro other made' result returned admitted
      rcases eq_or_ne other request with rfl | notThis
      · have admitted : (kernel.requests other).admitted = true := admitted
        rw [itself, if_pos admitted] at returned
        cases returned
        rfl
      · rw [others notThis] at returned
        exact sound.succeeded other made' result returned admitted
  case failed =>
      intro other made' result returned unadmitted
      rcases eq_or_ne other request with rfl | notThis
      · have unadmitted : (kernel.requests other).admitted = false := unadmitted
        have unbound := sound.waiting other ⟨made, waits, unadmitted⟩
        rw [itself, unadmitted, unbound, unconnected _ unbound] at returned
        cases returned
        rfl
      · rw [others notThis] at returned
        exact sound.failed other made' result returned unadmitted

end RequestsSound

end SocketKernel
end TinierOS
