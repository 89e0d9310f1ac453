import TinierOS.Old.Connections

/-!
# Joined sockets

The two sockets that a call of `sys_Accept` joins stay joined by their two pipes
until they are closed, and the file id that it returned leads to the peer.
-/

namespace TinierOS

/-- Two sockets with the same FCB, type and pipes. -/
structure SocketCb.SameEnds (socket other : SocketCb) : Prop where
  fcb : other.fcb = socket.fcb
  type : other.type = socket.type
  readPipe : other.readPipe = socket.readPipe
  writePipe : other.writePipe = socket.writePipe

theorem SocketCb.SameEnds.of_eq
    {socket other : SocketCb}
    (same : other = socket) :
    SameEnds socket other := by
  subst same
  exact ⟨rfl, rfl, rfl, rfl⟩

/-- The socket is one of the two that the call of `sys_Accept` has joined. -/
def AcceptRecord.Ends
    {π : Type}
    (record : AcceptRecord π)
    (socket : Nat) : Prop :=
  record.socket = socket ∨ record.peer = socket

/-- The record with its two ends exchanged. -/
def AcceptRecord.swap
    {π : Type}
    (record : AcceptRecord π) : AcceptRecord π :=
  { record with
    socket := record.peer
    peer := record.socket
    pipe1 := record.pipe2
    pipe2 := record.pipe1 }

namespace SocketKernel

variable {π : Type}

namespace Joins

variable {kernel after : SocketKernel π}
variable {record : AcceptRecord π}

theorem type_of_ends
    {socket : Nat}
    (joins : kernel.Joins record)
    (ends : record.Ends socket) :
    socket < kernel.socketCount ∧ (kernel.sockets socket).type = .peer := by
  rcases ends with rfl | rfl
  · exact joins.isSocket
  · exact joins.isPeer

/-- The two ends are alike. -/
theorem swap (joins : kernel.Joins record) : kernel.Joins record.swap where
  apart := joins.apart.symm
  isSocket := joins.isPeer
  isPeer := joins.isSocket
  socketPipes := joins.peerPipes
  peerPipes := joins.socketPipes
  toPeer := joins.toSocket
  toSocket := joins.toPeer

/-- A step that leaves the two sockets and their pipes alone. -/
theorem of_same
    (joins : kernel.Joins record)
    (moreSockets : kernel.socketCount ≤ after.socketCount)
    (sameEnds : ∀ socket, record.Ends socket →
      (kernel.sockets socket).SameEnds (after.sockets socket))
    (sameClosed : ∀ socket, record.Ends socket →
      after.closed socket = kernel.closed socket)
    (samePipe1 : after.pipes record.pipe1 = kernel.pipes record.pipe1)
    (samePipe2 : after.pipes record.pipe2 = kernel.pipes record.pipe2) :
    after.Joins record := by
  have sameSocket := sameEnds record.socket (.inl rfl)
  have samePeer := sameEnds record.peer (.inr rfl)
  have closedSocket := sameClosed record.socket (.inl rfl)
  have closedPeer := sameClosed record.peer (.inr rfl)
  constructor
  case apart => exact joins.apart
  case isSocket =>
      rw [sameSocket.type]
      exact joins.isSocket.imp_left fun made => Nat.lt_of_lt_of_le made moreSockets
  case isPeer =>
      rw [samePeer.type]
      exact joins.isPeer.imp_left fun made => Nat.lt_of_lt_of_le made moreSockets
  case socketPipes =>
      rw [closedSocket, sameSocket.readPipe, sameSocket.writePipe]
      exact joins.socketPipes
  case peerPipes =>
      rw [closedPeer, samePeer.readPipe, samePeer.writePipe]
      exact joins.peerPipes
  case toPeer =>
      rw [samePipe1, closedSocket, closedPeer, sameSocket.fcb, samePeer.fcb]
      exact joins.toPeer
  case toSocket =>
      rw [samePipe2, closedSocket, closedPeer, sameSocket.fcb, samePeer.fcb]
      exact joins.toSocket

end Joins

/-- A socket that is closed gives up the reading end of one pipe and the writing
end of another. -/
theorem socketClosed_pipes
    {kernel : SocketKernel π}
    {socket reads writes : Nat}
    (isPeer : (kernel.sockets socket).type = .peer)
    (readPipe : (kernel.sockets socket).readPipe = some reads)
    (writePipe : (kernel.sockets socket).writePipe = some writes)
    (different : reads ≠ writes) :
    (kernel.socketClosed socket).pipes =
      Function.update (Function.update kernel.pipes reads
          { kernel.pipes reads with reader := none })
        writes { kernel.pipes writes with writer := none } := by
  rw [socketClosed_eq]
  simp [isPeer, closedPipes, readPipe, writePipe, pipeReaderClose,
    pipeWriterClose, different.symm]

/-- The socket that made the request is closed. -/
theorem Joins.closesSocket
    {kernel : SocketKernel π}
    {record : AcceptRecord π}
    (joins : kernel.Joins record)
    (different : record.pipe1 ≠ record.pipe2)
    (isOpen : kernel.closed record.socket = false) :
    (kernel.socketClosed record.socket).Joins record := by
  have common := socketClosed_common kernel record.socket
  have sameCount := socketClosed_socketCount kernel record.socket
  have apart := joins.apart.symm
  have nowClosed : (kernel.socketClosed record.socket).closed record.socket =
      true := by
    rw [socketClosed_closed, Function.update_self]
  have sameClosed : (kernel.socketClosed record.socket).closed record.peer =
      kernel.closed record.peer := by
    rw [socketClosed_closed, Function.update_of_ne apart]
  obtain ⟨readPipe, writePipe⟩ := joins.socketPipes isOpen
  have pipes := socketClosed_pipes joins.isSocket.2 readPipe writePipe
    different.symm
  constructor
  case apart => exact joins.apart
  case isSocket =>
      rw [sameCount, (common _).2.1]
      exact joins.isSocket
  case isPeer =>
      rw [sameCount, (common _).2.1]
      exact joins.isPeer
  case socketPipes =>
      rw [nowClosed]
      exact nofun
  case peerPipes =>
      rw [sameClosed, socketClosed_sockets_of_ne kernel _ apart]
      exact joins.peerPipes
  case toPeer =>
      rw [pipes, Function.update_self, joins.toPeer, nowClosed, sameClosed,
        (common record.peer).1]
      rfl
  case toSocket =>
      rw [pipes, Function.update_of_ne different.symm, Function.update_self,
        joins.toSocket, nowClosed, sameClosed, (common record.peer).1]
      rfl

/-- One of the two sockets is closed. -/
theorem Joins.closes
    {kernel : SocketKernel π}
    {record : AcceptRecord π}
    {socket : Nat}
    (joins : kernel.Joins record)
    (different : record.pipe1 ≠ record.pipe2)
    (ends : record.Ends socket)
    (isOpen : kernel.closed socket = false) :
    (kernel.socketClosed socket).Joins record := by
  rcases ends with rfl | rfl
  · exact joins.closesSocket different isOpen
  · exact (joins.swap.closesSocket different.symm isOpen).swap

/-- The pipes are numbered in the order of the calls of `sys_Accept` that made
them, and every peer is an end of such a pair. -/
structure PipesSound (kernel : SocketKernel π) : Prop where
  counted : kernel.pipeCount = 2 * kernel.accepts.length
  numbered : ∀ index record, kernel.accepts[index]? = some record →
    record.pipe1 = 2 * index ∧ record.pipe2 = 2 * index + 1
  joined : ∀ record ∈ kernel.accepts, kernel.Joins record
  peers : ∀ socket < kernel.socketCount,
    (kernel.sockets socket).type = .peer →
      ∃ record ∈ kernel.accepts, record.Ends socket

namespace PipesSound

variable {kernel after : SocketKernel π}

/-- A socket that is not a peer is not connected. -/
theorem unconnected
    {socket : Nat}
    (sound : kernel.PipesSound)
    (notPeer : (kernel.sockets socket).type ≠ .peer) :
    kernel.isConnected socket = false := by
  unfold isConnected
  rw [List.any_eq_false]
  intro record member
  rw [decide_eq_true_eq]
  intro ends
  exact notPeer ((sound.joined record member).type_of_ends ends).2

/-- The pipes of a record have been made, and differ. -/
theorem made
    {record : AcceptRecord π}
    (sound : kernel.PipesSound)
    (member : record ∈ kernel.accepts) :
    record.pipe1 < kernel.pipeCount ∧ record.pipe2 < kernel.pipeCount ∧
      record.pipe1 ≠ record.pipe2 := by
  obtain ⟨index, isRecord⟩ := List.mem_iff_getElem?.mp member
  obtain ⟨pipe1, pipe2⟩ := sound.numbered index record isRecord
  have inRange := (List.getElem?_eq_some_iff.mp isRecord).1
  rw [sound.counted]
  omega

/-- Different records have different pipes. -/
theorem pipes_ne
    {record other : AcceptRecord π}
    (sound : kernel.PipesSound)
    (member : record ∈ kernel.accepts)
    (member' : other ∈ kernel.accepts)
    (notSame : record ≠ other) :
    other.pipe1 ≠ record.pipe1 ∧ other.pipe1 ≠ record.pipe2 ∧
      other.pipe2 ≠ record.pipe1 ∧ other.pipe2 ≠ record.pipe2 := by
  obtain ⟨index, isRecord⟩ := List.mem_iff_getElem?.mp member
  obtain ⟨index', isOther⟩ := List.mem_iff_getElem?.mp member'
  have different : index ≠ index' := by
    rintro rfl
    exact notSame (Option.some.inj (isRecord.symm.trans isOther))
  have first := sound.numbered index record isRecord
  have second := sound.numbered index' other isOther
  omega

/-- The pipes of a record that the closed socket is no end of. -/
theorem closedPipes_of_ends
    {record other : AcceptRecord π}
    {socket : Nat}
    (sound : kernel.PipesSound)
    (member : record ∈ kernel.accepts)
    (member' : other ∈ kernel.accepts)
    (ends : record.Ends socket)
    (notEnds : ¬other.Ends socket)
    (isOpen : kernel.closed socket = false) :
    (kernel.socketClosed socket).pipes other.pipe1 =
        kernel.pipes other.pipe1 ∧
      (kernel.socketClosed socket).pipes other.pipe2 =
        kernel.pipes other.pipe2 := by
  have joins := sound.joined record member
  have different := (sound.made member).2.2
  have isPeer := (joins.type_of_ends ends).2
  have notSame : record ≠ other := by
    rintro rfl
    exact notEnds ends
  obtain ⟨apart11, apart12, apart21, apart22⟩ :=
    sound.pipes_ne member member' notSame
  rcases ends with rfl | rfl
  · obtain ⟨readPipe, writePipe⟩ := joins.socketPipes isOpen
    rw [socketClosed_pipes isPeer readPipe writePipe different.symm]
    constructor
    · rw [Function.update_of_ne apart11, Function.update_of_ne apart12]
    · rw [Function.update_of_ne apart21, Function.update_of_ne apart22]
  · obtain ⟨readPipe, writePipe⟩ := joins.peerPipes isOpen
    rw [socketClosed_pipes isPeer readPipe writePipe different]
    constructor
    · rw [Function.update_of_ne apart12, Function.update_of_ne apart11]
    · rw [Function.update_of_ne apart22, Function.update_of_ne apart21]

/-- A step that joins no sockets and leaves the pipes alone. -/
theorem of_same
    (sound : kernel.PipesSound)
    (sameCount : after.pipeCount = kernel.pipeCount)
    (sameAccepts : after.accepts = kernel.accepts)
    (samePipes : after.pipes = kernel.pipes)
    (moreSockets : kernel.socketCount ≤ after.socketCount)
    (sameEnds : ∀ socket < kernel.socketCount,
      (kernel.sockets socket).type = .peer →
        (kernel.sockets socket).SameEnds (after.sockets socket))
    (sameClosed : ∀ socket < kernel.socketCount,
      (kernel.sockets socket).type = .peer →
        after.closed socket = kernel.closed socket)
    (samePeers : ∀ socket < after.socketCount,
      (after.sockets socket).type = .peer →
        socket < kernel.socketCount ∧ (kernel.sockets socket).type = .peer) :
    after.PipesSound := by
  constructor
  case counted =>
      rw [sameCount, sameAccepts]
      exact sound.counted
  case numbered =>
      rw [sameAccepts]
      exact sound.numbered
  case joined =>
      rw [sameAccepts]
      intro record member
      have joins := sound.joined record member
      apply joins.of_same moreSockets
      · intro socket ends
        obtain ⟨made, isPeer⟩ := joins.type_of_ends ends
        exact sameEnds socket made isPeer
      · intro socket ends
        obtain ⟨made, isPeer⟩ := joins.type_of_ends ends
        exact sameClosed socket made isPeer
      · rw [samePipes]
      · rw [samePipes]
  case peers =>
      rw [sameAccepts]
      intro socket made isPeer
      obtain ⟨made', isPeer'⟩ := samePeers socket made isPeer
      exact sound.peers socket made' isPeer'

/-- A step that changes no end of any socket. -/
theorem of_sameEnds
    (sound : kernel.PipesSound)
    (sameCount : after.pipeCount = kernel.pipeCount)
    (sameAccepts : after.accepts = kernel.accepts)
    (samePipes : after.pipes = kernel.pipes)
    (sameSockets : after.socketCount = kernel.socketCount)
    (sameClosed : after.closed = kernel.closed)
    (sameEnds : ∀ socket,
      (kernel.sockets socket).SameEnds (after.sockets socket)) :
    after.PipesSound := by
  apply sound.of_same sameCount sameAccepts samePipes
  · exact Nat.le_of_eq sameSockets.symm
  · exact fun socket _ _ => sameEnds socket
  · intro socket _ _
    rw [sameClosed]
  · intro socket made isPeer
    rw [(sameEnds socket).type] at isPeer
    exact ⟨sameSockets ▸ made, isPeer⟩

theorem quiet
    (sound : kernel.PipesSound)
    (quiet : Quiet kernel after) :
    after.PipesSound := by
  apply sound.of_sameEnds quiet.pipeCount quiet.accepts quiet.pipes
    quiet.socketCount quiet.closed
  intro socket
  have same := quiet.sockets socket
  exact ⟨same.fcb, same.type, same.readPipe, same.writePipe⟩

theorem modifySocket
    {change : SocketCb → SocketCb}
    (sound : kernel.PipesSound)
    (socket : Nat)
    (sameEnds : ∀ cb : SocketCb, cb.SameEnds (change cb)) :
    (kernel.modifySocket socket change).PipesSound := by
  apply sound.of_sameEnds
  · rfl
  · rfl
  · rfl
  · rfl
  · rfl
  · intro other
    simp only [SocketKernel.modifySocket]
    rcases eq_or_ne other socket with rfl | apart
    · rw [Function.update_self]
      exact sameEnds _
    · rw [Function.update_of_ne apart]
      exact .of_eq rfl

theorem popQueue
    (sound : kernel.PipesSound)
    (listener : Nat)
    (queue : List Nat) :
    (kernel.popQueue listener queue).PipesSound := by
  unfold SocketKernel.popQueue
  apply sound.modifySocket
  exact fun _ => ⟨rfl, rfl, rfl, rfl⟩

theorem enqueueRequest
    (sound : kernel.PipesSound)
    (rSocket cSocket : Nat) :
    (kernel.enqueueRequest rSocket cSocket).PipesSound := by
  unfold SocketKernel.enqueueRequest
  apply modifySocket
  · exact sound.of_sameEnds rfl rfl rfl rfl rfl fun _ => .of_eq rfl
  · exact fun _ => ⟨rfl, rfl, rfl, rfl⟩

theorem listening
    {listener : Nat}
    (sound : kernel.PipesSound)
    (unbound : (kernel.sockets listener).type = .unbound) :
    (kernel.listening listener).PipesSound := by
  have others : ∀ {socket}, socket ≠ listener →
      (kernel.listening listener).sockets socket = kernel.sockets socket :=
    fun apart => Function.update_of_ne apart _ _
  have itself : (kernel.listening listener).sockets listener =
      { kernel.sockets listener with type := .listener, queue := [] } :=
    Function.update_self ..
  apply sound.of_same
  · rfl
  · rfl
  · rfl
  · exact Nat.le_refl _
  · intro socket _ isPeer
    refine .of_eq (others ?_)
    rintro rfl
    rw [unbound] at isPeer
    cases isPeer
  · exact fun _ _ _ => rfl
  · intro socket made isPeer
    rcases eq_or_ne socket listener with rfl | apart
    · rw [itself] at isPeer
      cases isPeer
    · rw [others apart] at isPeer
      exact ⟨made, isPeer⟩

theorem created
    [DecidableEq π]
    (sound : kernel.PipesSound)
    (process : π)
    (fid fcb : Nat)
    (freelist : List Nat)
    (port : Int) :
    (kernel.created process fid fcb freelist port).PipesSound := by
  apply sound.of_same
  · rfl
  · rfl
  · rfl
  · exact Nat.le_succ _
  · exact fun socket made _ => .of_eq (created_sockets_of_lt made)
  · exact fun _ _ _ => rfl
  · intro socket made isPeer
    rcases Nat.lt_succ_iff_lt_or_eq.mp made with earlier | rfl
    · rw [created_sockets_of_lt earlier] at isPeer
      exact ⟨earlier, isPeer⟩
    · rw [created_sockets_self] at isPeer
      cases isPeer

/-- A socket is closed: if it is a peer, only the pipes of its record change. -/
theorem socketClosed
    {socket : Nat}
    (sound : kernel.PipesSound)
    (made : socket < kernel.socketCount)
    (isOpen : kernel.closed socket = false) :
    (kernel.socketClosed socket).PipesSound := by
  have sameAccepts := socketClosed_accepts kernel socket
  have sameCount := socketClosed_socketCount kernel socket
  have samePeers : ∀ other < (kernel.socketClosed socket).socketCount,
      ((kernel.socketClosed socket).sockets other).type = .peer →
        other < kernel.socketCount ∧ (kernel.sockets other).type = .peer := by
    intro other made' isPeer
    rw [(socketClosed_common kernel socket other).2.1] at isPeer
    exact ⟨sameCount ▸ made', isPeer⟩
  by_cases isPeer : (kernel.sockets socket).type = .peer
  · obtain ⟨record, member, ends⟩ := sound.peers socket made isPeer
    constructor
    case counted =>
        rw [socketClosed_pipeCount, sameAccepts]
        exact sound.counted
    case numbered =>
        rw [sameAccepts]
        exact sound.numbered
    case joined =>
        rw [sameAccepts]
        intro other member'
        have joins := sound.joined other member'
        by_cases ends' : other.Ends socket
        · exact joins.closes (sound.made member').2.2 ends' isOpen
        · have notEnd : ∀ end', other.Ends end' → end' ≠ socket := by
            rintro end' isEnd rfl
            exact ends' isEnd
          obtain ⟨pipe1, pipe2⟩ := sound.closedPipes_of_ends member member' ends
            ends' isOpen
          apply joins.of_same
          · exact Nat.le_of_eq sameCount.symm
          · exact fun end' isEnd => .of_eq
              (socketClosed_sockets_of_ne kernel socket (notEnd end' isEnd))
          · intro end' isEnd
            rw [socketClosed_closed, Function.update_of_ne (notEnd end' isEnd)]
          · exact pipe1
          · exact pipe2
    case peers =>
        rw [sameAccepts]
        intro other made' isPeer'
        obtain ⟨earlier, wasPeer⟩ := samePeers other made' isPeer'
        exact sound.peers other earlier wasPeer
  · have apart : ∀ {other}, (kernel.sockets other).type = .peer →
        other ≠ socket := by
      rintro other isPeer' rfl
      exact isPeer isPeer'
    apply sound.of_same
    · exact socketClosed_pipeCount kernel socket
    · exact sameAccepts
    · rw [socketClosed_eq]
      exact if_neg isPeer
    · exact Nat.le_of_eq sameCount.symm
    · exact fun other _ isPeer' => .of_eq
        (socketClosed_sockets_of_ne kernel socket (apart isPeer'))
    · intro other _ isPeer'
      rw [socketClosed_closed, Function.update_of_ne (apart isPeer')]
    · exact samePeers

end PipesSound

/-- Two open sockets of which neither is a peer. -/
structure Joinable
    (kernel : SocketKernel π)
    (socket peer : Nat) : Prop where
  apart : socket ≠ peer
  socketMade : socket < kernel.socketCount
  peerMade : peer < kernel.socketCount
  socketFree : (kernel.sockets socket).type ≠ .peer
  peerFree : (kernel.sockets peer).type ≠ .peer
  socketOpen : kernel.closed socket = false
  peerOpen : kernel.closed peer = false

/-- The two sockets of the new record are joined. -/
theorem Joinable.joins
    {kernel : SocketKernel π}
    {request peer : Nat}
    (joinable : kernel.Joinable (kernel.requests request).peer peer)
    (process : π)
    (fid : Nat) :
    (kernel.admitted process fid request peer).Joins
      (kernel.recordOf process fid request peer) := by
  have apart := joinable.apart
  constructor
  case apart => exact apart
  case isSocket =>
      rw [admitted_socketCount]
      refine ⟨joinable.socketMade, ?_⟩
      simp only [recordOf, admitted_sockets_socket apart]
  case isPeer =>
      rw [admitted_socketCount]
      refine ⟨joinable.peerMade, ?_⟩
      simp only [recordOf, admitted_sockets_peer apart]
  case socketPipes =>
      intro _
      simp only [recordOf, admitted_sockets_socket apart, and_self]
  case peerPipes =>
      intro _
      simp only [recordOf, admitted_sockets_peer apart, and_self]
  case toPeer =>
      simp only [recordOf, admitted_closed, admitted_sockets_socket apart,
        admitted_sockets_peer apart, joinable.socketOpen, joinable.peerOpen]
      rw [admitted_eq kernel process fid apart]
      simp
  case toSocket =>
      simp only [recordOf, admitted_closed, admitted_sockets_socket apart,
        admitted_sockets_peer apart, joinable.socketOpen, joinable.peerOpen]
      rw [admitted_eq kernel process fid apart]
      simp

/-- Joining two sockets leaves those that have been joined before alone. -/
theorem PipesSound.admits
    {kernel : SocketKernel π}
    {request peer : Nat}
    (sound : kernel.PipesSound)
    (joinable : kernel.Joinable (kernel.requests request).peer peer)
    (process : π)
    (fid : Nat) :
    (kernel.admitted process fid request peer).PipesSound := by
  have apart := joinable.apart
  have olderPipe : ∀ {pipe}, pipe < kernel.pipeCount →
      (kernel.admitted process fid request peer).pipes pipe =
        kernel.pipes pipe := by
    intro pipe earlier
    rw [admitted_eq kernel process fid apart]
    dsimp only
    rw [Function.update_of_ne (by omega), Function.update_of_ne (by omega)]
  constructor
  case counted =>
      rw [admitted_accepts, List.length_append, List.length_singleton,
        admitted_pipeCount]
      have counted := sound.counted
      omega
  case numbered =>
      rw [admitted_accepts]
      intro index record isRecord
      rcases Nat.lt_or_ge index kernel.accepts.length with earlier | later
      · rw [List.getElem?_append_left earlier] at isRecord
        exact sound.numbered index record isRecord
      · rw [List.getElem?_append_right later,
          List.getElem?_singleton] at isRecord
        split_ifs at isRecord with last
        cases isRecord
        have counted := sound.counted
        simp only [recordOf]
        omega
  case joined =>
      rw [admitted_accepts]
      intro record member
      rw [List.mem_append, List.mem_singleton] at member
      rcases member with older | rfl
      · have joins := sound.joined record older
        obtain ⟨made1, made2, _⟩ := sound.made older
        have notNew : ∀ socket, record.Ends socket →
            socket ≠ (kernel.requests request).peer ∧ socket ≠ peer := by
          intro socket ends
          have isPeer := (joins.type_of_ends ends).2
          constructor
          · rintro rfl
            exact joinable.socketFree isPeer
          · rintro rfl
            exact joinable.peerFree isPeer
        apply joins.of_same
        · exact Nat.le_of_eq admitted_socketCount.symm
        · intro socket ends
          obtain ⟨notSocket, notPeer⟩ := notNew socket ends
          exact .of_eq (admitted_sockets_of_ne apart notSocket notPeer)
        · intro socket _
          rw [admitted_closed]
        · exact olderPipe made1
        · exact olderPipe made2
      · exact joinable.joins process fid
  case peers =>
      rw [admitted_accepts]
      intro socket made isPeer
      by_cases ends : (kernel.recordOf process fid request peer).Ends socket
      · exact ⟨_, List.mem_append_right _ (List.mem_singleton_self _), ends⟩
      · rw [AcceptRecord.Ends, not_or] at ends
        rw [admitted_sockets_of_ne apart (Ne.symm ends.1) (Ne.symm ends.2)]
          at isPeer
        rw [admitted_socketCount] at made
        obtain ⟨record, older, ends'⟩ := sound.peers socket made isPeer
        exact ⟨record, List.mem_append_left _ older, ends'⟩

/-! ## The file ids that were returned -/

namespace Leads

variable {limits : SocketLimits}
variable {kernel : SocketKernel π}
variable {record : AcceptRecord π}
variable [DecidableEq π]

/-- A new file takes no file id and no FCB that is in use. -/
theorem created
    {process : π}
    {fid fcb : Nat}
    {freelist : List Nat}
    (leads : kernel.Leads record)
    (files : kernel.FilesSound)
    (available : kernel.Available limits process fid fcb freelist)
    (port : Int) :
    (kernel.created process fid fcb freelist port).Leads record := by
  intro isOpen
  obtain ⟨fcb', isFile, isPeer⟩ := leads isOpen
  have apart : fcb' ≠ fcb := by
    rintro rfl
    apply (files.inUse _ _ _ isFile).1
    rw [available.free]
    exact List.mem_cons_self
  refine ⟨fcb', ?_, ?_⟩
  · simp only [SocketKernel.created]
    rcases eq_or_ne record.process process with same | otherProcess
    · have otherFid : record.fid ≠ fid := by
        intro sameFid
        rw [same, sameFid, available.unused] at isFile
        cases isFile
      rw [same, Function.update_self, Function.update_of_ne otherFid, ← same]
      exact isFile
    · rw [Function.update_of_ne otherProcess]
      exact isFile
  · simp only [SocketKernel.created, Function.update_of_ne apart]
    exact isPeer

/-- A file id that is given up led to the socket that is closed. -/
theorem closes
    {process : π}
    {fd : Int}
    {fcb : Nat}
    (leads : kernel.Leads record)
    (isFile : kernel.getFcb limits process fd = some fcb) :
    (((kernel.unreferenced process fd.toNat fcb).socketClosed
      (kernel.fcbs fcb).streamobj).releaseFcb fcb).Leads record := by
  intro isOpen
  simp only [releaseFcb, socketClosed_closed, socketClosed_fidt,
    socketClosed_fcbs, unreferenced] at isOpen ⊢
  rcases eq_or_ne record.peer (kernel.fcbs fcb).streamobj with same | apart
  · rw [same, Function.update_self] at isOpen
    cases isOpen
  · rw [Function.update_of_ne apart] at isOpen
    obtain ⟨fcb', isFile', isPeer⟩ := leads isOpen
    have different : fcb' ≠ fcb := by
      rintro rfl
      exact apart isPeer.symm
    refine ⟨fcb', ?_, ?_⟩
    · rcases eq_or_ne record.process process with sameProcess | otherProcess
      · have otherFid : record.fid ≠ fd.toNat := by
          intro sameFid
          rw [sameProcess, sameFid, FilesSound.fidt_of_getFcb isFile] at isFile'
          exact different (Option.some.inj isFile').symm
        rw [sameProcess, Function.update_self, Function.update_of_ne otherFid,
          ← sameProcess]
        exact isFile'
      · rw [Function.update_of_ne otherProcess]
        exact isFile'
    · rw [Function.update_of_ne different]
      exact isPeer

end Leads

end SocketKernel
end TinierOS
