import TinierOS.Old.Peers

/-!
# Connect and Accept agree

A call of `sys_Connect` that waits returns 0 if and only if a call of
`sys_Accept` has taken its request and joined its socket with the peer that it
returned, in every run in which requests are admitted while their calls wait and
nobody listens on a socket that waits for a connection.
-/

namespace TinierOS
namespace SocketKernel

variable {π : Type} [DecidableEq π]

omit [DecidableEq π] in
/-- Everything that holds of sockets, requests and pipes together. -/
structure ConnectionsSound (kernel : SocketKernel π) : Prop where
  files : kernel.FilesSound
  queues : kernel.QueuesSound
  requests : kernel.RequestsSound
  pipes : kernel.PipesSound
  leads : ∀ record ∈ kernel.accepts, kernel.Leads record

namespace ConnectionsSound

variable {limits : SocketLimits}
variable {kernel after : SocketKernel π}

omit [DecidableEq π] in
theorem quiet
    (sound : kernel.ConnectionsSound)
    (quiet : Quiet kernel after) :
    after.ConnectionsSound where
  files := sound.files.quiet quiet
  queues := sound.queues.quiet quiet
  requests := sound.requests.quiet quiet
  pipes := sound.pipes.quiet quiet
  leads := by
    unfold Leads
    rw [quiet.accepts, quiet.closed, quiet.fidt, quiet.fcbs]
    exact sound.leads

theorem created
    {process : π}
    {fid fcb : Nat}
    {freelist : List Nat}
    (sound : kernel.ConnectionsSound)
    (available : kernel.Available limits process fid fcb freelist)
    (port : Int) :
    (kernel.created process fid fcb freelist port).ConnectionsSound where
  files := sound.files.created available port
  queues := sound.queues.created process fid fcb freelist port
  requests := sound.requests.created process fid fcb freelist port
  pipes := sound.pipes.created process fid fcb freelist port
  leads := fun record member =>
    (sound.leads record member).created sound.files available port

omit [DecidableEq π] in
theorem listening
    {listener : Nat}
    (sound : kernel.ConnectionsSound)
    (made : listener < kernel.socketCount)
    (unbound : (kernel.sockets listener).type = .unbound)
    (idle : kernel.Idle listener) :
    (kernel.listening listener).ConnectionsSound where
  files := sound.files.listening listener
  queues := sound.queues.listening made
  requests := sound.requests.listening idle
  pipes := sound.pipes.listening unbound
  leads := sound.leads

omit [DecidableEq π] in
theorem popQueue
    {listener request : Nat}
    {queue : List Nat}
    (sound : kernel.ConnectionsSound)
    (made : listener < kernel.socketCount)
    (queued : (kernel.sockets listener).queue = request :: queue) :
    (kernel.popQueue listener queue).ConnectionsSound where
  files := sound.files.popQueue listener queue
  queues := (sound.queues.popQueue made queued).1
  requests := sound.requests.popQueue listener queue
  pipes := sound.pipes.popQueue listener queue
  leads := sound.leads

omit [DecidableEq π] in
theorem enqueueRequest
    {rSocket cSocket : Nat}
    (sound : kernel.ConnectionsSound)
    (isListener : cSocket < kernel.socketCount)
    (made : rSocket < kernel.socketCount)
    (unbound : (kernel.sockets rSocket).type = .unbound) :
    (kernel.enqueueRequest rSocket cSocket).ConnectionsSound where
  files := sound.files.enqueueRequest rSocket cSocket
  queues := sound.queues.enqueueRequest isListener
  requests := by
    apply sound.requests.enqueueRequest cSocket made unbound
    rintro record member rfl
    rw [(sound.pipes.joined record member).isPeer.2] at unbound
    cases unbound
  pipes := sound.pipes.enqueueRequest rSocket cSocket
  leads := sound.leads

omit [DecidableEq π] in
theorem returned
    {request : Nat}
    (sound : kernel.ConnectionsSound)
    (made : request < kernel.requestCount)
    (waits : (kernel.connecting request).result = none) :
    (kernel.returned request).ConnectionsSound where
  files := sound.files.of_same rfl rfl rfl rfl rfl fun _ => rfl
  queues := sound.queues.of_same rfl rfl (fun _ => rfl) rfl rfl
  requests := by
    apply sound.requests.returned _ made waits
    intro socket unbound
    apply sound.pipes.unconnected
    rw [unbound]
    exact nofun
  pipes := sound.pipes.of_sameEnds rfl rfl rfl rfl rfl fun _ => .of_eq rfl
  leads := sound.leads

omit [DecidableEq π] in
/-- A request that is in no queue is admitted, and its socket joined with a new
one. -/
theorem admitted
    {request peer fid fcb : Nat}
    {process : π}
    (sound : kernel.ConnectionsSound)
    (waiting : kernel.Waiting request)
    (alone : ∀ other, other ≠ request → kernel.Waiting other →
      (kernel.requests other).peer ≠ (kernel.requests request).peer)
    (unqueued : kernel.Unqueued request)
    (fresh : ∀ other < kernel.requestCount,
      (kernel.requests other).peer ≠ peer)
    (joinable : kernel.Joinable (kernel.requests request).peer peer)
    (isFile : kernel.fidt process fid = some fcb)
    (isPeer : (kernel.fcbs fcb).streamobj = peer) :
    (kernel.admitted process fid request peer).ConnectionsSound where
  files := sound.files.admitted process fid request peer
  queues := sound.queues.admitted process fid joinable.apart unqueued
  requests := sound.requests.admits process fid waiting alone fresh
  pipes := sound.pipes.admits joinable process fid
  leads := by
    intro record member
    rw [admitted_accepts, List.mem_append, List.mem_singleton] at member
    rcases member with older | rfl
    · exact sound.leads record older
    · exact fun _ => ⟨fcb, isFile, isPeer⟩

/-- A call of `sys_Accept` admits an admissible request. -/
theorem admits
    {call : AcceptCall π}
    {request fid fcb : Nat}
    {queue freelist : List Nat}
    (sound : kernel.ConnectionsSound)
    (takes : kernel.Takes call request queue)
    (available : kernel.Available limits call.process fid fcb freelist)
    (admissible : kernel.Admissible request)
    (port : Int) :
    (((kernel.popQueue call.listener queue).created call.process fid fcb freelist
      port).admitted call.process fid request
        kernel.socketCount).ConnectionsSound := by
  have madeListener := sound.queues.mapped _ _ takes.current
  have inQueue : request ∈ (kernel.sockets call.listener).queue := by
    rw [takes.queued]
    exact List.mem_cons_self
  obtain ⟨made, unadmitted⟩ := sound.queues.queued _ madeListener _ inQueue
  have waiting : kernel.Waiting request := ⟨made, admissible.waits, unadmitted⟩
  have socketMade := sound.requests.made request made
  have unqueued := (sound.queues.popQueue madeListener takes.queued).2
  have afterPop := sound.popQueue madeListener takes.queued
  have poppedType : ((kernel.popQueue call.listener queue).sockets
      (kernel.requests request).peer).type = .unbound := by
    have waiting' : (kernel.popQueue call.listener queue).Waiting request :=
      ⟨waiting.made, waiting.waits, waiting.unadmitted⟩
    exact afterPop.requests.waiting request waiting'
  have available' : (kernel.popQueue call.listener queue).Available limits
      call.process fid fcb freelist :=
    ⟨available.inRange, available.unused, available.free⟩
  have notNew : (kernel.requests request).peer ≠ kernel.socketCount :=
    Nat.ne_of_lt socketMade
  have earlier : (kernel.requests request).peer <
      (kernel.popQueue call.listener queue).socketCount := socketMade
  have oldType : (((kernel.popQueue call.listener queue).created call.process
      fid fcb freelist port).sockets (kernel.requests request).peer).type =
        .unbound :=
    (congrArg SocketCb.type (created_sockets_of_lt earlier)).trans poppedType
  have newType : (((kernel.popQueue call.listener queue).created call.process
      fid fcb freelist port).sockets kernel.socketCount).type = .unbound :=
    congrArg SocketCb.type created_sockets_self
  apply (afterPop.created available' port).admitted
  case waiting => exact ⟨waiting.made, waiting.waits, waiting.unadmitted⟩
  case alone =>
      exact fun other apart ⟨made', waits, unadmitted'⟩ =>
        admissible.alone other apart ⟨made', waits, unadmitted'⟩
  case unqueued =>
      intro listener made' member
      obtain ⟨earlier, older⟩ := QueuesSound.mem_created made' member
      exact unqueued listener earlier older
  case fresh =>
      exact fun other made' => Nat.ne_of_lt (sound.requests.made other made')
  case joinable =>
      constructor
      case apart => exact notNew
      case socketMade => exact Nat.lt_succ_of_lt socketMade
      case peerMade => exact Nat.lt_succ_self _
      case socketFree => exact fun isPeer => nomatch oldType.symm.trans isPeer
      case peerFree => exact fun isPeer => nomatch newType.symm.trans isPeer
      case socketOpen => exact admissible.isOpen
      case peerOpen => exact sound.files.closed_socketCount
  case isFile =>
      exact FilesSound.fidt_of_getFcb (getFcb_created available' port)
  case isPeer =>
      simp only [SocketKernel.created, Function.update_self]
      rfl

theorem closes
    {process : π}
    {fd : Int}
    {fcb : Nat}
    (sound : kernel.ConnectionsSound)
    (isFile : kernel.getFcb limits process fd = some fcb) :
    (((kernel.unreferenced process fd.toNat fcb).socketClosed
      (kernel.fcbs fcb).streamobj).releaseFcb fcb).ConnectionsSound := by
  obtain ⟨made, isOpen⟩ := sound.files.isOpen_of_getFcb isFile
  have queues : (kernel.unreferenced process fd.toNat fcb).QueuesSound :=
    sound.queues.of_same rfl rfl (fun _ => rfl) rfl rfl
  have requests : (kernel.unreferenced process fd.toNat fcb).RequestsSound :=
    sound.requests.of_same rfl rfl rfl rfl (Nat.le_refl _) fun _ _ => rfl
  have pipes : (kernel.unreferenced process fd.toNat fcb).PipesSound :=
    sound.pipes.of_sameEnds rfl rfl rfl rfl rfl fun _ => .of_eq rfl
  constructor
  case files => exact sound.files.closes isFile
  case queues => exact queues.closes _
  case requests => exact requests.closes _
  case pipes =>
      exact (pipes.socketClosed made isOpen).of_sameEnds rfl rfl rfl rfl rfl
        fun _ => .of_eq rfl
  case leads =>
      intro record member
      simp only [releaseFcb, socketClosed_accepts] at member
      exact (sound.leads record member).closes isFile

end ConnectionsSound

/-- The file that a call of `sys_Accept` needs can be reserved. -/
theorem Available.fcbReserve
    {limits : SocketLimits}
    {kernel : SocketKernel π}
    {process : π}
    {fid fcb : Nat}
    {freelist : List Nat}
    (available : kernel.Available limits process fid fcb freelist) :
    (kernel.fcbReserve limits process).isSome = true := by
  have found : ((List.range limits.maxFileid).find? fun fid =>
      (kernel.fidt process fid).isNone).isSome = true := by
    rw [List.find?_isSome]
    exact ⟨fid, List.mem_range.mpr available.inRange, by rw [available.unused]; rfl⟩
  obtain ⟨first, isFirst⟩ := Option.isSome_iff_exists.mp found
  simp [SocketKernel.fcbReserve, isFirst, available.free]

namespace Undisturbed

variable {limits : SocketLimits}
variable {kernel : SocketKernel π}
variable {action : SocketAction π}

/-- The request that is admitted is admissible. -/
theorem admissible
    {call : AcceptCall π}
    {request fid fcb : Nat}
    {queue freelist : List Nat}
    (undisturbed : kernel.Undisturbed limits action)
    (isCall : kernel.callOf limits action = some call)
    (takes : kernel.Takes call request queue)
    (available : kernel.Available limits call.process fid fcb freelist) :
    kernel.Admissible request := by
  apply undisturbed.admits
  unfold willAdmit
  rw [isCall, Option.bind_some]
  dsimp only
  rw [if_pos ⟨takes.inUse, takes.isListener, takes.current,
    available.fcbReserve⟩, takes.queued]
  rfl

/-- No call of `sys_Connect` waits to connect a socket that becomes a
listener. -/
theorem idle
    {process : π}
    {sock : Int}
    {fcb : Nat}
    (undisturbed : kernel.Undisturbed limits (.listen process sock))
    (isFile : kernel.getFcb limits process sock = some fcb)
    (bound : (kernel.sockets (kernel.fcbs fcb).streamobj).port ≠ 0)
    (unused : kernel.portMap
      (kernel.sockets (kernel.fcbs fcb).streamobj).port = none)
    (unbound : (kernel.sockets (kernel.fcbs fcb).streamobj).type = .unbound) :
    kernel.Idle (kernel.fcbs fcb).streamobj := by
  apply undisturbed.listens
  rw [Option.mem_def, listensOn, isFile, Option.bind_some]
  exact if_pos ⟨bound, unused, unbound⟩

end Undisturbed

namespace ConnectionsSound

variable {limits : SocketLimits}
variable {kernel after : SocketKernel π}

theorem turn
    {action : SocketAction π}
    (sound : kernel.ConnectionsSound)
    (undisturbed : kernel.Undisturbed limits action)
    (turn : Turn limits kernel action after) :
    after.ConnectionsSound := by
  cases turn with
  | stays => exact sound
  | creates available legal => exact sound.created available _
  | listens isFile bound unused unbound =>
      have made := (sound.files.isOpen_of_getFcb isFile).1
      exact sound.listening made unbound
        (undisturbed.idle isFile bound unused unbound)
  | enqueues isFile isPort isListener unbound =>
      exact sound.enqueueRequest (sound.queues.mapped _ _ isPort)
        (sound.files.isOpen_of_getFcb isFile).1 unbound
  | drops isCall takes =>
      exact sound.popQueue (sound.queues.mapped _ _ takes.current) takes.queued
  | admits isCall takes available =>
      exact sound.admits takes available
        (undisturbed.admissible isCall takes available) _
  | returns made waits => exact sound.returned made waits
  | unreferences isFile shared =>
      exact absurd (sound.files.not_shared isFile) shared
  | closes isFile => exact sound.closes isFile

/-- Everything holds of every state of an undisturbed run. -/
theorem of_reachable
    {fcbs : Nat → SocketFcb}
    {sockets : Nat → SocketCb}
    {requests : Nat → ConnectionRequest}
    {pipes : Nat → PipeEnds}
    {connecting : Nat → ConnectCall}
    (reached : Reachable (SocketKernel.step limits) (Undisturbed limits)
      (start limits fcbs sockets requests pipes connecting) kernel) :
    kernel.ConnectionsSound := by
  refine reached.invariant (motive := ConnectionsSound) ?_ ?_
  · constructor
    case files => exact .start ..
    case queues => exact ⟨nofun, nofun, nofun, nofun⟩
    case requests =>
        exact ⟨nofun, nofun, nofun, nofun, nofun, List.nodup_nil, nofun, nofun⟩
    case pipes => exact ⟨rfl, nofun, nofun, nofun⟩
    case leads => exact nofun
  · intro before after action sound undisturbed stepped
    obtain ⟨last, turn, quiet⟩ := exists_turn_of_step stepped
    exact (sound.turn undisturbed turn).quiet quiet

end ConnectionsSound

omit [DecidableEq π] in
/-- A call of `sys_Connect` that does not wait returns -1 and changes nothing. -/
theorem sysConnect_rejects
    {limits : SocketLimits}
    {kernel after : SocketKernel π}
    {process : π}
    {sock port value : Int}
    (rejected : kernel.sysConnect limits process sock port =
      .ok (.returns value, after)) :
    value = -1 ∧ after = kernel := by
  unfold sysConnect at rejected
  cases isFile : kernel.getFcb limits process sock with
  | none =>
      rw [isFile] at rejected
      cases rejected
      exact ⟨rfl, rfl⟩
  | some fcb =>
      simp only [isFile] at rejected
      by_cases illegal : port ≤ 0 ∨ (limits.maxPort : Int) - 1 ≤ port
      · rw [if_pos illegal] at rejected
        cases rejected
        exact ⟨rfl, rfl⟩
      · rw [if_neg illegal] at rejected
        obtain ⟨entry, _, rejected⟩ := exists_of_bind_eq_ok rejected
        cases entry with
        | none =>
            cases rejected
            exact ⟨rfl, rfl⟩
        | some cSocket =>
            simp only at rejected
            split_ifs at rejected
            · cases rejected
              exact ⟨rfl, rfl⟩
            · cases rejected
              exact ⟨rfl, rfl⟩
            · cases rejected

/-- A call of `sys_Accept` that returns a file id is recorded. -/
theorem acceptFrom_records
    {limits : SocketLimits}
    {kernel after : SocketKernel π}
    {call : AcceptCall π}
    {value : Int}
    (ran : kernel.acceptFrom limits call = .ok (.returns value, after))
    (succeeded : value ≠ -1) :
    ∃ record, after.accepts = kernel.accepts ++ [record] ∧
      record.process = call.process ∧ (record.fid : Int) = value := by
  obtain ⟨entry, _, ran⟩ := exists_of_bind_eq_ok ran
  by_cases empty : (kernel.sockets call.listener).queue = [] ∧ entry ≠ none
  · rw [if_pos empty] at ran
    cases ran
  rw [if_neg empty] at ran
  by_cases unused : entry = none
  · rw [if_pos unused] at ran
    cases ran
    exact absurd rfl succeeded
  rw [if_neg unused] at ran
  obtain ⟨again, _, ran⟩ := exists_of_bind_eq_ok ran
  by_cases stale : (kernel.sockets call.listener).type ≠ .listener ∨
      again ≠ some call.listener
  · rw [if_pos stale] at ran
    cases ran
    exact absurd rfl succeeded
  rw [if_neg stale] at ran
  cases queued : (kernel.sockets call.listener).queue with
  | nil =>
      rw [queued] at ran
      cases ran
  | cons request queue =>
      simp only [queued] at ran
      have isAfter : (kernel.popQueue call.listener queue).admitRequest limits call
          request = (.returns value, after) := Except.ok.inj ran
      unfold admitRequest at isAfter
      obtain failed | ⟨fid, fcb, freelist, available, _, _, made⟩ :=
        sysSocket_cases limits (kernel.popQueue call.listener queue)
          call.process
            ((kernel.popQueue call.listener queue).sockets call.listener).port
      · rw [failed] at isAfter
        cases isAfter
        exact absurd rfl succeeded
      · rw [made] at isAfter
        simp only [getFcb_created available] at isAfter
        cases isAfter
        exact ⟨_, rfl, rfl, congrArg Int.ofNat (Int.toNat_natCast fid)⟩

/-- What `sys_Connect` and `sys_Accept` tell their callers holds: a call of
`sys_Connect` that has waited returned 0 if and only if a call of `sys_Accept`
has taken its request and joined its socket with the peer that it returned; if it
returned -1 its socket was unbound and not connected, and no call of `sys_Accept`
makes a peer of the socket for its sake; and the other end of every socket that
`sys_Accept` returned belongs to a call of `sys_Connect` that returns 0. -/
structure ConnectionsAgree
    (limits : SocketLimits)
    (kernel : SocketKernel π) : Prop where
  connected : ∀ request < kernel.requestCount, ∀ result,
    (kernel.connecting request).result = some result →
      (result.value = 0 ↔ ∃ record ∈ kernel.accepts,
        record.request = request ∧
        record.socket = (kernel.requests request).peer ∧
        kernel.Joins record ∧ kernel.Leads record)
  failed : ∀ request < kernel.requestCount, ∀ result,
    (kernel.connecting request).result = some result → result.value ≠ 0 →
      result = ⟨-1, .unbound, false⟩ ∧
        ∀ record ∈ kernel.accepts, record.request ≠ request ∧
          record.peer ≠ (kernel.requests request).peer
  rejected : ∀ process sock port value after,
    kernel.sysConnect limits process sock port = .ok (.returns value, after) →
      value = -1 ∧ after = kernel
  unconnected : ∀ socket, (kernel.sockets socket).type = .unbound →
    kernel.isConnected socket = false
  recorded : ∀ call value after,
    kernel.acceptFrom limits call = .ok (.returns value, after) → value ≠ -1 →
      ∃ record, after.accepts = kernel.accepts ++ [record] ∧
        record.process = call.process ∧ (record.fid : Int) = value
  accepted : ∀ record ∈ kernel.accepts,
    record.request < kernel.requestCount ∧
      record.socket = (kernel.requests record.request).peer ∧
      kernel.Joins record ∧ kernel.Leads record ∧
      ∀ signalled, ∃ result,
        ((kernel.resumeConnect record.request signalled).connecting
          record.request).result = some result ∧ result.value = 0
  once : (kernel.accepts.map AcceptRecord.request).Nodup

omit [DecidableEq π] in
/-- The call whose request has been admitted has returned 0, or does so when it
goes on. -/
theorem RequestsSound.returnsZero
    {kernel : SocketKernel π}
    {request : Nat}
    (sound : kernel.RequestsSound)
    (made : request < kernel.requestCount)
    (admitted : (kernel.requests request).admitted = true)
    (signalled : Bool) :
    ∃ result, ((kernel.resumeConnect request signalled).connecting
      request).result = some result ∧ result.value = 0 := by
  unfold resumeConnect
  cases returned : (kernel.connecting request).result with
  | some result =>
      refine ⟨result, ?_, sound.succeeded request made result returned admitted⟩
      simp [returned]
  | none => simp [made, admitted, returned]

/-- `sys_Connect` and `sys_Accept` agree in every run in which requests are
admitted while their calls wait, alone for sockets that have not been closed, and
nobody listens on a socket that waits for a connection. -/
theorem connections_agree
    (limits : SocketLimits)
    (fcbs : Nat → SocketFcb)
    (sockets : Nat → SocketCb)
    (requests : Nat → ConnectionRequest)
    (pipes : Nat → PipeEnds)
    (connecting : Nat → ConnectCall)
    (kernel : SocketKernel π)
    (reached : Reachable (SocketKernel.step limits) (Undisturbed limits)
      (start limits fcbs sockets requests pipes connecting) kernel) :
    kernel.ConnectionsAgree limits := by
  have sound := ConnectionsSound.of_reachable reached
  constructor
  case connected =>
      intro request made result returned
      have isAdmitted := sound.requests.admitted request made
      constructor
      · intro isZero
        cases admitted : (kernel.requests request).admitted with
        | false =>
            rw [sound.requests.failed request made result returned admitted]
              at isZero
            cases isZero
        | true =>
            obtain ⟨record, member, rfl⟩ := isAdmitted.mp admitted
            exact ⟨record, member, rfl,
              (sound.requests.recorded record member).2,
              sound.pipes.joined record member, sound.leads record member⟩
      · rintro ⟨record, member, isRequest, _⟩
        exact sound.requests.succeeded request made result returned
          (isAdmitted.mpr ⟨record, member, isRequest⟩)
  case failed =>
      intro request made result returned notZero
      have unadmitted : (kernel.requests request).admitted = false := by
        rw [← Bool.not_eq_true]
        exact fun admitted => notZero
          (sound.requests.succeeded request made result returned admitted)
      refine ⟨sound.requests.failed request made result returned unadmitted, ?_⟩
      intro record member
      constructor
      · rintro rfl
        have admitted := (sound.requests.admitted record.request made).mpr
          ⟨record, member, rfl⟩
        rw [unadmitted] at admitted
        cases admitted
      · exact (sound.requests.notPeer record member request made).symm
  case rejected => exact fun _ _ _ _ _ => sysConnect_rejects
  case unconnected =>
      intro socket unbound
      apply sound.pipes.unconnected
      rw [unbound]
      exact nofun
  case recorded => exact fun _ _ _ => acceptFrom_records
  case accepted =>
      intro record member
      obtain ⟨made, isSocket⟩ := sound.requests.recorded record member
      have admitted := (sound.requests.admitted record.request made).mpr
        ⟨record, member, rfl⟩
      exact ⟨made, isSocket, sound.pipes.joined record member,
        sound.leads record member, sound.requests.returnsZero made admitted⟩
  case once => exact sound.requests.once

/-- A call of `sys_Connect` is answered by a waiting call of `sys_Accept` and
returns 0. -/
theorem connections_agree_answered :
    ∃ kernel : SocketKernel Unit,
      ((kernel.connecting 0).result = some ⟨0, .peer, true⟩ ∧
        kernel.accepts.length = 1) ∧ kernel.ConnectionsAgree ⟨1023, 4, 4⟩ := by
  have ran : ∃ kernel : SocketKernel Unit,
      Reachable (SocketKernel.step ⟨1023, 4, 4⟩) (Undisturbed ⟨1023, 4, 4⟩)
        (booted ⟨1023, 4, 4⟩) kernel ∧
      decide ((kernel.connecting 0).result = some ⟨0, .peer, true⟩ ∧
        kernel.accepts.length = 1) = true :=
    exists_reachable_of_any [.socket () 1, .listen () 0, .socket () 0,
      .accept () 0, .connect () 1 1, .resumeAccept 0, .resumeConnect 0 true]
      (by decide)
  obtain ⟨kernel, reached, test⟩ := ran
  exact ⟨kernel, of_decide_eq_true test,
    connections_agree _ _ _ _ _ _ kernel reached⟩

/-- A call of `sys_Connect` stops waiting and returns -1; then a call of
`sys_Accept` takes its request, makes a peer of its socket and succeeds. -/
theorem connections_disagree :
    ∃ kernel : SocketKernel Unit,
      Reachable (SocketKernel.step ⟨1023, 4, 4⟩) (fun _ _ => True)
        (booted ⟨1023, 4, 4⟩) kernel ∧
      (kernel.connecting 0).result = some ⟨-1, .unbound, false⟩ ∧
      (kernel.requests 0).peer = 1 ∧ (kernel.sockets 1).type = .peer ∧
      ¬kernel.ConnectionsAgree ⟨1023, 4, 4⟩ := by
  have ran : ∃ kernel : SocketKernel Unit,
      Reachable (SocketKernel.step ⟨1023, 4, 4⟩) (fun _ _ => True)
        (booted ⟨1023, 4, 4⟩) kernel ∧
      decide (0 < kernel.requestCount ∧
        (kernel.connecting 0).result = some ⟨-1, .unbound, false⟩ ∧
        (kernel.requests 0).peer = 1 ∧ (kernel.sockets 1).type = .peer ∧
        ∃ record ∈ kernel.accepts, record.request = 0) = true :=
    exists_reachable_of_any [.socket () 1, .listen () 0, .socket () 0,
      .connect () 1 1, .resumeConnect 0 false, .accept () 0] (by decide)
  obtain ⟨kernel, reached, test⟩ := ran
  obtain ⟨made, returned, isPeer, type, record, member, isRequest⟩ :=
    of_decide_eq_true test
  refine ⟨kernel, reached, returned, isPeer, type, fun agree => ?_⟩
  have failed := agree.failed 0 made _ returned (by decide)
  exact (failed.2 record member).1 isRequest

end SocketKernel
end TinierOS
