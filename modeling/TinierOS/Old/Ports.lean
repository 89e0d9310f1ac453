import TinierOS.Old.SocketFiles

/-!
# Which ports are legal

`sys_Socket` takes ports up to `MAX_PORT`, `PORT_MAP` has the indices below
`MAX_PORT`, and `sys_Connect` takes ports below `MAX_PORT - 1`.  The calls agree
as long as nobody calls `sys_Listen` on a socket with one of the two highest
ports.
-/

namespace TinierOS
namespace SocketKernel

variable {π : Type} [DecidableEq π]

omit [DecidableEq π] in
/-- The step is a call of `sys_Socket`, `sys_Listen`, `sys_Connect` or
`sys_Close`, or goes on with a call of `sys_Connect`. -/
def WithoutAccept : SocketAction π → Prop
  | .accept _ _ | .resumeAccept _ => False
  | _ => True

omit [DecidableEq π] in
/-- Nobody listens on a socket that is bound to one of the two highest ports. -/
def LowPorts
    (limits : SocketLimits)
    (kernel : SocketKernel π) : SocketAction π → Prop
  | .accept _ _ | .resumeAccept _ => False
  | .listen process sock => ∀ fcb ∈ kernel.getFcb limits process sock,
      (kernel.sockets (kernel.fcbs fcb).streamobj).port = 0 ∨
        (kernel.sockets (kernel.fcbs fcb).streamobj).port <
          (limits.maxPort : Int) - 1
  | _ => True

instance (action : SocketAction π) : Decidable (WithoutAccept action) :=
  match action with
  | .socket _ _ | .listen _ _ | .connect _ _ _ | .close _ _
  | .resumeConnect _ _ => .isTrue trivial
  | .accept _ _ | .resumeAccept _ => .isFalse id

instance
    (limits : SocketLimits)
    (kernel : SocketKernel π)
    (action : SocketAction π) :
    Decidable (kernel.LowPorts limits action) :=
  match action with
  | .socket _ _ | .connect _ _ _ | .close _ _ | .resumeConnect _ _ =>
      .isTrue trivial
  | .accept _ _ | .resumeAccept _ => .isFalse id
  | .listen _ _ => inferInstanceAs (Decidable (∀ _ ∈ (_ : Option Nat), _ ∨ _))

omit [DecidableEq π] in
/-- The listeners that have not been closed, their ports and `PORT_MAP` fit. -/
structure PortsSound
    (limits : SocketLimits)
    (kernel : SocketKernel π) : Prop where
  bounds : ∀ socket < kernel.socketCount, 0 ≤ (kernel.sockets socket).port
  legal : ∀ port listener, (port, listener) ∈ kernel.listened →
    0 < port ∧ port < (limits.maxPort : Int) - 1
  listens : ∀ port listener, (port, listener) ∈ kernel.listened →
    listener < kernel.socketCount ∧
      (kernel.sockets listener).type = .listener ∧
      (kernel.sockets listener).port = port
  isListed : ∀ listener < kernel.socketCount,
    (kernel.sockets listener).type = .listener →
      ((kernel.sockets listener).port, listener) ∈ kernel.listened
  mapped : ∀ port listener, (port, listener) ∈ kernel.listened →
    kernel.closed listener = false → kernel.portMap port = some listener

namespace PortsSound

variable {limits : SocketLimits}
variable {kernel after : SocketKernel π}

omit [DecidableEq π] in
/-- A step that changes no port and no listener. -/
theorem of_same
    (sound : kernel.PortsSound limits)
    (sameCount : after.socketCount = kernel.socketCount)
    (samePort : ∀ socket, (after.sockets socket).port =
      (kernel.sockets socket).port)
    (sameType : ∀ socket, (after.sockets socket).type =
      (kernel.sockets socket).type)
    (sameListened : after.listened = kernel.listened)
    (samePortMap : after.portMap = kernel.portMap)
    (sameClosed : after.closed = kernel.closed) :
    after.PortsSound limits := by
  constructor
  · rw [sameCount]
    intro socket made
    rw [samePort]
    exact sound.bounds socket made
  · rw [sameListened]
    exact sound.legal
  · rw [sameListened, sameCount]
    intro port listener listed
    rw [sameType, samePort]
    exact sound.listens port listener listed
  · rw [sameListened, sameCount]
    intro listener made
    rw [sameType, samePort]
    exact sound.isListed listener made
  · rw [sameListened, samePortMap, sameClosed]
    exact sound.mapped

omit [DecidableEq π] in
theorem quiet
    (sound : kernel.PortsSound limits)
    (quiet : Quiet kernel after) :
    after.PortsSound limits :=
  sound.of_same quiet.socketCount (fun socket => (quiet.sockets socket).port)
    (fun socket => (quiet.sockets socket).type) quiet.listened quiet.portMap
    quiet.closed

theorem created
    {process : π}
    {fid fcb : Nat}
    {freelist : List Nat}
    {port : Int}
    (sound : kernel.PortsSound limits)
    (atLeast : 0 ≤ port) :
    (kernel.created process fid fcb freelist port).PortsSound limits := by
  constructor
  case bounds =>
      intro socket made
      rcases Nat.lt_succ_iff_lt_or_eq.mp made with earlier | rfl
      · rw [created_sockets_of_lt earlier]
        exact sound.bounds socket earlier
      · rw [created_sockets_self]
        exact atLeast
  case legal => exact sound.legal
  case listens =>
      intro port' listener listed
      obtain ⟨made, isListener, isPort⟩ := sound.listens port' listener listed
      rw [created_sockets_of_lt made]
      exact ⟨Nat.lt_succ_of_lt made, isListener, isPort⟩
  case isListed =>
      intro listener made isListener
      rcases Nat.lt_succ_iff_lt_or_eq.mp made with earlier | rfl
      · rw [created_sockets_of_lt earlier] at isListener ⊢
        exact sound.isListed listener earlier isListener
      · rw [created_sockets_self] at isListener
        cases isListener
  case mapped => exact sound.mapped

omit [DecidableEq π] in
theorem listening
    {listener : Nat}
    (sound : kernel.PortsSound limits)
    (made : listener < kernel.socketCount)
    (bound : (kernel.sockets listener).port ≠ 0)
    (low : (kernel.sockets listener).port < (limits.maxPort : Int) - 1)
    (unused : kernel.portMap (kernel.sockets listener).port = none)
    (unbound : (kernel.sockets listener).type = .unbound) :
    (kernel.listening listener).PortsSound limits := by
  have atLeast := sound.bounds listener made
  have others : ∀ {socket}, socket ≠ listener →
      (kernel.listening listener).sockets socket = kernel.sockets socket :=
    fun apart => Function.update_of_ne apart _ _
  have itself : (kernel.listening listener).sockets listener =
      { kernel.sockets listener with type := .listener, queue := [] } :=
    Function.update_self ..
  have listed : ∀ {port socket},
      (port, socket) ∈ (kernel.listening listener).listened →
        (port, socket) ∈ kernel.listened ∧ socket ≠ listener ∨
          port = (kernel.sockets listener).port ∧ socket = listener := by
    intro port socket member
    rcases List.mem_append.mp member with earlier | last
    · refine .inl ⟨earlier, ?_⟩
      rintro rfl
      rw [(sound.listens port socket earlier).2.1] at unbound
      cases unbound
    · cases List.mem_singleton.mp last
      exact .inr ⟨rfl, rfl⟩
  constructor
  case bounds =>
      intro socket made'
      rcases eq_or_ne socket listener with rfl | apart
      · rw [itself]
        exact atLeast
      · rw [others apart]
        exact sound.bounds socket made'
  case legal =>
      intro port socket member
      rcases listed member with ⟨earlier, _⟩ | ⟨rfl, _⟩
      · exact sound.legal port socket earlier
      · exact ⟨by omega, low⟩
  case listens =>
      intro port socket member
      rcases listed member with ⟨earlier, apart⟩ | ⟨rfl, rfl⟩
      · rw [others apart]
        exact sound.listens port socket earlier
      · rw [itself]
        exact ⟨made, rfl, rfl⟩
  case isListed =>
      intro socket made' isListener
      rcases eq_or_ne socket listener with rfl | apart
      · rw [itself]
        exact List.mem_append_right _ (List.mem_singleton.mpr rfl)
      · rw [others apart] at isListener ⊢
        exact List.mem_append_left _ (sound.isListed socket made' isListener)
  case mapped =>
      intro port socket member isOpen
      simp only [SocketKernel.listening, modifySocket]
      rcases listed member with ⟨earlier, _⟩ | ⟨rfl, rfl⟩
      · have isMapped := sound.mapped port socket earlier isOpen
        rw [Function.update_of_ne]
        · exact isMapped
        · rintro rfl
          rw [unused] at isMapped
          cases isMapped
      · rw [Function.update_self]

theorem closes
    {process : π}
    {fd : Int}
    {fcb : Nat}
    (sound : kernel.PortsSound limits)
    (files : kernel.FilesSound)
    (isFile : kernel.getFcb limits process fd = some fcb) :
    (((kernel.unreferenced process fd.toNat fcb).socketClosed
      (kernel.fcbs fcb).streamobj).releaseFcb fcb).PortsSound limits := by
  obtain ⟨made, stillOpen⟩ := files.isOpen_of_getFcb isFile
  constructor
  case bounds =>
      intro socket made'
      simp only [releaseFcb, socketClosed_socketCount] at made' ⊢
      rw [(socketClosed_common _ _ _).2.2.1]
      exact sound.bounds socket made'
  case legal =>
      simp only [releaseFcb, socketClosed_listened]
      exact sound.legal
  case listens =>
      intro port listener member
      simp only [releaseFcb, socketClosed_listened, socketClosed_socketCount]
        at member ⊢
      obtain ⟨_, sameType, samePort, _⟩ := socketClosed_common
        (kernel.unreferenced process fd.toNat fcb) (kernel.fcbs fcb).streamobj
        listener
      rw [sameType, samePort]
      exact sound.listens port listener member
  case isListed =>
      intro listener made'
      simp only [releaseFcb, socketClosed_listened, socketClosed_socketCount]
        at made' ⊢
      obtain ⟨_, sameType, samePort, _⟩ := socketClosed_common
        (kernel.unreferenced process fd.toNat fcb) (kernel.fcbs fcb).streamobj
        listener
      rw [sameType, samePort]
      exact sound.isListed listener made'
  case mapped =>
      intro port listener member isOpen
      simp only [releaseFcb, socketClosed_listened, socketClosed_closed]
        at member isOpen ⊢
      have apart : listener ≠ (kernel.fcbs fcb).streamobj := by
        rintro rfl
        simp at isOpen
      rw [Function.update_of_ne apart] at isOpen
      have isMapped := sound.mapped port listener member isOpen
      by_cases isListener :
          (kernel.sockets (kernel.fcbs fcb).streamobj).type = .listener
      · have itself := sound.mapped _ _ (sound.isListed _ made isListener) stillOpen
        rw [socketClosed_portMap_of_listener
          (kernel.unreferenced process fd.toNat fcb) _ isListener]
        refine (Function.update_of_ne ?_ _ _).trans isMapped
        rintro rfl
        exact apart (Option.some.inj (isMapped.symm.trans itself))
      · rw [socketClosed_portMap_of_ne
          (kernel.unreferenced process fd.toNat fcb) _ isListener]
        exact isMapped

theorem turn
    {action : SocketAction π}
    (sound : kernel.PortsSound limits)
    (files : kernel.FilesSound)
    (low : kernel.LowPorts limits action)
    (turn : Turn limits kernel action after) :
    after.PortsSound limits := by
  cases turn with
  | stays => exact sound
  | creates available legal => exact sound.created legal.1
  | listens isFile bound unused unbound =>
      have made := (files.isOpen_of_getFcb isFile).1
      exact sound.listening made bound ((low _ isFile).resolve_left bound)
        unused unbound
  | @enqueues process sock port fcb cSocket isFile isPort isListener unbound =>
      have same : ∀ socket,
          ((kernel.enqueueRequest (kernel.fcbs fcb).streamobj cSocket).sockets
              socket).port = (kernel.sockets socket).port ∧
            ((kernel.enqueueRequest (kernel.fcbs fcb).streamobj
              cSocket).sockets socket).type = (kernel.sockets socket).type := by
        intro socket
        simp only [enqueueRequest, modifySocket]
        rcases eq_or_ne socket cSocket with rfl | apart
        · rw [Function.update_self]
          exact ⟨rfl, rfl⟩
        · rw [Function.update_of_ne apart]
          exact ⟨rfl, rfl⟩
      exact sound.of_same rfl (fun socket => (same socket).1)
        (fun socket => (same socket).2) rfl rfl rfl
  | @drops action call request queue isCall takes =>
      cases action <;> first | cases isCall | exact absurd low id
  | @admits action call request fid fcb queue freelist isCall takes available =>
      cases action <;> first | cases isCall | exact absurd low id
  | returns made waits =>
      exact sound.of_same rfl (fun _ => rfl) (fun _ => rfl) rfl rfl rfl
  | unreferences isFile shared =>
      exact sound.of_same rfl (fun _ => rfl) (fun _ => rfl) rfl rfl rfl
  | closes isFile => exact sound.closes files isFile

omit [DecidableEq π] in
/-- A port that a call looks up is inside of `PORT_MAP`. -/
theorem listen_ok
    {process : π}
    {sock : Int}
    (sound : kernel.PortsSound limits)
    (files : kernel.FilesSound)
    (low : kernel.LowPorts limits (.listen process sock)) :
    ∃ result, kernel.sysListen limits process sock = .ok result := by
  unfold sysListen
  cases isFile : kernel.getFcb limits process sock with
  | none => exact ⟨_, rfl⟩
  | some fcb =>
      have made := (files.isOpen_of_getFcb isFile).1
      have atLeast := sound.bounds _ made
      by_cases notBound :
          (kernel.sockets (kernel.fcbs fcb).streamobj).port = 0
      · simp only [if_pos notBound]
        exact ⟨_, rfl⟩
      · have below := (low fcb isFile).resolve_left notBound
        have inBounds :
            0 ≤ (kernel.sockets (kernel.fcbs fcb).streamobj).port ∧
              (kernel.sockets (kernel.fcbs fcb).streamobj).port <
                limits.maxPort := ⟨atLeast, by omega⟩
        simp only [if_neg notBound, portMapAt, setPortMap, if_pos inBounds]
        by_cases rejected : kernel.portMap
            (kernel.sockets (kernel.fcbs fcb).streamobj).port ≠ none ∨
              (kernel.sockets (kernel.fcbs fcb).streamobj).type ≠ .unbound
        · exact ⟨_, if_pos rejected⟩
        · exact ⟨_, if_neg rejected⟩

omit [DecidableEq π] in
theorem connect_ok
    (limits : SocketLimits)
    (kernel : SocketKernel π)
    (process : π)
    (sock port : Int) :
    ∃ result, kernel.sysConnect limits process sock port = .ok result := by
  unfold sysConnect
  cases kernel.getFcb limits process sock with
  | none => exact ⟨_, rfl⟩
  | some fcb =>
      by_cases illegal : port ≤ 0 ∨ (limits.maxPort : Int) - 1 ≤ port
      · exact ⟨_, if_pos illegal⟩
      · have inBounds : 0 ≤ port ∧ port < limits.maxPort := by omega
        simp only [if_neg illegal, portMapAt, if_pos inBounds]
        cases kernel.portMap port with
        | none => exact ⟨_, rfl⟩
        | some cSocket =>
            by_cases notListener : (kernel.sockets cSocket).type ≠ .listener
            · exact ⟨_, if_pos notListener⟩
            · by_cases notUnbound :
                  (kernel.sockets (kernel.fcbs fcb).streamobj).type ≠ .unbound
              · exact ⟨_, (if_neg notListener).trans (if_pos notUnbound)⟩
              · exact ⟨_, (if_neg notListener).trans (if_neg notUnbound)⟩

theorem close_ok
    (sound : kernel.PortsSound limits)
    (files : kernel.FilesSound)
    (process : π)
    (fd : Int) :
    ∃ after, kernel.sysClose limits process fd = .ok after := by
  unfold sysClose
  cases isFile : kernel.getFcb limits process fd with
  | none => exact ⟨_, rfl⟩
  | some fcb =>
      have made := (files.isOpen_of_getFcb isFile).1
      simp only [fcbDecref, Function.update_self]
      split_ifs
      · cases type : (kernel.sockets (kernel.fcbs fcb).streamobj).type with
        | unbound =>
            simp only [socketClose, type]
            exact ⟨_, rfl⟩
        | peer =>
            simp only [socketClose, type]
            exact ⟨_, rfl⟩
        | listener =>
            obtain ⟨above, below⟩ := sound.legal _ _
              (sound.isListed _ made type)
            have inBounds :
                0 ≤ (kernel.sockets (kernel.fcbs fcb).streamobj).port ∧
                  (kernel.sockets (kernel.fcbs fcb).streamobj).port <
                    limits.maxPort := ⟨by omega, by omega⟩
            simp only [socketClose, type, setPortMap, if_pos inBounds]
            exact ⟨_, rfl⟩
      · exact ⟨_, rfl⟩

/-- No call looks outside of `PORT_MAP`. -/
theorem step_ok
    {action : SocketAction π}
    (sound : kernel.PortsSound limits)
    (files : kernel.FilesSound)
    (low : kernel.LowPorts limits action) :
    ∃ after, kernel.step limits action = .ok after := by
  cases action with
  | socket process port => exact ⟨_, rfl⟩
  | listen process sock =>
      obtain ⟨result, called⟩ := sound.listen_ok files low
      exact ⟨result.2, by rw [SocketKernel.step, called]; rfl⟩
  | connect process sock port =>
      obtain ⟨result, called⟩ := connect_ok limits kernel process sock port
      exact ⟨result.2, by rw [SocketKernel.step, called]; rfl⟩
  | close process fd => exact sound.close_ok files process fd
  | resumeConnect request signalled => exact ⟨_, rfl⟩
  | accept process lsock => exact absurd low id
  | resumeAccept index => exact absurd low id

end PortsSound

/-- The calls agree on which ports are legal: no call looks outside of
`PORT_MAP`, and a call of `sys_Connect` from an unbound socket to the port of a
listener that has not been closed enqueues a request there. -/
structure PortsAgree
    (limits : SocketLimits)
    (allowed : SocketKernel π → SocketAction π → Prop)
    (kernel : SocketKernel π) : Prop where
  inBounds : ∀ action, allowed kernel action →
    kernel.step limits action ≠ .error .portMapBounds
  accepted : ∀ port listener, (port, listener) ∈ kernel.listened →
    kernel.closed listener = false → ∀ process sock fcb,
      kernel.getFcb limits process sock = some fcb →
      (kernel.sockets (kernel.fcbs fcb).streamobj).type = .unbound →
        kernel.sysConnect limits process sock port = .ok (.waits,
          kernel.enqueueRequest (kernel.fcbs fcb).streamobj listener)

/-- The calls agree on which ports are legal in every run in which nobody calls
`sys_Listen` on a socket with one of the two highest ports. -/
theorem ports_agree
    (limits : SocketLimits)
    (fcbs : Nat → SocketFcb)
    (sockets : Nat → SocketCb)
    (requests : Nat → ConnectionRequest)
    (pipes : Nat → PipeEnds)
    (connecting : Nat → ConnectCall)
    (kernel : SocketKernel π)
    (reached : Reachable (SocketKernel.step limits) (LowPorts limits)
      (start limits fcbs sockets requests pipes connecting) kernel) :
    kernel.PortsAgree limits (LowPorts limits) := by
  have sound : kernel.FilesSound ∧ kernel.PortsSound limits := by
    refine reached.invariant
      (motive := fun kernel => kernel.FilesSound ∧ kernel.PortsSound limits)
      ⟨.start .., ?_⟩ ?_
    · exact ⟨nofun, nofun, nofun, nofun, nofun⟩
    · rintro before after action ⟨files, ports⟩ low stepped
      obtain ⟨last, turn, quiet⟩ := exists_turn_of_step stepped
      exact ⟨files.step stepped, (ports.turn files low turn).quiet quiet⟩
  obtain ⟨files, ports⟩ := sound
  constructor
  · intro action low fault
    obtain ⟨after, stepped⟩ := ports.step_ok files low
    rw [stepped] at fault
    cases fault
  · intro port listener listed isOpen process sock fcb isFile unbound
    obtain ⟨above, below⟩ := ports.legal port listener listed
    have inBounds : 0 ≤ port ∧ port < limits.maxPort := by omega
    have legal : ¬(port ≤ 0 ∨ (limits.maxPort : Int) - 1 ≤ port) := by omega
    have isMapped := ports.mapped port listener listed isOpen
    have isListener := (ports.listens port listener listed).2.1
    simp only [sysConnect, isFile, if_neg legal, portMapAt, if_pos inBounds,
      isMapped]
    exact (if_neg (not_not.mpr isListener)).trans (if_neg (not_not.mpr unbound))

/-- A socket listens on port 1021, and another one can connect to it. -/
theorem ports_agree_below :
    ∃ kernel : SocketKernel Unit, ((1021, 0) ∈ kernel.listened ∧
      kernel.closed 0 = false ∧ kernel.getFcb ⟨1023, 4, 2⟩ () 1 = some 1) ∧
      kernel.PortsAgree ⟨1023, 4, 2⟩ (LowPorts ⟨1023, 4, 2⟩) := by
  have ran : ∃ kernel : SocketKernel Unit,
      Reachable (SocketKernel.step ⟨1023, 4, 2⟩) (LowPorts ⟨1023, 4, 2⟩)
        (booted ⟨1023, 4, 2⟩) kernel ∧
      decide ((1021, 0) ∈ kernel.listened ∧ kernel.closed 0 = false ∧
        kernel.getFcb ⟨1023, 4, 2⟩ () 1 = some 1) = true :=
    exists_reachable_of_any [.socket () 1021, .listen () 0, .socket () 0]
      (by decide)
  obtain ⟨kernel, reached, test⟩ := ran
  exact ⟨kernel, of_decide_eq_true test, ports_agree _ _ _ _ _ _ kernel reached⟩

/-- A socket listens on port 1022, and the call of `sys_Connect` from an unbound
socket to that port returns -1.  On a socket with port 1023, `sys_Listen` looks
outside of `PORT_MAP`. -/
theorem ports_disagree :
    (∃ kernel : SocketKernel Unit,
      Reachable (SocketKernel.step ⟨1023, 4, 2⟩)
        (fun _ action => WithoutAccept action) (booted ⟨1023, 4, 2⟩) kernel ∧
      (1022, 0) ∈ kernel.listened ∧ kernel.closed 0 = false ∧
      ¬kernel.PortsAgree ⟨1023, 4, 2⟩ fun _ action => WithoutAccept action) ∧
    ∃ kernel : SocketKernel Unit,
      Reachable (SocketKernel.step ⟨1023, 4, 2⟩)
        (fun _ action => WithoutAccept action) (booted ⟨1023, 4, 2⟩) kernel ∧
      kernel.step ⟨1023, 4, 2⟩ (.listen () 0) = .error .portMapBounds := by
  constructor
  · have ran : ∃ kernel : SocketKernel Unit,
        Reachable (SocketKernel.step ⟨1023, 4, 2⟩)
          (fun _ action => WithoutAccept action) (booted ⟨1023, 4, 2⟩) kernel ∧
        decide ((1022, 0) ∈ kernel.listened ∧ kernel.closed 0 = false ∧
          kernel.getFcb ⟨1023, 4, 2⟩ () 1 = some 1 ∧
          (kernel.sockets (kernel.fcbs 1).streamobj).type = .unbound ∧
          (kernel.sysConnect ⟨1023, 4, 2⟩ () 1 1022).toOption.map Prod.fst =
            some (.returns (-1))) = true :=
      exists_reachable_of_any [.socket () 1022, .listen () 0, .socket () 0]
        (by decide)
    obtain ⟨kernel, reached, test⟩ := ran
    obtain ⟨listed, isOpen, isFile, unbound, rejected⟩ := of_decide_eq_true test
    refine ⟨kernel, reached, listed, isOpen, fun agree => ?_⟩
    rw [agree.accepted 1022 0 listed isOpen () 1 1 isFile unbound] at rejected
    cases rejected
  · have made : (booted ⟨1023, 4, 2⟩).step ⟨1023, 4, 2⟩ (.socket () 1023) =
        .ok ((booted ⟨1023, 4, 2⟩).sysSocket ⟨1023, 4, 2⟩ () 1023).2 := rfl
    have legal : WithoutAccept (.socket () 1023) := trivial
    exact ⟨_, .tail .refl legal made, rfl⟩

end SocketKernel
end TinierOS
