import Mathlib.Data.List.Nodup
import TinierOS.Old.SocketSteps

/-!
# The file tables of the sockets

Every file id leads to an open socket of its own, in every run.
-/

namespace TinierOS
namespace SocketKernel

variable {π : Type} [DecidableEq π]

omit [DecidableEq π] in
/-- Every file id leads to an FCB of its own, and that to an open socket of its
own. -/
structure FilesSound (kernel : SocketKernel π) : Prop where
  inUse : ∀ process fid fcb, kernel.fidt process fid = some fcb →
    fcb ∉ kernel.freelist ∧ (kernel.fcbs fcb).refcount = 1
  isOpen : ∀ process fid fcb, kernel.fidt process fid = some fcb →
    (kernel.fcbs fcb).streamobj < kernel.socketCount ∧
      kernel.closed (kernel.fcbs fcb).streamobj = false ∧
      (kernel.sockets (kernel.fcbs fcb).streamobj).fcb = fcb
  unique : ∀ process fid process' fid' fcb,
    kernel.fidt process fid = some fcb →
      kernel.fidt process' fid' = some fcb → process = process' ∧ fid = fid'
  nodup : kernel.freelist.Nodup
  made : ∀ socket, kernel.closed socket = true → socket < kernel.socketCount

namespace FilesSound

variable {limits : SocketLimits}
variable {kernel after : SocketKernel π}

omit [DecidableEq π] in
/-- A socket that has not been made has not been closed. -/
theorem closed_socketCount
    (sound : kernel.FilesSound) :
    kernel.closed kernel.socketCount = false := by
  rw [← Bool.not_eq_true]
  exact fun closed => Nat.lt_irrefl _ (sound.made _ closed)

omit [DecidableEq π] in
theorem of_same
    (sound : kernel.FilesSound)
    (sameFidt : after.fidt = kernel.fidt)
    (sameFcbs : after.fcbs = kernel.fcbs)
    (sameFreelist : after.freelist = kernel.freelist)
    (sameCount : after.socketCount = kernel.socketCount)
    (sameClosed : after.closed = kernel.closed)
    (sameFcb : ∀ socket, (after.sockets socket).fcb =
      (kernel.sockets socket).fcb) :
    after.FilesSound := by
  constructor
  · rw [sameFidt, sameFcbs, sameFreelist]
    exact sound.inUse
  · rw [sameFidt, sameFcbs, sameCount, sameClosed]
    intro process fid fcb isFile
    rw [sameFcb]
    exact sound.isOpen process fid fcb isFile
  · rw [sameFidt]
    exact sound.unique
  · rw [sameFreelist]
    exact sound.nodup
  · rw [sameClosed, sameCount]
    exact sound.made

omit [DecidableEq π] in
theorem modifySocket
    {change : SocketCb → SocketCb}
    (sound : kernel.FilesSound)
    (socket : Nat)
    (sameFcb : ∀ cb, (change cb).fcb = cb.fcb) :
    (kernel.modifySocket socket change).FilesSound := by
  refine sound.of_same rfl rfl rfl rfl rfl fun other => ?_
  simp only [SocketKernel.modifySocket]
  rcases eq_or_ne other socket with rfl | apart
  · rw [Function.update_self, sameFcb]
  · rw [Function.update_of_ne apart]

omit [DecidableEq π] in
theorem popQueue
    (sound : kernel.FilesSound)
    (listener : Nat)
    (queue : List Nat) :
    (kernel.popQueue listener queue).FilesSound := by
  unfold SocketKernel.popQueue
  apply sound.modifySocket
  exact fun _ => rfl

omit [DecidableEq π] in
theorem enqueueRequest
    (sound : kernel.FilesSound)
    (rSocket cSocket : Nat) :
    (kernel.enqueueRequest rSocket cSocket).FilesSound := by
  unfold SocketKernel.enqueueRequest
  apply modifySocket
  · exact sound.of_same rfl rfl rfl rfl rfl fun _ => rfl
  · exact fun _ => rfl

omit [DecidableEq π] in
theorem listening
    (sound : kernel.FilesSound)
    (listener : Nat) :
    (kernel.listening listener).FilesSound := by
  have changed : (kernel.modifySocket listener fun socket =>
      { socket with type := .listener, queue := [] }).FilesSound :=
    sound.modifySocket listener fun _ => rfl
  exact changed.of_same rfl rfl rfl rfl rfl fun _ => rfl

omit [DecidableEq π] in
theorem quiet
    (sound : kernel.FilesSound)
    (quiet : Quiet kernel after) :
    after.FilesSound :=
  sound.of_same quiet.fidt quiet.fcbs quiet.freelist quiet.socketCount
    quiet.closed fun socket => (quiet.sockets socket).fcb

omit [DecidableEq π] in
/-- A file id that `get_fcb` accepts. -/
theorem fidt_of_getFcb
    {process : π}
    {fid : Int}
    {fcb : Nat}
    (isFile : kernel.getFcb limits process fid = some fcb) :
    kernel.fidt process fid.toNat = some fcb := by
  unfold getFcb at isFile
  split_ifs at isFile
  exact isFile

omit [DecidableEq π] in
/-- The socket that a file id leads to is open. -/
theorem isOpen_of_getFcb
    {process : π}
    {fid : Int}
    {fcb : Nat}
    (sound : kernel.FilesSound)
    (isFile : kernel.getFcb limits process fid = some fcb) :
    (kernel.fcbs fcb).streamobj < kernel.socketCount ∧
      kernel.closed (kernel.fcbs fcb).streamobj = false :=
  have isOpen := sound.isOpen _ _ _ (fidt_of_getFcb isFile)
  ⟨isOpen.1, isOpen.2.1⟩

omit [DecidableEq π] in
/-- No file is shared. -/
theorem not_shared
    {process : π}
    {fid : Int}
    {fcb : Nat}
    (sound : kernel.FilesSound)
    (isFile : kernel.getFcb limits process fid = some fcb) :
    (kernel.fcbs fcb).refcount - 1 = 0 := by
  rw [(sound.inUse _ _ _ (fidt_of_getFcb isFile)).2]

theorem created
    {process : π}
    {fid fcb : Nat}
    {freelist : List Nat}
    (sound : kernel.FilesSound)
    (available : kernel.Available limits process fid fcb freelist)
    (port : Int) :
    (kernel.created process fid fcb freelist port).FilesSound := by
  have nodup := sound.nodup
  rw [available.free, List.nodup_cons] at nodup
  have new : ∀ {process' fid' fcb'}, kernel.fidt process' fid' = some fcb' →
      fcb' ≠ fcb := by
    rintro process' fid' fcb' isFile rfl
    apply (sound.inUse process' fid' fcb' isFile).1
    rw [available.free]
    exact List.mem_cons_self
  have fidt : ∀ {process' fid' fcb'},
      (kernel.created process fid fcb freelist port).fidt process' fid' =
        some fcb' →
      (process' = process ∧ fid' = fid ∧ fcb' = fcb) ∨
        kernel.fidt process' fid' = some fcb' := by
    intro process' fid' fcb' isFile
    simp only [SocketKernel.created] at isFile
    rcases eq_or_ne process' process with rfl | otherProcess
    · rw [Function.update_self] at isFile
      rcases eq_or_ne fid' fid with rfl | otherFid
      · rw [Function.update_self] at isFile
        cases isFile
        exact .inl ⟨rfl, rfl, rfl⟩
      · rw [Function.update_of_ne otherFid] at isFile
        exact .inr isFile
    · rw [Function.update_of_ne otherProcess] at isFile
      exact .inr isFile
  constructor
  case inUse =>
      intro process' fid' fcb' isFile
      simp only [SocketKernel.created]
      rcases fidt isFile with ⟨_, _, rfl⟩ | older
      · rw [Function.update_self]
        exact ⟨nodup.1, rfl⟩
      · rw [Function.update_of_ne (new older)]
        obtain ⟨notFree, count⟩ := sound.inUse process' fid' fcb' older
        rw [available.free, List.mem_cons, not_or] at notFree
        exact ⟨notFree.2, count⟩
  case isOpen =>
      intro process' fid' fcb' isFile
      simp only [SocketKernel.created]
      rcases fidt isFile with ⟨_, _, rfl⟩ | older
      · rw [Function.update_self]
        exact ⟨Nat.lt_succ_self _, sound.closed_socketCount,
          by rw [Function.update_self]⟩
      · rw [Function.update_of_ne (new older)]
        obtain ⟨made, isOpen, isFcb⟩ := sound.isOpen process' fid' fcb' older
        rw [Function.update_of_ne (Nat.ne_of_lt made)]
        exact ⟨Nat.lt_succ_of_lt made, isOpen, isFcb⟩
  case unique =>
      intro first fid1 second fid2 fcb' isFile isFile'
      rcases fidt isFile with ⟨rfl, rfl, rfl⟩ | older
      · rcases fidt isFile' with ⟨rfl, rfl, _⟩ | older'
        · exact ⟨rfl, rfl⟩
        · exact absurd rfl (new older')
      · rcases fidt isFile' with ⟨_, _, rfl⟩ | older'
        · exact absurd rfl (new older)
        · exact sound.unique first fid1 second fid2 fcb' older older'
  case nodup => exact nodup.2
  case made => exact fun socket closed => Nat.lt_succ_of_lt (sound.made socket closed)

omit [DecidableEq π] in
theorem admitted
    (sound : kernel.FilesSound)
    (process : π)
    (fid request peer : Nat) :
    (kernel.admitted process fid request peer).FilesSound := by
  have joined : (kernel.joinPeers (kernel.requests request).peer peer).FilesSound := by
    unfold joinPeers
    apply modifySocket
    · apply modifySocket
      · have peers : ∀ cb : SocketCb, { cb with type := .peer }.fcb = cb.fcb :=
          fun _ => rfl
        exact ((sound.modifySocket peer peers).modifySocket
          (kernel.requests request).peer peers).of_same rfl rfl rfl rfl rfl
            fun _ => rfl
      · exact fun _ => rfl
    · exact fun _ => rfl
  exact joined.of_same rfl rfl rfl rfl rfl fun _ => rfl

/-- Closing a file takes its FCB and its socket out of use. -/
theorem closes
    {process : π}
    {fd : Int}
    {fcb : Nat}
    (sound : kernel.FilesSound)
    (isFile : kernel.getFcb limits process fd = some fcb) :
    (((kernel.unreferenced process fd.toNat fcb).socketClosed
      (kernel.fcbs fcb).streamobj).releaseFcb fcb).FilesSound := by
  have isFile := fidt_of_getFcb isFile
  obtain ⟨notFree, _⟩ := sound.inUse process fd.toNat fcb isFile
  obtain ⟨made, _, isFcb⟩ := sound.isOpen process fd.toNat fcb isFile
  have fidt : ∀ {process' fid' fcb'},
      (kernel.unreferenced process fd.toNat fcb).fidt process' fid' = some fcb' →
        fcb' ≠ fcb ∧ kernel.fidt process' fid' = some fcb' := by
    intro process' fid' fcb' isFile'
    simp only [unreferenced] at isFile'
    rcases eq_or_ne process' process with rfl | otherProcess
    · rw [Function.update_self] at isFile'
      rcases eq_or_ne fid' fd.toNat with rfl | otherFid
      · rw [Function.update_self] at isFile'
        cases isFile'
      · rw [Function.update_of_ne otherFid] at isFile'
        refine ⟨?_, isFile'⟩
        rintro rfl
        exact otherFid (sound.unique _ _ _ _ _ isFile' isFile).2
    · rw [Function.update_of_ne otherProcess] at isFile'
      refine ⟨?_, isFile'⟩
      rintro rfl
      exact otherProcess (sound.unique _ _ _ _ _ isFile' isFile).1
  constructor
  case inUse =>
      intro process' fid' fcb' isFile'
      simp only [releaseFcb, socketClosed_fidt] at isFile'
      obtain ⟨different, older⟩ := fidt isFile'
      obtain ⟨notFree', count⟩ := sound.inUse process' fid' fcb' older
      simp only [releaseFcb, socketClosed_freelist, socketClosed_fcbs,
        unreferenced, List.mem_append, List.mem_singleton, not_or,
        Function.update_of_ne different]
      exact ⟨⟨notFree', different⟩, count⟩
  case isOpen =>
      intro process' fid' fcb' isFile'
      simp only [releaseFcb, socketClosed_fidt] at isFile'
      obtain ⟨different, older⟩ := fidt isFile'
      obtain ⟨made', isOpen', isFcb'⟩ := sound.isOpen process' fid' fcb' older
      have otherSocket : (kernel.fcbs fcb').streamobj ≠
          (kernel.fcbs fcb).streamobj := by
        intro same
        rw [same] at isFcb'
        exact different (isFcb'.symm.trans isFcb)
      simp only [releaseFcb, socketClosed_fcbs, socketClosed_socketCount,
        socketClosed_closed, unreferenced, Function.update_of_ne different,
        Function.update_of_ne otherSocket]
      refine ⟨made', isOpen', ?_⟩
      rw [(socketClosed_common _ _ _).1]
      exact isFcb'
  case unique =>
      intro first fid1 second fid2 fcb' isFile1 isFile2
      simp only [releaseFcb, socketClosed_fidt] at isFile1 isFile2
      exact sound.unique first fid1 second fid2 fcb' (fidt isFile1).2
        (fidt isFile2).2
  case nodup =>
      simp only [releaseFcb, socketClosed_freelist, unreferenced]
      exact List.nodup_append.mpr ⟨sound.nodup, List.nodup_singleton fcb,
        fun _ inFree _ isFcb' same =>
          notFree (List.mem_singleton.mp (same ▸ isFcb') ▸ same ▸ inFree)⟩
  case made =>
      intro socket closed
      simp only [releaseFcb, socketClosed_closed, socketClosed_socketCount,
        unreferenced] at closed ⊢
      rcases eq_or_ne socket (kernel.fcbs fcb).streamobj with rfl | apart
      · exact made
      · rw [Function.update_of_ne apart] at closed
        exact sound.made socket closed

theorem turn
    {action : SocketAction π}
    (sound : kernel.FilesSound)
    (turn : Turn limits kernel action after) :
    after.FilesSound := by
  cases turn with
  | stays => exact sound
  | creates available legal => exact sound.created available _
  | listens isFile bound unused unbound => exact sound.listening _
  | enqueues isFile isPort isListener unbound =>
      exact sound.enqueueRequest _ _
  | drops isCall takes => exact sound.popQueue _ _
  | admits isCall takes available =>
      apply FilesSound.admitted
      apply FilesSound.created (sound.popQueue _ _)
      exact ⟨available.inRange, available.unused, available.free⟩
  | returns made waits => exact sound.of_same rfl rfl rfl rfl rfl fun _ => rfl
  | unreferences isFile shared =>
      exact absurd (sound.not_shared isFile) shared
  | closes isFile => exact sound.closes isFile

/-- The file tables are sound after every step. -/
theorem step
    {action : SocketAction π}
    (sound : kernel.FilesSound)
    (stepped : kernel.step limits action = .ok after) :
    after.FilesSound := by
  obtain ⟨last, turn, quiet⟩ := exists_turn_of_step stepped
  exact (sound.turn turn).quiet quiet

omit [DecidableEq π] in
theorem start
    (limits : SocketLimits)
    (fcbs : Nat → SocketFcb)
    (sockets : Nat → SocketCb)
    (requests : Nat → ConnectionRequest)
    (pipes : Nat → PipeEnds)
    (connecting : Nat → ConnectCall) :
    (SocketKernel.start (π := π) limits fcbs sockets requests pipes
      connecting).FilesSound :=
  ⟨nofun, nofun, nofun, List.nodup_range, nofun⟩

end FilesSound

end SocketKernel
end TinierOS
