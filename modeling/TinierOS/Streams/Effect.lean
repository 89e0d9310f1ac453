import TinierOS.Proc.Effect

/-!
# What the stream calls change

Opening and closing streams touches the descriptor tables, the file table and
its free list, and nothing else.
-/

namespace TinierOS

variable {limits : Limits}

namespace Kernel

/-- Only descriptors, file table and free list may differ. -/
structure OnlyFiles (before after : Kernel limits) : Prop where
  sched : after.sched = before.sched
  procs : SameProcs before after
  threadCount : after.threadCount = before.threadCount
  ptcbs : SamePtcbs before after

namespace OnlyFiles

theorem refl (kernel : Kernel limits) : OnlyFiles kernel kernel :=
  ⟨rfl, ⟨rfl, rfl, rfl, rfl, rfl⟩, rfl, ⟨rfl, rfl⟩⟩

theorem trans
    {first second third : Kernel limits}
    (before : OnlyFiles first second)
    (after : OnlyFiles second third) :
    OnlyFiles first third where
  sched := after.sched.trans before.sched
  procs :=
    { pstate := after.procs.pstate.trans before.procs.pstate
      parent := after.procs.parent.trans before.procs.parent
      exitval := after.procs.exitval.trans before.procs.exitval
      children := after.procs.children.trans before.procs.children
      exited := after.procs.exited.trans before.procs.exited }
  threadCount := after.threadCount.trans before.threadCount
  ptcbs :=
    { ptcbUsed := after.ptcbs.ptcbUsed.trans before.ptcbs.ptcbUsed
      ptcbLists := after.ptcbs.ptcbLists.trans before.ptcbs.ptcbLists }

theorem sameThreads
    {before after : Kernel limits}
    (only : OnlyFiles before after) :
    SameThreads before after :=
  sameThreads_of_sched only.sched only.threadCount

theorem modifyFcb
    (kernel : Kernel limits)
    (fcb : Fin limits.maxFiles)
    (change : FCB → FCB) :
    OnlyFiles kernel (kernel.modifyFcb fcb change) :=
  ⟨rfl, ⟨rfl, rfl, rfl, rfl, rfl⟩, rfl, ⟨rfl, rfl⟩⟩

theorem releaseFCB
    (kernel : Kernel limits)
    (fcb : Fin limits.maxFiles) :
    OnlyFiles kernel (kernel.releaseFCB fcb) :=
  ⟨rfl, ⟨rfl, rfl, rfl, rfl, rfl⟩, rfl, ⟨rfl, rfl⟩⟩

theorem setFidt
    (kernel : Kernel limits)
    (proc : Fin limits.maxProc)
    (fid : Fin limits.maxFileid)
    (entry : Option (Fin limits.maxFiles)) :
    OnlyFiles kernel (kernel.setFidt proc fid entry) := by
  have pcb : (kernel.setFidt proc fid entry).pcb =
      Function.update kernel.pcb proc { kernel.pcb proc with
        FIDT := Function.update (kernel.pcb proc).FIDT fid entry } := rfl
  exact ⟨rfl, ⟨same_column_of_pcb PCB.pstate pcb rfl,
    same_column_of_pcb PCB.parent pcb rfl,
    same_column_of_pcb PCB.exitval pcb rfl, rfl, rfl⟩,
    same_column_of_pcb PCB.threadCount pcb rfl, ⟨rfl, rfl⟩⟩

theorem acquireFCB
    {kernel after : Kernel limits}
    {fcb : Option (Fin limits.maxFiles)}
    (acquired : kernel.acquireFCB = .ok (fcb, after)) :
    OnlyFiles kernel after := by
  unfold Kernel.acquireFCB at acquired
  split_ifs at acquired with empty
  · cases acquired
    exact OnlyFiles.refl kernel
  · simp only at acquired
    split at acquired
    · cases acquired
    · cases acquired
      exact ⟨rfl, ⟨rfl, rfl, rfl, rfl, rfl⟩, rfl, ⟨rfl, rfl⟩⟩

end OnlyFiles

theorem acquireFCB_none
    {kernel after : Kernel limits}
    (acquired : kernel.acquireFCB = .ok (none, after)) :
    after = kernel := by
  unfold acquireFCB at acquired
  split_ifs at acquired with empty
  · cases acquired
    rfl
  · simp only at acquired
    split at acquired <;> cases acquired

/-- The outcomes of `open_stream`: no descriptor or no FCB is left, the device
does not exist, or the stream is open. -/
theorem openStream_cases
    {kernel after : Kernel limits}
    {major : DeviceType}
    {minor : Nat}
    {result : Option (Fin limits.maxFileid)}
    (opened : kernel.openStream major minor = .ok (result, after)) :
    ∃ cur, kernel.currentProc = some cur ∧
      (result = none ∧ after = kernel ∨
        ∃ fid fcb middle, kernel.freeFid cur = some fid ∧
          kernel.acquireFCB = .ok (some fcb, middle) ∧
          (result = none ∧
              after = ((middle.setFidt cur fid (some fcb)).FCBIncref
                fcb).FCBUnreserveOne cur fid fcb ∨
            ∃ streamobj, result = some fid ∧
              after = ((middle.setFidt cur fid (some fcb)).FCBIncref
                fcb).modifyFcb fcb fun block =>
                  { block with
                    streamobj := streamobj, streamfunc := some major })) := by
  unfold openStream at opened
  cases current : kernel.currentProc with
  | none =>
      rw [current] at opened
      cases opened
  | some cur =>
      refine ⟨cur, rfl, ?_⟩
      simp only [current, FCBReserveOne] at opened
      cases free : kernel.freeFid cur with
      | none =>
          simp only [free] at opened
          cases opened
          exact .inl ⟨rfl, rfl⟩
      | some fid =>
          simp only [free] at opened
          cases acquired : kernel.acquireFCB with
          | error fault =>
              rw [acquired] at opened
              cases opened
          | ok taken =>
              obtain ⟨fcb, middle⟩ := taken
              rw [acquired] at opened
              cases fcb with
              | none =>
                  cases opened
                  exact .inl ⟨rfl, acquireFCB_none acquired⟩
              | some fcb =>
                  refine .inr ⟨fid, fcb, middle, rfl, rfl, ?_⟩
                  cases device : deviceOpen major minor with
                  | none =>
                      simp only [device] at opened
                      cases opened
                      exact .inl ⟨rfl, rfl⟩
                  | some streamobj =>
                      simp only [device] at opened
                      cases opened
                      exact .inr ⟨streamobj, rfl, rfl⟩

/-- The outcomes of `sys_Close`: the descriptor is not in use, or it is cleared
and its FCB loses a reference. -/
theorem sysClose_cases
    {kernel after : Kernel limits}
    {fd result : Int}
    (closed : kernel.sysClose fd = .ok (result, after)) :
    ∃ cur, kernel.currentProc = some cur ∧
      (after = kernel ∨
        ∃ fid fcb, (fid.val : Int) = fd ∧ kernel.FIDT cur fid = some fcb ∧
          after = ((kernel.setFidt cur fid none).FCBDecref fcb).2) := by
  unfold sysClose at closed
  cases current : kernel.currentProc with
  | none =>
      rw [current] at closed
      cases closed
  | some cur =>
      refine ⟨cur, rfl, ?_⟩
      simp only [current] at closed
      cases found : kernel.getStreamFcb cur fd with
      | none =>
          simp only [found] at closed
          cases closed
          exact .inl rfl
      | some entry =>
          simp only [found] at closed
          obtain ⟨fid, fcb⟩ := entry
          unfold getStreamFcb at found
          split_ifs at found with inRange
          simp only [Option.map_eq_some_iff, Prod.mk.injEq] at found
          obtain ⟨_, isEntry, rfl, rfl⟩ := found
          refine .inr ⟨_, _, Int.toNat_of_nonneg inRange.1, isEntry, ?_⟩
          exact (congrArg Prod.snd (Except.ok.inj closed)).symm

namespace OnlyFiles

theorem FCBDecref
    (kernel : Kernel limits)
    (fcb : Fin limits.maxFiles) :
    OnlyFiles kernel (kernel.FCBDecref fcb).2 := by
  have decreased := OnlyFiles.modifyFcb kernel fcb fun block =>
    { block with refcount := block.refcount - 1 }
  unfold Kernel.FCBDecref
  simp only
  split_ifs
  · exact decreased.trans (OnlyFiles.releaseFCB _ _)
  · exact decreased

theorem openStream
    {kernel after : Kernel limits}
    {major : DeviceType}
    {minor : Nat}
    {result : Option (Fin limits.maxFileid)}
    (opened : kernel.openStream major minor = .ok (result, after)) :
    OnlyFiles kernel after := by
  obtain ⟨cur, -, ⟨-, rfl⟩ | ⟨fid, fcb, middle, -, acquired, outcome⟩⟩ :=
    openStream_cases opened
  · exact OnlyFiles.refl _
  · have installed : OnlyFiles kernel
        ((middle.setFidt cur fid (some fcb)).FCBIncref fcb) :=
      (OnlyFiles.acquireFCB acquired).trans
        ((OnlyFiles.setFidt _ _ _ _).trans (OnlyFiles.modifyFcb _ _ _))
    rcases outcome with ⟨-, rfl⟩ | ⟨streamobj, -, rfl⟩
    · exact installed.trans ((OnlyFiles.setFidt _ _ _ _).trans
        (OnlyFiles.releaseFCB _ _))
    · exact installed.trans (OnlyFiles.modifyFcb _ _ _)

theorem sysClose
    {kernel after : Kernel limits}
    {fd result : Int}
    (closed : kernel.sysClose fd = .ok (result, after)) :
    OnlyFiles kernel after := by
  obtain ⟨cur, -, rfl | ⟨fid, fcb, -, -, rfl⟩⟩ := sysClose_cases closed
  · exact OnlyFiles.refl _
  · exact (OnlyFiles.setFidt _ _ _ _).trans (OnlyFiles.FCBDecref _ _)

end OnlyFiles

/-! ## The rest of the kernel -/

/-- The kernel with other descriptors, another file table and another free
list. -/
def withFiles
    (kernel : Kernel limits)
    (FIDT : Fin limits.maxProc → Fin limits.maxFileid →
      Option (Fin limits.maxFiles))
    (fcb : Fin limits.maxFiles → FCB)
    (freelist : RlHeap (FcbNode limits) (Option (Fin limits.maxFiles))) :
    Kernel limits :=
  { kernel with
    pcb := fun pid => { kernel.pcb pid with FIDT := FIDT pid }
    fcb := fcb
    freelist := freelist }

theorem setFidt_withFiles
    (kernel : Kernel limits)
    (proc : Fin limits.maxProc)
    (fid : Fin limits.maxFileid)
    (entry : Option (Fin limits.maxFiles)) :
    kernel.setFidt proc fid entry = kernel.withFiles
      (Function.update kernel.FIDT proc
        (Function.update (kernel.FIDT proc) fid entry))
      kernel.fcb kernel.freelist := by
  unfold setFidt modifyPcb withFiles
  congr 1
  funext pid
  by_cases same : pid = proc
  · subst same
    simp only [Function.update_self]
    rfl
  · simp only [Function.update_of_ne same]
    rfl

/-- Opening and closing streams in terms of the whole kernel. -/
theorem streams_withFiles
    {kernel after : Kernel limits}
    (call : (∃ major minor result,
        kernel.openStream major minor = .ok (result, after)) ∨
      ∃ fd result, kernel.sysClose fd = .ok (result, after)) :
    ∃ FIDT fcb freelist, after = kernel.withFiles FIDT fcb freelist := by
  have same : ∃ FIDT fcb freelist,
      kernel = kernel.withFiles FIDT fcb freelist :=
    ⟨kernel.FIDT, kernel.fcb, kernel.freelist, rfl⟩
  rcases call with ⟨major, minor, result, opened⟩ | ⟨fd, result, closed⟩
  · obtain ⟨cur, -, ⟨-, rfl⟩ | ⟨fid, fcb, middle, -, acquired, outcome⟩⟩ :=
      openStream_cases opened
    · exact same
    · have taken : ∃ FIDT fcb freelist,
          middle = kernel.withFiles FIDT fcb freelist := by
        unfold acquireFCB at acquired
        split_ifs at acquired with empty
        · cases acquired
        · simp only at acquired
          split at acquired
          · cases acquired
          · cases acquired
            exact ⟨kernel.FIDT, _, _, rfl⟩
      obtain ⟨FIDT, table, freelist, rfl⟩ := taken
      rcases outcome with ⟨-, rfl⟩ | ⟨streamobj, -, rfl⟩
      · simp only [FCBUnreserveOne, setFidt_withFiles]
        exact ⟨_, _, _, rfl⟩
      · simp only [setFidt_withFiles]
        exact ⟨_, _, _, rfl⟩
  · obtain ⟨cur, -, rfl | ⟨fid, fcb, -, -, rfl⟩⟩ := sysClose_cases closed
    · exact same
    · rw [setFidt_withFiles]
      unfold FCBDecref
      simp only
      split_ifs
      · exact ⟨_, _, _, rfl⟩
      · exact ⟨_, _, _, rfl⟩

/-! ## Descriptors of other processes -/

theorem setFidt_FIDT_of_ne
    {kernel : Kernel limits}
    {cur pid : Fin limits.maxProc}
    {fid : Fin limits.maxFileid}
    {entry : Option (Fin limits.maxFiles)}
    (different : pid ≠ cur) :
    (kernel.setFidt cur fid entry).FIDT pid = kernel.FIDT pid := by
  funext other
  simp [FIDT, setFidt, modifyPcb, different]

theorem acquireFCB_FIDT
    {kernel after : Kernel limits}
    {fcb : Option (Fin limits.maxFiles)}
    (acquired : kernel.acquireFCB = .ok (fcb, after)) :
    after.FIDT = kernel.FIDT := by
  unfold acquireFCB at acquired
  split_ifs at acquired with empty
  · cases acquired
    rfl
  · simp only at acquired
    split at acquired
    · cases acquired
    · cases acquired
      rfl

theorem FCBDecref_FIDT
    (kernel : Kernel limits)
    (fcb : Fin limits.maxFiles) :
    (kernel.FCBDecref fcb).2.FIDT = kernel.FIDT := by
  unfold FCBDecref
  simp only
  split_ifs <;> rfl

/-- The stream calls change descriptors of the current process only. -/
theorem streams_FIDT_of_ne
    {kernel after : Kernel limits}
    {cur pid : Fin limits.maxProc}
    (isCurrent : kernel.currentProc = some cur)
    (call : (∃ major minor result,
        kernel.openStream major minor = .ok (result, after)) ∨
      ∃ fd result, kernel.sysClose fd = .ok (result, after))
    (different : pid ≠ cur) :
    after.FIDT pid = kernel.FIDT pid := by
  rcases call with ⟨major, minor, result, opened⟩ | ⟨fd, result, closed⟩
  · obtain ⟨cur', isCurrent', outcome⟩ := openStream_cases opened
    rw [isCurrent] at isCurrent'
    cases isCurrent'
    rcases outcome with ⟨-, rfl⟩ | ⟨fid, fcb, middle, -, acquired, outcome⟩
    · rfl
    · have reserved : ((middle.setFidt cur fid (some fcb)).FCBIncref
          fcb).FIDT pid = kernel.FIDT pid := by
        rw [← acquireFCB_FIDT acquired]
        exact setFidt_FIDT_of_ne different
      rcases outcome with ⟨-, rfl⟩ | ⟨streamobj, -, rfl⟩
      · exact (setFidt_FIDT_of_ne different).trans reserved
      · exact reserved
  · obtain ⟨cur', isCurrent', outcome⟩ := sysClose_cases closed
    rw [isCurrent] at isCurrent'
    cases isCurrent'
    rcases outcome with rfl | ⟨fid, fcb, -, -, rfl⟩
    · rfl
    · rw [FCBDecref_FIDT]
      exact setFidt_FIDT_of_ne different

end Kernel
end TinierOS
