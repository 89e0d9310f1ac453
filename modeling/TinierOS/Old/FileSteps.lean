import TinierOS.Old.Opening

/-!
# Closing, duplicating and inheriting streams

The other calls of the old file table keep the counts, where `io` counts the
calls of `Read` and `Write` in progress.
-/

namespace TinierOS

variable {limits : Limits}

namespace FileTable

variable {files : FileTable limits}
variable {refs io : Fin limits.maxFiles → Nat}
variable {fcb : Fin limits.maxFiles}
variable {cur : Fin limits.maxProc}

/-- Assigning to a descriptor changes no count. -/
theorem Sound.setFidt
    (sound : files.Sound refs)
    (place : Fin limits.maxProc × Fin limits.maxFileid)
    (entry : Option (Fin limits.maxFiles)) :
    (files.setFidt place entry).Sound refs := by
  obtain ⟨frees, counts, noLeak, streams⟩ := sound
  exact ⟨frees, ⟨counts.free, counts.refcount, counts.unused⟩, noLeak,
    streams.of_same (fun _ => Iff.rfl) (fun _ _ => rfl) rfl rfl⟩

/-- What a descriptor points to has references. -/
theorem held_ne_zero
    {place : Fin limits.maxProc × Fin limits.maxFileid}
    (isEntry : files.fidt place = some fcb) :
    files.held fcb ≠ 0 :=
  (held_setFidt_none isEntry).2

theorem FCBDecref_fidt
    (files : FileTable limits)
    (fcb : Fin limits.maxFiles) :
    (files.FCBDecref fcb).fidt = files.fidt := by
  unfold FCBDecref
  simp only
  split_ifs <;> rfl

/-- The descriptors decide how many there are. -/
theorem held_congr
    {after : FileTable limits}
    (fidt : after.fidt = files.fidt) :
    after.held = files.held := by
  funext fcb
  rw [held, fidt]
  rfl

theorem held_FCBDecref
    (files : FileTable limits)
    (fcb : Fin limits.maxFiles) :
    (files.FCBDecref fcb).held = files.held :=
  held_congr (FCBDecref_fidt files fcb)

/-- A reference that is dropped was a descriptor's. -/
theorem drop_held
    {base : Fin limits.maxFiles → Nat}
    (positive : base fcb ≠ 0) :
    Function.update (fun other => base other + io other) fcb
        (base fcb + io fcb - 1) =
      fun other => Function.update base fcb (base fcb - 1) other + io other := by
  funext other
  by_cases same : other = fcb
  · subst same
    rw [Function.update_self, Function.update_self]
    omega
  · rw [Function.update_of_ne same, Function.update_of_ne same]

/-- A reference that is added is a descriptor's. -/
theorem add_held
    (base : Fin limits.maxFiles → Nat)
    (fcb : Fin limits.maxFiles) :
    Function.update (fun other => base other + io other) fcb
        (base fcb + io fcb + 1) =
      fun other => Function.update base fcb (base fcb + 1) other + io other := by
  funext other
  by_cases same : other = fcb
  · subst same
    rw [Function.update_self, Function.update_self]
    omega
  · rw [Function.update_of_ne same, Function.update_of_ne same]

/-- `CURPROC->FIDT[fd] = NULL; FCB_decref(fcb)` -/
theorem Sound.release
    {place : Fin limits.maxProc × Fin limits.maxFileid}
    (sound : files.Sound fun fcb => files.held fcb + io fcb)
    (isEntry : files.fidt place = some fcb) :
    ((files.setFidt place none).FCBDecref fcb).Sound fun other =>
      ((files.setFidt place none).FCBDecref fcb).held other + io other := by
  obtain ⟨lower, positive⟩ := held_setFidt_none isEntry
  have isUsed : files.held fcb + io fcb ≠ 0 := by omega
  have dropped := (sound.setFidt place none).decref isUsed
  rw [drop_held positive] at dropped
  rw [held_FCBDecref, lower]
  exact dropped

/-- A descriptor that is not in use is made to point to an FCB that is. -/
theorem Sound.acquire
    {place : Fin limits.maxProc × Fin limits.maxFileid}
    (sound : files.Sound fun fcb => files.held fcb + io fcb)
    (isNull : files.fidt place = none)
    (isUsed : files.held fcb + io fcb ≠ 0) :
    ((files.setFidt place (some fcb)).FCBIncref fcb).Sound fun other =>
      ((files.setFidt place (some fcb)).FCBIncref fcb).held other +
        io other := by
  have added := (sound.setFidt place (some fcb)).incref isUsed
  rw [add_held files.held fcb] at added
  have grown : ((files.setFidt place (some fcb)).FCBIncref fcb).held =
      Function.update files.held fcb (files.held fcb + 1) :=
    held_setFidt_some isNull fcb
  rw [grown]
  exact added

/-- `sys_Close` -/
theorem Sound.sysClose
    (sound : files.Sound fun fcb => files.held fcb + io fcb)
    (cur : Fin limits.maxProc)
    (fd : Int) :
    (files.sysClose cur fd).Sound (fun fcb =>
      (files.sysClose cur fd).held fcb + io fcb) ∧
    ∀ place : Fin limits.maxProc × Fin limits.maxFileid, place.1 ≠ cur →
      (files.sysClose cur fd).fidt place = files.fidt place := by
  unfold FileTable.sysClose getFcb
  split_ifs with inRange
  · cases isEntry : files.fidt (cur, ⟨fd.toNat, inRange.2⟩) with
    | none => exact ⟨sound, fun _ _ => rfl⟩
    | some fcb =>
        refine ⟨sound.release isEntry, ?_⟩
        intro place other
        simp only [Option.map_some]
        rw [FCBDecref_fidt]
        show Function.update files.fidt _ none place = _
        apply Function.update_of_ne
        rintro rfl
        exact other rfl
  · exact ⟨sound, fun _ _ => rfl⟩

/-- `sys_Dup2` for a descriptor that points to another stream. -/
theorem Sound.replace
    {place : Fin limits.maxProc × Fin limits.maxFileid}
    {old new : Fin limits.maxFiles}
    (sound : files.Sound fun fcb => files.held fcb + io fcb)
    (isEntry : files.fidt place = some new)
    (isOld : files.held old ≠ 0)
    (different : old ≠ new) :
    (((files.FCBDecref new).FCBIncref old).setFidt place (some old)).Sound
      fun fcb => (((files.FCBDecref new).FCBIncref old).setFidt place
        (some old)).held fcb + io fcb := by
  have newUsed := held_ne_zero isEntry
  have isUsed : files.held new + io new ≠ 0 := by omega
  have dropped := sound.decref isUsed
  rw [drop_held newUsed] at dropped
  have stillUsed : Function.update files.held new (files.held new - 1) old +
      io old ≠ 0 := by
    rw [Function.update_of_ne different]
    omega
  have added := (dropped.incref stillUsed).setFidt place (some old)
  rw [add_held] at added
  have count : (((files.FCBDecref new).FCBIncref old).setFidt place
      (some old)).held = Function.update
        (Function.update files.held new (files.held new - 1)) old
          (Function.update files.held new (files.held new - 1) old + 1) := by
    have cleared : (files.setFidt place none).fidt place = none :=
      Function.update_self ..
    have moved := held_setFidt_some cleared old
    rw [(held_setFidt_none isEntry).1] at moved
    rw [← moved]
    apply held_congr
    show Function.update (files.FCBDecref new).fidt place (some old) =
      Function.update (Function.update files.fidt place none) place (some old)
    rw [FCBDecref_fidt, Function.update_idem]
  rw [count]
  exact added

/-- `sys_Dup2` -/
theorem Sound.sysDup2
    (sound : files.Sound fun fcb => files.held fcb + io fcb)
    (cur : Fin limits.maxProc)
    (oldfd newfd : Int) :
    (files.sysDup2 cur oldfd newfd).2.Sound (fun fcb =>
      (files.sysDup2 cur oldfd newfd).2.held fcb + io fcb) ∧
    ∀ place : Fin limits.maxProc × Fin limits.maxFileid, place.1 ≠ cur →
      (files.sysDup2 cur oldfd newfd).2.fidt place = files.fidt place := by
  unfold FileTable.sysDup2
  split_ifs with inRange
  · simp only
    cases isOld : files.fidt (cur, ⟨oldfd.toNat, inRange.1.2⟩) with
    | none => exact ⟨sound, fun _ _ => rfl⟩
    | some old =>
        have oldUsed := held_ne_zero isOld
        have apart : ∀ (place : Fin limits.maxProc × Fin limits.maxFileid) fid,
            place.1 ≠ cur → place ≠ (cur, fid) := by
          rintro place fid other rfl
          exact other rfl
        cases isNew : files.fidt (cur, ⟨newfd.toNat, inRange.2.2⟩) with
        | none =>
            refine ⟨sound.acquire isNew (by omega), ?_⟩
            intro place other
            exact Function.update_of_ne (apart place _ other) ..
        | some new =>
            simp only
            split_ifs with same
            · exact ⟨sound, fun _ _ => rfl⟩
            · refine ⟨sound.replace isNew oldUsed same, ?_⟩
              intro place other
              show Function.update (files.FCBDecref new).fidt _ _ place = _
              rw [Function.update_of_ne (apart place _ other), FCBDecref_fidt]
  · exact ⟨sound, fun _ _ => rfl⟩

/-- `sys_Exec`: a new process without descriptors gets those of its parent. -/
theorem Sound.inheritFiles
    {newproc : Fin limits.maxProc}
    {fids : List (Fin limits.maxFileid)}
    (sound : files.Sound fun fcb => files.held fcb + io fcb)
    (cur : Fin limits.maxProc)
    (nodup : fids.Nodup)
    (empty : ∀ fid ∈ fids, files.fidt (newproc, fid) = none) :
    (inheritFiles cur newproc fids files).Sound (fun fcb =>
      (inheritFiles cur newproc fids files).held fcb + io fcb) ∧
    ∀ place : Fin limits.maxProc × Fin limits.maxFileid, place.1 ≠ newproc →
      (inheritFiles cur newproc fids files).fidt place = files.fidt place := by
  induction fids generalizing files with
  | nil => exact ⟨sound, fun _ _ => rfl⟩
  | cons fid fids inductionHypothesis =>
      obtain ⟨notLater, laterNodup⟩ := List.nodup_cons.mp nodup
      have isNull := empty fid (List.mem_cons_self ..)
      have apart : ∀ place : Fin limits.maxProc × Fin limits.maxFileid,
          place.1 ≠ newproc → place ≠ (newproc, fid) := by
        rintro place other rfl
        exact other rfl
      have stillEmpty : ∀ entry, ∀ other ∈ fids,
          (files.setFidt (newproc, fid) entry).fidt (newproc, other) = none := by
        intro entry other member
        show Function.update files.fidt (newproc, fid) entry (newproc, other) =
          none
        rw [Function.update_of_ne]
        · exact empty other (List.mem_cons_of_mem _ member)
        · intro equal
          rw [(Prod.mk.inj equal).2] at member
          exact notLater member
      rw [FileTable.inheritFiles]
      cases isEntry : files.fidt (cur, fid) with
      | none =>
          have same : files.setFidt (newproc, fid) none = files := by
            show FileTable.mk (Function.update files.fidt (newproc, fid) none)
              _ _ _ _ = files
            rw [← isNull, Function.update_eq_self]
          rw [same]
          exact inductionHypothesis sound laterNodup
            fun other member => empty other (List.mem_cons_of_mem _ member)
      | some fcb =>
          have isUsed := held_ne_zero isEntry
          have added : ((files.setFidt (newproc, fid) (some fcb)).FCBIncref
              fcb).Sound fun other => ((files.setFidt (newproc, fid)
                (some fcb)).FCBIncref fcb).held other + io other :=
            sound.acquire isNull (by omega)
          obtain ⟨after, others⟩ := inductionHypothesis added laterNodup
            (stillEmpty (some fcb))
          refine ⟨after, ?_⟩
          intro place other
          rw [others place other]
          exact Function.update_of_ne (apart place other) ..

/-- `sys_ThreadExit`: a process that ends closes its streams. -/
theorem Sound.closeFiles
    (sound : files.Sound fun fcb => files.held fcb + io fcb)
    (cur : Fin limits.maxProc)
    (fids : List (Fin limits.maxFileid)) :
    (closeFiles cur fids files).Sound (fun fcb =>
      (closeFiles cur fids files).held fcb + io fcb) ∧
    ∀ place : Fin limits.maxProc × Fin limits.maxFileid,
      (closeFiles cur fids files).fidt place =
        if place.1 = cur ∧ place.2 ∈ fids then none else files.fidt place := by
  induction fids generalizing files with
  | nil => exact ⟨sound, by simp [FileTable.closeFiles]⟩
  | cons fid fids inductionHypothesis =>
      have split : ∀ place : Fin limits.maxProc × Fin limits.maxFileid,
          (place.1 = cur ∧ place.2 ∈ fid :: fids) ↔
            place = (cur, fid) ∨ (place.1 = cur ∧ place.2 ∈ fids) := by
        intro place
        rw [List.mem_cons, Prod.ext_iff]
        tauto
      rw [FileTable.closeFiles]
      cases isEntry : files.fidt (cur, fid) with
      | none =>
          obtain ⟨after, fidt⟩ := inductionHypothesis sound
          refine ⟨after, ?_⟩
          intro place
          rw [fidt place]
          by_cases same : place = (cur, fid)
          · subst same
            simp [isEntry]
          · have others : (place.1 = cur ∧ place.2 ∈ fid :: fids) ↔
                (place.1 = cur ∧ place.2 ∈ fids) := by
              rw [split place]
              simp [same]
            simp only [others]
      | some fcb =>
          have commute : (files.FCBDecref fcb).setFidt (cur, fid) none =
              (files.setFidt (cur, fid) none).FCBDecref fcb := by
            unfold FCBDecref modifyFcb FileTable.setFidt FileTable.releaseFCB
            simp only
            split_ifs <;> rfl
          simp only [commute]
          obtain ⟨after, fidt⟩ := inductionHypothesis (sound.release isEntry)
          refine ⟨after, ?_⟩
          intro place
          rw [fidt place, FCBDecref_fidt]
          show (if place.1 = cur ∧ place.2 ∈ fids then none
            else Function.update files.fidt (cur, fid) none place) = _
          rw [Function.update_apply]
          by_cases same : place = (cur, fid)
          · subst same
            simp
          · have others : (place.1 = cur ∧ place.2 ∈ fid :: fids) ↔
                (place.1 = cur ∧ place.2 ∈ fids) := by
              rw [split place]
              simp [same]
            simp only [others, if_neg same]

/-- `sys_Read` and `sys_Write` hold a reference. -/
theorem Sound.startTransfer
    {after : FileTable limits}
    {fd : Int}
    (sound : files.Sound fun fcb => files.held fcb + io fcb)
    (started : files.startTransfer cur fd = (some fcb, after)) :
    after.Sound (fun other => after.held other +
      Function.update io fcb (io fcb + 1) other) ∧ after.fidt = files.fidt := by
  unfold FileTable.startTransfer getFcb at started
  split_ifs at started with inRange
  · cases isEntry : files.fidt (cur, ⟨fd.toNat, inRange.2⟩) with
    | none =>
        rw [isEntry] at started
        cases started
    | some found =>
        rw [isEntry] at started
        simp only [Option.map_some] at started
        cases started
        have positive := held_ne_zero isEntry
        have isUsed : files.held fcb + io fcb ≠ 0 := by omega
        have added := sound.incref isUsed
        refine ⟨?_, rfl⟩
        have count : Function.update (fun other => files.held other + io other)
            fcb (files.held fcb + io fcb + 1) = fun other =>
              (files.FCBIncref fcb).held other +
                Function.update io fcb (io fcb + 1) other := by
          funext other
          show _ = files.held other + _
          by_cases same : other = fcb
          · subst same
            rw [Function.update_self, Function.update_self]
            omega
          · rw [Function.update_of_ne same, Function.update_of_ne same]
        rw [count] at added
        exact added
  · cases started

/-- The end of `sys_Read` and `sys_Write`. -/
theorem Sound.endTransfer
    (sound : files.Sound fun fcb => files.held fcb + io fcb)
    (inUse : io fcb ≠ 0) :
    (files.FCBDecref fcb).Sound fun other => (files.FCBDecref fcb).held other +
      Function.update io fcb (io fcb - 1) other := by
  have isUsed : files.held fcb + io fcb ≠ 0 := by omega
  have dropped := sound.decref isUsed
  have count : Function.update (fun other => files.held other + io other) fcb
      (files.held fcb + io fcb - 1) = fun other =>
        (files.FCBDecref fcb).held other +
          Function.update io fcb (io fcb - 1) other := by
    funext other
    rw [held_FCBDecref]
    by_cases same : other = fcb
    · subst same
      rw [Function.update_self, Function.update_self]
      omega
    · rw [Function.update_of_ne same, Function.update_of_ne same]
  rw [count] at dropped
  exact dropped

/-! ## Streams that stay open -/

theorem FCBDecref_stream
    (files : FileTable limits)
    (fcb other : Fin limits.maxFiles) :
    ((files.FCBDecref fcb).fcb other).stream = (files.fcb other).stream := by
  have lowered : ((files.modifyFcb fcb fun block =>
      { block with refcount := block.refcount - 1 }).fcb other).stream =
        (files.fcb other).stream := by
    by_cases same : other = fcb
    · subst same
      simp [modifyFcb]
    · simp [modifyFcb, same]
  unfold FCBDecref
  simp only
  split_ifs
  · exact lowered
  · exact lowered

theorem sysClose_stream
    (files : FileTable limits)
    (cur : Fin limits.maxProc)
    (fd : Int)
    (fcb : Fin limits.maxFiles) :
    ((files.sysClose cur fd).fcb fcb).stream = (files.fcb fcb).stream := by
  unfold FileTable.sysClose
  split
  · rfl
  · exact FCBDecref_stream ..

theorem sysDup2_stream
    (files : FileTable limits)
    (cur : Fin limits.maxProc)
    (oldfd newfd : Int)
    (fcb : Fin limits.maxFiles) :
    ((files.sysDup2 cur oldfd newfd).2.fcb fcb).stream =
      (files.fcb fcb).stream := by
  unfold FileTable.sysDup2
  split_ifs with inRange
  · simp only
    cases files.fidt (cur, ⟨oldfd.toNat, inRange.1.2⟩) with
    | none => rfl
    | some old =>
        cases files.fidt (cur, ⟨newfd.toNat, inRange.2.2⟩) with
        | none => exact FCBIncref_stream ..
        | some new =>
            simp only
            split_ifs
            · rfl
            · exact (FCBIncref_stream ..).trans (FCBDecref_stream ..)
  · rfl

theorem startIO_stream
    (files : FileTable limits)
    (cur : Fin limits.maxProc)
    (fd : Int)
    (fcb : Fin limits.maxFiles) :
    ((files.startTransfer cur fd).2.fcb fcb).stream = (files.fcb fcb).stream := by
  unfold FileTable.startTransfer
  split
  · rfl
  · exact FCBIncref_stream ..

theorem inheritFiles_stream
    (files : FileTable limits)
    (curproc newproc : Fin limits.maxProc)
    (fids : List (Fin limits.maxFileid))
    (fcb : Fin limits.maxFiles) :
    ((FileTable.inheritFiles curproc newproc fids files).fcb fcb).stream =
      (files.fcb fcb).stream := by
  induction fids generalizing files with
  | nil => rfl
  | cons fid fids inductionHypothesis =>
      rw [FileTable.inheritFiles]
      cases files.fidt (curproc, fid) with
      | none => exact inductionHypothesis _
      | some entry =>
          exact (inductionHypothesis _).trans (FCBIncref_stream ..)

theorem closeFiles_stream
    (files : FileTable limits)
    (curproc : Fin limits.maxProc)
    (fids : List (Fin limits.maxFileid))
    (fcb : Fin limits.maxFiles) :
    ((FileTable.closeFiles curproc fids files).fcb fcb).stream =
      (files.fcb fcb).stream := by
  induction fids generalizing files with
  | nil => rfl
  | cons fid fids inductionHypothesis =>
      rw [FileTable.closeFiles]
      cases files.fidt (curproc, fid) with
      | none => exact inductionHypothesis files
      | some entry =>
          exact (inductionHypothesis _).trans (FCBDecref_stream files entry fcb)

end FileTable
end TinierOS
