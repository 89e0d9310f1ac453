import TinierOS.Streams.Refcount

/-!
# Reserving descriptors

`FCB_reserve` takes any number of descriptors and FCBs or none at all, and
`FCB_unreserve` puts them back.  Nothing is assumed about the descriptor table,
which may hold any pointers, nor about which FCBs are free.
-/

namespace TinierOS
namespace Kernel

variable {limits : Limits}

/-- The descriptors of a process that are not in use, in increasing order. -/
def freeFids
    (kernel : Kernel limits)
    (cur : Fin limits.maxProc) : List (Fin limits.maxFileid) :=
  (List.finRange limits.maxFileid).filter fun fid => kernel.FIDT cur fid = none

/-- What a successful reservation of `num` descriptors leaves behind. -/
structure Reserved
    (before after : Kernel limits)
    (cur : Fin limits.maxProc)
    (num : Nat)
    (free : List (Fin limits.maxFiles))
    (fids : List (Fin limits.maxFileid))
    (fcbs : List (Fin limits.maxFiles)) : Prop where
  fids_length : fids.length = num
  fids_eq : fids = (before.freeFids cur).take num
  fcbs_length : fcbs.length = num
  fcbs_eq : fcbs = free.take num
  fcbs_nodup : fcbs.Nodup
  installed : ∀ entry ∈ fids.zip fcbs,
    after.FIDT cur entry.1 = some entry.2 ∧
      after.fcb entry.2 = { before.fcb entry.2 with refcount := 1 }
  otherEntries : ∀ pid fid, pid ≠ cur ∨ fid ∉ fids →
    after.FIDT pid fid = before.FIDT pid fid
  otherFcbs : ∀ fcb, fcb ∉ fcbs → after.fcb fcb = before.fcb fcb
  freeList : after.FreeList (free.drop num)

/-- The descriptor tables are as before, and the same FCBs are free, each
once. -/
structure Restored
    (before after : Kernel limits)
    (free : List (Fin limits.maxFiles)) : Prop where
  FIDT : after.FIDT = before.FIDT
  freeList : ∃ again, after.FreeList again ∧ again.Perm free

/-! ## The loops -/

theorem setFidt_FIDT_self
    (kernel : Kernel limits)
    (cur : Fin limits.maxProc)
    (fid : Fin limits.maxFileid)
    (entry : Option (Fin limits.maxFiles)) :
    (kernel.setFidt cur fid entry).FIDT cur fid = entry := by
  simp [FIDT, setFidt, modifyPcb]

theorem setFidt_FIDT_of_apart
    {kernel : Kernel limits}
    {cur pid : Fin limits.maxProc}
    {fid other : Fin limits.maxFileid}
    {entry : Option (Fin limits.maxFiles)}
    (apart : pid ≠ cur ∨ other ≠ fid) :
    (kernel.setFidt cur fid entry).FIDT pid other = kernel.FIDT pid other := by
  by_cases same : pid = cur
  · subst same
    have different := apart.resolve_left fun differs => differs rfl
    simp [FIDT, setFidt, modifyPcb, different]
  · rw [setFidt_FIDT_of_ne same]

theorem reserveFids_eq_take
    (FIDT : Fin limits.maxFileid → Option (Fin limits.maxFiles))
    (num f : Nat) :
    reserveFids FIDT num f =
      (matchesFrom (fun fid => decide (FIDT fid = none)) f).take num := by
  induction num generalizing f with
  | zero => rw [List.take_zero, reserveFids]
  | succ num inductionHypothesis =>
      rw [reserveFids, matchesFrom_seekIndex]
      split_ifs with inRange
      · rw [List.take_succ_cons, inductionHypothesis]
      · rw [List.take_nil]

theorem reserveFids_eq_freeFids
    (kernel : Kernel limits)
    (cur : Fin limits.maxProc)
    (num : Nat) :
    reserveFids (kernel.pcb cur).FIDT num 0 =
      (kernel.freeFids cur).take num := by
  rw [reserveFids_eq_take, matchesFrom_zero]
  rfl

/-- The second loop takes FCBs from the front of the free list. -/
theorem FreeList.acquireFCBs
    {kernel : Kernel limits}
    {free : List (Fin limits.maxFiles)}
    (freeList : kernel.FreeList free)
    (num : Nat) :
    ∃ after, kernel.acquireFCBs num = .ok (free.take num, after) ∧
      after.FreeList (free.drop num) ∧ after.pcb = kernel.pcb ∧
      (∀ fcb ∈ free.take num,
        after.fcb fcb = { kernel.fcb fcb with refcount := 0 }) ∧
      ∀ fcb, fcb ∉ free.take num → after.fcb fcb = kernel.fcb fcb := by
  induction num generalizing kernel free with
  | zero =>
      exact ⟨kernel, by rw [List.take_zero, Kernel.acquireFCBs], freeList, rfl,
        fun _ member => absurd member List.not_mem_nil, fun _ _ => rfl⟩
  | succ num inductionHypothesis =>
      cases free with
      | nil =>
          refine ⟨kernel, ?_, freeList, rfl,
            fun _ member => absurd member List.not_mem_nil, fun _ _ => rfl⟩
          simp only [Kernel.acquireFCBs, freeList.acquireFCB_nil, bind,
            Except.bind, pure, Except.pure, List.take_nil]
      | cons first rest =>
          have notRest := (List.nodup_cons.mp freeList.nodup).1
          obtain ⟨middle, acquired, middleList, middlePcb, middleFcb⟩ :=
            freeList.acquireFCB_cons
          obtain ⟨after, others, afterList, afterPcb, taken, kept⟩ :=
            inductionHypothesis middleList
          have firstNotTaken : first ∉ rest.take num := fun member =>
            notRest (List.mem_of_mem_take member)
          refine ⟨after, ?_, afterList, afterPcb.trans middlePcb, ?_, ?_⟩
          · simp only [Kernel.acquireFCBs, acquired, others, bind, Except.bind,
              pure, Except.pure, List.take_succ_cons]
          · intro fcb member
            rw [List.take_succ_cons, List.mem_cons] at member
            rcases member with rfl | member
            · rw [kept fcb firstNotTaken, middleFcb, Function.update_self]
            · have different : fcb ≠ first := by
                rintro rfl
                exact firstNotTaken member
              rw [taken fcb member, middleFcb,
                Function.update_of_ne different]
          · intro fcb absent
            rw [List.take_succ_cons, List.mem_cons, not_or] at absent
            rw [kept fcb absent.2, middleFcb, Function.update_of_ne absent.1]

/-- The rollback appends what was taken. -/
theorem FreeList.releaseFCBs
    {kernel : Kernel limits}
    {free fcbs : List (Fin limits.maxFiles)}
    (freeList : kernel.FreeList free)
    (nodup : (free ++ fcbs).Nodup) :
    (fcbs.foldl Kernel.releaseFCB kernel).FreeList (free ++ fcbs) ∧
      (fcbs.foldl Kernel.releaseFCB kernel).pcb = kernel.pcb := by
  induction fcbs generalizing kernel free with
  | nil => exact ⟨by rwa [List.append_nil], rfl⟩
  | cons fcb fcbs inductionHypothesis =>
      have notFree : fcb ∉ free := fun member =>
        (List.nodup_append.mp nodup).2.2 fcb member fcb
          (List.mem_cons_self ..) rfl
      rw [List.append_cons] at nodup ⊢
      exact inductionHypothesis (freeList.releaseFCB notFree) nodup

/-- The loops over both arrays end when either has no more entries. -/
theorem zip_eq_nil_of_ended
    {fids : List (Fin limits.maxFileid)}
    {fcbs : List (Fin limits.maxFiles)}
    (ended : ∀ fid fids' fcb fcbs', fids = fid :: fids' →
      fcbs = fcb :: fcbs' → False) :
    fids.zip fcbs = [] := by
  cases fids with
  | nil => rfl
  | cons fid fids =>
      cases fcbs with
      | nil => rfl
      | cons fcb fcbs => exact (ended fid fids fcb fcbs rfl rfl).elim

section Install

variable {cur : Fin limits.maxProc}
variable {fids : List (Fin limits.maxFileid)}
variable {fcbs : List (Fin limits.maxFiles)}

theorem installFCBs_freelist
    (kernel : Kernel limits)
    (cur : Fin limits.maxProc)
    (fids : List (Fin limits.maxFileid))
    (fcbs : List (Fin limits.maxFiles)) :
    (kernel.installFCBs cur fids fcbs).freelist = kernel.freelist := by
  fun_induction installFCBs kernel cur fids fcbs with
  | case1 kernel fid fids fcb fcbs inductionHypothesis =>
      exact inductionHypothesis
  | case2 fids fcbs kernel ended => rfl

theorem installFCBs_FIDT_of_apart
    {pid : Fin limits.maxProc}
    {other : Fin limits.maxFileid}
    (kernel : Kernel limits)
    (fcbs : List (Fin limits.maxFiles))
    (apart : pid ≠ cur ∨ other ∉ fids) :
    (kernel.installFCBs cur fids fcbs).FIDT pid other =
      kernel.FIDT pid other := by
  fun_induction installFCBs kernel cur fids fcbs with
  | case1 kernel fid fids fcb fcbs inductionHypothesis =>
      rw [List.mem_cons, not_or] at apart
      rw [inductionHypothesis (apart.imp_right And.right)]
      exact setFidt_FIDT_of_apart (apart.imp_right And.left)
  | case2 fids fcbs kernel ended => rfl

theorem installFCBs_FIDT_of_mem
    {entry : Fin limits.maxFileid × Fin limits.maxFiles}
    (kernel : Kernel limits)
    (nodup : fids.Nodup)
    (member : entry ∈ fids.zip fcbs) :
    (kernel.installFCBs cur fids fcbs).FIDT cur entry.1 = some entry.2 := by
  fun_induction installFCBs kernel cur fids fcbs with
  | case1 kernel fid fids fcb fcbs inductionHypothesis =>
      rw [List.nodup_cons] at nodup
      rw [List.zip_cons_cons, List.mem_cons] at member
      rcases member with rfl | member
      · rw [installFCBs_FIDT_of_apart _ _ (Or.inr nodup.1)]
        exact setFidt_FIDT_self ..
      · exact inductionHypothesis nodup.2 member
  | case2 fids fcbs kernel ended =>
      rw [zip_eq_nil_of_ended ended] at member
      exact absurd member List.not_mem_nil

theorem installFCBs_fcb_of_notMem
    {other : Fin limits.maxFiles}
    (kernel : Kernel limits)
    (fids : List (Fin limits.maxFileid))
    (absent : other ∉ fcbs) :
    (kernel.installFCBs cur fids fcbs).fcb other = kernel.fcb other := by
  fun_induction installFCBs kernel cur fids fcbs with
  | case1 kernel fid fids fcb fcbs inductionHypothesis =>
      rw [List.mem_cons, not_or] at absent
      rw [inductionHypothesis absent.2]
      exact Function.update_of_ne absent.1 ..
  | case2 fids fcbs kernel ended => rfl

theorem installFCBs_fcb_of_mem
    {entry : Fin limits.maxFileid × Fin limits.maxFiles}
    (kernel : Kernel limits)
    (nodup : fcbs.Nodup)
    (member : entry ∈ fids.zip fcbs) :
    (kernel.installFCBs cur fids fcbs).fcb entry.2 =
      { kernel.fcb entry.2 with
        refcount := (kernel.fcb entry.2).refcount + 1 } := by
  fun_induction installFCBs kernel cur fids fcbs with
  | case1 kernel fid fids fcb fcbs inductionHypothesis =>
      rw [List.nodup_cons] at nodup
      rw [List.zip_cons_cons, List.mem_cons] at member
      rcases member with rfl | member
      · rw [installFCBs_fcb_of_notMem _ _ nodup.1]
        exact Function.update_self ..
      · have different : entry.2 ≠ fcb := by
          rintro same
          apply nodup.1
          rw [← same]
          exact (List.of_mem_zip member).2
        have unchanged : ((kernel.setFidt cur fid (some fcb)).FCBIncref
            fcb).fcb entry.2 = kernel.fcb entry.2 :=
          Function.update_of_ne different ..
        rw [inductionHypothesis nodup.2 member, unchanged]
  | case2 fids fcbs kernel ended =>
      rw [zip_eq_nil_of_ended ended] at member
      exact absurd member List.not_mem_nil

end Install

/-! ## Giving back -/

theorem FCBUnreserve_FIDT_of_apart
    {cur pid : Fin limits.maxProc}
    {fids : List (Fin limits.maxFileid)}
    {other : Fin limits.maxFileid}
    (kernel : Kernel limits)
    (fcbs : List (Fin limits.maxFiles))
    (apart : pid ≠ cur ∨ other ∉ fids) :
    (kernel.FCBUnreserve cur fids fcbs).FIDT pid other =
      kernel.FIDT pid other := by
  fun_induction FCBUnreserve kernel cur fids fcbs with
  | case1 kernel fid fids fcb fcbs inductionHypothesis =>
      rw [List.mem_cons, not_or] at apart
      rw [inductionHypothesis (apart.imp_right And.right)]
      exact setFidt_FIDT_of_apart (apart.imp_right And.left)
  | case2 fids fcbs kernel ended => rfl

theorem FCBUnreserve_FIDT_of_mem
    {cur : Fin limits.maxProc}
    {fids : List (Fin limits.maxFileid)}
    {fcbs : List (Fin limits.maxFiles)}
    {other : Fin limits.maxFileid}
    (kernel : Kernel limits)
    (sameLength : fids.length = fcbs.length)
    (member : other ∈ fids) :
    (kernel.FCBUnreserve cur fids fcbs).FIDT cur other = none := by
  fun_induction FCBUnreserve kernel cur fids fcbs with
  | case1 kernel fid fids fcb fcbs inductionHypothesis =>
      by_cases later : other ∈ fids
      · exact inductionHypothesis (Nat.succ.inj sameLength) later
      · obtain rfl := (List.mem_cons.mp member).resolve_right later
        rw [FCBUnreserve_FIDT_of_apart _ _ (Or.inr later)]
        exact setFidt_FIDT_self ..
  | case2 fids kernel fcbs ended =>
      cases fids with
      | nil => cases member
      | cons fid fids =>
          cases fcbs with
          | nil => cases sameLength
          | cons fcb fcbs => exact (ended fid fids fcb fcbs rfl rfl).elim

theorem FreeList.FCBUnreserve
    {kernel : Kernel limits}
    {cur : Fin limits.maxProc}
    {fids : List (Fin limits.maxFileid)}
    {free fcbs : List (Fin limits.maxFiles)}
    (freeList : kernel.FreeList free)
    (sameLength : fids.length = fcbs.length)
    (nodup : (free ++ fcbs).Nodup) :
    (kernel.FCBUnreserve cur fids fcbs).FreeList (free ++ fcbs) := by
  induction fcbs generalizing kernel free fids with
  | nil =>
      rw [List.length_eq_zero_iff.mp sameLength, List.append_nil]
      exact freeList
  | cons fcb fcbs inductionHypothesis =>
      cases fids with
      | nil => cases sameLength
      | cons fid fids =>
          have notFree : fcb ∉ free := fun member =>
            (List.nodup_append.mp nodup).2.2 fcb member fcb
              (List.mem_cons_self ..) rfl
          rw [List.append_cons] at nodup ⊢
          have released : ((kernel.setFidt cur fid none).releaseFCB
              fcb).FreeList (free ++ [fcb]) :=
            FreeList.releaseFCB (freeList.of_same rfl) notFree
          exact inductionHypothesis released (Nat.succ.inj sameLength) nodup

/-! ## The whole call -/

/-- Too few descriptors: nothing is touched. -/
theorem FCBReserve_of_few_fids
    {kernel : Kernel limits}
    {cur : Fin limits.maxProc}
    {num : Nat}
    (few : (kernel.freeFids cur).length < num) :
    kernel.FCBReserve cur num = .ok (none, kernel) := by
  have short : (reserveFids (kernel.pcb cur).FIDT num 0).length < num := by
    rw [reserveFids_eq_freeFids, List.length_take]
    omega
  simp only [FCBReserve, if_pos short]

/-- Too few FCBs: those acquired are all released again. -/
theorem FreeList.FCBReserve_of_few_fcbs
    {kernel : Kernel limits}
    {cur : Fin limits.maxProc}
    {free : List (Fin limits.maxFiles)}
    {num : Nat}
    (freeList : kernel.FreeList free)
    (enough : num ≤ (kernel.freeFids cur).length)
    (few : free.length < num) :
    ∃ after, kernel.FCBReserve cur num = .ok (none, after) ∧
      kernel.Restored after free := by
  obtain ⟨middle, acquired, middleList, samePcb, -, -⟩ :=
    freeList.acquireFCBs num
  rw [List.take_of_length_le few.le] at acquired
  rw [List.drop_of_length_le few.le] at middleList
  have long : ¬(reserveFids (kernel.pcb cur).FIDT num 0).length < num := by
    rw [reserveFids_eq_freeFids, List.length_take]
    omega
  have reversed : ([] ++ free.reverse).Nodup :=
    List.nodup_reverse.mpr freeList.nodup
  obtain ⟨afterList, afterPcb⟩ := middleList.releaseFCBs reversed
  refine ⟨free.reverse.foldl Kernel.releaseFCB middle, ?_, ?_,
    free.reverse, afterList, List.reverse_perm free⟩
  · simp only [FCBReserve, if_neg long, acquired, bind, Except.bind, pure,
      Except.pure, if_pos few]
  · funext pid fid
    simp only [FIDT, afterPcb, samePcb]

theorem FreeList.FCBReserve_of_enough
    {kernel : Kernel limits}
    {cur : Fin limits.maxProc}
    {free : List (Fin limits.maxFiles)}
    {num : Nat}
    (freeList : kernel.FreeList free)
    (enoughFids : num ≤ (kernel.freeFids cur).length)
    (enoughFcbs : num ≤ free.length) :
    ∃ after, kernel.FCBReserve cur num =
        .ok (some ((kernel.freeFids cur).take num, free.take num), after) ∧
      kernel.Reserved after cur num free ((kernel.freeFids cur).take num)
        (free.take num) := by
  obtain ⟨middle, acquired, middleList, samePcb, taken, kept⟩ :=
    freeList.acquireFCBs num
  have fidsLength : ((kernel.freeFids cur).take num).length = num :=
    List.length_take_of_le enoughFids
  have fcbsLength : (free.take num).length = num :=
    List.length_take_of_le enoughFcbs
  have fidsNodup : ((kernel.freeFids cur).take num).Nodup :=
    ((List.nodup_finRange limits.maxFileid).filter _).sublist
      (List.take_sublist ..)
  have fcbsNodup : (free.take num).Nodup :=
    freeList.nodup.sublist (List.take_sublist ..)
  have sameFIDT : middle.FIDT = kernel.FIDT := by
    funext pid fid
    simp only [FIDT, samePcb]
  refine ⟨middle.installFCBs cur ((kernel.freeFids cur).take num)
    (free.take num), ?_, ?_⟩
  · simp only [FCBReserve, reserveFids_eq_freeFids, fidsLength, acquired,
      fcbsLength, lt_irrefl, if_false, bind, Except.bind, pure, Except.pure]
  · refine ⟨fidsLength, rfl, fcbsLength, rfl, fcbsNodup, ?_, ?_, ?_, ?_⟩
    · intro entry member
      refine ⟨installFCBs_FIDT_of_mem middle fidsNodup member, ?_⟩
      rw [installFCBs_fcb_of_mem middle fcbsNodup member,
        taken entry.2 (List.of_mem_zip member).2]
      rfl
    · intro pid fid apart
      rw [installFCBs_FIDT_of_apart middle _ apart, sameFIDT]
    · intro fcb absent
      rw [installFCBs_fcb_of_notMem middle _ absent, kept fcb absent]
    · exact middleList.of_same (installFCBs_freelist ..)

/-- `FCB_unreserve` after a success. -/
theorem Reserved.restored
    {before after : Kernel limits}
    {cur : Fin limits.maxProc}
    {num : Nat}
    {free fcbs : List (Fin limits.maxFiles)}
    {fids : List (Fin limits.maxFileid)}
    (reserved : before.Reserved after cur num free fids fcbs)
    (nodup : free.Nodup) :
    before.Restored (after.FCBUnreserve cur fids fcbs) free := by
  have sameLength : fids.length = fcbs.length :=
    reserved.fids_length.trans reserved.fcbs_length.symm
  have whole : (free.drop num ++ fcbs).Perm free := by
    rw [reserved.fcbs_eq]
    refine List.perm_append_comm.trans ?_
    rw [List.take_append_drop]
  refine ⟨?_, free.drop num ++ fcbs,
    reserved.freeList.FCBUnreserve sameLength (whole.nodup_iff.mpr nodup),
    whole⟩
  funext pid fid
  by_cases apart : pid ≠ cur ∨ fid ∉ fids
  · rw [FCBUnreserve_FIDT_of_apart _ _ apart, reserved.otherEntries _ _ apart]
  · rw [not_or, not_not, not_not] at apart
    obtain ⟨rfl, member⟩ := apart
    rw [FCBUnreserve_FIDT_of_mem _ sameLength member]
    rw [reserved.fids_eq] at member
    have wasFree := (List.mem_filter.mp (List.mem_of_mem_take member)).2
    exact (of_decide_eq_true wasFree).symm

/-- `FCB_reserve` succeeds exactly when there are enough descriptors and enough
FCBs; it then takes the first of both, and `FCB_unreserve` puts them back; when
it fails it has taken nothing. -/
theorem FCBReserve_all_or_nothing
    (kernel : Kernel limits)
    (cur : Fin limits.maxProc)
    (free : List (Fin limits.maxFiles))
    (freeList : kernel.FreeList free)
    (num : Nat) :
    ∃ outcome after, kernel.FCBReserve cur num = .ok (outcome, after) ∧
      (outcome.isSome = true ↔
        num ≤ (kernel.freeFids cur).length ∧ num ≤ free.length) ∧
      (∀ fids fcbs, outcome = some (fids, fcbs) →
        kernel.Reserved after cur num free fids fcbs ∧
          kernel.Restored (after.FCBUnreserve cur fids fcbs) free) ∧
      (outcome = none → kernel.Restored after free) := by
  by_cases enoughFids : num ≤ (kernel.freeFids cur).length
  · by_cases enoughFcbs : num ≤ free.length
    · obtain ⟨after, succeeds, reserved⟩ :=
        freeList.FCBReserve_of_enough enoughFids enoughFcbs
      refine ⟨_, after, succeeds, by simp [enoughFids, enoughFcbs], ?_, nofun⟩
      intro fids fcbs same
      cases same
      exact ⟨reserved, reserved.restored freeList.nodup⟩
    · obtain ⟨after, fails, restored⟩ :=
        freeList.FCBReserve_of_few_fcbs enoughFids
          (Nat.lt_of_not_le enoughFcbs)
      exact ⟨none, after, fails, by simp [enoughFcbs], nofun,
        fun _ => restored⟩
  · exact ⟨none, kernel,
      FCBReserve_of_few_fids (Nat.lt_of_not_le enoughFids),
      by simp [enoughFids], nofun,
      fun _ => ⟨rfl, free, freeList, List.Perm.refl _⟩⟩

/-- Of four descriptors and four FCBs two are taken, and five are not. -/
theorem FCBReserve_all_or_nothing_tinier :
    ∃ kernel : Kernel Limits.tinier,
      kernel.FreeList (List.finRange 4) ∧
      (∃ fids fcbs after,
        kernel.FCBReserve 0 2 = .ok (some (fids, fcbs), after) ∧
          kernel.Reserved after 0 2 (List.finRange 4) fids fcbs) ∧
      ∃ after, kernel.FCBReserve 0 5 = .ok (none, after) ∧
        kernel.Restored after (List.finRange 4) := by
  have freeList := (Kernel.zero Limits.tinier).initializeFiles_freeList
  have unused : ((Kernel.zero Limits.tinier).initializeFiles.freeFids
      0).length = 4 := by
    decide
  refine ⟨_, freeList, ?_, ?_⟩
  · obtain ⟨outcome, after, returned, succeeds, reserved, -⟩ :=
      FCBReserve_all_or_nothing _ 0 _ freeList 2
    rw [unused] at succeeds
    obtain ⟨⟨fids, fcbs⟩, rfl⟩ :=
      Option.isSome_iff_exists.mp (succeeds.mpr (by decide))
    exact ⟨fids, fcbs, after, returned, (reserved fids fcbs rfl).1⟩
  · obtain ⟨outcome, after, returned, succeeds, -, restored⟩ :=
      FCBReserve_all_or_nothing _ 0 _ freeList 5
    rw [unused] at succeeds
    have failed : outcome = none := by
      rw [← Option.not_isSome_iff_eq_none, succeeds]
      decide
    subst failed
    exact ⟨after, returned, restored rfl⟩

/-! ## One descriptor -/

theorem freeFid_eq_head?
    (kernel : Kernel limits)
    (cur : Fin limits.maxProc) :
    kernel.freeFid cur = (kernel.freeFids cur).head? := by
  rw [freeFid, firstIndex_eq_head?_matchesFrom, matchesFrom_zero]
  rfl

/-- `open_stream` reserves one descriptor; for that number the loops are the
two single steps. -/
theorem FCBReserve_one
    (kernel : Kernel limits)
    (cur : Fin limits.maxProc) :
    kernel.FCBReserve cur 1 =
      (kernel.FCBReserveOne cur).map fun outcome =>
        (outcome.1.map fun entry => ([entry.1], [entry.2]), outcome.2) := by
  unfold FCBReserve FCBReserveOne
  rw [reserveFids_eq_freeFids, freeFid_eq_head?]
  cases kernel.freeFids cur with
  | nil => rfl
  | cons fid fids =>
      simp only [List.take_succ_cons, List.take_zero, List.length_singleton,
        lt_irrefl, if_false, List.head?_cons, acquireFCBs]
      cases kernel.acquireFCB with
      | error fault => rfl
      | ok acquired =>
          obtain ⟨fcb, after⟩ := acquired
          cases fcb with
          | none => rfl
          | some fcb => rfl

/-- `FCB_reserve(1, fid, fcb)` when a descriptor and an FCB are left. -/
theorem FreeList.FCBReserveOne_cons
    {kernel : Kernel limits}
    {cur : Fin limits.maxProc}
    {fid : Fin limits.maxFileid}
    {fcb : Fin limits.maxFiles}
    {rest : List (Fin limits.maxFiles)}
    (freeList : kernel.FreeList (fcb :: rest))
    (found : kernel.freeFid cur = some fid) :
    ∃ after, kernel.FCBReserveOne cur = .ok (some (fid, fcb), after) ∧
      kernel.Reserved after cur 1 (fcb :: rest) [fid] [fcb] := by
  rw [freeFid_eq_head?] at found
  obtain ⟨others, fids⟩ := List.head?_eq_some_iff.mp found
  have enough : 1 ≤ (kernel.freeFids cur).length := by simp [fids]
  obtain ⟨after, succeeds, reserved⟩ :=
    freeList.FCBReserve_of_enough enough (by simp)
  simp only [fids, List.take_succ_cons, List.take_zero] at succeeds reserved
  refine ⟨after, ?_, reserved⟩
  rw [FCBReserve_one] at succeeds
  cases outcome : kernel.FCBReserveOne cur with
  | error fault =>
      rw [outcome] at succeeds
      cases succeeds
  | ok result =>
      obtain ⟨entry, kernel'⟩ := result
      rw [outcome] at succeeds
      simp only [Except.map, Except.ok.injEq, Prod.mk.injEq,
        Option.map_eq_some_iff, List.cons.injEq, and_true] at succeeds
      obtain ⟨⟨⟨fid', fcb'⟩, rfl, rfl, rfl⟩, rfl⟩ := succeeds
      rfl

end Kernel
end TinierOS
