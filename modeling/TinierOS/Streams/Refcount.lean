import TinierOS.Streams.Effect
import Mathlib.Data.Finset.Card
import Mathlib.Data.Fintype.Prod
import Mathlib.Data.Fintype.Card

/-!
# Reference counts of the file table

An FCB is free, or it is counted by the descriptors that point to it.  Opening
a stream takes the first free FCB, closing the last descriptor gives it back.
-/

namespace TinierOS

variable {limits : Limits}

/-- The one list of free FCBs. -/
def fcbLayout (limits : Limits) :
    Layout Unit (Fin limits.maxFiles) (FcbNode limits) where
  sentinel := fun _ => .freelist
  cell := .node
  sentinel_injective := fun _ _ _ => rfl
  cell_injective := by
    intro first second equal
    simpa using equal
  sentinel_ne_cell := by simp

namespace Kernel

/-! ## The free list -/

/-- `FCB_freelist` holds the given FCBs, each once. -/
structure FreeList
    (kernel : Kernel limits)
    (free : List (Fin limits.maxFiles)) : Prop where
  represents : (fcbLayout limits).Represents kernel.freelist.links
    (fun _ => free) fun _ => True
  key : ∀ fcb, (kernel.freelist (.node fcb)).obj = some fcb

namespace FreeList

variable {kernel : Kernel limits}
variable {free : List (Fin limits.maxFiles)}

theorem of_same
    {after : Kernel limits}
    (freeList : kernel.FreeList free)
    (same : after.freelist = kernel.freelist) :
    after.FreeList free := by
  constructor
  · rw [same]
    exact freeList.represents
  · rw [same]
    exact freeList.key

theorem nodup (freeList : kernel.FreeList free) : free.Nodup :=
  freeList.represents.nodup ()

theorem isRing (freeList : kernel.FreeList free) :
    kernel.freelist.links.IsRing .freelist (free.map .node) :=
  freeList.represents.ring ()

theorem isRlistEmpty_iff (freeList : kernel.FreeList free) :
    kernel.freelist.isRlistEmpty .freelist = true ↔ free = [] :=
  RlHeap.isRlistEmpty_iff freeList.represents ()

/-- The node of an FCB that is in use is a ring of its own. -/
theorem isRlistEmpty_node_iff
    {fcb : Fin limits.maxFiles}
    (freeList : kernel.FreeList free) :
    kernel.freelist.isRlistEmpty (.node fcb) = true ↔ fcb ∉ free := by
  have test : kernel.freelist.isRlistEmpty (.node fcb) = true ↔
      kernel.freelist.links.next (.node fcb) = .node fcb := by
    simp [RlHeap.isRlistEmpty, eq_comm]
  rw [test]
  constructor
  · intro alone isFree
    exact freeList.isRing.next_ne_of_mem (List.mem_map_of_mem isFree) alone
  · intro inUse
    exact (Links.isRing_nil.mp
      (freeList.represents.alone trivial fun _ => inUse)).1

theorem acquireFCB_nil
    (freeList : kernel.FreeList []) :
    kernel.acquireFCB = .ok (none, kernel) := by
  rw [acquireFCB, if_pos (freeList.isRlistEmpty_iff.mpr rfl)]

/-- `acquire_FCB` takes the first free FCB. -/
theorem acquireFCB_cons
    {first : Fin limits.maxFiles}
    {rest : List (Fin limits.maxFiles)}
    (freeList : kernel.FreeList (first :: rest)) :
    ∃ after, kernel.acquireFCB = .ok (some first, after) ∧
      after.FreeList rest ∧ after.pcb = kernel.pcb ∧
      after.fcb = Function.update kernel.fcb first
        { kernel.fcb first with refcount := 0 } := by
  have front : (kernel.freelist .freelist).next = .node first := by
    simpa using freeList.isRing.next_head
  have nonempty : ¬kernel.freelist.isRlistEmpty .freelist = true := by
    rw [freeList.isRlistEmpty_iff]
    simp
  have popped : (fcbLayout limits).Represents
      (kernel.freelist.rlistPopFront .freelist).2.links (fun _ => rest)
        fun _ => True := by
    have shorter : (fcbLayout limits).Represents
        (kernel.freelist.links.splice .freelist
          (kernel.freelist.links.next .freelist))
        (Function.update (fun _ => first :: rest) () rest) fun _ => True :=
      freeList.represents.pop_front rfl
    rw [show Function.update (fun _ : Unit => first :: rest) () rest =
      fun _ => rest from funext fun _ => rfl] at shorter
    rw [RlHeap.rlistPopFront_links]
    exact shorter
  have key : ((kernel.freelist.rlistPopFront .freelist).2
      (kernel.freelist.rlistPopFront .freelist).1).obj = some first := by
    rw [RlHeap.rlistPopFront_obj, RlHeap.rlistPopFront_fst,
      RlHeap.links_next, front]
    exact freeList.key first
  refine ⟨({ kernel with
      freelist := (kernel.freelist.rlistPopFront .freelist).2 } :
        Kernel limits).modifyFcb first fun block =>
          { block with refcount := 0 }, ?_, ⟨popped, ?_⟩, rfl, rfl⟩
  · rw [acquireFCB, if_neg nonempty]
    simp only [key]
  · intro fcb
    show ((kernel.freelist.rlistPopFront .freelist).2 (.node fcb)).obj =
      some fcb
    rw [RlHeap.rlistPopFront_obj]
    exact freeList.key fcb

/-- `release_FCB` puts an FCB at the end of the list. -/
theorem releaseFCB
    {fcb : Fin limits.maxFiles}
    (freeList : kernel.FreeList free)
    (notFree : fcb ∉ free) :
    (kernel.releaseFCB fcb).FreeList (free ++ [fcb]) := by
  have longer := freeList.represents.push_back trivial (fun _ => notFree) ()
  rw [show Function.update (fun _ : Unit => free) () (free ++ [fcb]) =
    fun _ => free ++ [fcb] from funext fun _ => rfl] at longer
  constructor
  · show (fcbLayout limits).Represents (kernel.freelist.rlistPushBack
      .freelist (.node fcb)).links _ _
    rw [RlHeap.rlistPushBack_links]
    exact longer
  · intro other
    show (kernel.freelist.rlistPushBack .freelist (.node fcb)
      (.node other)).obj = some other
    rw [RlHeap.rlistPushBack_obj]
    exact freeList.key other

end FreeList

/-! ## Descriptors that point to an FCB -/

/-- The descriptors of all processes that point to an FCB. -/
def refSet
    (kernel : Kernel limits)
    (fcb : Fin limits.maxFiles) :
    Finset (Fin limits.maxProc × Fin limits.maxFileid) :=
  Finset.univ.filter fun entry =>
    kernel.pstate entry.1 ≠ .free ∧ kernel.FIDT entry.1 entry.2 = some fcb

theorem mem_refSet
    {kernel : Kernel limits}
    {fcb : Fin limits.maxFiles}
    {entry : Fin limits.maxProc × Fin limits.maxFileid} :
    entry ∈ kernel.refSet fcb ↔ kernel.pstate entry.1 ≠ .free ∧
      kernel.FIDT entry.1 entry.2 = some fcb := by
  simp [refSet]

/-- Processes without descriptors may come and go. -/
theorem refSet_congr
    {before after : Kernel limits}
    (same : ∀ pid fid fcb, after.pstate pid ≠ .free ∧
        after.FIDT pid fid = some fcb ↔
      before.pstate pid ≠ .free ∧ before.FIDT pid fid = some fcb)
    (fcb : Fin limits.maxFiles) :
    after.refSet fcb = before.refSet fcb := by
  ext ⟨pid, fid⟩
  rw [mem_refSet, mem_refSet]
  exact same pid fid fcb

/-- One descriptor of a process is assigned. -/
structure EntrySet
    (before after : Kernel limits)
    (cur : Fin limits.maxProc)
    (fid : Fin limits.maxFileid)
    (entry : Option (Fin limits.maxFiles)) : Prop where
  pstate : after.pstate = before.pstate
  FIDT : after.FIDT = Function.update before.FIDT cur
    (Function.update (before.FIDT cur) fid entry)

namespace EntrySet

variable {before after : Kernel limits}
variable {cur : Fin limits.maxProc}
variable {fid : Fin limits.maxFileid}
variable {entry : Option (Fin limits.maxFiles)}

theorem setFidt
    (kernel : Kernel limits)
    (cur : Fin limits.maxProc)
    (fid : Fin limits.maxFileid)
    (entry : Option (Fin limits.maxFiles)) :
    EntrySet kernel (kernel.setFidt cur fid entry) cur fid entry := by
  have pcb : (kernel.setFidt cur fid entry).pcb =
      Function.update kernel.pcb cur { kernel.pcb cur with
        FIDT := Function.update (kernel.pcb cur).FIDT fid entry } := rfl
  exact ⟨same_column_of_pcb PCB.pstate pcb rfl, column_of_pcb PCB.FIDT pcb⟩

theorem FIDT_self
    (set : EntrySet before after cur fid entry) :
    after.FIDT cur fid = entry := by
  rw [set.FIDT, Function.update_self, Function.update_self]

theorem FIDT_of_ne
    {other : Fin limits.maxProc × Fin limits.maxFileid}
    (set : EntrySet before after cur fid entry)
    (different : other ≠ (cur, fid)) :
    after.FIDT other.1 other.2 = before.FIDT other.1 other.2 := by
  obtain ⟨pid, otherFid⟩ := other
  rw [set.FIDT]
  by_cases same : pid = cur
  · subst same
    have otherEntry : otherFid ≠ fid := fun equal => different (equal ▸ rfl)
    rw [Function.update_self, Function.update_of_ne otherEntry]
  · rw [Function.update_of_ne same]

/-- An FCB that was referenced by the descriptor or is now. -/
theorem refSet_insert
    {fcb : Fin limits.maxFiles}
    (set : EntrySet before after cur fid (some fcb))
    (notFree : before.pstate cur ≠ .free) :
    after.refSet fcb = insert (cur, fid) (before.refSet fcb) := by
  ext other
  rw [Finset.mem_insert, mem_refSet, mem_refSet, set.pstate]
  by_cases same : other = (cur, fid)
  · subst same
    simp [set.FIDT_self, notFree]
  · simp [set.FIDT_of_ne same, same]

theorem refSet_erase
    {fcb : Fin limits.maxFiles}
    (set : EntrySet before after cur fid entry)
    (other : entry ≠ some fcb) :
    after.refSet fcb = (before.refSet fcb).erase (cur, fid) := by
  ext found
  rw [Finset.mem_erase, mem_refSet, mem_refSet, set.pstate]
  by_cases same : found = (cur, fid)
  · subst same
    simp [set.FIDT_self, other]
  · simp [set.FIDT_of_ne same, same]

/-- Every other FCB keeps its descriptors. -/
theorem refSet_of_ne
    {fcb : Fin limits.maxFiles}
    (set : EntrySet before after cur fid entry)
    (other : entry ≠ some fcb)
    (wasOther : before.FIDT cur fid ≠ some fcb) :
    after.refSet fcb = before.refSet fcb := by
  rw [set.refSet_erase other, Finset.erase_eq_of_notMem]
  rw [mem_refSet]
  exact fun found => wasOther found.2

end EntrySet

/-! ## Opening a stream -/

/-- The outcomes of `open_stream` by `cur` for a list of free FCBs. -/
inductive OpenOutcome
    (before : Kernel limits)
    (cur : Fin limits.maxProc) :
    List (Fin limits.maxFiles) → Option (Fin limits.maxFileid) →
      Kernel limits → Prop
  /-- No descriptor or no FCB is left. -/
  | refused
      {free : List (Fin limits.maxFiles)} :
      OpenOutcome before cur free none before
  /-- The device does not exist, and the FCB has been put back. -/
  | undone
      {fcb : Fin limits.maxFiles}
      {rest : List (Fin limits.maxFiles)}
      {after : Kernel limits}
      (freeList : after.FreeList (rest ++ [fcb]))
      (pstate : after.pstate = before.pstate)
      (FIDT : after.FIDT = before.FIDT)
      (others : ∀ other, other ≠ fcb → after.fcb other = before.fcb other) :
      OpenOutcome before cur (fcb :: rest) none after
  /-- The first free FCB has been installed. -/
  | opened
      {fid : Fin limits.maxFileid}
      {fcb : Fin limits.maxFiles}
      {rest : List (Fin limits.maxFiles)}
      {after : Kernel limits}
      (freeList : after.FreeList rest)
      (wasNone : before.FIDT cur fid = none)
      (set : EntrySet before after cur fid (some fcb))
      (one : (after.fcb fcb).refcount = 1)
      (others : ∀ other, other ≠ fcb → after.fcb other = before.fcb other) :
      OpenOutcome before cur (fcb :: rest) (some fid) after

/-- `open_stream` returns a descriptor unless the process has none left, no FCB
is free or the device does not exist. -/
theorem FreeList.openStream
    {before : Kernel limits}
    {free : List (Fin limits.maxFiles)}
    {cur : Fin limits.maxProc}
    (freeList : before.FreeList free)
    (isCurrent : before.currentProc = some cur)
    (major : DeviceType)
    (minor : Nat) :
    ∃ result after, before.openStream major minor = .ok (result, after) ∧
      before.OpenOutcome cur free result after ∧
      (result = none ↔ before.freeFid cur = none ∨ free = [] ∨
        deviceOpen major minor = none) := by
  unfold Kernel.openStream
  simp only [isCurrent, FCBReserveOne]
  cases found : before.freeFid cur with
  | none => exact ⟨none, before, rfl, .refused, by simp⟩
  | some fid =>
      have wasNone : before.FIDT cur fid = none := by
        simpa [FIDT] using firstIndex_test found
      cases free with
      | nil =>
          simp only [freeList.acquireFCB_nil, bind, Except.bind, pure,
            Except.pure]
          exact ⟨none, before, rfl, .refused, by simp⟩
      | cons fcb rest =>
          obtain ⟨middle, acquired, shorter, samePcb, fcbs⟩ :=
            freeList.acquireFCB_cons
          simp only [acquired, bind, Except.bind, pure, Except.pure]
          have reservedPcb : ((middle.setFidt cur fid (some fcb)).FCBIncref
              fcb).pcb = Function.update before.pcb cur { before.pcb cur with
                FIDT := Function.update (before.pcb cur).FIDT fid
                  (some fcb) } := by
            rw [← samePcb]
            rfl
          have reservedFcb : ∀ other, other ≠ fcb →
              ((middle.setFidt cur fid (some fcb)).FCBIncref fcb).fcb other =
                before.fcb other := by
            intro other different
            simp [FCBIncref, modifyFcb, setFidt, modifyPcb, fcbs, different]
          have reservedOne : (((middle.setFidt cur fid (some fcb)).FCBIncref
              fcb).fcb fcb).refcount = 1 := by
            simp [FCBIncref, modifyFcb, setFidt, modifyPcb, fcbs]
          have reservedList : ((middle.setFidt cur fid
              (some fcb)).FCBIncref fcb).FreeList rest :=
            shorter.of_same rfl
          generalize (middle.setFidt cur fid (some fcb)).FCBIncref fcb =
            reserved at reservedPcb reservedFcb reservedOne reservedList ⊢
          cases device : deviceOpen major minor with
          | none =>
              have undonePcb : (reserved.FCBUnreserveOne cur fid fcb).pcb =
                  Function.update reserved.pcb cur { reserved.pcb cur with
                    FIDT := Function.update (reserved.pcb cur).FIDT fid
                      none } := rfl
              rw [reservedPcb, Function.update_idem, Function.update_self]
                at undonePcb
              refine ⟨none, _, rfl, .undone ?_
                (same_column_of_pcb PCB.pstate undonePcb rfl)
                (same_column_of_pcb PCB.FIDT undonePcb ?_) reservedFcb, by simp⟩
              · refine FreeList.releaseFCB (reservedList.of_same rfl) ?_
                exact (List.nodup_cons.mp freeList.nodup).1
              · simp only [Function.update_idem]
                exact Function.update_eq_self_iff.mpr wasNone.symm
          | some streamobj =>
              have set : EntrySet before (reserved.modifyFcb fcb fun block =>
                  { block with
                    streamobj := streamobj, streamfunc := some major }) cur
                  fid (some fcb) :=
                ⟨same_column_of_pcb PCB.pstate reservedPcb rfl,
                  column_of_pcb PCB.FIDT reservedPcb⟩
              refine ⟨some fid, _, rfl,
                .opened (reservedList.of_same rfl) wasNone set ?_ ?_, by simp⟩
              · simpa [modifyFcb] using reservedOne
              · intro other different
                rw [← reservedFcb other different]
                simp [modifyFcb, different]

/-! ## Counted FCBs -/

/-- An FCB is in the free list and no descriptor points to it, or it is not and
its count is the number of such descriptors. -/
structure Counted
    (kernel : Kernel limits)
    (free : List (Fin limits.maxFiles)) : Prop where
  freeList : kernel.FreeList free
  unreferenced : ∀ {fcb}, fcb ∈ free → kernel.refSet fcb = ∅
  counted : ∀ {fcb}, fcb ∉ free → 0 < (kernel.refSet fcb).card ∧
    (kernel.fcb fcb).refcount = (kernel.refSet fcb).card

/-- Every FCB of the table is free or counted. -/
def RefCounts (kernel : Kernel limits) : Prop :=
  ∃ free, kernel.Counted free

namespace Counted

variable {before after : Kernel limits}
variable {free rest : List (Fin limits.maxFiles)}
variable {cur : Fin limits.maxProc}
variable {fid : Fin limits.maxFileid}
variable {fcb : Fin limits.maxFiles}

theorem of_same
    (counted : before.Counted free)
    (fcbs : after.fcb = before.fcb)
    (freelist : after.freelist = before.freelist)
    (refs : ∀ fcb, after.refSet fcb = before.refSet fcb) :
    after.Counted free := by
  refine ⟨counted.freeList.of_same freelist, ?_, ?_⟩
  · intro fcb isFree
    rw [refs]
    exact counted.unreferenced isFree
  · intro fcb notFree
    rw [refs, fcbs]
    exact counted.counted notFree

/-- A descriptor of a process is never on a free FCB. -/
theorem not_free_of_entry
    (counted : before.Counted free)
    (notFree : before.pstate cur ≠ .free)
    (entry : before.FIDT cur fid = some fcb) :
    fcb ∉ free := by
  intro isFree
  have member : (cur, fid) ∈ before.refSet fcb :=
    mem_refSet.mpr ⟨notFree, entry⟩
  rw [counted.unreferenced isFree] at member
  exact absurd member (Finset.notMem_empty _)

/-- The first free FCB gets its first descriptor. -/
theorem of_open
    (counted : before.Counted (fcb :: rest))
    (freeList : after.FreeList rest)
    (notFree : before.pstate cur ≠ .free)
    (wasNone : before.FIDT cur fid = none)
    (set : EntrySet before after cur fid (some fcb))
    (one : (after.fcb fcb).refcount = 1)
    (others : ∀ other, other ≠ fcb → after.fcb other = before.fcb other) :
    after.Counted rest := by
  have noRefs := counted.unreferenced (List.mem_cons_self ..)
  have notRest : fcb ∉ rest :=
    (List.nodup_cons.mp counted.freeList.nodup).1
  have refs : ∀ other, other ≠ fcb →
      after.refSet other = before.refSet other := by
    intro other different
    refine set.refSet_of_ne ?_ ?_
    · exact fun same => different (Option.some.inj same).symm
    · rw [wasNone]
      simp
  refine ⟨freeList, ?_, ?_⟩
  · intro other isFree
    have different : other ≠ fcb := fun same => notRest (same ▸ isFree)
    rw [refs other different]
    exact counted.unreferenced (List.mem_cons_of_mem _ isFree)
  · intro other notFreeOther
    by_cases same : other = fcb
    · subst same
      rw [set.refSet_insert notFree, noRefs, one]
      simp
    · rw [refs other same, others other same]
      refine counted.counted ?_
      rw [List.mem_cons]
      exact fun found => found.elim same notFreeOther

/-- An FCB is taken and put back. -/
theorem of_undone
    (counted : before.Counted (fcb :: rest))
    (freeList : after.FreeList (rest ++ [fcb]))
    (refs : ∀ other, after.refSet other = before.refSet other)
    (others : ∀ other, other ≠ fcb → after.fcb other = before.fcb other) :
    after.Counted (rest ++ [fcb]) := by
  have sameMembers : ∀ {other}, other ∈ rest ++ [fcb] ↔
      other ∈ fcb :: rest := by
    intro other
    simp [or_comm]
  refine ⟨freeList, ?_, ?_⟩
  · intro other isFree
    rw [refs]
    exact counted.unreferenced (sameMembers.mp isFree)
  · intro other notFree
    have wasNotFree : other ∉ fcb :: rest :=
      fun isFree => notFree (sameMembers.mpr isFree)
    have different : other ≠ fcb := by
      rintro rfl
      exact wasNotFree (List.mem_cons_self ..)
    rw [refs, others other different]
    exact counted.counted wasNotFree

/-- `sys_Close` of an open descriptor. -/
theorem of_close
    (counted : before.Counted free)
    (notFree : before.pstate cur ≠ .free)
    (entry : before.FIDT cur fid = some fcb) :
    ∃ free', ((before.setFidt cur fid none).FCBDecref fcb).2.Counted
      free' := by
  have inUse := counted.not_free_of_entry notFree entry
  have isEntry : (cur, fid) ∈ before.refSet fcb :=
    mem_refSet.mpr ⟨notFree, entry⟩
  obtain ⟨positive, isCount⟩ := counted.counted inUse
  have set := EntrySet.setFidt before cur fid none
  have refs : ∀ other, other ≠ fcb →
      (before.setFidt cur fid none).refSet other = before.refSet other := by
    intro other different
    refine set.refSet_of_ne (by simp) ?_
    rw [entry]
    exact fun same => different (Option.some.inj same).symm
  have fewer : ((before.setFidt cur fid none).refSet fcb).card =
      (before.refSet fcb).card - 1 := by
    rw [set.refSet_erase (by simp), Finset.card_erase_of_mem isEntry]
  unfold FCBDecref
  simp only
  split_ifs with isLast
  · -- The last descriptor gives the FCB back.
    have lastCount : (before.fcb fcb).refcount - 1 = 0 := by
      simpa [modifyFcb, setFidt, modifyPcb] using isLast
    have decreased : ((before.setFidt cur fid none).modifyFcb fcb
        fun block => { block with refcount := block.refcount - 1 }).FreeList
          free := counted.freeList.of_same rfl
    refine ⟨free ++ [fcb], decreased.releaseFCB inUse, ?_, ?_⟩
    · intro other isFree
      show (before.setFidt cur fid none).refSet other = ∅
      by_cases same : other = fcb
      · subst same
        rw [← Finset.card_eq_zero, fewer]
        omega
      · rw [refs other same]
        refine counted.unreferenced ?_
        simpa [same] using isFree
    · intro other notFreeOther
      simp only [List.mem_append, List.mem_singleton, not_or] at notFreeOther
      show 0 < ((before.setFidt cur fid none).refSet other).card ∧
        ((Function.update before.fcb fcb _) other).refcount =
          ((before.setFidt cur fid none).refSet other).card
      rw [refs other notFreeOther.2, Function.update_of_ne notFreeOther.2]
      exact counted.counted notFreeOther.1
  · have moreCount : (before.fcb fcb).refcount - 1 ≠ 0 := by
      simpa [modifyFcb, setFidt, modifyPcb] using isLast
    refine ⟨free, counted.freeList.of_same rfl, ?_, ?_⟩
    · intro other isFree
      have different : other ≠ fcb := fun same => inUse (same ▸ isFree)
      show (before.setFidt cur fid none).refSet other = ∅
      rw [refs other different]
      exact counted.unreferenced isFree
    · intro other notFreeOther
      show 0 < ((before.setFidt cur fid none).refSet other).card ∧
        ((Function.update before.fcb fcb _) other).refcount =
          ((before.setFidt cur fid none).refSet other).card
      by_cases same : other = fcb
      · subst same
        rw [fewer, Function.update_self]
        show 0 < (before.refSet other).card - 1 ∧
          (before.fcb other).refcount - 1 =
            (((before.refSet other).card - 1 : Nat) : Int)
        omega
      · rw [refs other same, Function.update_of_ne same]
        exact counted.counted notFreeOther

/-- `sys_Close` keeps the counts, so an FCB it releases is open nowhere. -/
theorem sysClose
    (counted : before.Counted free)
    (isCurrent : before.currentProc = some cur)
    (notFree : before.pstate cur ≠ .free)
    (fd : Int) :
    ∃ result after, before.sysClose fd = .ok (result, after) ∧
      after.RefCounts := by
  have closes : ∃ outcome, before.sysClose fd = .ok outcome := by
    unfold Kernel.sysClose
    simp only [isCurrent]
    cases before.getStreamFcb cur fd with
    | none => exact ⟨_, rfl⟩
    | some entry => exact ⟨_, rfl⟩
  obtain ⟨⟨result, after⟩, closed⟩ := closes
  refine ⟨result, after, closed, ?_⟩
  obtain ⟨cur', isCurrent', outcome⟩ := sysClose_cases closed
  rw [isCurrent] at isCurrent'
  cases isCurrent'
  rcases outcome with unchanged | ⟨fid, fcb, -, entry, decreased⟩
  · rw [unchanged]
    exact ⟨free, counted⟩
  · rw [decreased]
    exact counted.of_close notFree entry

/-- `open_stream` keeps the counts, and the FCB it hands out is not in use. -/
theorem openStream
    (counted : before.Counted free)
    (isCurrent : before.currentProc = some cur)
    (notFree : before.pstate cur ≠ .free)
    (major : DeviceType)
    (minor : Nat) :
    ∃ result after, before.openStream major minor = .ok (result, after) ∧
      after.RefCounts ∧
      ∀ fid, result = some fid → ∃ fcb, after.FIDT cur fid = some fcb ∧
        before.refSet fcb = ∅ := by
  obtain ⟨result, after, opened, outcome, -⟩ :=
    counted.freeList.openStream isCurrent major minor
  refine ⟨result, after, opened, ?_, ?_⟩
  · cases outcome with
    | refused => exact ⟨free, counted⟩
    | undone freeList pstate FIDT others =>
        have refs : ∀ fcb, after.refSet fcb = before.refSet fcb :=
          refSet_congr fun pid fid fcb => by rw [pstate, FIDT]
        exact ⟨_, counted.of_undone freeList refs others⟩
    | opened freeList wasNone set one others =>
        exact ⟨_, counted.of_open freeList notFree wasNone set one others⟩
  · rintro fid rfl
    cases outcome with
    | opened freeList wasNone set one others =>
        exact ⟨_, set.FIDT_self, counted.unreferenced (List.mem_cons_self ..)⟩

end Counted

/-! ## FCBs lent to processes -/

/-- An FCB outside the free list is counted once and open in one of the given
processes.  Further processes may have copies of the descriptor. -/
structure Lent
    (kernel : Kernel limits)
    (holder : Fin limits.maxProc → Prop)
    (free : List (Fin limits.maxFiles)) : Prop where
  freeList : kernel.FreeList free
  one : ∀ {fcb}, fcb ∉ free → (kernel.fcb fcb).refcount = 1
  held : ∀ {fcb}, fcb ∉ free →
    ∃ pid fid, holder pid ∧ kernel.FIDT pid fid = some fcb

namespace Lent

variable {before after : Kernel limits}
variable {holder : Fin limits.maxProc → Prop}
variable {free : List (Fin limits.maxFiles)}
variable {cur : Fin limits.maxProc}
variable {fid : Fin limits.maxFileid}
variable {fcb : Fin limits.maxFiles}

/-- The holders may change as long as each FCB in use keeps one. -/
theorem of_same
    {newHolder : Fin limits.maxProc → Prop}
    (lent : before.Lent holder free)
    (fcbs : after.fcb = before.fcb)
    (freelist : after.freelist = before.freelist)
    (keeps : ∀ {pid fid fcb}, fcb ∉ free → holder pid →
      before.FIDT pid fid = some fcb →
        ∃ pid fid, newHolder pid ∧ after.FIDT pid fid = some fcb) :
    after.Lent newHolder free := by
  refine ⟨lent.freeList.of_same freelist, ?_, ?_⟩
  · intro fcb inUse
    rw [fcbs]
    exact lent.one inUse
  · intro fcb inUse
    obtain ⟨pid, fid, isHolder, entry⟩ := lent.held inUse
    exact keeps inUse isHolder entry

/-- An FCB other than that of a changed descriptor keeps its holder. -/
theorem held_of_set
    {entry : Option (Fin limits.maxFiles)}
    {other : Fin limits.maxFiles}
    (lent : before.Lent holder free)
    (set : EntrySet before after cur fid entry)
    (inUse : other ∉ free)
    (wasOther : before.FIDT cur fid ≠ some other) :
    ∃ pid fid, holder pid ∧ after.FIDT pid fid = some other := by
  obtain ⟨pid, otherFid, isHolder, isEntry⟩ := lent.held inUse
  refine ⟨pid, otherFid, isHolder, ?_⟩
  have different : (pid, otherFid) ≠ (cur, fid) := by
    rintro same
    cases same
    exact wasOther isEntry
  rw [← isEntry]
  exact set.FIDT_of_ne different

/-- `open_stream` by a holder. -/
theorem openStream
    (lent : before.Lent holder free)
    (isCurrent : before.currentProc = some cur)
    (isHolder : holder cur)
    (major : DeviceType)
    (minor : Nat) :
    ∃ result after again, before.openStream major minor =
      .ok (result, after) ∧ after.Lent holder again := by
  obtain ⟨result, after, opened, outcome, -⟩ :=
    lent.freeList.openStream isCurrent major minor
  refine ⟨result, after, ?_⟩
  cases outcome with
  | refused => exact ⟨free, opened, lent⟩
  | @undone fcb rest after freeList pstate FIDT others =>
      have sameMembers : ∀ {other}, other ∉ rest ++ [fcb] →
          other ∉ fcb :: rest ∧ other ≠ fcb := by
        intro other
        simp only [List.mem_append, List.mem_cons, List.not_mem_nil]
        tauto
      refine ⟨rest ++ [fcb], opened, freeList, ?_, ?_⟩
      · intro other notFree
        rw [others other (sameMembers notFree).2]
        exact lent.one (sameMembers notFree).1
      · intro other notFree
        rw [FIDT]
        exact lent.held (sameMembers notFree).1
  | @opened fid fcb rest after freeList wasNone set one others =>
      refine ⟨rest, opened, freeList, ?_, ?_⟩
      · intro other notFree
        by_cases same : other = fcb
        · rw [same]
          exact one
        · rw [others other same]
          exact lent.one (by simp [same, notFree])
      · intro other notFree
        by_cases same : other = fcb
        · rw [same]
          exact ⟨cur, fid, isHolder, set.FIDT_self⟩
        · refine lent.held_of_set set (by simp [same, notFree]) ?_
          rw [wasNone]
          simp

/-- A descriptor is closed whose FCB is in use or does not reach zero. -/
theorem of_close
    (lent : before.Lent holder free)
    (entry : before.FIDT cur fid = some fcb)
    (once : (before.fcb fcb).refcount = 1 → fcb ∉ free) :
    ∃ again, ((before.setFidt cur fid none).FCBDecref fcb).2.Lent holder
      again := by
  have held : ∀ {other}, other ∉ free → other ≠ fcb → ∃ pid fid',
      holder pid ∧ (before.setFidt cur fid none).FIDT pid fid' =
        some other := by
    intro other inUse different
    refine lent.held_of_set (EntrySet.setFidt before cur fid none) inUse ?_
    rw [entry]
    exact fun same => different (Option.some.inj same).symm
  have others : ∀ {other} (block : FCB), other ∉ free → other ≠ fcb →
      (Function.update before.fcb fcb block other).refcount = 1 := by
    intro other block inUse different
    rw [Function.update_of_ne different]
    exact lent.one inUse
  unfold FCBDecref
  simp only
  split_ifs with isLast
  · have wasOne : (before.fcb fcb).refcount = 1 := by
      have lastCount : (before.fcb fcb).refcount - 1 = 0 := by
        simpa [modifyFcb, setFidt, modifyPcb] using isLast
      omega
    have decreased : ((before.setFidt cur fid none).modifyFcb fcb
        fun block => { block with refcount := block.refcount - 1 }).FreeList
          free := lent.freeList.of_same rfl
    refine ⟨free ++ [fcb], decreased.releaseFCB (once wasOne), ?_, ?_⟩
    · intro other notFree
      simp only [List.mem_append, List.mem_singleton, not_or] at notFree
      exact others _ notFree.1 notFree.2
    · intro other notFree
      simp only [List.mem_append, List.mem_singleton, not_or] at notFree
      exact held notFree.1 notFree.2
  · -- The FCB has been given back before, as one in use is counted once.
    have notOne : (before.fcb fcb).refcount ≠ 1 := by
      have moreCount : (before.fcb fcb).refcount - 1 ≠ 0 := by
        simpa [modifyFcb, setFidt, modifyPcb] using isLast
      omega
    have isFree : fcb ∈ free := by
      by_contra inUse
      exact notOne (lent.one inUse)
    have different : ∀ {other}, other ∉ free → other ≠ fcb := by
      rintro other inUse rfl
      exact inUse isFree
    refine ⟨free, lent.freeList.of_same rfl, ?_, ?_⟩
    · intro other inUse
      exact others _ inUse (different inUse)
    · intro other inUse
      exact held inUse (different inUse)

/-- `sys_Close` that does not release a free FCB. -/
theorem sysClose
    {fd result : Int}
    (lent : before.Lent holder free)
    (isCurrent : before.currentProc = some cur)
    (closed : before.sysClose fd = .ok (result, after))
    (once : ∀ {fid fcb}, (fid.val : Int) = fd →
      before.FIDT cur fid = some fcb → (before.fcb fcb).refcount = 1 →
        fcb ∉ free) :
    ∃ again, after.Lent holder again := by
  obtain ⟨cur', isCurrent', outcome⟩ := sysClose_cases closed
  rw [isCurrent] at isCurrent'
  cases isCurrent'
  rcases outcome with unchanged | ⟨fid, fcb, isFid, entry, decreased⟩
  · rw [unchanged]
    exact ⟨free, lent⟩
  · rw [decreased]
    exact lent.of_close entry (once isFid entry)

end Lent

/-! ## `initialize_files` -/

/-- The FCBs that the loop has reached are in the list. -/
structure FilesLinked
    (kernel : Kernel limits)
    (done : List (Fin limits.maxFiles)) : Prop where
  represents : (fcbLayout limits).Represents kernel.freelist.links
    (fun _ => done) fun fcb => fcb ∈ done
  key : ∀ fcb ∈ done, (kernel.freelist (.node fcb)).obj = some fcb

theorem FilesLinked.foldl
    {kernel : Kernel limits}
    {files done : List (Fin limits.maxFiles)}
    (linked : kernel.FilesLinked done)
    (nodup : (done ++ files).Nodup) :
    (files.foldl (fun kernel fcb =>
      ({ kernel.modifyFcb fcb fun block => { block with refcount := 0 } with
        freelist := (kernel.freelist.rlnodeInit (.node fcb)
          (some fcb)).rlistPushBack .freelist (.node fcb) } : Kernel limits))
      kernel).FilesLinked (done ++ files) := by
  induction files generalizing kernel done with
  | nil => simpa using linked
  | cons fcb rest inductionHypothesis =>
      have unlisted : fcb ∉ done := by
        intro member
        exact (List.nodup_append.mp nodup).2.2 fcb member fcb
          (List.mem_cons_self ..) rfl
      have pushed := (linked.represents.single fun _ => unlisted).push_back
        (.inl rfl) (fun _ => unlisted) ()
      rw [show Function.update (fun _ : Unit => done) () (done ++ [fcb]) =
        fun _ => done ++ [fcb] from funext fun _ => rfl] at pushed
      rw [List.append_cons] at nodup ⊢
      refine inductionHypothesis ⟨?_, ?_⟩ nodup
      · have live : (fun other => other ∈ done ++ [fcb]) =
            fun other => other = fcb ∨ other ∈ done := by
          funext other
          simp [or_comm]
        rw [live]
        show (fcbLayout limits).Represents ((kernel.freelist.rlnodeInit
          (.node fcb) (some fcb)).rlistPushBack .freelist (.node fcb)).links
            _ _
        rw [RlHeap.rlistPushBack_links, RlHeap.rlnodeInit_links]
        exact pushed
      · intro other member
        show ((kernel.freelist.rlnodeInit (.node fcb)
          (some fcb)).rlistPushBack .freelist (.node fcb)
            (.node other)).obj = some other
        rw [RlHeap.rlistPushBack_obj]
        by_cases same : other = fcb
        · rw [same, RlHeap.rlnodeInit_obj_self]
        · rw [RlHeap.rlnodeInit_of_ne (by simpa using same)]
          refine linked.key other ?_
          simpa [same] using member

/-- `initialize_files` puts all FCBs in the free list. -/
theorem initializeFiles_freeList (kernel : Kernel limits) :
    kernel.initializeFiles.FreeList (List.finRange limits.maxFiles) := by
  have empty : ({ kernel with
      freelist := kernel.freelist.rlnodeInit .freelist none } :
        Kernel limits).FilesLinked [] := by
    refine ⟨?_, fun _ member => absurd member List.not_mem_nil⟩
    show (fcbLayout limits).Represents
      (kernel.freelist.rlnodeInit .freelist none).links _ _
    rw [RlHeap.rlnodeInit_links]
    refine Layout.Represents.of_singletons ?_ ?_
    · intro _
      exact Links.isRing_nil.mp (Links.single_isRing _ _)
    · exact fun _ member => absurd member List.not_mem_nil
  have linked : kernel.initializeFiles.FilesLinked
      ([] ++ List.finRange limits.maxFiles) :=
    empty.foldl (List.nodup_finRange _)
  exact ⟨linked.represents.weaken
    (fun fcb _ => List.mem_finRange fcb) (fun _ => trivial),
    fun fcb => linked.key fcb (List.mem_finRange fcb)⟩

/-- Before the first process no descriptor is in use. -/
theorem counted_initializeFiles
    {kernel : Kernel limits}
    (closed : ∀ pid fid, kernel.initializeFiles.FIDT pid fid = none) :
    kernel.initializeFiles.Counted (List.finRange limits.maxFiles) := by
  refine ⟨kernel.initializeFiles_freeList, ?_, ?_⟩
  · intro fcb _
    ext entry
    simp [mem_refSet, closed]
  · exact fun notFree => absurd (List.mem_finRange _) notFree

end Kernel
end TinierOS
