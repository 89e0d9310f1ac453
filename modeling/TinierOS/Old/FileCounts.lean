import TinierOS.Old.FileTable
import TinierOS.Streams.Refcount
import TinierOS.Library.Counting
import Mathlib.Data.Fintype.Prod

/-!
# Reference counts in the old file table

An FCB is free or has as many references as it counts.  Each stream is open at
one FCB with references or has been closed, once.
-/

namespace TinierOS

variable {limits : Limits}

/-- `FCB_freelist` holds the given FCBs, each once. -/
structure FreeFcbs
    (heap : RlHeap (FcbNode limits) (Option (Fin limits.maxFiles)))
    (frees : List (Fin limits.maxFiles)) : Prop where
  represents : (fcbLayout limits).Represents heap.links (fun _ => frees)
    fun _ => True
  key : ∀ fcb, (heap (.node fcb)).obj = some fcb

namespace FreeFcbs

variable {heap : RlHeap (FcbNode limits) (Option (Fin limits.maxFiles))}
variable {frees : List (Fin limits.maxFiles)}
variable {fcb : Fin limits.maxFiles}

theorem nodup (free : FreeFcbs heap frees) : frees.Nodup :=
  free.represents.nodup ()

theorem isRlistEmpty_iff (free : FreeFcbs heap frees) :
    heap.isRlistEmpty .freelist = true ↔ frees = [] :=
  RlHeap.isRlistEmpty_iff free.represents ()

/-- The first free FCB is taken. -/
theorem pop
    (free : FreeFcbs heap (fcb :: frees)) :
    (heap.rlistPopFront .freelist).1 = .node fcb ∧
      FreeFcbs (heap.rlistPopFront .freelist).2 frees := by
  have isFirst : (heap.rlistPopFront .freelist).1 = .node fcb :=
    (free.represents.ring ()).next_head
  refine ⟨isFirst, ?_, ?_⟩
  · have shorter : (fcbLayout limits).Represents
        (heap.links.splice .freelist (heap.links.next .freelist))
        (Function.update (fun _ => fcb :: frees) () frees) fun _ => True :=
      free.represents.pop_front rfl
    rw [RlHeap.rlistPopFront_links]
    have same : Function.update (fun _ : Unit => fcb :: frees) () frees =
        fun _ => frees := by
      funext place
      rfl
    rw [same] at shorter
    exact shorter
  · intro other
    rw [RlHeap.rlistPopFront_obj]
    exact free.key other

/-- An FCB is put at the end. -/
theorem push
    (free : FreeFcbs heap frees)
    (notFree : fcb ∉ frees) :
    FreeFcbs (heap.rlistPushBack .freelist (.node fcb)) (frees ++ [fcb]) := by
  constructor
  · have longer := free.represents.push_back trivial (fun _ => notFree) ()
    have same : Function.update (fun _ : Unit => frees) () (frees ++ [fcb]) =
        fun _ => frees ++ [fcb] := by
      funext place
      rfl
    rw [same] at longer
    rw [RlHeap.rlistPushBack_links]
    exact longer
  · intro other
    rw [RlHeap.rlistPushBack_obj]
    exact free.key other

end FreeFcbs

namespace FileTable

/-- The free FCBs, and the counts of the others. -/
structure Counts
    (files : FileTable limits)
    (refs : Fin limits.maxFiles → Nat)
    (frees : List (Fin limits.maxFiles)) : Prop where
  free : FreeFcbs files.freelist frees
  refcount : ∀ {fcb}, fcb ∉ frees → (files.fcb fcb).refcount = refs fcb
  unused : ∀ {fcb}, fcb ∈ frees → refs fcb = 0

/-- Every stream that has been opened is open at one of the FCBs that are used,
or has been closed once. -/
structure Streams
    (files : FileTable limits)
    (used : Fin limits.maxFiles → Prop) : Prop where
  bound : ∀ {fcb}, used fcb → (files.fcb fcb).stream < files.opened
  distinct : ∀ {first second}, used first → used second →
    (files.fcb first).stream = (files.fcb second).stream → first = second
  nodup : files.closed.Nodup
  closed : ∀ {stream}, stream ∈ files.closed ↔ stream < files.opened ∧
    ∀ fcb, used fcb → (files.fcb fcb).stream ≠ stream

/-- FCBs without references are free, and the others have an open stream. -/
def Sound
    (files : FileTable limits)
    (refs : Fin limits.maxFiles → Nat) : Prop :=
  ∃ frees, files.Counts refs frees ∧ (∀ fcb, refs fcb = 0 → fcb ∈ frees) ∧
    files.Streams fun fcb => refs fcb ≠ 0

/-- The number of descriptors that point to an FCB. -/
def held (files : FileTable limits) (fcb : Fin limits.maxFiles) : Nat :=
  countWhere (fun entry => decide (entry = some fcb)) files.fidt

variable {files : FileTable limits}
variable {refs : Fin limits.maxFiles → Nat}
variable {frees : List (Fin limits.maxFiles)}
variable {fcb : Fin limits.maxFiles}

/-! ## References -/

theorem Counts.incref
    (counts : files.Counts refs frees)
    (notFree : fcb ∉ frees) :
    (files.FCBIncref fcb).Counts (Function.update refs fcb (refs fcb + 1))
      frees where
  free := counts.free
  refcount := by
    intro other otherUsed
    by_cases same : other = fcb
    · subst same
      simp [FCBIncref, modifyFcb, counts.refcount otherUsed]
    · simp [FCBIncref, modifyFcb, same, counts.refcount otherUsed]
  unused := by
    intro other isFree
    rw [Function.update_of_ne]
    · exact counts.unused isFree
    · rintro rfl
      exact notFree isFree

theorem FCBIncref_stream
    (files : FileTable limits)
    (fcb other : Fin limits.maxFiles) :
    ((files.FCBIncref fcb).fcb other).stream = (files.fcb other).stream := by
  by_cases same : other = fcb
  · subst same
    simp [FCBIncref, modifyFcb]
  · simp [FCBIncref, modifyFcb, same]

/-- The same FCBs are used, with the same streams. -/
theorem Streams.of_same
    {after : FileTable limits}
    {used usedAfter : Fin limits.maxFiles → Prop}
    (streams : files.Streams used)
    (isUsed : ∀ fcb, usedAfter fcb ↔ used fcb)
    (stream : ∀ fcb, used fcb → (after.fcb fcb).stream = (files.fcb fcb).stream)
    (opened : after.opened = files.opened)
    (closed : after.closed = files.closed) :
    after.Streams usedAfter where
  bound := by
    intro fcb isUsedAfter
    have wasUsed := (isUsed fcb).mp isUsedAfter
    rw [stream fcb wasUsed, opened]
    exact streams.bound wasUsed
  distinct := by
    intro first second firstUsed secondUsed same
    have firstWas := (isUsed first).mp firstUsed
    have secondWas := (isUsed second).mp secondUsed
    rw [stream first firstWas, stream second secondWas] at same
    exact streams.distinct firstWas secondWas same
  nodup := by
    rw [closed]
    exact streams.nodup
  closed := by
    intro number
    rw [closed, opened, streams.closed]
    refine and_congr_right fun _ => ?_
    constructor
    · intro apart fcb isUsedAfter
      have wasUsed := (isUsed fcb).mp isUsedAfter
      rw [stream fcb wasUsed]
      exact apart fcb wasUsed
    · intro apart fcb wasUsed
      rw [← stream fcb wasUsed]
      exact apart fcb ((isUsed fcb).mpr wasUsed)

/-- `FCB_incref` -/
theorem Sound.incref
    (sound : files.Sound refs)
    (isUsed : refs fcb ≠ 0) :
    (files.FCBIncref fcb).Sound (Function.update refs fcb (refs fcb + 1)) := by
  obtain ⟨frees, counts, noLeak, streams⟩ := sound
  have notFree : fcb ∉ frees := fun isFree => isUsed (counts.unused isFree)
  refine ⟨frees, counts.incref notFree, ?_, ?_⟩
  · intro other isZero
    apply noLeak
    by_cases same : other = fcb
    · subst same
      simp at isZero
    · rwa [Function.update_of_ne same] at isZero
  · refine streams.of_same ?_ (fun other _ => FCBIncref_stream files fcb other)
      rfl rfl
    intro other
    by_cases same : other = fcb
    · subst same
      simp [isUsed]
    · simp [same]

/-- The last stream of an FCB is closed. -/
theorem Streams.close
    {used : Fin limits.maxFiles → Prop}
    (streams : files.Streams used)
    (isUsed : used fcb) :
    ({ files with closed := (files.fcb fcb).stream :: files.closed } :
      FileTable limits).Streams fun other => other ≠ fcb ∧ used other where
  bound := fun isUsed => streams.bound isUsed.2
  distinct := fun first second => streams.distinct first.2 second.2
  nodup := by
    refine List.nodup_cons.mpr ⟨?_, streams.nodup⟩
    intro member
    exact (streams.closed.mp member).2 fcb isUsed rfl
  closed := by
    intro number
    rw [List.mem_cons, streams.closed]
    constructor
    · rintro (rfl | ⟨inRange, apart⟩)
      · refine ⟨streams.bound isUsed, ?_⟩
        rintro other ⟨different, otherUsed⟩ same
        exact different (streams.distinct otherUsed isUsed same)
      · exact ⟨inRange, fun other otherUsed => apart other otherUsed.2⟩
    · rintro ⟨inRange, apart⟩
      by_cases same : number = (files.fcb fcb).stream
      · exact .inl same
      · refine .inr ⟨inRange, ?_⟩
        intro other otherUsed equal
        by_cases isFcb : other = fcb
        · subst isFcb
          exact same equal.symm
        · exact apart other ⟨isFcb, otherUsed⟩ equal

/-- `FCB_decref` -/
theorem Sound.decref
    (sound : files.Sound refs)
    (isUsed : refs fcb ≠ 0) :
    (files.FCBDecref fcb).Sound (Function.update refs fcb (refs fcb - 1)) := by
  obtain ⟨frees, counts, noLeak, streams⟩ := sound
  have notFree : fcb ∉ frees := fun isFree => isUsed (counts.unused isFree)
  have count : (files.fcb fcb).refcount = refs fcb := counts.refcount notFree
  have stream : ∀ other, ((files.modifyFcb fcb fun block =>
      { block with refcount := block.refcount - 1 }).fcb other).stream =
        (files.fcb other).stream := by
    intro other
    by_cases same : other = fcb
    · subst same
      simp [modifyFcb]
    · simp [modifyFcb, same]
  have lower : ∀ {other}, other ∉ frees → ((files.modifyFcb fcb fun block =>
      { block with refcount := block.refcount - 1 }).fcb other).refcount =
        Function.update refs fcb (refs fcb - 1) other := by
    intro other otherUsed
    by_cases same : other = fcb
    · subst same
      simp only [modifyFcb, Function.update_self, count]
      omega
    · simp [modifyFcb, same, counts.refcount otherUsed]
  have isLast : ((files.modifyFcb fcb fun block =>
      { block with refcount := block.refcount - 1 }).fcb fcb).refcount = 0 ↔
        refs fcb = 1 := by
    rw [lower notFree, Function.update_self]
    omega
  unfold FCBDecref
  simp only
  by_cases last : refs fcb = 1
  · rw [if_pos (isLast.mpr last)]
    refine ⟨frees ++ [fcb], ⟨counts.free.push notFree, ?_, ?_⟩, ?_, ?_⟩
    · intro other otherUsed
      exact lower fun isFree => otherUsed (List.mem_append_left _ isFree)
    · intro other isFree
      rcases List.mem_append.mp isFree with wasFree | isNew
      · rw [Function.update_of_ne]
        · exact counts.unused wasFree
        · rintro rfl
          exact notFree wasFree
      · rw [List.mem_singleton.mp isNew, Function.update_self, last]
    · intro other isZero
      by_cases same : other = fcb
      · rw [same]
        exact List.mem_append_right _ (List.mem_singleton_self fcb)
      · rw [Function.update_of_ne same] at isZero
        exact List.mem_append_left _ (noLeak other isZero)
    · refine (streams.close isUsed).of_same ?_ (fun other _ => stream other) rfl
        ?_
      · intro other
        by_cases same : other = fcb
        · subst same
          simp [last]
        · simp [same]
      · show ((files.modifyFcb fcb _).fcb fcb).stream :: files.closed = _
        rw [stream]
  · rw [if_neg (isLast.not.mpr last)]
    refine ⟨frees, ⟨counts.free, lower, ?_⟩, ?_, ?_⟩
    · intro other isFree
      rw [Function.update_of_ne]
      · exact counts.unused isFree
      · rintro rfl
        exact notFree isFree
    · intro other isZero
      apply noLeak
      by_cases same : other = fcb
      · subst same
        rw [Function.update_self] at isZero
        omega
      · rwa [Function.update_of_ne same] at isZero
    · refine streams.of_same ?_ (fun other _ => stream other) rfl rfl
      intro other
      by_cases same : other = fcb
      · subst same
        rw [Function.update_self]
        omega
      · rw [Function.update_of_ne same]

/-! ## Descriptors -/

/-- One more descriptor points to the FCB. -/
theorem held_setFidt_some
    {place : Fin limits.maxProc × Fin limits.maxFileid}
    (isNull : files.fidt place = none)
    (fcb : Fin limits.maxFiles) :
    (files.setFidt place (some fcb)).held =
      Function.update files.held fcb (files.held fcb + 1) := by
  funext other
  have updated := countWhere_update (fun entry => decide (entry = some other))
    files.fidt place (some fcb)
  by_cases same : other = fcb
  · subst same
    simpa [held, setFidt, isNull] using updated
  · simpa [held, setFidt, isNull, same, Ne.symm same] using updated

/-- One descriptor less points to the FCB. -/
theorem held_setFidt_none
    {place : Fin limits.maxProc × Fin limits.maxFileid}
    (isEntry : files.fidt place = some fcb) :
    (files.setFidt place none).held =
        Function.update files.held fcb (files.held fcb - 1) ∧
      files.held fcb ≠ 0 := by
  have points : decide (files.fidt place = some fcb) = true := by
    simp [isEntry]
  have positive : 0 < files.held fcb := countWhere_pos_of points
  refine ⟨?_, Nat.ne_of_gt positive⟩
  funext other
  have updated := countWhere_update (fun entry => decide (entry = some other))
    files.fidt place none
  by_cases same : other = fcb
  · subst same
    simp only [isEntry, decide_true, if_true, reduceCtorEq, decide_false,
      Bool.false_eq_true, if_false, Nat.add_zero] at updated
    rw [Function.update_self]
    show countWhere _ (Function.update files.fidt place none) =
      countWhere _ files.fidt - 1
    omega
  · simpa [held, setFidt, isEntry, same, Ne.symm same] using updated

end FileTable
end TinierOS
