import TinierOS.Old.FileCounts
import TinierOS.Streams.Reserve

/-!
# Opening streams in the old kernel

`FCB_reserve` takes any number of descriptors and FCBs or none at all.  Opening
streams keeps the counts, also when it fails.
-/

namespace TinierOS

variable {limits : Limits}

namespace FileTable

variable {files : FileTable limits}
variable {refs : Fin limits.maxFiles → Nat}
variable {frees : List (Fin limits.maxFiles)}
variable {fcb : Fin limits.maxFiles}

/-- What reserving and giving back leave alone. -/
structure SameStreams (before after : FileTable limits) : Prop where
  stream : ∀ fcb, (after.fcb fcb).stream = (before.fcb fcb).stream
  opened : after.opened = before.opened
  closed : after.closed = before.closed

theorem SameStreams.trans
    {before middle after : FileTable limits}
    (first : SameStreams before middle)
    (second : SameStreams middle after) :
    SameStreams before after :=
  ⟨fun fcb => (second.stream fcb).trans (first.stream fcb),
    second.opened.trans first.opened, second.closed.trans first.closed⟩

/-- `acquire_FCB` takes the first free FCB. -/
theorem Counts.acquireFCB
    (counts : files.Counts refs (fcb :: frees)) :
    ∃ after, files.acquireFCB = .ok (some fcb, after) ∧
      after.Counts refs frees ∧ after.fidt = files.fidt ∧
        SameStreams files after := by
  obtain ⟨isFirst, shorter⟩ := counts.free.pop
  have notEmpty : ¬files.freelist.isRlistEmpty .freelist = true := by
    rw [counts.free.isRlistEmpty_iff]
    simp
  have key : ((files.freelist.rlistPopFront .freelist).2
      (files.freelist.rlistPopFront .freelist).1).obj = some fcb := by
    rw [isFirst]
    exact shorter.key fcb
  refine ⟨({ files with
      freelist := (files.freelist.rlistPopFront .freelist).2 } :
        FileTable limits).modifyFcb fcb fun block =>
          { block with refcount := 0 }, ?_, ⟨shorter, ?_, ?_⟩, rfl, ?_, rfl, rfl⟩
  · rw [FileTable.acquireFCB, if_neg notEmpty]
    simp only [key]
  · intro other otherUsed
    by_cases same : other = fcb
    · subst same
      have isZero := counts.unused (List.mem_cons_self ..)
      simp [modifyFcb, isZero]
    · simp only [modifyFcb, ne_eq, same, not_false_eq_true,
        Function.update_of_ne]
      exact counts.refcount (by simp [same, otherUsed])
  · intro other isFree
    exact counts.unused (List.mem_cons_of_mem _ isFree)
  · intro other
    by_cases same : other = fcb
    · subst same
      simp [modifyFcb]
    · simp [modifyFcb, same]

/-- The second loop of `FCB_reserve` takes FCBs from the front of the free
list. -/
theorem Counts.acquireFCBs
    (counts : files.Counts refs frees)
    (num : Nat) :
    ∃ after, acquireFCBs num files = .ok (frees.take num, after) ∧
      after.Counts refs (frees.drop num) ∧ after.fidt = files.fidt ∧
        SameStreams files after := by
  induction num generalizing files frees with
  | zero => exact ⟨files, rfl, counts, rfl, fun _ => rfl, rfl, rfl⟩
  | succ num inductionHypothesis =>
      cases frees with
      | nil =>
          have none : files.acquireFCB = .ok (none, files) := by
            rw [FileTable.acquireFCB,
              if_pos (counts.free.isRlistEmpty_iff.mpr rfl)]
          refine ⟨files, ?_, counts, rfl, fun _ => rfl, rfl, rfl⟩
          rw [FileTable.acquireFCBs, none]
          rfl
      | cons first rest =>
          obtain ⟨middle, taken, middleCounts, middleFidt, middleSame⟩ :=
            counts.acquireFCB
          obtain ⟨after, ran, afterCounts, afterFidt, afterSame⟩ :=
            inductionHypothesis middleCounts
          refine ⟨after, ?_, afterCounts, afterFidt.trans middleFidt,
            middleSame.trans afterSame⟩
          rw [FileTable.acquireFCBs, taken]
          simp only [bind, Except.bind, ran]
          rfl

/-- `release_FCB` -/
theorem Counts.releaseFCB
    (counts : files.Counts refs frees)
    (notFree : fcb ∉ frees) :
    (files.releaseFCB fcb).Counts (Function.update refs fcb 0)
      (frees ++ [fcb]) where
  free := counts.free.push notFree
  refcount := by
    intro other otherUsed
    have different : other ≠ fcb := by
      rintro rfl
      exact otherUsed (List.mem_append_right _ (List.mem_singleton_self _))
    rw [Function.update_of_ne different]
    exact counts.refcount fun isFree =>
      otherUsed (List.mem_append_left _ isFree)
  unused := by
    intro other isFree
    rcases List.mem_append.mp isFree with wasFree | isNew
    · rw [Function.update_of_ne]
      · exact counts.unused wasFree
      · rintro rfl
        exact notFree wasFree
    · rw [List.mem_singleton.mp isNew, Function.update_self]

/-- The rollback of `FCB_reserve`. -/
theorem Counts.releaseFCBs
    {fcbs : List (Fin limits.maxFiles)}
    (counts : files.Counts refs frees)
    (nodup : (frees ++ fcbs).Nodup)
    (unused : ∀ fcb ∈ fcbs, refs fcb = 0) :
    (fcbs.foldl FileTable.releaseFCB files).Counts refs (frees ++ fcbs) ∧
      (fcbs.foldl FileTable.releaseFCB files).fidt = files.fidt ∧
        SameStreams files (fcbs.foldl FileTable.releaseFCB files) := by
  induction fcbs generalizing files frees with
  | nil =>
      rw [List.append_nil]
      exact ⟨counts, rfl, fun _ => rfl, rfl, rfl⟩
  | cons fcb fcbs inductionHypothesis =>
      have notFree : fcb ∉ frees := fun member =>
        (List.nodup_append.mp nodup).2.2 fcb member fcb
          (List.mem_cons_self ..) rfl
      have released := counts.releaseFCB notFree
      have isZero := unused fcb (List.mem_cons_self ..)
      have same : Function.update refs fcb 0 = refs := by
        rw [← isZero]
        exact Function.update_eq_self fcb refs
      rw [same] at released
      rw [List.append_cons] at nodup ⊢
      obtain ⟨afterCounts, afterFidt, afterSame⟩ := inductionHypothesis released
        nodup fun other member => unused other (List.mem_cons_of_mem _ member)
      have first : SameStreams files (files.releaseFCB fcb) :=
        ⟨fun _ => rfl, rfl, rfl⟩
      exact ⟨afterCounts, afterFidt, first.trans afterSame⟩

/-- What the third loop of `FCB_reserve` leaves. -/
structure Installed
    (before after : FileTable limits)
    (cur : Fin limits.maxProc)
    (fids : List (Fin limits.maxFileid))
    (fcbs : List (Fin limits.maxFiles)) : Prop where
  held : after.held = fun fcb => before.held fcb + fcbs.count fcb
  same : SameStreams before after
  entries : ∀ entry ∈ fids.zip fcbs, after.fidt (cur, entry.1) = some entry.2
  others : ∀ place : Fin limits.maxProc × Fin limits.maxFileid,
    place.1 ≠ cur ∨ place.2 ∉ fids → after.fidt place = before.fidt place

theorem Counts.installFCBs
    {cur : Fin limits.maxProc}
    {fids : List (Fin limits.maxFileid)}
    {fcbs : List (Fin limits.maxFiles)}
    (counts : files.Counts refs frees)
    (lengths : fids.length = fcbs.length)
    (nodup : fids.Nodup)
    (isNull : ∀ fid ∈ fids, files.fidt (cur, fid) = none)
    (taken : ∀ fcb ∈ fcbs, fcb ∉ frees) :
    (installFCBs cur fids fcbs files).Counts
        (fun fcb => refs fcb + fcbs.count fcb) frees ∧
      Installed files (installFCBs cur fids fcbs files) cur fids fcbs := by
  induction fids generalizing fcbs files refs with
  | nil =>
      cases fcbs with
      | cons fcb fcbs => cases lengths
      | nil =>
          exact ⟨counts, rfl, ⟨fun _ => rfl, rfl, rfl⟩,
            fun _ member => absurd member List.not_mem_nil, fun _ _ => rfl⟩
  | cons fid fids inductionHypothesis =>
      cases fcbs with
      | nil => cases lengths
      | cons fcb fcbs =>
          obtain ⟨notLater, laterNodup⟩ := List.nodup_cons.mp nodup
          have increased : ((files.setFidt (cur, fid) (some fcb)).FCBIncref
              fcb).Counts (Function.update refs fcb (refs fcb + 1)) frees :=
            Counts.incref ⟨counts.free, counts.refcount, counts.unused⟩
              (taken fcb (List.mem_cons_self ..))
          have stillNull : ∀ other ∈ fids, ((files.setFidt (cur, fid)
              (some fcb)).FCBIncref fcb).fidt (cur, other) = none := by
            intro other member
            show Function.update files.fidt (cur, fid) (some fcb) (cur, other) =
              none
            rw [Function.update_of_ne]
            · exact isNull other (List.mem_cons_of_mem _ member)
            · intro equal
              rw [(Prod.mk.inj equal).2] at member
              exact notLater member
          obtain ⟨afterCounts, installed⟩ := inductionHypothesis increased
            (Nat.succ.inj lengths) laterNodup stillNull
            fun other member => taken other (List.mem_cons_of_mem _ member)
          have countCons : ∀ (base : Fin limits.maxFiles → Nat) other,
              Function.update base fcb (base fcb + 1) other + fcbs.count other =
                base other + (fcb :: fcbs).count other := by
            intro base other
            by_cases same : other = fcb
            · subst same
              rw [Function.update_self, List.count_cons_self]
              omega
            · rw [Function.update_of_ne same, List.count_cons_of_ne
                (Ne.symm same)]
          refine ⟨?_, ?_, ?_, ?_, ?_⟩
          · simp only [countCons refs] at afterCounts
            exact afterCounts
          · have grown := installed.held
            rw [show ((files.setFidt (cur, fid) (some fcb)).FCBIncref fcb).held =
              (files.setFidt (cur, fid) (some fcb)).held from rfl,
              held_setFidt_some (isNull fid (List.mem_cons_self ..))] at grown
            simp only [countCons files.held] at grown
            exact grown
          · have first : SameStreams files ((files.setFidt (cur, fid)
                (some fcb)).FCBIncref fcb) :=
              ⟨FCBIncref_stream _ fcb, rfl, rfl⟩
            exact first.trans installed.same
          · intro entry member
            rw [List.zip_cons_cons] at member
            rcases List.mem_cons.mp member with rfl | later
            · have kept := installed.others (cur, fid) (.inr notLater)
              exact kept.trans (Function.update_self ..)
            · exact installed.entries entry later
          · intro place apart
            have apartLater : place.1 ≠ cur ∨ place.2 ∉ fids := by
              rcases apart with other | unlisted
              · exact .inl other
              · exact .inr fun member =>
                  unlisted (List.mem_cons_of_mem _ member)
            refine (installed.others place apartLater).trans ?_
            show Function.update files.fidt (cur, fid) (some fcb) place = _
            apply Function.update_of_ne
            rintro rfl
            rcases apart with other | unlisted
            · exact other rfl
            · exact unlisted (List.mem_cons_self ..)

/-- `FCB_unreserve` -/
theorem Counts.FCBUnreserve
    {cur : Fin limits.maxProc}
    {fids : List (Fin limits.maxFileid)}
    {fcbs : List (Fin limits.maxFiles)}
    (counts : files.Counts refs frees)
    (lengths : fids.length = fcbs.length)
    (nodup : fids.Nodup)
    (entries : ∀ entry ∈ fids.zip fcbs,
      files.fidt (cur, entry.1) = some entry.2)
    (takenNodup : (frees ++ fcbs).Nodup) :
    ∃ after, FCBUnreserve cur fids fcbs files = .ok after ∧
      after.Counts (fun fcb => if fcb ∈ fcbs then 0 else refs fcb)
        (frees ++ fcbs) ∧
      (∀ fcb, after.held fcb + fcbs.count fcb = files.held fcb) ∧
      SameStreams files after ∧
      ∀ place : Fin limits.maxProc × Fin limits.maxFileid, after.fidt place =
        if place.1 = cur ∧ place.2 ∈ fids then none else files.fidt place := by
  induction fids generalizing fcbs files refs frees with
  | nil =>
      cases fcbs with
      | cons fcb fcbs => cases lengths
      | nil =>
          refine ⟨files, rfl, ?_, fun _ => rfl, ⟨fun _ => rfl, rfl, rfl⟩, ?_⟩
          · simpa using counts
          · simp
  | cons fid fids inductionHypothesis =>
      cases fcbs with
      | nil => cases lengths
      | cons fcb fcbs =>
          obtain ⟨notLater, laterNodup⟩ := List.nodup_cons.mp nodup
          have isEntry : files.fidt (cur, fid) = some fcb :=
            entries (fid, fcb) (List.mem_cons_self ..)
          have notFree : fcb ∉ frees := fun member =>
            (List.nodup_append.mp takenNodup).2.2 fcb member fcb
              (List.mem_cons_self ..) rfl
          have released : ((files.setFidt (cur, fid) none).releaseFCB
              fcb).Counts (Function.update refs fcb 0) (frees ++ [fcb]) :=
            Counts.releaseFCB ⟨counts.free, counts.refcount, counts.unused⟩
              notFree
          have laterEntries : ∀ entry ∈ fids.zip fcbs,
              ((files.setFidt (cur, fid) none).releaseFCB fcb).fidt
                (cur, entry.1) = some entry.2 := by
            intro entry member
            show Function.update files.fidt (cur, fid) none (cur, entry.1) = _
            rw [Function.update_of_ne]
            · apply entries entry
              rw [List.zip_cons_cons]
              exact List.mem_cons_of_mem _ member
            · intro equal
              have listed := (List.of_mem_zip member).1
              rw [(Prod.mk.inj equal).2] at listed
              exact notLater listed
          rw [List.append_cons] at takenNodup ⊢
          obtain ⟨after, ran, afterCounts, fewer, same, fidt⟩ :=
            inductionHypothesis released (Nat.succ.inj lengths) laterNodup
              laterEntries takenNodup
          obtain ⟨lowered, positive⟩ := held_setFidt_none isEntry
          refine ⟨after, ?_, ?_, ?_, ?_, ?_⟩
          · rw [FileTable.FCBUnreserve, if_pos isEntry]
            exact ran
          · have refsAfter : (fun other => if other ∈ fcbs then 0
                else Function.update refs fcb 0 other) =
                fun other => if other ∈ fcb :: fcbs then 0 else refs other := by
              funext other
              by_cases isFcb : other = fcb
              · subst isFcb
                simp
              · simp [isFcb]
            rw [refsAfter] at afterCounts
            exact afterCounts
          · intro other
            have shrunk := fewer other
            rw [show ((files.setFidt (cur, fid) none).releaseFCB fcb).held =
              (files.setFidt (cur, fid) none).held from rfl, lowered] at shrunk
            by_cases isFcb : other = fcb
            · subst isFcb
              rw [Function.update_self] at shrunk
              rw [List.count_cons_self]
              omega
            · rw [Function.update_of_ne isFcb] at shrunk
              rw [List.count_cons_of_ne (Ne.symm isFcb)]
              exact shrunk
          · have first : SameStreams files
                ((files.setFidt (cur, fid) none).releaseFCB fcb) :=
              ⟨fun _ => rfl, rfl, rfl⟩
            exact first.trans same
          · intro place
            rw [fidt place]
            show (if place.1 = cur ∧ place.2 ∈ fids then none
              else Function.update files.fidt (cur, fid) none place) = _
            rw [Function.update_apply]
            by_cases isPlace : place = (cur, fid)
            · subst isPlace
              simp
            · rw [if_neg isPlace]
              have differs : ¬(place.1 = cur ∧ place.2 = fid) := by
                rintro ⟨isCur, isFid⟩
                exact isPlace (Prod.ext isCur isFid)
              have same : (place.1 = cur ∧ place.2 ∈ fid :: fids) ↔
                  (place.1 = cur ∧ place.2 ∈ fids) := by
                rw [List.mem_cons]
                tauto
              simp only [same]

/-- A stream is opened at an FCB that is not used. -/
theorem Streams.setStream
    {used : Fin limits.maxFiles → Prop}
    (streams : files.Streams used)
    (unused : ¬used fcb) :
    (files.setStream fcb).Streams fun other => other = fcb ∨ used other := by
  have stream : ∀ other, ((files.setStream fcb).fcb other).stream =
      if other = fcb then files.opened else (files.fcb other).stream := by
    intro other
    by_cases same : other = fcb
    · subst same
      simp [FileTable.setStream, modifyFcb]
    · simp [FileTable.setStream, modifyFcb, same]
  have apart : ∀ {other}, used other → other ≠ fcb := by
    rintro other isUsed rfl
    exact unused isUsed
  constructor
  case bound =>
    intro other isUsed
    show _ < files.opened + 1
    rw [stream]
    split_ifs with isNew
    · omega
    · have := streams.bound (isUsed.resolve_left isNew)
      omega
  case distinct =>
    intro first second firstUsed secondUsed same
    rw [stream, stream] at same
    rcases firstUsed with rfl | firstUsed
    · rcases secondUsed with rfl | secondUsed
      · rfl
      · rw [if_pos rfl, if_neg (apart secondUsed)] at same
        have := streams.bound secondUsed
        omega
    · rcases secondUsed with rfl | secondUsed
      · rw [if_pos rfl, if_neg (apart firstUsed)] at same
        have := streams.bound firstUsed
        omega
      · rw [if_neg (apart firstUsed), if_neg (apart secondUsed)] at same
        exact streams.distinct firstUsed secondUsed same
  case nodup => exact streams.nodup
  case closed =>
    intro number
    show number ∈ files.closed ↔ number < files.opened + 1 ∧ _
    rw [streams.closed]
    constructor
    · rintro ⟨inRange, differs⟩
      refine ⟨by omega, ?_⟩
      rintro other (rfl | isUsed) same
      · rw [stream, if_pos rfl] at same
        omega
      · rw [stream, if_neg (apart isUsed)] at same
        exact differs other isUsed same
    · rintro ⟨inRange, differs⟩
      have notNew := differs fcb (.inl rfl)
      rw [stream, if_pos rfl] at notNew
      refine ⟨by omega, ?_⟩
      intro other isUsed same
      apply differs other (.inr isUsed)
      rw [stream, if_neg (apart isUsed)]
      exact same

/-- The descriptors of a process that are not in use, in increasing order. -/
def freeFids
    (files : FileTable limits)
    (cur : Fin limits.maxProc) : List (Fin limits.maxFileid) :=
  (List.finRange limits.maxFileid).filter fun fid =>
    files.fidt (cur, fid) = none

theorem reserveFids_eq
    (files : FileTable limits)
    (cur : Fin limits.maxProc)
    (num : Nat) :
    Kernel.reserveFids (fun fid => files.fidt (cur, fid)) num 0 =
      (files.freeFids cur).take num := by
  rw [Kernel.reserveFids_eq_take, matchesFrom_zero]
  rfl

/-- `FCB_reserve` takes the lowest free descriptors and the first free FCBs, or
nothing. -/
theorem Counts.FCBReserve
    (counts : files.Counts refs frees)
    (cur : Fin limits.maxProc)
    (num : Nat) :
    (((files.freeFids cur).length < num ∨ frees.length < num) ∧
      ∃ after again, files.FCBReserve cur num = .ok (none, after) ∧
        after.Counts refs again ∧ again.Perm frees ∧
        after.fidt = files.fidt ∧ SameStreams files after) ∨
    (num ≤ (files.freeFids cur).length ∧ num ≤ frees.length ∧
      ∃ after, files.FCBReserve cur num =
          .ok (some ((files.freeFids cur).take num, frees.take num), after) ∧
        after.Counts (fun fcb => refs fcb + (frees.take num).count fcb)
          (frees.drop num) ∧
        Installed files after cur ((files.freeFids cur).take num)
          (frees.take num)) := by
  unfold FileTable.FCBReserve
  simp only [reserveFids_eq, List.length_take]
  by_cases fewFids : (files.freeFids cur).length < num
  · rw [if_pos (by omega)]
    exact .inl ⟨.inl fewFids, files, frees, rfl, counts, .refl _, rfl,
      ⟨fun _ => rfl, rfl, rfl⟩⟩
  rw [if_neg (by omega)]
  obtain ⟨middle, ran, middleCounts, middleFidt, middleSame⟩ :=
    counts.acquireFCBs num
  rw [ran]
  simp only [bind, Except.bind, List.length_take]
  by_cases fewFcbs : frees.length < num
  · rw [if_pos (by omega)]
    have perm : (frees.drop num ++ (frees.take num).reverse).Perm frees := by
      refine (List.perm_append_comm.trans ?_)
      refine ((List.reverse_perm _).append_right _).trans ?_
      rw [List.take_append_drop]
    obtain ⟨afterCounts, afterFidt, afterSame⟩ := middleCounts.releaseFCBs
      (perm.nodup_iff.mpr counts.free.nodup)
      fun fcb member => counts.unused
        (List.mem_of_mem_take (List.mem_reverse.mp member))
    exact .inl ⟨.inr fewFcbs, _, _, rfl, afterCounts, perm,
      afterFidt.trans middleFidt, middleSame.trans afterSame⟩
  · rw [if_neg (by omega)]
    have lengths : ((files.freeFids cur).take num).length =
        (frees.take num).length := by
      rw [List.length_take, List.length_take]
      omega
    have isNull : ∀ fid ∈ (files.freeFids cur).take num,
        middle.fidt (cur, fid) = none := by
      intro fid member
      rw [middleFidt]
      simpa [freeFids] using List.mem_of_mem_take member
    have fidsNodup : ((files.freeFids cur).take num).Nodup :=
      ((List.nodup_finRange _).filter _).sublist (List.take_sublist _ _)
    have taken : ∀ fcb ∈ frees.take num, fcb ∉ frees.drop num :=
      fun fcb inTake inDrop =>
        (List.disjoint_take_drop counts.free.nodup (Nat.le_refl num)) inTake
          inDrop
    obtain ⟨afterCounts, installed⟩ := middleCounts.installFCBs lengths fidsNodup
      isNull taken
    refine .inr ⟨by omega, by omega, _, rfl, afterCounts, ?_, ?_, ?_, ?_⟩
    · have grown := installed.held
      rw [show middle.held = files.held from by
        funext fcb
        rw [held, middleFidt]
        rfl] at grown
      exact grown
    · exact middleSame.trans installed.same
    · exact installed.entries
    · intro place apart
      rw [installed.others place apart, middleFidt]

/-- The streams of several FCBs are opened. -/
theorem Streams.setStreams
    {fcbs : List (Fin limits.maxFiles)}
    {used : Fin limits.maxFiles → Prop}
    (streams : files.Streams used)
    (nodup : fcbs.Nodup)
    (unused : ∀ fcb ∈ fcbs, ¬used fcb) :
    (fcbs.foldl FileTable.setStream files).Streams
      fun other => other ∈ fcbs ∨ used other := by
  induction fcbs generalizing files used with
  | nil =>
      refine streams.of_same ?_ (fun _ _ => rfl) rfl rfl
      simp
  | cons fcb fcbs inductionHypothesis =>
      obtain ⟨notLater, laterNodup⟩ := List.nodup_cons.mp nodup
      have first := streams.setStream (unused fcb (List.mem_cons_self ..))
      have later := inductionHypothesis first laterNodup (by
        rintro other member (rfl | isUsed)
        · exact notLater member
        · exact unused other (List.mem_cons_of_mem _ member) isUsed)
      refine later.of_same ?_ (fun _ _ => rfl) rfl rfl
      intro other
      rw [List.mem_cons]
      tauto

/-- Setting streams changes no count and no descriptor. -/
theorem setStreams_counts
    (counts : files.Counts refs frees)
    (fcbs : List (Fin limits.maxFiles)) :
    (fcbs.foldl FileTable.setStream files).Counts refs frees ∧
      (fcbs.foldl FileTable.setStream files).fidt = files.fidt := by
  induction fcbs generalizing files with
  | nil => exact ⟨counts, rfl⟩
  | cons fcb fcbs inductionHypothesis =>
      apply inductionHypothesis
      refine ⟨counts.free, ?_, counts.unused⟩
      intro other otherUsed
      rw [← counts.refcount otherUsed]
      by_cases same : other = fcb
      · subst same
        simp [FileTable.setStream, modifyFcb]
      · simp [FileTable.setStream, modifyFcb, same]

/-- The FCBs that are not set keep their streams. -/
theorem setStreams_stream
    (files : FileTable limits)
    {fcbs : List (Fin limits.maxFiles)}
    (unlisted : fcb ∉ fcbs) :
    ((fcbs.foldl FileTable.setStream files).fcb fcb).stream =
      (files.fcb fcb).stream := by
  induction fcbs generalizing files with
  | nil => rfl
  | cons first rest inductionHypothesis =>
      rw [List.mem_cons, not_or] at unlisted
      obtain ⟨different, later⟩ := unlisted
      rw [List.foldl_cons, inductionHypothesis _ later]
      simp [FileTable.setStream, modifyFcb, different]

/-- Opening streams returns, counts the new descriptors, and leaves the FCBs that
are in use alone.  When it fails the descriptors and the streams are as
before. -/
theorem Sound.openStreams
    {io : Fin limits.maxFiles → Nat}
    (sound : files.Sound fun fcb => files.held fcb + io fcb)
    (cur : Fin limits.maxProc)
    (num : Nat)
    (found : Bool) :
    ∃ result after, files.openStreams cur num found = .ok (result, after) ∧
      after.Sound (fun fcb => after.held fcb + io fcb) ∧
      (∀ place : Fin limits.maxProc × Fin limits.maxFileid, place.1 ≠ cur →
        after.fidt place = files.fidt place) ∧
      (∀ fcb, files.held fcb + io fcb ≠ 0 →
        (after.fcb fcb).stream = (files.fcb fcb).stream) ∧
      (result = none → after.fidt = files.fidt ∧ SameStreams files after) := by
  obtain ⟨frees, counts, noLeak, streams⟩ := sound
  have noLeak : ∀ fcb, files.held fcb + io fcb = 0 → fcb ∈ frees := noLeak
  unfold FileTable.openStreams
  rcases counts.FCBReserve cur num with
    ⟨-, after, again, ran, afterCounts, perm, fidt, same⟩ |
    ⟨enoughFids, enoughFcbs, middle, ran, middleCounts, installed⟩
  · rw [ran]
    have sameHeld : after.held = files.held := by
      funext fcb
      rw [held, fidt]
      rfl
    refine ⟨none, after, rfl, ?_, fun place _ => by rw [fidt],
      fun fcb _ => same.stream fcb, fun _ => ⟨fidt, same⟩⟩
    rw [sameHeld]
    refine ⟨again, afterCounts, ?_, ?_⟩
    · intro fcb isZero
      exact perm.mem_iff.mpr (noLeak fcb isZero)
    · exact streams.of_same (fun _ => Iff.rfl) (fun fcb _ => same.stream fcb)
        same.opened same.closed
  · rw [ran]
    simp only [bind, Except.bind]
    have takeNodup : (frees.take num).Nodup :=
      counts.free.nodup.sublist (List.take_sublist _ _)
    have takenUnused : ∀ fcb ∈ frees.take num, files.held fcb + io fcb = 0 :=
      fun fcb member => counts.unused (List.mem_of_mem_take member)
    cases found with
    | true =>
        obtain ⟨afterCounts, fidt⟩ :=
          setStreams_counts middleCounts (frees.take num)
        have sameHeld : ((frees.take num).foldl FileTable.setStream middle).held =
            middle.held := by
          funext fcb
          rw [held, fidt]
          rfl
        refine ⟨some ((files.freeFids cur).take num), _, rfl, ?_, ?_, ?_, by simp⟩
        · rw [sameHeld, installed.held]
          have refs : (fun fcb => files.held fcb + (frees.take num).count fcb +
              io fcb) = fun fcb => files.held fcb + io fcb +
                (frees.take num).count fcb := by
            funext fcb
            omega
          rw [refs]
          refine ⟨frees.drop num, afterCounts, ?_, ?_⟩
          · intro fcb isZero
            change files.held fcb + io fcb + (frees.take num).count fcb = 0
              at isZero
            have wasFree := noLeak fcb (by omega)
            rw [← List.take_append_drop num frees] at wasFree
            rcases List.mem_append.mp wasFree with isTaken | stillFree
            · have := List.count_pos_iff.mpr isTaken
              omega
            · exact stillFree
          · have middleStreams : middle.Streams fun fcb =>
                files.held fcb + io fcb ≠ 0 :=
              streams.of_same (fun _ => Iff.rfl)
                (fun fcb _ => installed.same.stream fcb) installed.same.opened
                  installed.same.closed
            have opened := middleStreams.setStreams takeNodup
              fun fcb member used => used (takenUnused fcb member)
            refine opened.of_same ?_ (fun _ _ => rfl) rfl rfl
            intro fcb
            change files.held fcb + io fcb + (frees.take num).count fcb ≠ 0 ↔
              fcb ∈ frees.take num ∨ files.held fcb + io fcb ≠ 0
            rw [← List.count_pos_iff]
            omega
        · intro place other
          rw [fidt]
          exact installed.others place (.inl other)
        · intro fcb isUsed
          rw [setStreams_stream middle fun member =>
            isUsed (takenUnused fcb member)]
          exact installed.same.stream fcb
    | false =>
        have lengths : ((files.freeFids cur).take num).length =
            (frees.take num).length := by
          rw [List.length_take, List.length_take]
          omega
        have fidsNodup : ((files.freeFids cur).take num).Nodup :=
          ((List.nodup_finRange _).filter _).sublist (List.take_sublist _ _)
        have perm : (frees.drop num ++ frees.take num).Perm frees := by
          refine List.perm_append_comm.trans ?_
          rw [List.take_append_drop]
        obtain ⟨after, undone, afterCounts, fewer, same, fidt⟩ :=
          middleCounts.FCBUnreserve lengths fidsNodup installed.entries
            (perm.nodup_iff.mpr counts.free.nodup)
        have fidtSame : after.fidt = files.fidt := by
          funext place
          rw [fidt]
          split_ifs with isTaken
          · obtain ⟨isCur, listed⟩ := isTaken
            have isNull := List.mem_of_mem_take listed
            rw [freeFids, List.mem_filter] at isNull
            have place' : place = (cur, place.2) := Prod.ext isCur rfl
            rw [place']
            exact (of_decide_eq_true isNull.2).symm
          · apply installed.others
            tauto
        have sameHeld : after.held = files.held := by
          funext fcb
          rw [held, fidtSame]
          rfl
        have sameStreams := installed.same.trans same
        refine ⟨none, after, ?_, ?_, fun place _ => by rw [fidtSame],
          fun fcb _ => sameStreams.stream fcb, fun _ => ⟨fidtSame, sameStreams⟩⟩
        · rw [undone]
          rfl
        · rw [sameHeld]
          have refs : (fun fcb => if fcb ∈ frees.take num then 0
              else files.held fcb + io fcb + (frees.take num).count fcb) =
                fun fcb => files.held fcb + io fcb := by
            funext fcb
            split_ifs with isTaken
            · exact (takenUnused fcb isTaken).symm
            · rw [List.count_eq_zero_of_not_mem isTaken, Nat.add_zero]
          rw [refs] at afterCounts
          refine ⟨_, afterCounts, ?_, ?_⟩
          · intro fcb isZero
            exact perm.mem_iff.mpr (noLeak fcb isZero)
          · exact streams.of_same (fun _ => Iff.rfl)
              (fun fcb _ => sameStreams.stream fcb) sameStreams.opened
                sameStreams.closed

end FileTable
end TinierOS
