import TinierOS.Streams.Devices
import TinierOS.Streams.Reserve

/-!
# Files as a partial map

What the streams of one process are for: a partial map from file ids to
devices.  The descriptor table, the file table with its free list and the device
table together hold such a map, and each stream call is the matching operation
on it.
-/

namespace TinierOS

variable {limits : Limits}

/-- The device with the given numbers, if it exists. -/
def Device.find (major : DeviceType) (minor : Nat) : Option Device :=
  match major with
  | .null => if minor < 1 then some .null else none
  | .serial =>
      if exists' : minor < maxTerminals then some (.serial ⟨minor, exists'⟩)
      else none

/-- The devices that the ids of a process are bound to. -/
abbrev FileMap (limits : Limits) := Fin limits.maxFileid → Option Device

namespace FileMap

theorem index_lt
    {fd : Int}
    (inRange : 0 ≤ fd ∧ fd.toNat < limits.maxFileid) :
    fd.toNat < limits.maxFileid :=
  inRange.2

/-- The id that an `int` denotes. -/
def index (fd : Int) : Option (Fin limits.maxFileid) :=
  if inRange : 0 ≤ fd ∧ fd.toNat < limits.maxFileid then
    some ⟨fd.toNat, index_lt inRange⟩
  else none

/-- The ids that are bound. -/
def boundFids (map : FileMap limits) : Finset (Fin limits.maxFileid) :=
  Finset.univ.filter fun fid => map fid ≠ none

/-- The smallest id that is not bound. -/
def firstUnbound (map : FileMap limits) : Option (Fin limits.maxFileid) :=
  firstIndex fun fid => map fid = none

/-- Open a device: bind the smallest unbound id to it, unless it does not exist,
no id is left or as many streams are open as there may be. -/
def openDevice
    (map : FileMap limits)
    (device : Option Device) :
    Option (Fin limits.maxFileid) × FileMap limits :=
  match device, map.firstUnbound with
  | some device, some fid =>
      if map.boundFids.card < limits.maxFiles then
        (some fid, Function.update map fid (some device))
      else (none, map)
  | _, _ => (none, map)

/-- Unbind an id. -/
def closeFid (map : FileMap limits) (fd : Int) : FileMap limits :=
  match index fd with
  | none => map
  | some fid => Function.update map fid none

/-- The device that an `int` is bound to. -/
def deviceAt (map : FileMap limits) (fd : Int) : Option Device :=
  (index fd).bind map

/-- An open fails exactly for one of three reasons. -/
theorem openDevice_eq_none_iff
    (map : FileMap limits)
    (device : Option Device) :
    (map.openDevice device).1 = none ↔
      device = none ∨ (∀ fid, map fid ≠ none) ∨
        limits.maxFiles ≤ map.boundFids.card := by
  unfold openDevice
  cases device with
  | none => simp
  | some device =>
      cases unbound : map.firstUnbound with
      | none =>
          have all := firstIndex_eq_none_iff.mp unbound
          simp only [decide_eq_false_iff_not] at all
          simp [all]
      | some fid =>
          have free := firstIndex_test unbound
          simp only [decide_eq_true_eq] at free
          have notAll : ¬∀ fid, map fid ≠ none := fun all => all fid free
          simp only [notAll, reduceCtorEq, false_or]
          split_ifs with few <;> simp_all

/-- A failed open leaves the map alone. -/
theorem openDevice_of_none
    (map : FileMap limits)
    (device : Option Device)
    (failed : (map.openDevice device).1 = none) :
    (map.openDevice device).2 = map := by
  unfold openDevice at failed ⊢
  split at failed
  · split at failed
    · cases failed
    · rw [if_neg ‹_›]
  · rfl

/-- A successful open binds the smallest id that is not bound. -/
theorem openDevice_of_some
    (map : FileMap limits)
    (device : Option Device)
    (fid : Fin limits.maxFileid)
    (opened : (map.openDevice device).1 = some fid) :
    map fid = none ∧ (∀ other < fid, map other ≠ none) ∧
      (map.openDevice device).2 = Function.update map fid device := by
  unfold openDevice at opened ⊢
  split at opened
  · rename_i found first unbound
    split at opened
    · cases opened
      obtain ⟨free, smallest⟩ := firstIndex_eq_some_iff.mp unbound
      simp only [decide_eq_true_eq, decide_eq_false_iff_not] at free smallest
      exact ⟨free, smallest, by rw [if_pos ‹_›]⟩
    · cases opened
  · cases opened

end FileMap

namespace Kernel

/-- The tables hold a map: free FCBs are in the free list, and every other one
is referenced by exactly one descriptor, which is bound to its device. -/
structure Mapped
    (kernel : Kernel limits)
    (table : Fin limits.maxFileid → Option (Fin limits.maxFiles))
    (map : FileMap limits)
    (free : List (Fin limits.maxFiles)) : Prop where
  freeList : kernel.FreeList free
  unbound : ∀ {fid}, table fid = none → map fid = none
  bound : ∀ {fid fcb}, table fid = some fcb →
    fcb ∉ free ∧ (kernel.fcb fcb).refcount = 1 ∧
      ∃ device, (kernel.fcb fcb).device = .ok (some device) ∧
        map fid = some device
  injective : ∀ {fid other fcb}, table fid = some fcb →
    table other = some fcb → fid = other
  used : ∀ {fcb}, fcb ∉ free → ∃ fid, table fid = some fcb

namespace Mapped

variable {kernel : Kernel limits}
variable {table : Fin limits.maxFileid → Option (Fin limits.maxFiles)}
variable {map : FileMap limits}
variable {free : List (Fin limits.maxFiles)}
variable {cur : Fin limits.maxProc}

theorem none_iff
    (mapped : kernel.Mapped table map free)
    (fid : Fin limits.maxFileid) :
    map fid = none ↔ table fid = none := by
  cases entry : table fid with
  | none => simp [mapped.unbound entry]
  | some fcb =>
      obtain ⟨-, -, device, -, isBound⟩ := mapped.bound entry
      simp [isBound]

/-- Calls that leave the file table alone keep the map. -/
theorem of_same
    {after : Kernel limits}
    (mapped : kernel.Mapped table map free)
    (fcbs : after.fcb = kernel.fcb)
    (freelist : after.freelist = kernel.freelist) :
    after.Mapped table map free where
  freeList := mapped.freeList.of_same freelist
  unbound := mapped.unbound
  bound := by
    rw [fcbs]
    exact mapped.bound
  injective := mapped.injective
  used := mapped.used

/-- Every FCB is free or behind exactly one bound id. -/
theorem card_free
    (mapped : kernel.Mapped table map free) :
    free.length + map.boundFids.card = limits.maxFiles := by
  have freeCard : free.toFinset.card = free.length :=
    List.toFinset_card_of_nodup mapped.freeList.nodup
  have boundCard : map.boundFids.card = (free.toFinset)ᶜ.card := by
    have entry : ∀ fid ∈ map.boundFids, ∃ fcb, table fid = some fcb := by
      intro fid member
      have isBound : map fid ≠ none := by
        simpa [FileMap.boundFids] using member
      rw [Ne, mapped.none_iff] at isBound
      exact Option.ne_none_iff_exists'.mp isBound
    refine Finset.card_bij
      (fun fid member => (entry fid member).choose) ?_ ?_ ?_
    · intro fid member
      have isEntry := (entry fid member).choose_spec
      simpa using (mapped.bound isEntry).1
    · intro fid member other otherMember same
      refine mapped.injective (entry fid member).choose_spec ?_
      rw [same]
      exact (entry other otherMember).choose_spec
    · intro fcb notFree
      have inUse : fcb ∉ free := by simpa using notFree
      obtain ⟨fid, isEntry⟩ := mapped.used inUse
      have member : fid ∈ map.boundFids := by
        obtain ⟨-, -, device, -, isBound⟩ := mapped.bound isEntry
        simp [FileMap.boundFids, isBound]
      refine ⟨fid, member, ?_⟩
      exact Option.some.inj
        ((entry fid member).choose_spec.symm.trans isEntry)
  rw [boundCard, ← freeCard, Finset.card_add_card_compl, Fintype.card_fin]

/-- `sys_Read` and `sys_Write` reach the device that the map names. -/
theorem streamDevice
    (mapped : kernel.Mapped (kernel.FIDT cur) map free)
    (isCurrent : kernel.currentProc = some cur)
    (fd : Int) :
    kernel.streamDevice fd = .ok (map.deviceAt fd) := by
  unfold Kernel.streamDevice getStreamFcb FileMap.deviceAt FileMap.index
  rw [isCurrent]
  simp only
  split_ifs with inRange
  · cases entry : kernel.FIDT cur ⟨fd.toNat, inRange.2⟩ with
    | none =>
        rw [FIDT] at entry
        simp [entry, mapped.unbound entry]
    | some fcb =>
        obtain ⟨-, -, device, reaches, isBound⟩ := mapped.bound entry
        rw [FIDT] at entry
        simp [entry, reaches, isBound]
  · rfl

theorem freeFid_eq
    (mapped : kernel.Mapped (kernel.FIDT cur) map free) :
    kernel.freeFid cur = map.firstUnbound := by
  unfold freeFid FileMap.firstUnbound
  congr 1
  funext fid
  rw [decide_eq_decide, mapped.none_iff]
  rfl

/-- The same FCBs are free in another order, and no other FCB changed. -/
theorem of_perm
    {after : Kernel limits}
    {again : List (Fin limits.maxFiles)}
    (mapped : kernel.Mapped table map free)
    (freeList : after.FreeList again)
    (perm : again.Perm free)
    (others : ∀ fcb, fcb ∉ free → after.fcb fcb = kernel.fcb fcb) :
    after.Mapped table map again where
  freeList := freeList
  unbound := mapped.unbound
  bound := by
    intro fid fcb entry
    obtain ⟨inUse, counted, reaches⟩ := mapped.bound entry
    rw [others fcb inUse, perm.mem_iff]
    exact ⟨inUse, counted, reaches⟩
  injective := mapped.injective
  used := by
    intro fcb inUse
    rw [perm.mem_iff] at inUse
    exact mapped.used inUse

/-- A free id is bound to a device through the first free FCB. -/
theorem of_bound
    {after : Kernel limits}
    {newTable : Fin limits.maxFileid → Option (Fin limits.maxFiles)}
    {fid : Fin limits.maxFileid}
    {fcb : Fin limits.maxFiles}
    {rest : List (Fin limits.maxFiles)}
    {device : Device}
    (mapped : kernel.Mapped table map (fcb :: rest))
    (freeList : after.FreeList rest)
    (wasNone : table fid = none)
    (isEntry : newTable fid = some fcb)
    (otherEntries : ∀ other, other ≠ fid → newTable other = table other)
    (counted : (after.fcb fcb).refcount = 1)
    (reaches : (after.fcb fcb).device = .ok (some device))
    (others : ∀ other, other ≠ fcb → after.fcb other = kernel.fcb other) :
    after.Mapped newTable (Function.update map fid (some device)) rest := by
  have notRest : fcb ∉ rest :=
    (List.nodup_cons.mp mapped.freeList.nodup).1
  have apart : ∀ {other found}, other ≠ fid → newTable other = some found →
      table other = some found ∧ found ≠ fcb := by
    intro other found different entry
    rw [otherEntries other different] at entry
    refine ⟨entry, ?_⟩
    rintro rfl
    exact (mapped.bound entry).1 (List.mem_cons_self ..)
  refine ⟨freeList, ?_, ?_, ?_, ?_⟩
  · intro other entry
    by_cases same : other = fid
    · subst same
      rw [isEntry] at entry
      cases entry
    · rw [Function.update_of_ne same]
      exact mapped.unbound ((otherEntries other same).symm.trans entry)
  · intro other found entry
    by_cases same : other = fid
    · subst same
      rw [isEntry] at entry
      cases entry
      rw [Function.update_self]
      exact ⟨notRest, counted, device, reaches, rfl⟩
    · obtain ⟨wasEntry, different⟩ := apart same entry
      obtain ⟨inUse, wasCounted, wasReached⟩ := mapped.bound wasEntry
      rw [Function.update_of_ne same, others found different]
      exact ⟨fun isFree => inUse (List.mem_cons_of_mem _ isFree), wasCounted,
        wasReached⟩
  · intro first second found firstEntry secondEntry
    by_cases isFirst : first = fid
    · by_cases isSecond : second = fid
      · rw [isFirst, isSecond]
      · have isNew : found = fcb := by
          rw [isFirst, isEntry] at firstEntry
          exact (Option.some.inj firstEntry).symm
        exact absurd isNew (apart isSecond secondEntry).2
    · obtain ⟨wasFirst, different⟩ := apart isFirst firstEntry
      by_cases isSecond : second = fid
      · rw [isSecond, isEntry] at secondEntry
        exact absurd (Option.some.inj secondEntry).symm different
      · exact mapped.injective wasFirst (apart isSecond secondEntry).1
  · intro found inUse
    by_cases isNew : found = fcb
    · exact ⟨fid, isNew ▸ isEntry⟩
    · have wasUsed : found ∉ fcb :: rest := by
        simpa [isNew] using inUse
      obtain ⟨other, entry⟩ := mapped.used wasUsed
      have different : other ≠ fid := by
        rintro rfl
        rw [wasNone] at entry
        cases entry
      exact ⟨other, (otherEntries other different).trans entry⟩

/-- The last descriptor of an FCB is cleared and the FCB is free again. -/
theorem of_unbound
    {after : Kernel limits}
    {newTable : Fin limits.maxFileid → Option (Fin limits.maxFiles)}
    {fid : Fin limits.maxFileid}
    {fcb : Fin limits.maxFiles}
    (mapped : kernel.Mapped table map free)
    (freeList : after.FreeList (free ++ [fcb]))
    (wasEntry : table fid = some fcb)
    (isNone : newTable fid = none)
    (otherEntries : ∀ other, other ≠ fid → newTable other = table other)
    (others : ∀ other, other ≠ fcb → after.fcb other = kernel.fcb other) :
    after.Mapped newTable (Function.update map fid none) (free ++ [fcb]) := by
  have apart : ∀ {other found}, newTable other = some found →
      other ≠ fid ∧ table other = some found ∧ found ≠ fcb := by
    intro other found entry
    have different : other ≠ fid := by
      rintro rfl
      rw [isNone] at entry
      cases entry
    rw [otherEntries other different] at entry
    refine ⟨different, entry, ?_⟩
    rintro rfl
    exact different (mapped.injective entry wasEntry)
  refine ⟨freeList, ?_, ?_, ?_, ?_⟩
  · intro other entry
    by_cases same : other = fid
    · rw [same, Function.update_self]
    · rw [Function.update_of_ne same]
      exact mapped.unbound ((otherEntries other same).symm.trans entry)
  · intro other found entry
    obtain ⟨different, wasOther, otherFcb⟩ := apart entry
    obtain ⟨inUse, counted, reaches⟩ := mapped.bound wasOther
    rw [Function.update_of_ne different, others found otherFcb]
    refine ⟨?_, counted, reaches⟩
    rw [List.mem_append, List.mem_singleton, not_or]
    exact ⟨inUse, otherFcb⟩
  · intro first second found firstEntry secondEntry
    exact mapped.injective (apart firstEntry).2.1 (apart secondEntry).2.1
  · intro found inUse
    rw [List.mem_append, List.mem_singleton, not_or] at inUse
    obtain ⟨other, entry⟩ := mapped.used inUse.1
    have different : other ≠ fid := by
      rintro rfl
      rw [wasEntry] at entry
      exact inUse.2 (Option.some.inj entry).symm
    exact ⟨other, (otherEntries other different).trans entry⟩

/-- `device_open` finds the device that the map is to be bound to. -/
theorem deviceOpen_find
    (major : DeviceType)
    (minor : Nat) :
    (Device.find major minor = none ∧ deviceOpen major minor = none) ∨
      ∃ device streamobj, Device.find major minor = some device ∧
        deviceOpen major minor = some streamobj ∧
        ∀ refcount, FCB.device
          { streamobj := streamobj, streamfunc := some major
            refcount := refcount } = .ok (some device) := by
  unfold Device.find deviceOpen
  cases major with
  | null =>
      by_cases isZero : minor < 1
      · exact Or.inr ⟨.null, none, if_pos isZero,
          if_neg (Nat.not_le_of_lt isZero), fun _ => rfl⟩
      · exact Or.inl ⟨if_neg isZero, if_pos (Nat.le_of_not_lt isZero)⟩
  | serial =>
      by_cases isTerminal : minor < maxTerminals
      · refine Or.inr ⟨.serial ⟨minor, isTerminal⟩,
          some ⟨minor, isTerminal⟩, dif_pos isTerminal, ?_, fun _ => rfl⟩
        simp only [deviceNo, if_neg (Nat.not_le_of_lt isTerminal),
          dif_pos isTerminal]
      · exact Or.inl ⟨dif_neg isTerminal,
          if_pos (Nat.le_of_not_lt isTerminal)⟩

/-- `open_stream` opens a device as the map does. -/
theorem openStream
    (mapped : kernel.Mapped (kernel.FIDT cur) map free)
    (isCurrent : kernel.currentProc = some cur)
    (major : DeviceType)
    (minor : Nat) :
    ∃ after again, kernel.openStream major minor =
        .ok ((map.openDevice (Device.find major minor)).1, after) ∧
      after.Mapped (after.FIDT cur)
        (map.openDevice (Device.find major minor)).2 again := by
  have counted := mapped.card_free
  unfold Kernel.openStream
  rw [isCurrent]
  cases found : kernel.freeFid cur with
  | none =>
      have noneLeft : map.openDevice (Device.find major minor) =
          (none, map) := by
        rw [mapped.freeFid_eq] at found
        unfold FileMap.openDevice
        rw [found]
        cases Device.find major minor <;> rfl
      refine ⟨kernel, free, ?_, by rwa [noneLeft]⟩
      simp only [FCBReserveOne, found, noneLeft, bind, Except.bind, pure,
        Except.pure]
  | some fid =>
      have unbound : map.firstUnbound = some fid := by
        rw [← mapped.freeFid_eq, found]
      cases free with
      | nil =>
          have noneLeft : map.openDevice (Device.find major minor) =
              (none, map) := by
            unfold FileMap.openDevice
            rw [unbound]
            cases Device.find major minor with
            | none => rfl
            | some device =>
                rw [List.length_nil, Nat.zero_add] at counted
                exact if_neg (Nat.not_lt.mpr counted.ge)
          refine ⟨kernel, [], ?_, by rwa [noneLeft]⟩
          simp only [FCBReserveOne, found, mapped.freeList.acquireFCB_nil,
            noneLeft, bind, Except.bind, pure, Except.pure]
      | cons fcb rest =>
          obtain ⟨middle, reserves, reserved⟩ :=
            mapped.freeList.FCBReserveOne_cons found
          have few : map.boundFids.card < limits.maxFiles := by
            rw [List.length_cons] at counted
            omega
          have others : ∀ other, other ≠ fcb →
              middle.fcb other = kernel.fcb other := fun other different =>
            reserved.otherFcbs other (by simpa using different)
          simp only [reserves, bind, Except.bind, pure, Except.pure]
          rcases deviceOpen_find major minor with
            ⟨missing, notOpened⟩ | ⟨device, streamobj, exists', opened, reaches⟩
          · -- The reservation is undone: the free list is only rotated.
            have failed : map.openDevice (Device.find major minor) =
                (none, map) := by
              rw [missing]
              rfl
            obtain ⟨sameFIDT, again, freeList, perm⟩ :=
              reserved.restored mapped.freeList.nodup
            refine ⟨middle.FCBUnreserveOne cur fid fcb, again, ?_, ?_⟩
            · simp only [notOpened, failed]
            · rw [failed, show (middle.FCBUnreserveOne cur fid fcb).FIDT =
                kernel.FIDT from sameFIDT]
              refine mapped.of_perm freeList perm fun other inUse => ?_
              refine others other ?_
              rintro rfl
              exact inUse (List.mem_cons_self ..)
          · have succeeded : map.openDevice (Device.find major minor) =
                (some fid, Function.update map fid (some device)) := by
              unfold FileMap.openDevice
              rw [exists', unbound]
              exact if_pos few
            obtain ⟨isEntry, isFirst⟩ := reserved.installed (fid, fcb) (by simp)
            have wasNone : kernel.FIDT cur fid = none := by
              simpa [FIDT] using firstIndex_test found
            refine ⟨middle.modifyFcb fcb fun block =>
              { block with
                streamobj := streamobj, streamfunc := some major },
              rest, ?_, ?_⟩
            · simp only [opened, succeeded]
            · rw [succeeded]
              refine mapped.of_bound (reserved.freeList.of_same rfl) wasNone
                isEntry ?_ ?_ ?_ ?_
              · intro other different
                exact reserved.otherEntries cur other
                  (Or.inr (by simpa using different))
              · simp [modifyFcb, isFirst]
              · simp only [modifyFcb, Function.update_self]
                exact reaches _
              · intro other different
                rw [← others other different]
                exact Function.update_of_ne different ..

/-- `sys_Close` unbinds its id. -/
theorem sysClose
    (mapped : kernel.Mapped (kernel.FIDT cur) map free)
    (isCurrent : kernel.currentProc = some cur)
    (fd : Int) :
    ∃ after again, kernel.sysClose fd = .ok (0, after) ∧
      after.Mapped (after.FIDT cur) (map.closeFid fd) again := by
  unfold Kernel.sysClose getStreamFcb FileMap.closeFid FileMap.index
  rw [isCurrent]
  by_cases inRange : 0 ≤ fd ∧ fd.toNat < limits.maxFileid
  · simp only [dif_pos inRange]
    cases entry : kernel.FIDT cur ⟨fd.toNat, inRange.2⟩ with
    | none =>
        have isUnbound := mapped.unbound entry
        rw [FIDT] at entry
        refine ⟨kernel, free, by rw [entry]; rfl, ?_⟩
        rwa [← isUnbound, Function.update_eq_self]
    | some fcb =>
        obtain ⟨inUse, counted, -⟩ := mapped.bound entry
        have wasEntry := entry
        rw [FIDT] at entry
        have last : ((kernel.setFidt cur ⟨fd.toNat, inRange.2⟩
            none).FCBDecref fcb) = (0, ((kernel.setFidt cur
              ⟨fd.toNat, inRange.2⟩ none).modifyFcb fcb fun block =>
                { block with
                  refcount := block.refcount - 1 }).releaseFCB fcb) := by
          unfold FCBDecref
          simp only
          rw [if_pos]
          simp [modifyFcb, setFidt, modifyPcb, counted]
        refine ⟨_, free ++ [fcb], by
          rw [entry]
          exact congrArg Except.ok last, ?_⟩
        refine mapped.of_unbound (FreeList.releaseFCB
          (mapped.freeList.of_same rfl) inUse) wasEntry ?_ ?_ ?_
        · exact setFidt_FIDT_self kernel cur ⟨fd.toNat, inRange.2⟩ none
        · intro other different
          exact setFidt_FIDT_of_apart (Or.inr different)
        · intro other different
          exact Function.update_of_ne different ..
  · simp only [dif_neg inRange]
    exact ⟨kernel, free, rfl, mapped⟩

end Mapped
end Kernel
end TinierOS
