import TinierOS.Library.AvrCode

/-!
# Starting up

`src/arch/avr/startup.S` from the reset handler to the call of `main`: it turns
the watchdog off, sets the stack pointer, copies `.data` from the flash memory
and clears `.bss`.
-/

namespace TinierOS
namespace Avr

/-- What the linker script exports. -/
structure StartupSymbols where
  dataStartFlash : Addr
  dataStartSram : Addr
  dataBytesToRead : Addr
  bssStartSram : Addr
  bssBytesToClear : Addr

/-- The labels of `startup.S`, and `main`. -/
inductive StartupLabel
  | dataCopy
  | dataDone
  | bssZero
  | bssDone
  | halt
  | main
  deriving DecidableEq

/-- The last address of the SRAM. -/
def ramEnd : Addr := 0x08FF

open Op Line in
/-- `_start` -/
def startup (symbols : StartupSymbols) : List (Line StartupLabel) :=
  [op (clr 16),
    op (out 0x34 16),
    op (ldi 17 0x18),
    op (sts 0x60 17),
    op (sts 0x60 16),
    op (clr 1),
    op (ldi 16 (high ramEnd)),
    op (out 0x3E 16),
    op (ldi 16 (low ramEnd)),
    op (out 0x3D 16),
    op (ldi 30 (low symbols.dataStartFlash)),
    op (ldi 31 (high symbols.dataStartFlash)),
    op (ldi 26 (low symbols.dataStartSram)),
    op (ldi 27 (high symbols.dataStartSram)),
    op (ldi 24 (low symbols.dataBytesToRead)),
    op (ldi 25 (high symbols.dataBytesToRead)),
    op (sbiw 24 0),
    op (breq .dataDone),
    label .dataCopy,
    op (lpmZInc 0),
    op (stXInc 0),
    op (sbiw 24 1),
    op (brne .dataCopy),
    label .dataDone,
    op (ldi 26 (low symbols.bssStartSram)),
    op (ldi 27 (high symbols.bssStartSram)),
    op (ldi 24 (low symbols.bssBytesToClear)),
    op (ldi 25 (high symbols.bssBytesToClear)),
    op (sbiw 24 0),
    op (breq .bssDone),
    label .bssZero,
    op (stXInc 1),
    op (sbiw 24 1),
    op (brne .bssZero),
    label .bssDone,
    op (call .main),
    label .halt,
    op (rjmp .halt)]

theorem idxOf_dataCopy (symbols : StartupSymbols) :
    (startup symbols).idxOf (.label .dataCopy) = 18 := rfl

theorem idxOf_bssZero (symbols : StartupSymbols) :
    (startup symbols).idxOf (.label .bssZero) = 30 := rfl

variable {flash : Addr → Byte}
variable {symbols : StartupSymbols}
variable {core : Core}

/-! ## Jobs 0 to 2 -/

/-- Disable the watchdog timer and zero `r1`. -/
theorem steps_watchdog
    (starts : core.line = 0) :
    core.steps flash (startup symbols) 6 =
      some {
        cpu := ((core.cpu.setReg 16 0).setReg 17 0x18).setReg 1 0
        zero := true
        line := 6
        io := core.io ++ [(0x54, 0), (0x60, 0x18), (0x60, 0)] } := by
  obtain ⟨cpu, zero, line, io⟩ := core
  obtain rfl : line = 0 := starts
  iterate 6 refine (Core.steps_op rfl rfl).trans ?_
  simp [Core.steps, Core.next, Core.out, Core.store, Cpu.setReg]

/-- Set the stack pointer. -/
theorem steps_stackPointer
    (starts : core.line = 6) :
    core.steps flash (startup symbols) 4 =
      some { core with
        cpu := { core.cpu.setReg 16 (low ramEnd) with sp := ramEnd }
        line := 10 } := by
  obtain ⟨cpu, zero, line, io⟩ := core
  obtain rfl : line = 6 := starts
  iterate 4 refine (Core.steps_op rfl rfl).trans ?_
  simp [Core.steps, Core.next, Core.out, Cpu.setReg]

/-! ## Job 3 -/

/-- The pointers and the counter of the copy of `.data`. -/
theorem steps_dataPointers
    (starts : core.line = 10) :
    core.steps flash (startup symbols) 7 =
      some { core with
        cpu := ((core.cpu.setPair 30 symbols.dataStartFlash).setPair 26
          symbols.dataStartSram).setPair 24 symbols.dataBytesToRead
        zero := symbols.dataBytesToRead = 0
        line := 17 } := by
  obtain ⟨cpu, zero, line, io⟩ := core
  obtain rfl : line = 10 := starts
  have again := Cpu.setPair_setPair ((cpu.setPair 30 symbols.dataStartFlash).setPair 26
    symbols.dataStartSram) 24 symbols.dataBytesToRead symbols.dataBytesToRead
  iterate 7 refine (Core.steps_op rfl rfl).trans ?_
  simp [Core.steps, Core.next, Cpu.setReg, Cpu.setPair, Cpu.pair] at again ⊢
  exact again

/-- Nothing is copied when there is nothing to copy. -/
theorem step_dataDone
    (starts : core.line = 17) :
    core.step flash (startup symbols) =
      some { core with line := if core.zero then 23 else 18 } := by
  obtain ⟨cpu, zero, line, io⟩ := core
  obtain rfl : line = 17 := starts
  cases zero
  all_goals simp [Core.step, startup, Core.exec, Core.next]

/-- One round of the copy. -/
theorem steps_dataCopy
    (starts : core.line = 18)
    (inSram : 0x100 ≤ (core.cpu.pair 26).toNat) :
    core.steps flash (startup symbols) 5 =
      some { core with
        cpu := (({ (core.cpu.setReg 0 (flash (core.cpu.pair 30))).setPair 30
            (core.cpu.pair 30 + 1) with
          mem := Function.update core.cpu.mem (core.cpu.pair 26)
            (flash (core.cpu.pair 30)) }).setPair 26
          (core.cpu.pair 26 + 1)).setPair 24 (core.cpu.pair 24 - 1)
        zero := core.cpu.pair 24 - 1 = 0
        line := if core.cpu.pair 24 - 1 = 0 then 23 else 18 } := by
  obtain ⟨cpu, zero, line, io⟩ := core
  obtain rfl : line = 18 := starts
  refine (Core.steps_label rfl).trans ?_
  refine (Core.steps_op rfl rfl).trans ?_
  refine (Core.steps_op rfl (Core.exec_stXInc (by exact inSram))).trans ?_
  iterate 2 refine (Core.steps_op rfl rfl).trans ?_
  simp [Core.steps, Core.next, Cpu.setReg, Cpu.setPair, Cpu.pair]
  split
  next isLast => simp [isLast]
  next isNotLast => simp [isNotLast, idxOf_dataCopy]

/-! ## Job 4 -/

/-- The pointer and the counter of the clearing of `.bss`. -/
theorem steps_bssPointers
    (starts : core.line = 23) :
    core.steps flash (startup symbols) 6 =
      some { core with
        cpu := (core.cpu.setPair 26 symbols.bssStartSram).setPair 24
          symbols.bssBytesToClear
        zero := symbols.bssBytesToClear = 0
        line := 29 } := by
  obtain ⟨cpu, zero, line, io⟩ := core
  obtain rfl : line = 23 := starts
  have again := Cpu.setPair_setPair (cpu.setPair 26 symbols.bssStartSram) 24
    symbols.bssBytesToClear symbols.bssBytesToClear
  refine (Core.steps_label rfl).trans ?_
  iterate 5 refine (Core.steps_op rfl rfl).trans ?_
  simp [Core.steps, Core.next, Cpu.setReg, Cpu.setPair, Cpu.pair] at again ⊢
  exact again

/-- Nothing is cleared when there is nothing to clear. -/
theorem step_bssDone
    (starts : core.line = 29) :
    core.step flash (startup symbols) =
      some { core with line := if core.zero then 34 else 30 } := by
  obtain ⟨cpu, zero, line, io⟩ := core
  obtain rfl : line = 29 := starts
  cases zero
  all_goals simp [Core.step, startup, Core.exec, Core.next]

/-- One round of the clearing. -/
theorem steps_bssZero
    (starts : core.line = 30)
    (inSram : 0x100 ≤ (core.cpu.pair 26).toNat) :
    core.steps flash (startup symbols) 4 =
      some { core with
        cpu := ({ core.cpu with
            mem := Function.update core.cpu.mem (core.cpu.pair 26)
              (core.cpu.reg 1) }.setPair 26
          (core.cpu.pair 26 + 1)).setPair 24 (core.cpu.pair 24 - 1)
        zero := core.cpu.pair 24 - 1 = 0
        line := if core.cpu.pair 24 - 1 = 0 then 34 else 30 } := by
  obtain ⟨cpu, zero, line, io⟩ := core
  obtain rfl : line = 30 := starts
  refine (Core.steps_label rfl).trans ?_
  refine (Core.steps_op rfl (Core.exec_stXInc (by exact inSram))).trans ?_
  iterate 2 refine (Core.steps_op rfl rfl).trans ?_
  simp [Core.steps, Core.next, Cpu.setReg, Cpu.setPair, Cpu.pair]
  split
  next isLast => simp [isLast]
  next isNotLast => simp [isNotLast, idxOf_bssZero]

/-! ## The loops -/

/-- What the loops leave alone. -/
structure Kept (before after : Core) : Prop where
  r1 : after.cpu.reg 1 = before.cpu.reg 1
  sp : after.cpu.sp = before.cpu.sp
  io : after.io = before.io

/-- The copy after `i` bytes; the last byte ends it. -/
structure Copying
    (flash : Addr → Byte)
    (symbols : StartupSymbols)
    (before : Core)
    (i : Nat)
    (core : Core) : Prop where
  line : core.line = if i = symbols.dataBytesToRead.toNat then 23 else 18
  left : core.cpu.pair 24 = symbols.dataBytesToRead - BitVec.ofNat 16 i
  source : core.cpu.pair 30 = symbols.dataStartFlash + BitVec.ofNat 16 i
  target : core.cpu.pair 26 = symbols.dataStartSram + BitVec.ofNat 16 i
  mem : core.cpu.mem = storeUp before.cpu.mem symbols.dataStartSram
    (fun offset => flash (symbols.dataStartFlash + offset)) i
  kept : Kept before core

/-- The clearing after `i` bytes; the last byte ends it. -/
structure Clearing
    (symbols : StartupSymbols)
    (before : Core)
    (i : Nat)
    (core : Core) : Prop where
  line : core.line = if i = symbols.bssBytesToClear.toNat then 34 else 30
  left : core.cpu.pair 24 = symbols.bssBytesToClear - BitVec.ofNat 16 i
  target : core.cpu.pair 26 = symbols.bssStartSram + BitVec.ofNat 16 i
  mem : core.cpu.mem =
    storeUp before.cpu.mem symbols.bssStartSram (fun _ => before.cpu.reg 1) i
  kept : Kept before core

variable {before : Core}
variable {i : Nat}

/-- The counter is zero after the last byte. -/
theorem left_eq_zero_iff
    {bytes : Addr}
    (more : i < bytes.toNat) :
    bytes - BitVec.ofNat 16 i - 1 = 0 ↔ i + 1 = bytes.toNat := by
  bv_omega

/-- The bytes of a region in the SRAM have their addresses there. -/
theorem target_inSram
    {target bytes : Addr}
    (inSram : 0x100 ≤ target.toNat)
    (fits : target.toNat + bytes.toNat ≤ 2 ^ 16)
    (more : i < bytes.toNat) :
    0x100 ≤ (target + BitVec.ofNat 16 i).toNat := by
  bv_omega

theorem Copying.round
    (inSram : 0x100 ≤ symbols.dataStartSram.toNat)
    (fits : symbols.dataStartSram.toNat + symbols.dataBytesToRead.toNat ≤ 2 ^ 16)
    (more : i < symbols.dataBytesToRead.toNat)
    (copying : Copying flash symbols before i core) :
    ∃ after, Core.Reaches flash (startup symbols) core after ∧
      Copying flash symbols before (i + 1) after := by
  have starts : core.line = 18 := by
    rw [copying.line, if_neg (by omega)]
  have address : 0x100 ≤ (core.cpu.pair 26).toNat := by
    rw [copying.target]
    exact target_inSram inSram fits more
  refine ⟨_, Core.reaches_of_steps (steps_dataCopy starts address), ?_⟩
  constructor
  case line =>
    simp only [copying.left, left_eq_zero_iff more]
  case left =>
    rw [Cpu.pair_setPair_self, copying.left]
    bv_omega
  case source =>
    rw [Cpu.pair_setPair_of_ne _ _ (by decide),
      Cpu.pair_setPair_of_ne _ _ (by decide)]
    have next : core.cpu.pair 30 + 1 =
        symbols.dataStartFlash + BitVec.ofNat 16 (i + 1) := by
      rw [copying.source]
      bv_omega
    rw [← next]
    exact Cpu.pair_setPair_self
      (core.cpu.setReg 0 (flash (core.cpu.pair 30))) 30 (core.cpu.pair 30 + 1)
  case target =>
    rw [Cpu.pair_setPair_of_ne _ _ (by decide), Cpu.pair_setPair_self,
      copying.target]
    bv_omega
  case mem =>
    simp only [Cpu.setPair_mem]
    rw [storeUp_succ (by omega), ← copying.mem, copying.target, copying.source]
  case kept =>
    constructor
    case r1 =>
      rw [← copying.kept.r1]
      simp [Cpu.setPair, Cpu.setReg]
    case sp =>
      exact copying.kept.sp
    case io =>
      exact copying.kept.io

theorem Clearing.round
    (inSram : 0x100 ≤ symbols.bssStartSram.toNat)
    (fits : symbols.bssStartSram.toNat + symbols.bssBytesToClear.toNat ≤ 2 ^ 16)
    (more : i < symbols.bssBytesToClear.toNat)
    (clearing : Clearing symbols before i core) :
    ∃ after, Core.Reaches flash (startup symbols) core after ∧
      Clearing symbols before (i + 1) after := by
  have starts : core.line = 30 := by
    rw [clearing.line, if_neg (by omega)]
  have address : 0x100 ≤ (core.cpu.pair 26).toNat := by
    rw [clearing.target]
    exact target_inSram inSram fits more
  refine ⟨_, Core.reaches_of_steps (steps_bssZero starts address), ?_⟩
  constructor
  case line =>
    simp only [clearing.left, left_eq_zero_iff more]
  case left =>
    rw [Cpu.pair_setPair_self, clearing.left]
    bv_omega
  case target =>
    rw [Cpu.pair_setPair_of_ne _ _ (by decide), Cpu.pair_setPair_self,
      clearing.target]
    bv_omega
  case mem =>
    simp only [Cpu.setPair_mem]
    rw [storeUp_succ (by omega), ← clearing.mem, clearing.target, clearing.kept.r1]
  case kept =>
    constructor
    case r1 =>
      rw [← clearing.kept.r1]
      simp [Cpu.setPair, Cpu.setReg]
    case sp =>
      exact clearing.kept.sp
    case io =>
      exact clearing.kept.io

/-- The loop of job 3 is entered, or skipped, with no byte copied. -/
theorem reaches_copying
    (flash : Addr → Byte)
    (symbols : StartupSymbols)
    (starts : core.line = 10) :
    ∃ first, Core.Reaches flash (startup symbols) core first ∧
      Copying flash symbols core 0 first := by
  refine ⟨_, (Core.reaches_of_steps (steps_dataPointers starts)).tail
    (step_dataDone rfl), ?_⟩
  constructor
  case line =>
    have isEmpty : symbols.dataBytesToRead = 0 ↔
        0 = symbols.dataBytesToRead.toNat := by bv_omega
    simp only [isEmpty, decide_eq_true_eq]
  case left =>
    rw [Cpu.pair_setPair_self]
    bv_omega
  case source =>
    rw [Cpu.pair_setPair_of_ne _ _ (by decide),
      Cpu.pair_setPair_of_ne _ _ (by decide), Cpu.pair_setPair_self]
    bv_omega
  case target =>
    rw [Cpu.pair_setPair_of_ne _ _ (by decide), Cpu.pair_setPair_self]
    bv_omega
  case mem =>
    rw [storeUp_zero]
    rfl
  case kept =>
    constructor
    case r1 =>
      simp [Cpu.setPair, Cpu.setReg]
    all_goals rfl

/-- The loop of job 4 is entered, or skipped, with no byte cleared. -/
theorem reaches_clearing
    (flash : Addr → Byte)
    (symbols : StartupSymbols)
    (starts : core.line = 23) :
    ∃ first, Core.Reaches flash (startup symbols) core first ∧
      Clearing symbols core 0 first := by
  refine ⟨_, (Core.reaches_of_steps (steps_bssPointers starts)).tail
    (step_bssDone rfl), ?_⟩
  constructor
  case line =>
    have isEmpty : symbols.bssBytesToClear = 0 ↔
        0 = symbols.bssBytesToClear.toNat := by bv_omega
    simp only [isEmpty, decide_eq_true_eq]
  case left =>
    rw [Cpu.pair_setPair_self]
    bv_omega
  case target =>
    rw [Cpu.pair_setPair_of_ne _ _ (by decide), Cpu.pair_setPair_self]
    bv_omega
  case mem =>
    rw [storeUp_zero]
    rfl
  case kept =>
    constructor
    case r1 =>
      simp [Cpu.setPair, Cpu.setReg]
    all_goals rfl

/-- Jobs 0 to 2. -/
theorem reaches_prepared
    (flash : Addr → Byte)
    (symbols : StartupSymbols)
    (starts : core.line = 0) :
    ∃ prepared, Core.Reaches flash (startup symbols) core prepared ∧
      prepared.line = 10 ∧ prepared.cpu.mem = core.cpu.mem ∧
      prepared.cpu.reg 1 = 0 ∧ prepared.cpu.sp = ramEnd ∧
      prepared.io = core.io ++ [(0x54, 0), (0x60, 0x18), (0x60, 0)] := by
  refine ⟨_, (Core.reaches_of_steps (steps_watchdog starts)).trans
    (Core.reaches_of_steps (steps_stackPointer rfl)), rfl, rfl, ?_, rfl, rfl⟩
  simp [Cpu.setReg]

/-! ## The whole code -/

/-- Where the linker script puts the sections: in the SRAM, `.bss` behind `.data`. -/
structure StartupSymbols.Placed (symbols : StartupSymbols) : Prop where
  inSram : 0x100 ≤ symbols.dataStartSram.toNat
  dataFits : symbols.dataStartSram.toNat + symbols.dataBytesToRead.toNat ≤
    symbols.bssStartSram.toNat
  bssFits : symbols.bssStartSram.toNat + symbols.bssBytesToClear.toNat ≤
    ramEnd.toNat + 1

/-- What C relies on when `main` is called. -/
structure Started
    (flash : Addr → Byte)
    (symbols : StartupSymbols)
    (before core : Core) : Prop where
  atMain : (startup symbols)[core.line]? = some (.op (.call .main))
  data : ∀ offset, offset < symbols.dataBytesToRead.toNat →
    core.cpu.mem (symbols.dataStartSram + BitVec.ofNat 16 offset) =
      flash (symbols.dataStartFlash + BitVec.ofNat 16 offset)
  bss : ∀ offset, offset < symbols.bssBytesToClear.toNat →
    core.cpu.mem (symbols.bssStartSram + BitVec.ofNat 16 offset) = 0
  others : ∀ addr,
    symbols.dataBytesToRead.toNat ≤ (addr - symbols.dataStartSram).toNat →
    symbols.bssBytesToClear.toNat ≤ (addr - symbols.bssStartSram).toNat →
    core.cpu.mem addr = before.cpu.mem addr
  r1 : core.cpu.reg 1 = 0
  sp : core.cpu.sp = ramEnd
  watchdog : core.io = before.io ++ [(0x54, 0), (0x60, 0x18), (0x60, 0)]

/-- The code calls `main` with `.data` copied, `.bss` cleared, `r1` zero, the stack
at the end of the SRAM and the watchdog off, and has stored nowhere else. -/
theorem startup_calls_main
    (placed : symbols.Placed)
    (starts : before.line = 0) :
    ∃ core, Core.Reaches flash (startup symbols) before core ∧
      Started flash symbols before core := by
  obtain ⟨prepared, reached, atData, mem, r1, sp, io⟩ :=
    reaches_prepared flash symbols starts
  have ramEnd_toNat : ramEnd.toNat = 2303 := rfl
  have dataFits := placed.dataFits
  have bssFits := placed.bssFits
  have inSram := placed.inSram
  obtain ⟨entering, entered, enters⟩ := reaches_copying flash symbols atData
  obtain ⟨copied, copies, copying⟩ := Core.reaches_of_rounds
    (fun i more _ => Copying.round inSram (by omega) more) enters
  have atBss : copied.line = 23 := by
    rw [copying.line, if_pos rfl]
  obtain ⟨entering', entered', enters'⟩ := reaches_clearing flash symbols atBss
  obtain ⟨core, clears, clearing⟩ := Core.reaches_of_rounds
    (fun i more _ => Clearing.round (by omega) (by omega) more) enters'
  have atLabel : core.line = 34 := by
    rw [clearing.line, if_pos rfl]
  have labelled : core.step flash (startup symbols) = some core.next := by
    rw [Core.step, atLabel]
    rfl
  refine ⟨core.next, ((((reached.trans entered).trans copies).trans
    entered').trans clears).tail labelled, ?_⟩
  have last : core.next.cpu.mem = storeUp (storeUp before.cpu.mem symbols.dataStartSram
      (fun offset => flash (symbols.dataStartFlash + offset))
      symbols.dataBytesToRead.toNat) symbols.bssStartSram (fun _ => 0)
      symbols.bssBytesToClear.toNat := by
    rw [← mem, ← r1, ← copying.kept.r1, ← copying.mem]
    exact clearing.mem
  constructor
  case atMain =>
    rw [Core.next, atLabel]
    rfl
  case data =>
    intro offset inRange
    rw [last, storeUp_of_le (by bv_omega), storeUp_of_lt (by bv_omega)]
    congr 1
    bv_omega
  case bss =>
    intro offset inRange
    rw [last, storeUp_of_lt (by bv_omega)]
  case others =>
    intro addr notData notBss
    rw [last, storeUp_of_le notBss, storeUp_of_le notData]
  case r1 =>
    rw [← r1, ← copying.kept.r1]
    exact clearing.kept.r1
  case sp =>
    rw [← sp, ← copying.kept.sp]
    exact clearing.kept.sp
  case watchdog =>
    rw [← io, ← copying.kept.io]
    exact clearing.kept.io

/-- Three bytes of `.data` and two of `.bss`. -/
theorem startup_calls_main_three :
    let flash : Addr → Byte := fun addr => low addr
    let symbols : StartupSymbols :=
      { dataStartFlash := 0x200
        dataStartSram := 0x100
        dataBytesToRead := 3
        bssStartSram := 0x103
        bssBytesToClear := 2 }
    let before : Core :=
      { cpu := { reg := fun _ => 7, sreg := 0, sp := 0, pc := 0, mem := fun _ => 9 }
        zero := false
        line := 0
        io := [] }
    ∃ core, Core.Reaches flash (startup symbols) before core ∧
      Started flash symbols before core :=
  startup_calls_main ⟨by decide, by decide, by decide⟩ rfl

end Avr
end TinierOS
