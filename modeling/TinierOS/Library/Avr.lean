import Mathlib.Algebra.Group.Nat.Defs
import Mathlib.Data.List.Basic
import Mathlib.Logic.Function.Basic
import Mathlib.Order.Fin.Basic

/-!
# An AVR core

The data effect of the instructions that move bytes between the registers, the
stack, the stack pointer, the status register and the data memory.  Registers
and I/O registers are kept apart from the memory, so the addresses used by
programs of this model are meant to lie in the SRAM.  A push stores and then
decrements the stack pointer, a pop increments it and then loads; a call leaves
the high byte of the return address at the lower address.
-/

namespace TinierOS
namespace Avr

abbrev Byte := BitVec 8

abbrev Addr := BitVec 16

/-- The data memory. -/
abbrev Memory := Addr → Byte

/-- There are 32 general registers. -/
theorem generalRegisters_ne_zero : 32 ≠ 0 := by decide

instance neZeroGeneralRegisters : @NeZero Nat .ofOfNat0 32 :=
  ⟨generalRegisters_ne_zero⟩

/-! ## Words -/

/-- The low byte of a word. -/
def low (word : Addr) : Byte := word.setWidth 8

/-- The high byte of a word. -/
def high (word : Addr) : Byte := (word >>> 8).setWidth 8

@[simp] theorem low_append (upper lower : Byte) :
    low (upper ++ lower) = lower := by
  unfold low
  ext index bound
  simp
  grind

@[simp] theorem high_append_low (word : Addr) :
    (high word ++ low word : Addr) = word := by
  unfold high low
  ext index bound
  simp
  grind

/-- The word at an address, low byte first. -/
def loadWord (mem : Memory) (addr : Addr) : Addr :=
  mem (addr + 1) ++ mem addr

/-- Store a word, low byte first. -/
def storeWord (mem : Memory) (addr word : Addr) : Memory :=
  Function.update (Function.update mem addr (low word)) (addr + 1) (high word)

theorem loadWord_storeWord (mem : Memory) (addr word : Addr) :
    loadWord (storeWord mem addr word) addr = word := by
  have apart : addr ≠ addr + 1 := by bv_omega
  rw [loadWord, storeWord, Function.update_self,
    Function.update_of_ne apart, Function.update_self, high_append_low]

theorem storeWord_of_ne
    {addr other : Addr}
    (mem : Memory)
    (word : Addr)
    (notLow : other ≠ addr)
    (notHigh : other ≠ addr + 1) :
    storeWord mem addr word other = mem other := by
  rw [storeWord, Function.update_of_ne notHigh,
    Function.update_of_ne notLow]

/-! ## Bytes stored downwards -/

/-- The addresses `top`, `top - 1`, … of a run of `length` bytes. -/
def Within (top : Addr) (length : Nat) (addr : Addr) : Prop :=
  (top - addr).toNat < length

/-- Store bytes from `top` downwards. -/
def storeDown (mem : Memory) (top : Addr) : List Byte → Memory
  | [] => mem
  | byte :: bytes => storeDown (Function.update mem top byte) (top - 1) bytes

/-- The memory holds these bytes from `top` downwards. -/
def Holds (mem : Memory) (top : Addr) : List Byte → Prop
  | [] => True
  | byte :: bytes => mem top = byte ∧ Holds mem (top - 1) bytes

theorem storeDown_append
    (mem : Memory)
    (top : Addr)
    (upper lower : List Byte) :
    storeDown mem top (upper ++ lower) =
      storeDown (storeDown mem top upper)
        (top - BitVec.ofNat 16 upper.length) lower := by
  induction upper generalizing mem top with
  | nil => simp [storeDown]
  | cons byte upper inductionHypothesis =>
      have address : top - 1 - BitVec.ofNat 16 upper.length =
          top - BitVec.ofNat 16 (upper.length + 1) := by bv_omega
      rw [List.cons_append, storeDown, inductionHypothesis, storeDown,
        List.length_cons, address]

theorem storeDown_outside
    {top addr : Addr}
    {bytes : List Byte}
    (mem : Memory)
    (outside : ¬Within top bytes.length addr) :
    storeDown mem top bytes addr = mem addr := by
  induction bytes generalizing mem top with
  | nil => rfl
  | cons byte bytes inductionHypothesis =>
      unfold Within at outside inductionHypothesis
      rw [List.length_cons] at outside
      have apart : addr ≠ top := by
        rintro rfl
        simp at outside
      rw [storeDown, inductionHypothesis, Function.update_of_ne apart]
      bv_omega

/-- What was stored can be read back, as long as it does not wrap around. -/
theorem holds_storeDown
    {bytes : List Byte}
    (mem : Memory)
    (top : Addr)
    (fits : bytes.length ≤ 2 ^ 16) :
    Holds (storeDown mem top bytes) top bytes := by
  induction bytes generalizing mem top with
  | nil => trivial
  | cons byte bytes inductionHypothesis =>
      rw [List.length_cons] at fits
      refine ⟨?_, inductionHypothesis _ _ (by omega)⟩
      rw [storeDown, storeDown_outside, Function.update_self]
      unfold Within
      bv_omega

theorem holds_append
    {mem : Memory}
    {top : Addr}
    {upper lower : List Byte} :
    Holds mem top (upper ++ lower) ↔ Holds mem top upper ∧
      Holds mem (top - BitVec.ofNat 16 upper.length) lower := by
  induction upper generalizing top with
  | nil => simp [Holds]
  | cons byte upper inductionHypothesis =>
      have address : top - 1 - BitVec.ofNat 16 upper.length =
          top - BitVec.ofNat 16 (upper.length + 1) := by bv_omega
      rw [List.cons_append, Holds, inductionHypothesis, Holds,
        List.length_cons, address, and_assoc]

/-- Changes elsewhere do not matter. -/
theorem Holds.congr
    {mem mem' : Memory}
    {top : Addr}
    {bytes : List Byte}
    (holds : Holds mem top bytes)
    (same : ∀ addr, Within top bytes.length addr → mem' addr = mem addr) :
    Holds mem' top bytes := by
  induction bytes generalizing top with
  | nil => trivial
  | cons byte bytes inductionHypothesis =>
      unfold Within at same inductionHypothesis
      rw [List.length_cons] at same
      obtain ⟨first, rest⟩ := holds
      refine ⟨?_, inductionHypothesis rest ?_⟩
      · rw [same top (by simp), first]
      · intro addr within
        refine same addr ?_
        bv_omega

/-! ## The core -/

/-- Registers, status register, stack pointer, program counter and memory. -/
@[ext] structure Cpu where
  reg : Fin 32 → Byte
  sreg : Byte
  sp : Addr
  pc : Addr
  mem : Memory

/-- The instructions; the I/O registers are named by their instruction. -/
inductive Instr
  | push (source : Fin 32)
  | pop (target : Fin 32)
  | inSreg (target : Fin 32)
  | outSreg (source : Fin 32)
  | inSpl (target : Fin 32)
  | outSpl (source : Fin 32)
  | inSph (target : Fin 32)
  | outSph (source : Fin 32)
  | movw (target source : Fin 32)
  | stZInc (source : Fin 32)
  | stZ (source : Fin 32)
  | ldZInc (target : Fin 32)
  | ldZ (target : Fin 32)
  | ret
  deriving DecidableEq

namespace Cpu

/-- Assign to a register. -/
def setReg (cpu : Cpu) (target : Fin 32) (value : Byte) : Cpu :=
  { cpu with reg := Function.update cpu.reg target value }

/-- The pointer `Z` is `r31:r30`. -/
def z (cpu : Cpu) : Addr := cpu.reg 31 ++ cpu.reg 30

/-- Assign to the pointer `Z`. -/
def setZ (cpu : Cpu) (value : Addr) : Cpu :=
  (cpu.setReg 30 (low value)).setReg 31 (high value)

/-- Store bytes on the stack, one after the other. -/
def pushBytes (cpu : Cpu) (bytes : List Byte) : Cpu :=
  { cpu with
    mem := storeDown cpu.mem cpu.sp bytes
    sp := cpu.sp - BitVec.ofNat 16 bytes.length }

/-- A call with the program counter at the next instruction pushes the return
address, low byte first. -/
def call (cpu : Cpu) : Cpu :=
  cpu.pushBytes [low cpu.pc, high cpu.pc]

/-- The effect of one instruction.  The program counter is only kept up to date
where it is read from the stack. -/
def exec (cpu : Cpu) : Instr → Cpu
  | .push source => cpu.pushBytes [cpu.reg source]
  | .pop target =>
      { cpu with sp := cpu.sp + 1 }.setReg target (cpu.mem (cpu.sp + 1))
  | .inSreg target => cpu.setReg target cpu.sreg
  | .outSreg source => { cpu with sreg := cpu.reg source }
  | .inSpl target => cpu.setReg target (low cpu.sp)
  | .outSpl source => { cpu with sp := high cpu.sp ++ cpu.reg source }
  | .inSph target => cpu.setReg target (high cpu.sp)
  | .outSph source => { cpu with sp := cpu.reg source ++ low cpu.sp }
  | .movw target source =>
      (cpu.setReg target (cpu.reg source)).setReg (target + 1)
        (cpu.reg (source + 1))
  | .stZInc source =>
      { cpu with mem := Function.update cpu.mem cpu.z (cpu.reg source) }.setZ
        (cpu.z + 1)
  | .stZ source =>
      { cpu with mem := Function.update cpu.mem cpu.z (cpu.reg source) }
  | .ldZInc target => (cpu.setReg target (cpu.mem cpu.z)).setZ (cpu.z + 1)
  | .ldZ target => cpu.setReg target (cpu.mem cpu.z)
  | .ret =>
      { cpu with
        pc := cpu.mem (cpu.sp + 1) ++ cpu.mem (cpu.sp + 2)
        sp := cpu.sp + 2 }

/-- Execute straight-line code. -/
def run (cpu : Cpu) (code : List Instr) : Cpu := code.foldl exec cpu

theorem run_append (cpu : Cpu) (first second : List Instr) :
    cpu.run (first ++ second) = (cpu.run first).run second :=
  List.foldl_append

theorem pushBytes_append (cpu : Cpu) (upper lower : List Byte) :
    cpu.pushBytes (upper ++ lower) =
      (cpu.pushBytes upper).pushBytes lower := by
  have address : cpu.sp - BitVec.ofNat 16 (upper.length + lower.length) =
      cpu.sp - BitVec.ofNat 16 upper.length -
        BitVec.ofNat 16 lower.length := by bv_omega
  simp only [pushBytes, storeDown_append, List.length_append, address]

/-- Pushing registers one after the other stores them as one run of bytes. -/
theorem run_push (cpu : Cpu) (sources : List (Fin 32)) :
    cpu.run (sources.map .push) =
      cpu.pushBytes (sources.map cpu.reg) := by
  induction sources generalizing cpu with
  | nil => simp [run, pushBytes, storeDown]
  | cons source sources inductionHypothesis =>
      have first : cpu.run ((source :: sources).map .push) =
          (cpu.pushBytes [cpu.reg source]).run (sources.map .push) := rfl
      rw [first, inductionHypothesis]
      exact (cpu.pushBytes_append [cpu.reg source]
        (sources.map cpu.reg)).symm

/-- Popping registers reads a run of bytes from its lower end. -/
theorem run_pop
    {cpu : Cpu}
    {targets : List (Fin 32)}
    {values : Fin 32 → Byte}
    (holds : Holds cpu.mem (cpu.sp + BitVec.ofNat 16 targets.length)
      (targets.map values).reverse) :
    cpu.run (targets.map .pop) =
      { cpu with
        reg := fun index =>
          if index ∈ targets then values index else cpu.reg index
        sp := cpu.sp + BitVec.ofNat 16 targets.length } := by
  induction targets generalizing cpu with
  | nil => simp [run]
  | cons target targets inductionHypothesis =>
      rw [List.map_cons, List.reverse_cons, holds_append,
        List.length_reverse, List.length_map, List.length_cons] at holds
      obtain ⟨rest, lowest, -⟩ := holds
      have lowestAddress : cpu.sp + BitVec.ofNat 16 (targets.length + 1) -
          BitVec.ofNat 16 targets.length = cpu.sp + 1 := by bv_omega
      have restAddress : cpu.sp + BitVec.ofNat 16 (targets.length + 1) =
          cpu.sp + 1 + BitVec.ofNat 16 targets.length := by bv_omega
      rw [lowestAddress] at lowest
      rw [restAddress] at rest
      have first : cpu.run ((target :: targets).map .pop) =
          ({ cpu with sp := cpu.sp + 1 }.setReg target
            (cpu.mem (cpu.sp + 1))).run (targets.map .pop) := rfl
      rw [first, inductionHypothesis rest, lowest, List.length_cons,
        restAddress]
      ext1
      · funext index
        simp only [setReg, List.mem_cons]
        by_cases again : index ∈ targets
        · simp [again]
        · by_cases isTarget : index = target
          · subst isTarget
            simp [again]
          · simp [again, isTarget]
      · rfl
      · rfl
      · rfl
      · rfl

end Cpu
end Avr
end TinierOS
