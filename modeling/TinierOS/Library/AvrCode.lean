import TinierOS.Library.Avr
import Mathlib.Logic.Relation

/-!
# AVR code with branches

Code is a list of instructions and labels, and a branch goes to a label.  Of the
status register only the zero flag is kept.  The data addresses below 0x100 are
those of the registers and of the I/O registers: what is stored there is kept
apart from the memory, in the order in which it is stored.
-/

namespace TinierOS
namespace Avr

universe u

/-! ## Bytes stored upwards -/

/-- The memory in which the addresses from `start` on hold `length` values. -/
def storeUp
    (mem : Memory)
    (start : Addr)
    (value : Addr → Byte)
    (length : Nat) : Memory :=
  fun addr =>
    if (addr - start).toNat < length then value (addr - start) else mem addr

variable {mem : Memory}
variable {start addr : Addr}
variable {value : Addr → Byte}
variable {length : Nat}

theorem storeUp_zero : storeUp mem start value 0 = mem := by
  funext addr
  simp [storeUp]

/-- The next value is stored behind the others. -/
theorem storeUp_succ
    (fits : length < 2 ^ 16) :
    storeUp mem start value (length + 1) =
      Function.update (storeUp mem start value length)
        (start + BitVec.ofNat 16 length) (value (BitVec.ofNat 16 length)) := by
  funext addr
  by_cases isNext : addr = start + BitVec.ofNat 16 length
  · subst isNext
    have offset : start + BitVec.ofNat 16 length - start =
        BitVec.ofNat 16 length := by bv_omega
    have inRange : (BitVec.ofNat 16 length).toNat < length + 1 := by
      rw [BitVec.toNat_ofNat, Nat.mod_eq_of_lt fits]
      omega
    rw [Function.update_self, storeUp, offset, if_pos inRange]
  · rw [Function.update_of_ne isNext]
    have same : (addr - start).toNat < length + 1 ↔
        (addr - start).toNat < length := by bv_omega
    simp only [storeUp, same]

theorem storeUp_of_lt
    (inRange : (addr - start).toNat < length) :
    storeUp mem start value length addr = value (addr - start) :=
  if_pos inRange

theorem storeUp_of_le
    (outside : length ≤ (addr - start).toNat) :
    storeUp mem start value length addr = mem addr :=
  if_neg (Nat.not_lt.mpr outside)

/-! ## Register pairs -/

@[simp] theorem high_append (upper lower : Byte) :
    high (upper ++ lower) = upper := by
  unfold high
  ext index bound
  simp
  grind

namespace Cpu

/-- The word in a register and the next one. -/
def pair (cpu : Cpu) (target : Fin 32) : Addr :=
  cpu.reg (target + 1) ++ cpu.reg target

/-- Assign to a register pair. -/
def setPair (cpu : Cpu) (target : Fin 32) (value : Addr) : Cpu :=
  (cpu.setReg target (low value)).setReg (target + 1) (high value)

theorem pair_setPair_self (cpu : Cpu) (target : Fin 32) (value : Addr) :
    (cpu.setPair target value).pair target = value := by
  have apart : target ≠ target + 1 := by
    revert target
    decide
  show Function.update (Function.update cpu.reg target (low value)) (target + 1)
      (high value) (target + 1) ++
    Function.update (Function.update cpu.reg target (low value)) (target + 1)
      (high value) target = value
  rw [Function.update_self, Function.update_of_ne apart, Function.update_self,
    high_append_low]

@[simp] theorem setPair_setPair (cpu : Cpu) (target : Fin 32) (first value : Addr) :
    (cpu.setPair target first).setPair target value =
      cpu.setPair target value := by
  ext1
  · funext other
    by_cases isHigh : other = target + 1
    · simp [setPair, setReg, isHigh]
    · by_cases isLow : other = target
      · subst isLow
        simp only [setPair, setReg]
        rw [Function.update_of_ne isHigh, Function.update_self,
          Function.update_of_ne isHigh, Function.update_self]
      · simp [setPair, setReg, isHigh, isLow]
  all_goals rfl

theorem reg_setPair_of_ne
    {target other : Fin 32}
    (cpu : Cpu)
    (value : Addr)
    (notLow : other ≠ target)
    (notHigh : other ≠ target + 1) :
    (cpu.setPair target value).reg other = cpu.reg other := by
  simp [setPair, setReg, notLow, notHigh]

/-- Another pair keeps its word. -/
theorem pair_setPair_of_ne
    {target other : Fin 32}
    (cpu : Cpu)
    (value : Addr)
    (apart : other ≠ target ∧ other ≠ target + 1 ∧ other + 1 ≠ target) :
    (cpu.setPair target value).pair other = cpu.pair other := by
  obtain ⟨low, high, below⟩ := apart
  have above : other + 1 ≠ target + 1 := by omega
  rw [pair, reg_setPair_of_ne cpu value below above,
    reg_setPair_of_ne cpu value low high, pair]

@[simp] theorem setPair_mem (cpu : Cpu) (target : Fin 32) (value : Addr) :
    (cpu.setPair target value).mem = cpu.mem := rfl

@[simp] theorem setPair_sp (cpu : Cpu) (target : Fin 32) (value : Addr) :
    (cpu.setPair target value).sp = cpu.sp := rfl

end Cpu

/-! ## Code -/

/-- Instructions; a branch names its label. -/
inductive Op (κ : Type u)
  | clr (target : Fin 32)
  | ldi (target : Fin 32) (value : Byte)
  | out (io : Byte) (source : Fin 32)
  | sts (addr : Addr) (source : Fin 32)
  | stXInc (source : Fin 32)
  | lpmZInc (target : Fin 32)
  | sbiw (target : Fin 32) (value : Byte)
  | breq (label : κ)
  | brne (label : κ)
  | rjmp (label : κ)
  | call (function : κ)
  deriving DecidableEq

/-- A line of code. -/
inductive Line (κ : Type u)
  | label (name : κ)
  | op (op : Op κ)
  deriving DecidableEq

/-- The core with its zero flag, the number of the next line and the stores to I/O
registers, the first one first. -/
structure Core where
  cpu : Cpu
  zero : Bool
  line : Nat
  io : List (Addr × Byte)

namespace Core

/-- Go on with the next line. -/
def next (core : Core) : Core := { core with line := core.line + 1 }

/-- Store a byte in the data space. -/
def store (core : Core) (addr : Addr) (byte : Byte) : Core :=
  if addr.toNat < 0x100 then { core with io := core.io ++ [(addr, byte)] }
  else { core with
    cpu := { core.cpu with mem := Function.update core.cpu.mem addr byte } }

/-- Store a byte in an I/O register; two of them are the stack pointer. -/
def out (core : Core) (io byte : Byte) : Core :=
  if io = 0x3E then
    { core with cpu := { core.cpu with sp := byte ++ low core.cpu.sp } }
  else if io = 0x3D then
    { core with cpu := { core.cpu with sp := high core.cpu.sp ++ byte } }
  else core.store (io.setWidth 16 + 0x20) byte

variable {κ : Type u} [DecidableEq κ]

/-- Execute one instruction with the given flash memory; a call leaves the
code. -/
def exec
    (flash : Addr → Byte)
    (code : List (Line κ))
    (core : Core) : Op κ → Option Core
  | .clr target =>
      some { core.next with cpu := core.cpu.setReg target 0, zero := true }
  | .ldi target value =>
      some { core.next with cpu := core.cpu.setReg target value }
  | .out io source => some (core.next.out io (core.cpu.reg source))
  | .sts addr source => some (core.next.store addr (core.cpu.reg source))
  | .stXInc source =>
      let core' := core.next.store (core.cpu.pair 26) (core.cpu.reg source)
      some { core' with cpu := core'.cpu.setPair 26 (core.cpu.pair 26 + 1) }
  | .lpmZInc target =>
      some { core.next with
        cpu := (core.cpu.setReg target (flash (core.cpu.pair 30))).setPair 30
          (core.cpu.pair 30 + 1) }
  | .sbiw target value =>
      let result := core.cpu.pair target - value.setWidth 16
      some { core.next with
        cpu := core.cpu.setPair target result
        zero := result = 0 }
  | .breq label =>
      some (if core.zero then { core with line := code.idxOf (.label label) }
        else core.next)
  | .brne label =>
      some (if core.zero then core.next
        else { core with line := code.idxOf (.label label) })
  | .rjmp label => some { core with line := code.idxOf (.label label) }
  | .call _ => none

/-- Execute one line; a label does nothing. -/
def step
    (flash : Addr → Byte)
    (code : List (Line κ))
    (core : Core) : Option Core :=
  match code[core.line]? with
  | none => none
  | some (.label _) => some core.next
  | some (.op op) => core.exec flash code op

/-- Execute some lines. -/
def steps
    (flash : Addr → Byte)
    (code : List (Line κ)) : Nat → Core → Option Core
  | 0, core => some core
  | count + 1, core => (core.step flash code).bind (steps flash code count)

/-- The core gets from one state to another. -/
def Reaches
    (flash : Addr → Byte)
    (code : List (Line κ)) : Core → Core → Prop :=
  Relation.ReflTransGen fun before after => before.step flash code = some after

variable {flash : Addr → Byte}
variable {code : List (Line κ)}
variable {core after : Core}

/-- A store to the memory through `X`. -/
theorem exec_stXInc
    {source : Fin 32}
    (inSram : 0x100 ≤ (core.cpu.pair 26).toNat) :
    core.exec flash code (.stXInc source) = some { core.next with
      cpu := { core.cpu with
        mem := Function.update core.cpu.mem (core.cpu.pair 26)
          (core.cpu.reg source) }.setPair 26 (core.cpu.pair 26 + 1) } := by
  simp only [exec, store, if_neg (Nat.not_lt.mpr inSram)]
  rfl

/-- The first of some lines is an instruction that is executed. -/
theorem steps_op
    {op : Op κ}
    {middle : Core}
    {count : Nat}
    (isLine : code[core.line]? = some (.op op))
    (executed : core.exec flash code op = some middle) :
    core.steps flash code (count + 1) = middle.steps flash code count := by
  rw [steps, step, isLine]
  dsimp only
  rw [executed]
  rfl

/-- A label takes a step as well. -/
theorem steps_label
    {name : κ}
    {count : Nat}
    (isLine : code[core.line]? = some (.label name)) :
    core.steps flash code (count + 1) = core.next.steps flash code count := by
  rw [steps, step, isLine]
  rfl

theorem reaches_of_steps
    {count : Nat}
    (ran : core.steps flash code count = some after) :
    Reaches flash code core after := by
  induction count generalizing core with
  | zero =>
      cases ran
      exact .refl
  | succ count inductionHypothesis =>
      obtain ⟨middle, stepped, continues⟩ := Option.bind_eq_some_iff.mp ran
      exact .head stepped (inductionHypothesis continues)

/-- A loop that is known to run a number of times: each round takes its invariant
to the next one. -/
theorem reaches_of_rounds
    {count : Nat}
    {invariant : Nat → Core → Prop}
    (round : ∀ i, i < count → ∀ {core}, invariant i core →
      ∃ after, Reaches flash code core after ∧ invariant (i + 1) after)
    (starts : invariant 0 core) :
    ∃ after, Reaches flash code core after ∧ invariant count after := by
  induction count with
  | zero => exact ⟨core, .refl, starts⟩
  | succ count inductionHypothesis =>
      obtain ⟨middle, reached, holds⟩ := inductionHypothesis
        fun i inRange => round i (by omega)
      obtain ⟨after, continues, holdsAfter⟩ := round count (by omega) holds
      exact ⟨after, reached.trans continues, holdsAfter⟩

end Core
end Avr
end TinierOS
