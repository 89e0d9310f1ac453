import TinierOS.Library.Avr
import Mathlib.Data.Fin.SuccPred

/-!
# The saved context

`src/arch/avr/context.S` and `cpu_initialize_context` of `src/arch/avr/cpu.c`.
A thread that is switched out leaves a frame of 35 bytes on its stack, the return
address, `r0`, `SREG` and `r1` to `r31` from the top downwards, and the stack
pointer below it in its `cpu_context_t`.
-/

namespace TinierOS
namespace Avr

/-! ## The code -/

/-- `cpu_swap_context` -/
def cpuSwapContext : List Instr :=
  [.push 0,
    .inSreg 0, .push 0,
    .push 1, .push 2, .push 3, .push 4, .push 5, .push 6, .push 7, .push 8,
    .push 9, .push 10, .push 11, .push 12, .push 13, .push 14, .push 15,
    .push 16, .push 17, .push 18, .push 19, .push 20, .push 21, .push 22,
    .push 23, .push 24, .push 25, .push 26, .push 27, .push 28, .push 29,
    .push 30, .push 31,
    .movw 30 24, .inSpl 0, .stZInc 0, .inSph 0, .stZ 0,
    .movw 30 22, .ldZInc 0, .outSpl 0, .ldZ 0, .outSph 0,
    .pop 31, .pop 30, .pop 29, .pop 28, .pop 27, .pop 26, .pop 25, .pop 24,
    .pop 23, .pop 22, .pop 21, .pop 20, .pop 19, .pop 18, .pop 17, .pop 16,
    .pop 15, .pop 14, .pop 13, .pop 12, .pop 11, .pop 10, .pop 9, .pop 8,
    .pop 7, .pop 6, .pop 5, .pop 4, .pop 3, .pop 2, .pop 1,
    .pop 0, .outSreg 0,
    .pop 0,
    .ret]

/-- The memory and the pointer `stack` of `cpu_initialize_context`. -/
structure StackWriter where
  mem : Memory
  stack : Addr

/-- `*stack-- = byte` -/
def StackWriter.put (writer : StackWriter) (byte : Byte) : StackWriter where
  mem := Function.update writer.mem writer.stack byte
  stack := writer.stack - 1

/-- `cpu_initialize_context`: the memory afterwards. -/
def cpuInitializeContext
    (mem : Memory)
    (ctx ssSp ssSize func : Addr) : Memory :=
  let writer : StackWriter := ⟨mem, ssSp + ssSize - 1⟩
  let writer := writer.put (low (func &&& 0xFF))
  let writer := writer.put (low ((func >>> 8) &&& 0xFF))
  let writer := writer.put 0x00
  let writer := writer.put 0x80
  let writer := (List.range' 1 31).foldl (fun writer _ => writer.put 0x00)
    writer
  storeWord writer.mem ctx writer.stack

/-! ## The frame -/

/-- What a thread finds again when it is switched back to: the registers, the
stack pointer as before the call and the address after it. -/
@[ext] structure Registers where
  reg : Fin 32 → Byte
  sreg : Byte
  sp : Addr
  pc : Addr

/-- The registers of the core. -/
def Cpu.registers (cpu : Cpu) : Registers :=
  ⟨cpu.reg, cpu.sreg, cpu.sp, cpu.pc⟩

/-- A core with these registers. -/
def Registers.toCpu (registers : Registers) (mem : Memory) : Cpu :=
  ⟨registers.reg, registers.sreg, registers.sp, registers.pc, mem⟩

/-- `r1` to `r31`, in the order in which they are pushed. -/
def generalRegisters : List (Fin 32) := (List.finRange 31).map Fin.succ

/-- The 35 bytes of a frame, from the top downwards. -/
def Registers.frame (registers : Registers) : List Byte :=
  [low registers.pc, high registers.pc, registers.reg 0, registers.sreg] ++
    generalRegisters.map registers.reg

theorem Registers.frame_length (registers : Registers) :
    registers.frame.length = 35 := by
  simp [frame, generalRegisters]

/-- The registers are saved in this memory, for the context at `ctx`. -/
structure SavedAt
    (mem : Memory)
    (ctx : Addr)
    (registers : Registers) : Prop where
  sp : loadWord mem ctx = registers.sp - 35
  frame : Holds mem registers.sp registers.frame

/-- The memory after the running thread has been saved. -/
def saveFrame (mem : Memory) (ctx : Addr) (registers : Registers) : Memory :=
  storeWord (storeDown mem registers.sp registers.frame) ctx
    (registers.sp - 35)

theorem mem_generalRegisters {index : Fin 32} :
    index ∈ generalRegisters ↔ index ≠ 0 := by
  simp [generalRegisters, Fin.exists_succ_eq]

/-! ## Saving and restoring -/

/-- The first part of `cpu_swap_context`, from `push r0` to `push r31`. -/
def pushFrame : List Instr :=
  [.push 0, .inSreg 0, .push 0] ++ generalRegisters.map .push

/-- The second part: save the stack pointer into the old context. -/
def storeSp : List Instr :=
  [.movw 30 24, .inSpl 0, .stZInc 0, .inSph 0, .stZ 0]

/-- The third part: load the stack pointer of the new context. -/
def loadSp : List Instr :=
  [.movw 30 22, .ldZInc 0, .outSpl 0, .ldZ 0, .outSph 0]

/-- The last part, from `pop r31` to `ret`. -/
def popFrame : List Instr :=
  generalRegisters.reverse.map .pop ++ [.pop 0, .outSreg 0, .pop 0, .ret]

theorem cpuSwapContext_eq :
    cpuSwapContext = pushFrame ++ storeSp ++ loadSp ++ popFrame := rfl

namespace Cpu

theorem pushBytes_setReg
    (cpu : Cpu)
    (target : Fin 32)
    (value : Byte)
    (bytes : List Byte) :
    (cpu.setReg target value).pushBytes bytes =
      (cpu.pushBytes bytes).setReg target value := rfl

/-- The first part pushes the frame and leaves `SREG` in `r0`. -/
theorem run_pushFrame (cpu : Cpu) :
    cpu.call.run pushFrame =
      (cpu.pushBytes cpu.registers.frame).setReg 0 cpu.sreg := by
  have general : generalRegisters.map
      ((cpu.pushBytes [low cpu.pc, high cpu.pc, cpu.reg 0, cpu.sreg]).setReg 0
        cpu.sreg).reg = generalRegisters.map cpu.reg := by
    refine List.map_congr_left fun index member => ?_
    exact Function.update_of_ne (mem_generalRegisters.mp member) ..
  have first : cpu.call.run [.push 0, .inSreg 0, .push 0] =
      (cpu.pushBytes [low cpu.pc, high cpu.pc, cpu.reg 0,
        cpu.sreg]).setReg 0 cpu.sreg := by
    have saved : cpu.pushBytes [low cpu.pc, high cpu.pc, cpu.reg 0,
        cpu.sreg] = ((cpu.pushBytes [low cpu.pc, high cpu.pc]).pushBytes
          [cpu.reg 0]).pushBytes [cpu.sreg] := by
      rw [← pushBytes_append, ← pushBytes_append]
      rfl
    rw [saved]
    rfl
  rw [pushFrame, run_append, first, run_push, general, pushBytes_setReg,
    ← pushBytes_append]
  rfl

/-- The second part stores the stack pointer in the old context, and clobbers
`r0`, `r30` and `r31`. -/
theorem run_storeSp
    {cpu : Cpu}
    {ctx : Addr}
    (argument : cpu.reg 25 ++ cpu.reg 24 = ctx) :
    ∃ reg, (reg 22 = cpu.reg 22 ∧ reg 23 = cpu.reg 23) ∧
      cpu.run storeSp =
        { cpu with reg := reg, mem := storeWord cpu.mem ctx cpu.sp } := by
  refine ⟨(cpu.run storeSp).reg, ⟨rfl, rfl⟩, ?_⟩
  have stored : (cpu.run storeSp).mem = Function.update
      (Function.update cpu.mem
        (cpu.reg 25 ++ cpu.reg 24) (low cpu.sp))
        (high (cpu.reg 25 ++ cpu.reg 24 + 1) ++
          low (cpu.reg 25 ++ cpu.reg 24 + 1)) (high cpu.sp) := rfl
  rw [high_append_low, argument] at stored
  ext1
  · rfl
  · rfl
  · rfl
  · rfl
  · exact stored

/-- The third part loads the stack pointer from the new context. -/
theorem run_loadSp
    {cpu : Cpu}
    {ctx : Addr}
    (argument : cpu.reg 23 ++ cpu.reg 22 = ctx) :
    ∃ reg, cpu.run loadSp =
      { cpu with reg := reg, sp := loadWord cpu.mem ctx } := by
  refine ⟨(cpu.run loadSp).reg, ?_⟩
  have loaded : (cpu.run loadSp).sp =
        cpu.mem (high (cpu.reg 23 ++ cpu.reg 22 + 1) ++
          low (cpu.reg 23 ++ cpu.reg 22 + 1)) ++
        low (high cpu.sp ++ cpu.mem (cpu.reg 23 ++ cpu.reg 22)) := rfl
  rw [high_append_low, low_append, argument] at loaded
  ext1
  · rfl
  · rfl
  · exact loaded
  · rfl
  · rfl

/-- The last part reads the frame of the new thread. -/
theorem run_popFrame
    {cpu : Cpu}
    {registers : Registers}
    (sp : cpu.sp = registers.sp - 35)
    (holds : Holds cpu.mem registers.sp registers.frame) :
    cpu.run popFrame = registers.toCpu cpu.mem := by
  rw [Registers.frame, holds_append] at holds
  obtain ⟨⟨pcLow, pcHigh, reg0, sreg, -⟩, general⟩ := holds
  have length : generalRegisters.reverse.length = 31 := rfl
  have bottom : cpu.sp + BitVec.ofNat 16 generalRegisters.reverse.length =
      registers.sp - 4 := by
    rw [sp, length]
    bv_omega
  have popped : cpu.run (generalRegisters.reverse.map .pop) =
      { cpu with
        reg := fun index => if index ∈ generalRegisters.reverse then
          registers.reg index else cpu.reg index
        sp := registers.sp - 4 } := by
    rw [← bottom]
    refine run_pop ?_
    rw [bottom, ← List.map_reverse, List.reverse_reverse]
    exact general
  rw [popFrame, run_append, popped]
  have first : registers.sp - 4 + 1 = registers.sp - 1 - 1 - 1 := by bv_omega
  have second : registers.sp - 1 - 1 - 1 + 1 = registers.sp - 1 - 1 := by
    bv_omega
  have third : registers.sp - 1 - 1 + 1 = registers.sp - 1 := by bv_omega
  have fourth : registers.sp - 1 - 1 + 2 = registers.sp := by bv_omega
  simp only [run, List.foldl_cons, List.foldl_nil, exec, setReg, first,
    second, third, fourth, sreg, reg0, pcHigh, pcLow, high_append_low,
    Registers.toCpu]
  ext1
  · funext index
    by_cases isZero : index = 0
    · subst isZero
      simp
    · simp [isZero, mem_generalRegisters]
  · simp
  · rfl
  · rfl
  · rfl

/-- The first half of `cpu_swap_context` saves the running thread and keeps the
address of the new context. -/
theorem run_save
    {cpu : Cpu}
    {oldctx newctx : Addr}
    (oldArgument : cpu.reg 25 ++ cpu.reg 24 = oldctx)
    (newArgument : cpu.reg 23 ++ cpu.reg 22 = newctx) :
    (cpu.call.run (pushFrame ++ storeSp)).mem =
        saveFrame cpu.mem oldctx cpu.registers ∧
      (cpu.call.run (pushFrame ++ storeSp)).reg 23 ++
        (cpu.call.run (pushFrame ++ storeSp)).reg 22 = newctx := by
  have pushed : (cpu.pushBytes cpu.registers.frame).sp =
      cpu.registers.sp - 35 := by
    rw [pushBytes, Registers.frame_length]
    rfl
  rw [run_append, run_pushFrame]
  have sameMem : ((cpu.pushBytes cpu.registers.frame).setReg 0
      cpu.sreg).mem = storeDown cpu.mem cpu.sp cpu.registers.frame := rfl
  have sameSp : ((cpu.pushBytes cpu.registers.frame).setReg 0
      cpu.sreg).sp = cpu.registers.sp - 35 := pushed
  have oldctxKept : ((cpu.pushBytes cpu.registers.frame).setReg 0
        cpu.sreg).reg 25 ++ ((cpu.pushBytes cpu.registers.frame).setReg 0
          cpu.sreg).reg 24 = oldctx := oldArgument
  have newctxKept : ((cpu.pushBytes cpu.registers.frame).setReg 0
        cpu.sreg).reg 23 ++ ((cpu.pushBytes cpu.registers.frame).setReg 0
          cpu.sreg).reg 22 = newctx := newArgument
  generalize (cpu.pushBytes cpu.registers.frame).setReg 0 cpu.sreg = middle
    at sameMem sameSp oldctxKept newctxKept
  obtain ⟨reg, ⟨same22, same23⟩, stored⟩ := run_storeSp oldctxKept
  rw [stored]
  refine ⟨?_, ?_⟩
  · show storeWord middle.mem oldctx middle.sp = _
    rw [sameMem, sameSp]
    rfl
  · show reg 23 ++ reg 22 = newctx
    rw [same23, same22, newctxKept]

/-- A call of `cpu_swap_context` saves the running thread and continues with the
registers that are saved in the new context. -/
theorem call_cpuSwapContext
    {cpu : Cpu}
    {oldctx newctx : Addr}
    {registers : Registers}
    (oldArgument : cpu.reg 25 ++ cpu.reg 24 = oldctx)
    (newArgument : cpu.reg 23 ++ cpu.reg 22 = newctx)
    (saved : SavedAt (saveFrame cpu.mem oldctx cpu.registers) newctx
      registers) :
    cpu.call.run cpuSwapContext =
      registers.toCpu (saveFrame cpu.mem oldctx cpu.registers) := by
  obtain ⟨memory, argument⟩ := run_save oldArgument newArgument
  rw [cpuSwapContext_eq, run_append, run_append]
  generalize cpu.call.run (pushFrame ++ storeSp) = middle at memory argument
  obtain ⟨reg, loaded⟩ := run_loadSp argument
  rw [loaded]
  rw [← memory] at saved ⊢
  exact run_popFrame saved.sp saved.frame

end Cpu

/-! ## The first frame -/

/-- What a new thread finds. -/
def startRegisters (ssSp ssSize func : Addr) : Registers :=
  ⟨fun _ => 0, 0x80, ssSp + ssSize - 1, func⟩

theorem low_and_mask (word : Addr) : low (word &&& 0xFF) = low word := by
  apply BitVec.eq_of_toNat_eq
  have mask := Nat.and_two_pow_sub_one_eq_mod word.toNat 8
  have ones : BitVec.toNat (0xFF : Addr) = 2 ^ 8 - 1 := rfl
  simp only [low, BitVec.toNat_setWidth, BitVec.toNat_and]
  rw [ones, mask, Nat.mod_mod]

theorem foldl_put
    (writer : StackWriter)
    (bytes : List Byte) :
    bytes.foldl StackWriter.put writer =
      ⟨storeDown writer.mem writer.stack bytes,
        writer.stack - BitVec.ofNat 16 bytes.length⟩ := by
  induction bytes generalizing writer with
  | nil => simp [storeDown]
  | cons byte bytes inductionHypothesis =>
      have address : writer.stack - 1 - BitVec.ofNat 16 bytes.length =
          writer.stack - BitVec.ofNat 16 (bytes.length + 1) := by bv_omega
      rw [List.foldl_cons, inductionHypothesis, StackWriter.put, address]
      rfl

/-- `cpu_initialize_context` writes the frame that `cpu_swap_context` reads. -/
theorem cpuInitializeContext_eq
    (mem : Memory)
    (ctx ssSp ssSize func : Addr) :
    cpuInitializeContext mem ctx ssSp ssSize func =
      saveFrame mem ctx (startRegisters ssSp ssSize func) := by
  have loop : ∀ writer : StackWriter,
      (List.range' 1 31).foldl (fun writer _ => writer.put 0x00) writer =
        (List.replicate 31 0x00).foldl StackWriter.put writer :=
    fun _ => rfl
  have bytes : (startRegisters ssSp ssSize func).frame =
      [low func, high func, 0x00, 0x80] ++ List.replicate 31 0x00 := rfl
  have written : (List.replicate 31 0x00).foldl StackWriter.put
      ([low func, high func, 0x00, 0x80].foldl StackWriter.put
        ⟨mem, ssSp + ssSize - 1⟩) =
      ⟨storeDown mem (ssSp + ssSize - 1)
          (startRegisters ssSp ssSize func).frame,
        ssSp + ssSize - 1 - 35⟩ := by
    rw [← List.foldl_append, ← bytes, foldl_put, Registers.frame_length]
    rfl
  have upper : (((StackWriter.put ⟨mem, ssSp + ssSize - 1⟩ (low func)).put
      (low (func >>> 8))).put 0x00).put 0x80 =
        [low func, high func, 0x00, 0x80].foldl StackWriter.put
          ⟨mem, ssSp + ssSize - 1⟩ := rfl
  unfold cpuInitializeContext
  simp only [low_and_mask, loop]
  rw [upper, written]
  simp only [saveFrame, startRegisters]

end Avr
end TinierOS
