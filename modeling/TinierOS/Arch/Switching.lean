import TinierOS.Arch.Context
import TinierOS.Library.Transition
import Mathlib.Data.Fin.VecNotation
import Mathlib.Data.Fintype.Basic
import Mathlib.Tactic.FinCases

/-!
# Switching between threads

Any number of threads with stacks and contexts of their own, of which one is
running.  A history variable records for every other thread the registers it was
switched out with, or those it was prepared with; a switch to the thread gives
exactly these back.
-/

namespace TinierOS
namespace Avr

/-! ## The threads in memory -/

/-- The address belongs to the stack block. -/
def InStack (ssSp ssSize addr : Addr) : Prop :=
  ssSp.toNat ≤ addr.toNat ∧ addr.toNat < ssSp.toNat + ssSize.toNat

/-- The address belongs to the two bytes of a `cpu_context_t`. -/
def InContext (ctx addr : Addr) : Prop := addr = ctx ∨ addr = ctx + 1

/-- A frame below this stack pointer fits into the stack block. -/
def FrameFits (ssSp ssSize sp : Addr) : Prop :=
  ssSp.toNat + 34 ≤ sp.toNat ∧ sp.toNat < ssSp.toNat + ssSize.toNat

/-- Contexts and stack blocks of `count` threads, large enough for a frame and
pairwise disjoint. -/
structure Threads (count : Nat) where
  ctx : Fin count → Addr
  ssSp : Fin count → Addr
  ssSize : Fin count → Addr
  room : ∀ thread, 35 ≤ (ssSize thread).toNat
  fits : ∀ thread, (ssSp thread).toNat + (ssSize thread).toNat ≤ 2 ^ 16
  ownStack : ∀ first second addr, InStack (ssSp first) (ssSize first) addr →
    InStack (ssSp second) (ssSize second) addr → first = second
  ownContext : ∀ first second addr, InContext (ctx first) addr →
    InContext (ctx second) addr → first = second
  contextsOutside : ∀ first second addr, InContext (ctx first) addr →
    ¬InStack (ssSp second) (ssSize second) addr

/-- The frame lies in the block. -/
theorem FrameFits.inStack
    {ssSp ssSize sp addr : Addr}
    (fits : FrameFits ssSp ssSize sp)
    (within : Within sp 35 addr) :
    InStack ssSp ssSize addr := by
  unfold FrameFits at fits
  unfold Within at within
  unfold InStack
  bv_omega

/-! ## Saving a frame -/

theorem saveFrame_outside
    {ctx addr : Addr}
    {registers : Registers}
    (mem : Memory)
    (notFrame : ¬Within registers.sp 35 addr)
    (notContext : ¬InContext ctx addr) :
    saveFrame mem ctx registers addr = mem addr := by
  rw [InContext, not_or] at notContext
  rw [saveFrame, storeWord_of_ne _ _ notContext.1 notContext.2]
  apply storeDown_outside
  rwa [Registers.frame_length]

/-- A saved thread is not affected by changes elsewhere. -/
theorem SavedAt.congr
    {mem mem' : Memory}
    {ctx : Addr}
    {registers : Registers}
    (saved : SavedAt mem ctx registers)
    (sameContext : ∀ addr, InContext ctx addr → mem' addr = mem addr)
    (sameFrame : ∀ addr, Within registers.sp 35 addr →
      mem' addr = mem addr) :
    SavedAt mem' ctx registers where
  sp := by
    rw [← saved.sp, loadWord, loadWord, sameContext _ (.inl rfl),
      sameContext _ (.inr rfl)]
  frame := by
    apply saved.frame.congr
    rwa [Registers.frame_length]

/-- A saved frame can be read back. -/
theorem savedAt_saveFrame
    {ctx : Addr}
    {registers : Registers}
    (mem : Memory)
    (apart : ∀ addr, InContext ctx addr → ¬Within registers.sp 35 addr) :
    SavedAt (saveFrame mem ctx registers) ctx registers where
  sp := loadWord_storeWord _ _ _
  frame := by
    have length := registers.frame_length
    have stored := holds_storeDown mem registers.sp
      (show registers.frame.length ≤ 2 ^ 16 by omega)
    apply stored.congr
    intro addr within
    rw [length] at within
    have notContext : ¬InContext ctx addr := fun inContext =>
      apart addr inContext within
    rw [InContext, not_or] at notContext
    exact storeWord_of_ne _ _ notContext.1 notContext.2

section Threads

variable {count : Nat} {threads : Threads count}
variable {thread other : Fin count}
variable {registers otherRegisters : Registers}

/-- Saving a thread on its own stack, for its own context. -/
theorem Threads.savedAt_own
    (fits : FrameFits (threads.ssSp thread) (threads.ssSize thread)
      registers.sp)
    (mem : Memory) :
    SavedAt (saveFrame mem (threads.ctx thread) registers)
      (threads.ctx thread) registers := by
  refine savedAt_saveFrame mem ?_
  intro addr inContext within
  exact threads.contextsOutside _ _ addr inContext (fits.inStack within)

/-- Saving a thread does not affect another saved thread. -/
theorem Threads.savedAt_other
    {mem : Memory}
    (different : other ≠ thread)
    (fits : FrameFits (threads.ssSp thread) (threads.ssSize thread)
      registers.sp)
    (otherFits : FrameFits (threads.ssSp other) (threads.ssSize other)
      otherRegisters.sp)
    (saved : SavedAt mem (threads.ctx other) otherRegisters) :
    SavedAt (saveFrame mem (threads.ctx thread) registers)
      (threads.ctx other) otherRegisters := by
  refine saved.congr ?_ ?_
  · intro addr inContext
    refine saveFrame_outside mem ?_ ?_
    · intro within
      exact threads.contextsOutside _ _ addr inContext (fits.inStack within)
    · intro again
      exact different (threads.ownContext _ _ addr inContext again)
  · intro addr within
    have inStack := otherFits.inStack within
    refine saveFrame_outside mem ?_ ?_
    · intro again
      exact different (threads.ownStack _ _ addr inStack
        (fits.inStack again))
    · intro inContext
      exact threads.contextsOutside _ _ addr inContext inStack

/-- The top of a stack block has room for the first frame. -/
theorem Threads.frameFits_start
    (threads : Threads count)
    (thread : Fin count) :
    FrameFits (threads.ssSp thread) (threads.ssSize thread)
      (threads.ssSp thread + threads.ssSize thread - 1) := by
  have room := threads.room thread
  have fits := threads.fits thread
  unfold FrameFits
  bv_omega

end Threads

/-! ## The machine -/

/-- The core, the running thread, and the history of the others. -/
structure Machine (count : Nat) where
  cpu : Cpu
  current : Fin count
  saved : Fin count → Option Registers

/-- What can happen: the running thread computes, calls `cpu_swap_context`, or
prepares another thread. -/
inductive SwitchAction (count : Nat)
  | compute (cpu : Cpu)
  | swapContext (next : Fin count)
  | initializeContext (thread : Fin count) (func : Addr)

namespace Machine

variable {count : Nat} (threads : Threads count)

/-- The history once the running thread has called `cpu_swap_context`. -/
def switchedOut (machine : Machine count) : Fin count → Option Registers :=
  Function.update machine.saved machine.current (some machine.cpu.registers)

/-- One action. -/
def step
    (machine : Machine count) :
    SwitchAction count → Except Empty (Machine count)
  | .compute cpu => .ok { machine with cpu := cpu }
  | .swapContext next => .ok
      { cpu := machine.cpu.call.run cpuSwapContext
        current := next
        saved := Function.update machine.switchedOut next none }
  | .initializeContext thread func => .ok
      { machine with
        cpu := { machine.cpu with
          mem := cpuInitializeContext machine.cpu.mem (threads.ctx thread)
            (threads.ssSp thread) (threads.ssSize thread) func }
        saved := Function.update machine.saved thread
          (some (startRegisters (threads.ssSp thread)
            (threads.ssSize thread) func)) }

/-- When it may happen.  The running thread leaves the stacks of the others and
all contexts alone; it calls `cpu_swap_context` with the addresses of its own
context and of the context of a thread that can be resumed, with room for the
frame on its stack. -/
def Enabled (machine : Machine count) : SwitchAction count → Prop
  | .compute cpu => ∀ addr,
      (∃ other, other ≠ machine.current ∧
          InStack (threads.ssSp other) (threads.ssSize other) addr) ∨
        (∃ thread, InContext (threads.ctx thread) addr) →
      cpu.mem addr = machine.cpu.mem addr
  | .swapContext next =>
      machine.cpu.reg 25 ++ machine.cpu.reg 24 =
          threads.ctx machine.current ∧
        machine.cpu.reg 23 ++ machine.cpu.reg 22 = threads.ctx next ∧
        FrameFits (threads.ssSp machine.current)
          (threads.ssSize machine.current) machine.cpu.sp ∧
        machine.switchedOut next ≠ none
  | .initializeContext thread _ => thread ≠ machine.current

/-- The machine when nobody has been switched out or prepared yet. -/
def start (cpu : Cpu) (current : Fin count) : Machine count :=
  ⟨cpu, current, fun _ => none⟩

/-- The states of all runs that start with this thread running. -/
abbrev Reached
    (cpu : Cpu)
    (current : Fin count)
    (machine : Machine count) : Prop :=
  Reachable (step threads) (Enabled threads) (start cpu current) machine

/-- The history tells the truth about the memory. -/
def Sound (machine : Machine count) : Prop :=
  ∀ thread registers, machine.saved thread = some registers →
    thread ≠ machine.current ∧
      FrameFits (threads.ssSp thread) (threads.ssSize thread) registers.sp ∧
      SavedAt machine.cpu.mem (threads.ctx thread) registers

variable {threads}

/-- Where the threads are saved once the running thread has saved itself. -/
theorem Sound.switchedOut
    {machine : Machine count}
    {thread : Fin count}
    {registers : Registers}
    (sound : machine.Sound threads)
    (fits : FrameFits (threads.ssSp machine.current)
      (threads.ssSize machine.current) machine.cpu.sp)
    (saved : machine.switchedOut thread = some registers) :
    FrameFits (threads.ssSp thread) (threads.ssSize thread) registers.sp ∧
      SavedAt (saveFrame machine.cpu.mem (threads.ctx machine.current)
        machine.cpu.registers) (threads.ctx thread) registers := by
  by_cases isCurrent : thread = machine.current
  · subst isCurrent
    rw [Machine.switchedOut, Function.update_self] at saved
    cases saved
    exact ⟨fits, Threads.savedAt_own fits _⟩
  · rw [Machine.switchedOut, Function.update_of_ne isCurrent] at saved
    obtain ⟨-, otherFits, other⟩ := sound thread registers saved
    exact ⟨otherFits, Threads.savedAt_other isCurrent fits otherFits other⟩

/-- A switch gives the registers of the resumed thread back. -/
theorem Sound.swapContext
    {machine : Machine count}
    {next : Fin count}
    {registers : Registers}
    (sound : machine.Sound threads)
    (enabled : machine.Enabled threads (.swapContext next))
    (saved : machine.switchedOut next = some registers) :
    machine.cpu.call.run cpuSwapContext = registers.toCpu
      (saveFrame machine.cpu.mem (threads.ctx machine.current)
        machine.cpu.registers) := by
  obtain ⟨oldArgument, newArgument, fits, -⟩ := enabled
  exact Cpu.call_cpuSwapContext oldArgument newArgument
    (sound.switchedOut fits saved).2

/-- Every action keeps the history true. -/
theorem Sound.step
    {before after : Machine count}
    {action : SwitchAction count}
    (sound : before.Sound threads)
    (enabled : before.Enabled threads action)
    (stepped : before.step threads action = .ok after) :
    after.Sound threads := by
  intro thread registers saved
  cases action with
  | compute cpu =>
      cases stepped
      obtain ⟨notCurrent, fits, savedAt⟩ := sound thread registers saved
      refine ⟨notCurrent, fits, savedAt.congr ?_ ?_⟩
      · intro addr inContext
        exact enabled addr (.inr ⟨thread, inContext⟩)
      · intro addr within
        exact enabled addr (.inl ⟨thread, notCurrent, fits.inStack within⟩)
  | swapContext next =>
      cases stepped
      dsimp only at saved ⊢
      obtain ⟨resumed, isSaved⟩ :=
        Option.ne_none_iff_exists'.mp enabled.2.2.2
      have notNext : thread ≠ next := by
        rintro rfl
        rw [Function.update_self] at saved
        cases saved
      rw [Function.update_of_ne notNext] at saved
      rw [sound.swapContext enabled isSaved]
      exact ⟨notNext, sound.switchedOut enabled.2.2.1 saved⟩
  | initializeContext prepared func =>
      cases stepped
      dsimp only at saved ⊢
      have startFits := threads.frameFits_start prepared
      rw [cpuInitializeContext_eq]
      by_cases isPrepared : thread = prepared
      · subst isPrepared
        rw [Function.update_self] at saved
        cases saved
        exact ⟨enabled, startFits, Threads.savedAt_own startFits _⟩
      · rw [Function.update_of_ne isPrepared] at saved
        obtain ⟨notCurrent, fits, savedAt⟩ := sound thread registers saved
        exact ⟨notCurrent, fits,
          Threads.savedAt_other isPrepared startFits fits savedAt⟩

theorem Reached.sound
    {cpu : Cpu}
    {current : Fin count}
    {machine : Machine count}
    (reached : machine.Reached threads cpu current) :
    machine.Sound threads := by
  refine reached.invariant (motive := Sound threads) ?_ ?_
  · intro thread registers saved
    cases saved
  · intro before after action sound enabled stepped
    exact sound.step enabled stepped

/-- The action neither resumes nor prepares the thread. -/
def Spares (thread : Fin count) : SwitchAction count → Prop
  | .compute _ => True
  | .swapContext next => next ≠ thread
  | .initializeContext prepared _ => prepared ≠ thread

/-- The states reached while the thread is neither resumed nor prepared. -/
abbrev ReachedSparing
    (threads : Threads count)
    (thread : Fin count)
    (earlier later : Machine count) : Prop :=
  Reachable (step threads)
    (fun machine action => machine.Enabled threads action ∧
      Spares thread action) earlier later

/-- A saved thread stays saved until it is resumed or prepared again. -/
theorem Sound.saved_of_spares
    {before after : Machine count}
    {action : SwitchAction count}
    {thread : Fin count}
    {registers : Registers}
    (sound : before.Sound threads)
    (saved : before.saved thread = some registers)
    (spares : Spares thread action)
    (stepped : before.step threads action = .ok after) :
    after.saved thread = some registers := by
  have notCurrent := (sound thread registers saved).1
  cases action with
  | compute cpu =>
      cases stepped
      exact saved
  | swapContext next =>
      cases stepped
      dsimp only
      rw [Function.update_of_ne (Ne.symm spares), Machine.switchedOut,
        Function.update_of_ne notCurrent]
      exact saved
  | initializeContext prepared func =>
      cases stepped
      dsimp only
      rw [Function.update_of_ne (Ne.symm spares)]
      exact saved

/-- The thread is resumed with the registers it was saved with, however long
that takes. -/
theorem Sound.resumes
    {before later : Machine count}
    {thread : Fin count}
    {registers : Registers}
    (sound : before.Sound threads)
    (saved : before.saved thread = some registers)
    (reached : ReachedSparing threads thread before later)
    (enabled : later.Enabled threads (.swapContext thread)) :
    ∃ after, later.step threads (.swapContext thread) = .ok after ∧
      after.cpu.registers = registers := by
  have kept : later.Sound threads ∧ later.saved thread = some registers := by
    refine reached.invariant
      (motive := fun machine => machine.Sound threads ∧
        machine.saved thread = some registers) ⟨sound, saved⟩ ?_
    intro earlier next action holds allowed stepped
    exact ⟨holds.1.step allowed.1 stepped,
      holds.1.saved_of_spares holds.2 allowed.2 stepped⟩
  obtain ⟨laterSound, laterSaved⟩ := kept
  have notCurrent := (laterSound thread registers laterSaved).1
  have switchedOut : later.switchedOut thread = some registers := by
    rw [Machine.switchedOut, Function.update_of_ne notCurrent]
    exact laterSaved
  refine ⟨_, rfl, ?_⟩
  dsimp only
  rw [laterSound.swapContext enabled switchedOut]
  rfl

/-- In every run, a thread that is switched out finds the registers of the call
again when it is next switched to, and a thread that is prepared starts at its
function with cleared registers; preparing it touches only the top 35 bytes of
its stack block and its context. -/
theorem context_switch_lossless
    {cpu : Cpu}
    {current : Fin count}
    {machine : Machine count}
    (reached : machine.Reached threads cpu current) :
    (∀ next out later, machine.Enabled threads (.swapContext next) →
      next ≠ machine.current →
      machine.step threads (.swapContext next) = .ok out →
      ReachedSparing threads machine.current out later →
      later.Enabled threads (.swapContext machine.current) →
        ∃ after,
          later.step threads (.swapContext machine.current) = .ok after ∧
          after.cpu.registers = machine.cpu.registers) ∧
      ∀ thread func prepared later,
        machine.Enabled threads (.initializeContext thread func) →
        machine.step threads (.initializeContext thread func) =
          .ok prepared →
        (∀ addr, ¬InContext (threads.ctx thread) addr →
          ¬Within (threads.ssSp thread + threads.ssSize thread - 1) 35 addr →
            prepared.cpu.mem addr = machine.cpu.mem addr) ∧
        (ReachedSparing threads thread prepared later →
          later.Enabled threads (.swapContext thread) →
          ∃ after, later.step threads (.swapContext thread) = .ok after ∧
            after.cpu.registers = ⟨fun _ => 0, 0x80,
              threads.ssSp thread + threads.ssSize thread - 1, func⟩) := by
  have sound := reached.sound
  refine ⟨?_, ?_⟩
  · intro next out later enabled different stepped continues back
    have outSound := sound.step enabled stepped
    refine outSound.resumes ?_ continues back
    cases stepped
    dsimp only
    rw [Function.update_of_ne (Ne.symm different), Machine.switchedOut,
      Function.update_self]
  · intro thread func prepared later enabled stepped
    have preparedSound := sound.step enabled stepped
    cases stepped
    refine ⟨?_, ?_⟩
    · intro addr notContext notFrame
      dsimp only
      rw [cpuInitializeContext_eq]
      exact saveFrame_outside _ notFrame notContext
    · intro continues first
      exact preparedSound.resumes (Function.update_self ..) continues first

/-- Two threads with stacks of 256 bytes. -/
def twoThreads : Threads 2 where
  ctx := ![0x0200, 0x0202]
  ssSp := ![0x0300, 0x0400]
  ssSize := ![0x0100, 0x0100]
  room := by decide
  fits := by decide
  ownStack := by
    intro first second addr
    fin_cases first <;> fin_cases second <;> simp [InStack] <;> omega
  ownContext := by
    intro first second addr
    fin_cases first <;> fin_cases second <;> simp [InContext] <;> bv_omega
  contextsOutside := by
    intro first second addr
    fin_cases first <;> fin_cases second <;> simp [InStack, InContext] <;>
      bv_omega

/-- A core whose running thread is about to switch from the first context of
`twoThreads` to the second. -/
def firstSwitch : Cpu where
  reg := fun index =>
    if index = 22 ∨ index = 23 ∨ index = 25 then 0x02 else 0x00
  sreg := 0x00
  sp := 0x03FF
  pc := 0x1234
  mem := fun _ => 0x00

/-- The core once the second thread is about to switch back to the first. -/
def switchBack (mem : Memory) : Cpu where
  reg := fun index =>
    if index = 23 ∨ index = 24 ∨ index = 25 then 0x02 else 0x00
  sreg := 0x00
  sp := 0x04FF
  pc := 0x0100
  mem := mem

/-- The first thread prepares the second one and switches to it, and the second
one switches back. -/
theorem context_switch_lossless_two_threads :
    ∃ machine out later after : Machine 2,
      (machine.Reached twoThreads firstSwitch 0 ∧
        machine.step twoThreads (.swapContext 1) = .ok out ∧
        ReachedSparing twoThreads machine.current out later ∧
        later.Enabled twoThreads (.swapContext machine.current)) ∧
      out.cpu.registers = ⟨fun _ => 0, 0x80, 0x04FF, 0x0080⟩ ∧
      later.step twoThreads (.swapContext machine.current) = .ok after ∧
      after.cpu.registers = machine.cpu.registers := by
  obtain ⟨machine, stepped⟩ : ∃ machine, (start firstSwitch 0).step twoThreads
      (.initializeContext 1 0x0080) = .ok machine := ⟨_, rfl⟩
  have prepares : (start firstSwitch 0).Enabled twoThreads
      (.initializeContext 1 0x0080) := by
    rw [Enabled, start]
    decide
  have reached : machine.Reached twoThreads firstSwitch 0 :=
    Reachable.tail .refl prepares stepped
  have enabled : machine.Enabled twoThreads (.swapContext 1) := by
    cases stepped
    refine ⟨by decide, by decide, ⟨by decide, by decide⟩, ?_⟩
    simp [switchedOut, start]
  have isFirst : machine.current = 0 := by
    cases stepped
    rfl
  obtain ⟨out, starts, registers⟩ := ((context_switch_lossless .refl).2 1 0x0080
    machine machine prepares stepped).2 .refl enabled
  obtain ⟨later, computed⟩ : ∃ later, out.step twoThreads
      (.compute (switchBack out.cpu.mem)) = .ok later := ⟨_, rfl⟩
  have computes : out.Enabled twoThreads
      (.compute (switchBack out.cpu.mem)) := fun _ _ => rfl
  have continues : ReachedSparing twoThreads machine.current out later :=
    Reachable.tail .refl ⟨computes, trivial⟩ computed
  have back : later.Enabled twoThreads (.swapContext machine.current) := by
    rw [isFirst]
    cases computed
    cases starts
    refine ⟨?_, ?_, ?_, ?_⟩
    · simp [switchBack, twoThreads]
    · simp [switchBack, twoThreads]
    · show FrameFits 0x0400 0x0100 0x04FF
      unfold FrameFits
      decide
    · simp [switchedOut, isFirst]
  obtain ⟨after, resumes, same⟩ := (context_switch_lossless reached).1 1 out
    later enabled (by rw [isFirst]; decide) starts continues back
  exact ⟨machine, out, later, after, ⟨reached, starts, continues, back⟩,
    registers, resumes, same⟩

end Machine
end Avr
end TinierOS
