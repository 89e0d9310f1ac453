import Mathlib.Data.List.Basic
import Mathlib.Logic.Function.Basic

/-!
# Byte memory

A memory in which only some addresses are mapped.  Reading or writing any other
address fails, so that a program that succeeds on a memory has stayed within its
mapped bytes.
-/

namespace TinierOS

/-- The byte at every address; nothing at the unmapped ones. -/
abbrev ByteMemory := Nat → Option UInt8

namespace ByteMemory

/-- Store a byte; the address must be mapped. -/
def write
    (memory : ByteMemory)
    (address : Nat)
    (byte : UInt8) :
    Option ByteMemory :=
  if (memory address).isSome then
    some (Function.update memory address (some byte))
  else none

/-- The given bytes stand from an address on. -/
def Holds (memory : ByteMemory) (address : Nat) : List UInt8 → Prop
  | [] => True
  | byte :: bytes => memory address = some byte ∧
      Holds memory (address + 1) bytes

/-- The addresses of a block are mapped. -/
def Mapped (memory : ByteMemory) (address count : Nat) : Prop :=
  ∀ index < count, (memory (address + index)).isSome

/-- The memory after the given bytes have been stored from an address on. -/
def stored (memory : ByteMemory) (address : Nat) : List UInt8 → ByteMemory
  | [] => memory
  | byte :: bytes =>
      stored (Function.update memory address (some byte)) (address + 1) bytes

/-- Only the addresses of one block stay mapped. -/
def within (memory : ByteMemory) (address count : Nat) : ByteMemory := fun place =>
  if address ≤ place ∧ place < address + count then memory place else none

variable {memory other : ByteMemory} {address count : Nat} {bytes : List UInt8}

@[simp] theorem holds_nil : memory.Holds address [] := trivial

theorem holds_cons {byte : UInt8} :
    memory.Holds address (byte :: bytes) ↔
      memory address = some byte ∧ memory.Holds (address + 1) bytes := Iff.rfl

theorem holds_append {before : List UInt8} :
    memory.Holds address (before ++ bytes) ↔
      memory.Holds address before ∧
        memory.Holds (address + before.length) bytes := by
  induction before generalizing address with
  | nil => simp
  | cons byte before inductionHypothesis =>
      rw [List.cons_append, holds_cons, holds_cons, inductionHypothesis,
        List.length_cons, and_assoc, Nat.add_assoc, Nat.add_comm 1]

/-- What stands in a block depends on that block only. -/
theorem Holds.congr
    (holds : memory.Holds address bytes)
    (same : ∀ place, address ≤ place → place < address + bytes.length →
      other place = memory place) :
    other.Holds address bytes := by
  induction bytes generalizing address with
  | nil => trivial
  | cons byte bytes inductionHypothesis =>
      rw [List.length_cons] at same
      refine ⟨?_, ?_⟩
      · rw [same address (Nat.le_refl _) (by omega)]
        exact holds.1
      · apply inductionHypothesis holds.2
        intro place low high
        exact same place (by omega) (by omega)

theorem stored_of_lt
    {place : Nat}
    (bytes : List UInt8)
    (below : place < address) :
    memory.stored address bytes place = memory place := by
  induction bytes generalizing memory address with
  | nil => rfl
  | cons byte bytes inductionHypothesis =>
      rw [stored, inductionHypothesis (Nat.lt_succ_of_lt below),
        Function.update_of_ne (Nat.ne_of_lt below)]

theorem stored_of_le
    {place : Nat}
    (above : address + bytes.length ≤ place) :
    memory.stored address bytes place = memory place := by
  induction bytes generalizing memory address with
  | nil => rfl
  | cons byte bytes inductionHypothesis =>
      rw [List.length_cons] at above
      rw [stored, inductionHypothesis (by omega),
        Function.update_of_ne (by omega)]

/-- Bytes that have been stored are there. -/
theorem holds_stored (memory : ByteMemory) (address : Nat) (bytes : List UInt8) :
    (memory.stored address bytes).Holds address bytes := by
  induction bytes generalizing memory address with
  | nil => trivial
  | cons byte bytes inductionHypothesis =>
      refine ⟨?_, inductionHypothesis _ _⟩
      rw [stored, stored_of_lt bytes (Nat.lt_succ_self address),
        Function.update_self]

theorem stored_append
    (memory : ByteMemory)
    (address : Nat)
    (before bytes : List UInt8) :
    memory.stored address (before ++ bytes) =
      (memory.stored address before).stored (address + before.length) bytes := by
  induction before generalizing memory address with
  | nil => rfl
  | cons byte before inductionHypothesis =>
      rw [List.cons_append, stored, inductionHypothesis, stored,
        List.length_cons, Nat.add_assoc, Nat.add_comm 1]

/-- Bytes in a block that the stored ones do not touch stay. -/
theorem Holds.stored
    {start : Nat}
    {written : List UInt8}
    (holds : memory.Holds address bytes)
    (apart : address + bytes.length ≤ start ∨
      start + written.length ≤ address) :
    (memory.stored start written).Holds address bytes := by
  apply holds.congr
  intro place low high
  rcases apart with below | above
  · exact stored_of_lt written (by omega)
  · exact stored_of_le (by omega)

theorem Mapped.stored
    {start size : Nat}
    {written : List UInt8}
    (mapped : memory.Mapped start size) :
    (memory.stored address written).Mapped start size := by
  induction written generalizing memory address with
  | nil => exact mapped
  | cons byte written inductionHypothesis =>
      apply inductionHypothesis
      intro index small
      by_cases same : start + index = address
      · rw [same, Function.update_self]
        rfl
      · rw [Function.update_of_ne same]
        exact mapped index small

/-- The part of a mapped block from an offset on. -/
theorem Mapped.part
    {offset shorter : Nat}
    (mapped : memory.Mapped address count)
    (small : offset + shorter ≤ count) :
    memory.Mapped (address + offset) shorter := by
  intro index inPart
  rw [Nat.add_assoc]
  exact mapped (offset + index) (by omega)

theorem Mapped.shorter
    {shorter : Nat}
    (mapped : memory.Mapped address count)
    (small : shorter ≤ count) :
    memory.Mapped address shorter :=
  fun index inPart => mapped index (Nat.lt_of_lt_of_le inPart small)

/-- The first byte of a mapped block can be written. -/
theorem Mapped.write
    (mapped : memory.Mapped address (count + 1))
    (byte : UInt8) :
    memory.write address byte = some (memory.stored address [byte]) :=
  if_pos (mapped 0 (Nat.succ_pos count))

/-- A block can be read as before when nothing else is mapped. -/
theorem Holds.within (holds : memory.Holds address bytes) :
    (memory.within address bytes.length).Holds address bytes := by
  apply holds.congr
  intro place low high
  exact if_pos ⟨low, high⟩

end ByteMemory
end TinierOS
