import TinierOS.Library.Bytes
import Mathlib.Data.List.Forall2

/-!
# Argument packing

The helpers of `include/util.h` that pack a vector of strings into an argument
buffer and unpack it again, over a byte memory.  `int` has 16 bits and must not
overflow; `size_t` has 16 bits and wraps.  A loop gives nothing when its fuel
runs out, and so does any access to an unmapped byte.
-/

namespace TinierOS
namespace Argv

open ByteMemory

/-- The largest `int`. -/
abbrev INT_MAX : Nat := 32767

/-- The number of values of a `size_t`. -/
abbrev sizeModulus : Nat := 65536

theorem INT_MAX_lt_sizeModulus : INT_MAX < sizeModulus := by decide

/-- `n++` on an `int`: there is no value past the largest. -/
def increment (n : Nat) : Option Nat :=
  if n < INT_MAX then some (n + 1) else none

/-- The loop of `strlen` -/
def strlenLoop
    (memory : ByteMemory)
    (s : Nat) :
    Nat → Nat → Option Nat
  | 0, _ => none
  | fuel + 1, len => do
      let c ← memory (s + len)
      if c ≠ 0 then strlenLoop memory s fuel ((len + 1) % sizeModulus)
      else some len

/-- `strlen` -/
def strlen (fuel : Nat) (memory : ByteMemory) (s : Nat) : Option Nat :=
  strlenLoop memory s fuel 0

/-- The loop of `argvlen` over the strings that remain. -/
def argvlenLoop
    (fuel : Nat)
    (memory : ByteMemory) :
    List Nat → Nat → Option Nat
  | [], l => some l
  | s :: argv, l => do
      let length ← strlen fuel memory s
      argvlenLoop fuel memory argv ((l + (length + 1)) % sizeModulus)

/-- `argvlen`; `argc` is the length of the vector. -/
def argvlen (fuel : Nat) (memory : ByteMemory) (argv : List Nat) : Option Nat :=
  argvlenLoop fuel memory argv 0

/-- `while ((*pos++ = *s++)) argl++`: the memory, `pos` and `argl` after it. -/
def packString :
    Nat → ByteMemory → Nat → Nat → Nat → Option (ByteMemory × Nat × Nat)
  | 0, _, _, _, _ => none
  | fuel + 1, memory, pos, s, argl => do
      let c ← memory s
      let memory ← memory.write pos c
      if c ≠ 0 then do
        let argl ← increment argl
        packString fuel memory (pos + 1) (s + 1) argl
      else some (memory, pos + 1, argl)

/-- The loop of `argvpack` over the strings that remain. -/
def argvpackLoop
    (fuel : Nat) :
    List Nat → ByteMemory → Nat → Nat → Option (ByteMemory × Nat)
  | [], memory, _, argl => some (memory, argl)
  | s :: argv, memory, pos, argl => do
      let (memory, pos, argl) ← packString fuel memory pos s argl
      argvpackLoop fuel argv memory pos argl

/-- `argvpack`: the memory afterwards and the returned length. -/
def argvpack
    (fuel : Nat)
    (memory : ByteMemory)
    (args : Nat)
    (argv : List Nat) :
    Option (ByteMemory × Nat) := do
  let (memory, argl) ← argvpackLoop fuel argv memory args 0
  some (memory, (argl + argv.length) % sizeModulus)

/-- The loop of `argscount` from index `i` on, with the number of turns left. -/
def argscountLoop
    (memory : ByteMemory)
    (a : Nat) :
    Nat → Nat → Nat → Option Nat
  | 0, _, n => some n
  | left + 1, i, n => do
      let c ← memory (a + i)
      let n ← if c = 0 then increment n else some n
      argscountLoop memory a left (i + 1) n

/-- `argscount` -/
def argscount (memory : ByteMemory) (argl args : Nat) : Option Nat :=
  argscountLoop memory args argl 0 0

/-- `while (*a++)`: the address after the zero byte. -/
def skipString (memory : ByteMemory) : Nat → Nat → Option Nat
  | 0, _ => none
  | fuel + 1, a => do
      let c ← memory a
      if c ≠ 0 then skipString memory fuel (a + 1) else some (a + 1)

/-- The loop of `argvunpack` from index `i` on, with the number of turns left:
the pointers it stores and the address it ends at. -/
def argvunpackLoop
    (fuel : Nat)
    (memory : ByteMemory) :
    Nat → Nat → Nat → Option (List Nat × Nat)
  | 0, _, a => some ([], a)
  | left + 1, i, a => do
      let next ← skipString memory fuel a
      let i ← increment i
      let (argv, stop) ← argvunpackLoop fuel memory left i next
      some (a :: argv, stop)

/-- `argvunpack`; the length of the buffer is not used. -/
def argvunpack
    (fuel : Nat)
    (memory : ByteMemory)
    (argc args : Nat) :
    Option (List Nat × Nat) :=
  argvunpackLoop fuel memory argc 0 args

/-! ## Strings and what they are packed to -/

/-- A string: its characters, of which none is the terminating zero. -/
structure CString where
  chars : List UInt8
  nulFree : 0 ∉ chars

/-- The bytes of a string with its terminating zero. -/
def CString.bytes (string : CString) : List UInt8 := string.chars ++ [0]

@[simp] theorem CString.length_bytes (string : CString) :
    string.bytes.length = string.chars.length + 1 := by
  simp [CString.bytes]

@[simp] theorem CString.count_bytes (string : CString) :
    string.bytes.count 0 = 1 := by
  simp [CString.bytes, List.count_eq_zero.mpr string.nulFree]

/-- The strings one after the other, each with its zero. -/
def packed (strings : List CString) : List UInt8 :=
  strings.flatMap CString.bytes

@[simp] theorem packed_cons (string : CString) (strings : List CString) :
    packed (string :: strings) = string.bytes ++ packed strings := rfl

/-- The number of characters without the zeros. -/
def textLength : List CString → Nat
  | [] => 0
  | string :: strings => string.chars.length + textLength strings

theorem length_packed (strings : List CString) :
    (packed strings).length = textLength strings + strings.length := by
  induction strings with
  | nil => rfl
  | cons string strings inductionHypothesis =>
      simp only [packed_cons, List.length_append, CString.length_bytes,
        inductionHypothesis, textLength, List.length_cons]
      omega

/-- There are as many zero bytes as strings. -/
theorem count_packed (strings : List CString) :
    (packed strings).count 0 = strings.length := by
  induction strings with
  | nil => rfl
  | cons string strings inductionHypothesis =>
      rw [packed_cons, List.count_append, CString.count_bytes,
        inductionHypothesis, List.length_cons, Nat.add_comm]

/-- Bytes with enough zeros begin with so many packed strings. -/
theorem exists_packed_append
    (n : Nat)
    (bytes : List UInt8)
    (enough : n ≤ bytes.count 0) :
    ∃ strings rest, strings.length = n ∧ bytes = packed strings ++ rest := by
  induction n generalizing bytes with
  | zero => exact ⟨[], bytes, rfl, rfl⟩
  | succ n inductionHypothesis =>
      have member : 0 ∈ bytes := List.count_pos_iff.mp (by omega)
      obtain ⟨chars, later, rfl, nulFree⟩ := List.eq_append_cons_of_mem member
      rw [List.count_append, List.count_eq_zero.mpr nulFree, List.count_cons_self]
        at enough
      obtain ⟨strings, rest, counted, rfl⟩ :=
        inductionHypothesis later (by omega)
      refine ⟨⟨chars, nulFree⟩ :: strings, rest, by simp [counted], ?_⟩
      simp [CString.bytes]

/-- Bytes that are empty or end in a zero are packed strings. -/
theorem exists_packed
    (bytes : List UInt8)
    (ended : bytes = [] ∨ bytes.getLast? = some 0) :
    ∃ strings, bytes = packed strings := by
  obtain ⟨strings, rest, counted, split⟩ :=
    exists_packed_append (bytes.count 0) bytes (Nat.le_refl _)
  have noneLeft : rest.count 0 = 0 := by
    have total := congrArg (List.count 0) split
    rw [List.count_append, count_packed] at total
    omega
  rcases List.eq_nil_or_concat rest with rfl | ⟨earlier, last, rfl⟩
  · exact ⟨strings, by rw [split, List.append_nil]⟩
  · rw [List.count_eq_zero] at noneLeft
    rcases ended with rfl | zeroLast
    · simp at split
    · rw [split, List.concat_eq_append, ← List.append_assoc,
        List.getLast?_concat, Option.some.injEq] at zeroLast
      subst zeroLast
      simp at noneLeft

/-- Each pointer of a vector points to its string. -/
abbrev Pointed
    (memory : ByteMemory)
    (argv : List Nat)
    (strings : List CString) : Prop :=
  List.Forall₂ (fun s string => memory.Holds s (CString.bytes string))
    argv strings

/-- The strings of a vector do not overlap a block. -/
abbrev Apart (argv : List Nat) (strings : List CString) (args size : Nat) : Prop :=
  List.Forall₂ (fun s string =>
    s + (CString.bytes string).length ≤ args ∨ args + size ≤ s) argv strings

/-! ## The loops -/

theorem strlenLoop_eq
    {memory : ByteMemory}
    {s len fuel : Nat}
    {chars : List UInt8}
    (holds : memory.Holds (s + len) (chars ++ [0]))
    (nulFree : 0 ∉ chars)
    (fits : len + chars.length < sizeModulus)
    (enough : chars.length < fuel) :
    strlenLoop memory s fuel len = some (len + chars.length) := by
  induction chars generalizing len fuel with
  | nil =>
      obtain ⟨fuel, rfl⟩ := Nat.exists_eq_succ_of_ne_zero
        (Nat.ne_zero_of_lt enough)
      simp [strlenLoop, holds.1]
  | cons c chars inductionHypothesis =>
      obtain ⟨fuel, rfl⟩ := Nat.exists_eq_succ_of_ne_zero
        (Nat.ne_zero_of_lt enough)
      rw [List.mem_cons, not_or] at nulFree
      rw [List.length_cons] at fits enough
      have step : (len + 1) % sizeModulus = len + 1 :=
        Nat.mod_eq_of_lt (by omega)
      have later := inductionHypothesis (Nat.add_assoc s len 1 ▸ holds.2)
        nulFree.2 (by omega) (Nat.lt_of_succ_lt_succ enough)
      simp only [strlenLoop, holds.1, Option.bind_eq_bind, Option.bind_some,
        ne_eq, Ne.symm nulFree.1, not_false_eq_true, if_true, step, later,
        List.length_cons]
      rw [Nat.add_assoc, Nat.add_comm 1]

/-- `strlen` counts the characters before the zero. -/
theorem strlen_eq
    {memory : ByteMemory}
    {s fuel : Nat}
    {string : CString}
    (holds : memory.Holds s string.bytes)
    (fits : string.chars.length < sizeModulus)
    (enough : string.chars.length < fuel) :
    strlen fuel memory s = some string.chars.length := by
  have run : strlenLoop memory s fuel 0 = some (0 + string.chars.length) :=
    strlenLoop_eq holds string.nulFree (by omega) enough
  rw [strlen, run, Nat.zero_add]

theorem argvlenLoop_eq
    {memory : ByteMemory}
    {argv : List Nat}
    {strings : List CString}
    {l fuel : Nat}
    (pointed : Pointed memory argv strings)
    (fits : l + (packed strings).length < sizeModulus)
    (enough : (packed strings).length < fuel) :
    argvlenLoop fuel memory argv l = some (l + (packed strings).length) := by
  induction pointed generalizing l with
  | nil => rfl
  | @cons s string argv strings holds _ inductionHypothesis =>
      rw [packed_cons, List.length_append, CString.length_bytes] at fits enough
      have length : strlen fuel memory s = some string.chars.length :=
        strlen_eq holds (by omega) (by omega)
      have step : (l + (string.chars.length + 1)) % sizeModulus =
          l + (string.chars.length + 1) := Nat.mod_eq_of_lt (by omega)
      rw [argvlenLoop, length, Option.bind_eq_bind, Option.bind_some, step,
        inductionHypothesis (by omega) (by omega), packed_cons,
        List.length_append, CString.length_bytes, Nat.add_assoc]

/-- Copying one string stores its characters and its zero. -/
theorem packString_eq
    {memory : ByteMemory}
    {pos s argl fuel : Nat}
    {chars : List UInt8}
    (holds : memory.Holds s (chars ++ [0]))
    (nulFree : 0 ∉ chars)
    (mapped : memory.Mapped pos (chars.length + 1))
    (apart : s + (chars.length + 1) ≤ pos ∨ pos + (chars.length + 1) ≤ s)
    (fits : argl + chars.length ≤ INT_MAX)
    (enough : chars.length < fuel) :
    packString fuel memory pos s argl =
      some (memory.stored pos (chars ++ [0]), pos + (chars.length + 1),
        argl + chars.length) := by
  induction chars generalizing memory pos s argl fuel with
  | nil =>
      obtain ⟨fuel, rfl⟩ := Nat.exists_eq_succ_of_ne_zero
        (Nat.ne_zero_of_lt enough)
      have written : memory.write pos 0 = some (memory.stored pos [0]) :=
        mapped.write 0
      simp [packString, holds.1, written]
  | cons c chars inductionHypothesis =>
      obtain ⟨fuel, rfl⟩ := Nat.exists_eq_succ_of_ne_zero
        (Nat.ne_zero_of_lt enough)
      rw [List.mem_cons, not_or] at nulFree
      rw [List.length_cons] at fits enough mapped apart
      have step : increment argl = some (argl + 1) := if_pos (by omega)
      have tail : memory.Holds (s + 1) (chars ++ [0]) := holds.2
      have stillHolds : (memory.stored pos [c]).Holds (s + 1) (chars ++ [0]) := by
        apply tail.stored
        simp only [List.length_append, List.length_singleton]
        omega
      have stillMapped : (memory.stored pos [c]).Mapped (pos + 1)
          (chars.length + 1) := (mapped.part (by omega)).stored
      have later := inductionHypothesis stillHolds nulFree.2 stillMapped
        (by omega) (by omega : argl + 1 + chars.length ≤ INT_MAX)
        (Nat.lt_of_succ_lt_succ enough)
      simp only [packString, holds.1, mapped.write c, Option.bind_eq_bind,
        Option.bind_some, ne_eq, Ne.symm nulFree.1, not_false_eq_true, if_true,
        step, later, Option.some.injEq, Prod.mk.injEq, List.length_cons]
      refine ⟨rfl, by omega, by omega⟩

/-- Strings that do not overlap a block survive what is stored in it. -/
theorem Pointed.stored
    {memory : ByteMemory}
    {argv : List Nat}
    {strings : List CString}
    {start size : Nat}
    {written : List UInt8}
    (pointed : Pointed memory argv strings)
    (apart : Apart argv strings start size)
    (small : written.length ≤ size) :
    Pointed (memory.stored start written) argv strings := by
  induction pointed with
  | nil => exact List.Forall₂.nil
  | cons holds others inductionHypothesis =>
      obtain ⟨first, later⟩ := List.forall₂_cons.mp apart
      refine List.Forall₂.cons ?_ (inductionHypothesis later)
      apply holds.stored
      omega

/-- A block that strings do not overlap may be made smaller. -/
theorem Apart.part
    {argv : List Nat}
    {strings : List CString}
    {args size start smaller : Nat}
    (apart : Apart argv strings args size)
    (low : args ≤ start)
    (high : start + smaller ≤ args + size) :
    Apart argv strings start smaller := by
  apply apart.imp
  intro s string separate
  omega

theorem argvpackLoop_eq
    {memory : ByteMemory}
    {argv : List Nat}
    {strings : List CString}
    {pos argl fuel : Nat}
    (pointed : Pointed memory argv strings)
    (apart : Apart argv strings pos (packed strings).length)
    (mapped : memory.Mapped pos (packed strings).length)
    (fits : argl + textLength strings ≤ INT_MAX)
    (enough : (packed strings).length < fuel) :
    argvpackLoop fuel argv memory pos argl =
      some (memory.stored pos (packed strings), argl + textLength strings) := by
  induction strings generalizing memory argv pos argl with
  | nil =>
      cases pointed
      rfl
  | cons string strings inductionHypothesis =>
      cases pointed with
      | @cons s _ argv _ holds others =>
      obtain ⟨first, later⟩ := List.forall₂_cons.mp apart
      have sized := string.length_bytes
      simp only [packed_cons, List.length_append] at later
      simp only [packed_cons, List.length_append, CString.length_bytes,
        textLength] at first mapped fits enough
      have here : memory.Mapped pos (string.chars.length + 1) :=
        mapped.shorter (Nat.le_add_right ..)
      have copied : packString fuel memory pos s argl =
          some (memory.stored pos string.bytes, pos + (string.chars.length + 1),
            argl + string.chars.length) :=
        packString_eq holds string.nulFree here (by omega) (by omega) (by omega)
      have stillPointed : Pointed (memory.stored pos string.bytes) argv strings :=
        Pointed.stored others later (Nat.le_add_right ..)
      have stillApart : Apart argv strings (pos + (string.chars.length + 1))
          (packed strings).length := Apart.part later (by omega) (by omega)
      have stillMapped : (memory.stored pos string.bytes).Mapped
          (pos + (string.chars.length + 1)) (packed strings).length :=
        (mapped.part (by omega)).stored
      have remaining := inductionHypothesis stillPointed stillApart stillMapped
        (by omega : argl + string.chars.length + textLength strings ≤ INT_MAX)
        (by omega)
      simp only [argvpackLoop, copied, remaining, Option.bind_eq_bind,
        Option.bind_some, packed_cons, ByteMemory.stored_append, sized,
        textLength, Nat.add_assoc]

/-- `argvpack` stores the packed strings and returns their length. -/
theorem argvpack_eq
    {memory : ByteMemory}
    {argv : List Nat}
    {strings : List CString}
    {args fuel : Nat}
    (pointed : Pointed memory argv strings)
    (apart : Apart argv strings args (packed strings).length)
    (mapped : memory.Mapped args (packed strings).length)
    (fits : (packed strings).length ≤ INT_MAX)
    (enough : (packed strings).length < fuel) :
    argvpack fuel memory args argv =
      some (memory.stored args (packed strings), (packed strings).length) := by
  have total := length_packed strings
  have loop : argvpackLoop fuel argv memory args 0 =
      some (memory.stored args (packed strings), 0 + textLength strings) :=
    argvpackLoop_eq pointed apart mapped (by omega) enough
  have sameLength : argv.length = strings.length := List.Forall₂.length_eq pointed
  have small : (textLength strings + strings.length) % sizeModulus =
      textLength strings + strings.length := by
    apply Nat.mod_eq_of_lt
    rw [← total]
    exact Nat.lt_of_le_of_lt fits INT_MAX_lt_sizeModulus
  simp only [argvpack, loop, Option.bind_eq_bind, Option.bind_some, sameLength,
    Nat.zero_add, small, total]

theorem argscountLoop_eq
    {memory : ByteMemory}
    {a i n : Nat}
    {bytes : List UInt8}
    (holds : memory.Holds (a + i) bytes)
    (fits : n + bytes.length ≤ INT_MAX) :
    argscountLoop memory a bytes.length i n = some (n + bytes.count 0) := by
  induction bytes generalizing i n with
  | nil => rfl
  | cons c bytes inductionHypothesis =>
      rw [List.length_cons] at fits
      have tail : memory.Holds (a + (i + 1)) bytes := Nat.add_assoc a i 1 ▸ holds.2
      have step : increment n = some (n + 1) := if_pos (by omega)
      by_cases zero : c = 0
      · have later := inductionHypothesis tail
          (by omega : n + 1 + bytes.length ≤ INT_MAX)
        simp only [List.length_cons, argscountLoop, holds.1,
          Option.bind_eq_bind, Option.bind_some, zero, if_true, step, later,
          List.count_cons_self]
        rw [Nat.add_assoc, Nat.add_comm 1]
      · have later := inductionHypothesis tail
          (by omega : n + bytes.length ≤ INT_MAX)
        simp only [List.length_cons, argscountLoop, holds.1,
          Option.bind_eq_bind, Option.bind_some, zero, if_false, later,
          List.count_cons_of_ne zero]

/-- `argscount` is the number of zero bytes of the buffer. -/
theorem argscount_eq
    {memory : ByteMemory}
    {args : Nat}
    {bytes : List UInt8}
    (holds : memory.Holds args bytes)
    (fits : bytes.length ≤ INT_MAX) :
    argscount memory bytes.length args = some (bytes.count 0) := by
  have loop : argscountLoop memory args bytes.length 0 0 =
      some (0 + bytes.count 0) := argscountLoop_eq holds (by omega)
  rw [argscount, loop, Nat.zero_add]

theorem skipString_eq
    {memory : ByteMemory}
    {a fuel : Nat}
    {chars : List UInt8}
    (holds : memory.Holds a (chars ++ [0]))
    (nulFree : 0 ∉ chars)
    (enough : chars.length < fuel) :
    skipString memory fuel a = some (a + (chars.length + 1)) := by
  induction chars generalizing a fuel with
  | nil =>
      obtain ⟨fuel, rfl⟩ := Nat.exists_eq_succ_of_ne_zero
        (Nat.ne_zero_of_lt enough)
      simp [skipString, holds.1]
  | cons c chars inductionHypothesis =>
      obtain ⟨fuel, rfl⟩ := Nat.exists_eq_succ_of_ne_zero
        (Nat.ne_zero_of_lt enough)
      rw [List.mem_cons, not_or] at nulFree
      have later := inductionHypothesis holds.2 nulFree.2
        (Nat.lt_of_succ_lt_succ enough)
      simp only [skipString, holds.1, Option.bind_eq_bind, Option.bind_some,
        ne_eq, Ne.symm nulFree.1, not_false_eq_true, if_true, later,
        List.length_cons]
      congr 1
      omega

/-- Where each of the packed strings begins. -/
def pointers (a : Nat) : List CString → List Nat
  | [] => []
  | string :: strings =>
      a :: pointers (a + (string.chars.length + 1)) strings

theorem pointed_pointers
    {memory : ByteMemory}
    {a : Nat}
    {strings : List CString}
    (holds : memory.Holds a (packed strings)) :
    Pointed memory (pointers a strings) strings := by
  induction strings generalizing a with
  | nil => exact List.Forall₂.nil
  | cons string strings inductionHypothesis =>
      obtain ⟨first, later⟩ := holds_append.mp holds
      rw [CString.length_bytes] at later
      exact List.Forall₂.cons first (inductionHypothesis later)

/-- The packed strings lie within the block that holds them. -/
theorem apart_pointers
    {a dest size : Nat}
    {strings : List CString}
    (apart : a + (packed strings).length ≤ dest ∨ dest + size ≤ a) :
    Apart (pointers a strings) strings dest size := by
  induction strings generalizing a with
  | nil => exact List.Forall₂.nil
  | cons string strings inductionHypothesis =>
      rw [packed_cons, List.length_append, CString.length_bytes] at apart
      refine List.Forall₂.cons ?_ (inductionHypothesis (by omega))
      rw [CString.length_bytes]
      omega

theorem argvunpackLoop_eq
    {memory : ByteMemory}
    {a i fuel : Nat}
    {strings : List CString}
    (holds : memory.Holds a (packed strings))
    (fits : i + strings.length ≤ INT_MAX)
    (enough : (packed strings).length < fuel) :
    argvunpackLoop fuel memory strings.length i a =
      some (pointers a strings, a + (packed strings).length) := by
  induction strings generalizing a i with
  | nil => rfl
  | cons string strings inductionHypothesis =>
      obtain ⟨first, later⟩ := holds_append.mp holds
      rw [packed_cons, List.length_append] at enough
      rw [CString.length_bytes] at later enough
      rw [List.length_cons] at fits
      have step : increment i = some (i + 1) := if_pos (by omega)
      have skipped : skipString memory fuel a =
          some (a + (string.chars.length + 1)) :=
        skipString_eq first string.nulFree (by omega)
      have remaining := inductionHypothesis later
        (by omega : i + 1 + strings.length ≤ INT_MAX) (by omega)
      simp only [List.length_cons, argvunpackLoop, skipped, step, remaining,
        Option.bind_eq_bind, Option.bind_some, pointers, packed_cons,
        List.length_append, CString.length_bytes, Nat.add_assoc]

/-- `argvunpack` finds the packed strings and ends just past them. -/
theorem argvunpack_eq
    {memory : ByteMemory}
    {args fuel : Nat}
    {strings : List CString}
    (holds : memory.Holds args (packed strings))
    (fits : (packed strings).length ≤ INT_MAX)
    (enough : (packed strings).length < fuel) :
    argvunpack fuel memory strings.length args =
      some (pointers args strings, args + (packed strings).length) := by
  have total := length_packed strings
  exact argvunpackLoop_eq holds (by omega) enough

/-! ## Round trips -/

/-- What comes of packing the strings of `argv` at `args`, counting them and
unpacking them again.  The fuel is any that exceeds the packed length. -/
def PacksBack
    (memory : ByteMemory)
    (argv : List Nat)
    (strings : List CString)
    (args : Nat) : Prop :=
  let length := (packed strings).length
  ∃ after unpacked,
    (∀ fuel, length < fuel →
      argvlen fuel memory argv = some length ∧
        argvpack fuel memory args argv = some (after, length) ∧
        argvunpack fuel after argv.length args =
          some (unpacked, args + length)) ∧
      argscount after length args = some argv.length ∧
      Pointed after unpacked strings ∧
      after.Holds args (packed strings) ∧
      ∀ address, address < args ∨ args + length ≤ address →
        after address = memory address

/-- What comes of unpacking the bytes at `args` and packing them at `dest`. -/
def UnpacksBack
    (memory : ByteMemory)
    (bytes : List UInt8)
    (args dest : Nat) : Prop :=
  ∃ count unpacked after,
    argscount memory bytes.length args = some count ∧
      (∀ fuel, bytes.length < fuel →
        argvunpack fuel memory count args =
            some (unpacked, args + bytes.length) ∧
          argvpack fuel memory dest unpacked = some (after, bytes.length)) ∧
      after.Holds dest bytes ∧
      ∀ address, address < dest ∨ dest + bytes.length ≤ address →
        after address = memory address

/-- Unpacking the first `n` strings reads no byte outside the buffer: it comes
to the same when nothing else is mapped. -/
def UnpacksInside
    (memory : ByteMemory)
    (bytes : List UInt8)
    (args n : Nat) : Prop :=
  ∃ unpacked stop, ∀ fuel, bytes.length < fuel →
    argvunpack fuel (memory.within args bytes.length) n args =
        some (unpacked, stop) ∧
      argvunpack fuel memory n args = some (unpacked, stop)

theorem packsBack
    {memory : ByteMemory}
    {argv : List Nat}
    {strings : List CString}
    {args : Nat}
    (pointed : Pointed memory argv strings)
    (apart : Apart argv strings args (packed strings).length)
    (mapped : memory.Mapped args (packed strings).length)
    (fits : (packed strings).length ≤ INT_MAX) :
    PacksBack memory argv strings args := by
  have holds := holds_stored memory args (packed strings)
  have sameLength : argv.length = strings.length := List.Forall₂.length_eq pointed
  refine ⟨memory.stored args (packed strings), pointers args strings, ?_, ?_,
    pointed_pointers holds, holds, ?_⟩
  · intro fuel enough
    have lengths : argvlenLoop fuel memory argv 0 =
        some (0 + (packed strings).length) := by
      apply argvlenLoop_eq pointed _ enough
      rw [Nat.zero_add]
      exact Nat.lt_of_le_of_lt fits INT_MAX_lt_sizeModulus
    refine ⟨?_, argvpack_eq pointed apart mapped fits enough, ?_⟩
    · rw [argvlen, lengths, Nat.zero_add]
    · rw [sameLength]
      exact argvunpack_eq holds fits enough
  · rw [argscount_eq holds fits, count_packed, sameLength]
  · rintro address (below | above)
    · exact stored_of_lt _ below
    · exact stored_of_le above

theorem unpacksBack
    {memory : ByteMemory}
    {bytes : List UInt8}
    {args dest : Nat}
    (holds : memory.Holds args bytes)
    (ended : bytes = [] ∨ bytes.getLast? = some 0)
    (fits : bytes.length ≤ INT_MAX)
    (mapped : memory.Mapped dest bytes.length)
    (apart : args + bytes.length ≤ dest ∨ dest + bytes.length ≤ args) :
    UnpacksBack memory bytes args dest := by
  obtain ⟨strings, rfl⟩ := exists_packed bytes ended
  have pointed := pointed_pointers holds
  obtain ⟨after, _, runs, _, _, stored, outside⟩ :=
    packsBack pointed (apart_pointers apart) mapped fits
  refine ⟨strings.length, pointers args strings, after, ?_, ?_, stored, outside⟩
  · rw [argscount_eq holds fits, count_packed]
  · intro fuel enough
    exact ⟨argvunpack_eq holds fits enough, (runs fuel enough).2.1⟩

theorem unpacksInside
    {memory : ByteMemory}
    {bytes : List UInt8}
    {args n : Nat}
    (holds : memory.Holds args bytes)
    (fits : bytes.length ≤ INT_MAX)
    (few : n ≤ bytes.count 0) :
    UnpacksInside memory bytes args n := by
  obtain ⟨strings, rest, rfl, rfl⟩ := exists_packed_append n bytes few
  rw [List.length_append] at fits
  refine ⟨pointers args strings, args + (packed strings).length, ?_⟩
  intro fuel enough
  have inside := (holds_append.mp holds.within).1
  have outside := (holds_append.mp holds).1
  rw [List.length_append] at enough
  exact ⟨argvunpack_eq inside (by omega) (by omega),
    argvunpack_eq outside (by omega) (by omega)⟩

/-- Packing and unpacking are inverse to each other: strings come back from the
buffer, a buffer comes back from its strings, and unpacking no more strings than
are counted stays within the buffer. -/
theorem argv_roundTrips :
    (∀ memory argv strings args size,
      Pointed memory argv strings →
      (packed strings).length ≤ INT_MAX →
      memory.Mapped args size →
      (packed strings).length ≤ size →
      Apart argv strings args size →
      PacksBack memory argv strings args) ∧
    (∀ memory args bytes dest size,
      memory.Holds args bytes →
      bytes.length ≤ INT_MAX →
      (bytes = [] ∨ bytes.getLast? = some 0) →
      memory.Mapped dest size →
      bytes.length ≤ size →
      args + bytes.length ≤ dest ∨ dest + size ≤ args →
      UnpacksBack memory bytes args dest) ∧
    ∀ memory args bytes n,
      memory.Holds args bytes →
      bytes.length ≤ INT_MAX →
      ∃ count, argscount memory bytes.length args = some count ∧
        (n ≤ count → UnpacksInside memory bytes args n) := by
  refine ⟨?_, ?_, ?_⟩
  · intro memory argv strings args size pointed fits mapped large apart
    exact packsBack pointed
      (Apart.part apart (Nat.le_refl args) (Nat.add_le_add_left large args))
      (mapped.shorter large) fits
  · intro memory args bytes dest size holds fits ended mapped large apart
    exact unpacksBack holds ended fits (mapped.shorter large) (by omega)
  · intro memory args bytes n holds fits
    exact ⟨_, argscount_eq holds fits, unpacksInside holds fits⟩

/-- A buffer of eight bytes at 100, and the string "ab" and an empty string at
200 and 203. -/
def twoStrings : ByteMemory :=
  ByteMemory.stored
    (fun address => if 100 ≤ address ∧ address < 108 then some 255 else none)
    200 [97, 98, 0, 0]

theorem argv_roundTrips_twoStrings :
    PacksBack twoStrings [200, 203]
        [⟨[97, 98], by decide⟩, ⟨[], by decide⟩] 100 ∧
      UnpacksBack twoStrings [97, 98, 0, 0] 200 100 ∧
      UnpacksInside twoStrings [97, 98, 0, 0] 200 1 := by
  have mapped : twoStrings.Mapped 100 8 := by
    intro index small
    have cases : ∀ index < 8, (twoStrings (100 + index)).isSome := by decide
    exact cases index small
  have holds : twoStrings.Holds 200 [97, 98, 0, 0] := holds_stored _ _ _
  refine ⟨?_, ?_, ?_⟩
  · apply argv_roundTrips.1 twoStrings _ _ _ 8 _ (by decide) mapped (by decide)
    · exact .cons (.inr (by decide)) (.cons (.inr (by decide)) .nil)
    · exact .cons ⟨rfl, rfl, rfl, trivial⟩ (.cons ⟨rfl, trivial⟩ .nil)
  · exact argv_roundTrips.2.1 twoStrings _ _ _ 8 holds (by decide)
      (.inr (by decide)) mapped (by decide) (.inr (by decide))
  · obtain ⟨count, counted, inside⟩ :=
      argv_roundTrips.2.2 twoStrings 200 [97, 98, 0, 0] 1 holds (by decide)
    apply inside
    have two : some 2 = some count := counted
    rw [← Option.some.inj two]
    decide

end Argv
end TinierOS
