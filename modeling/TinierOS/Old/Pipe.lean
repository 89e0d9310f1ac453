import TinierOS.Library.FiniteRings
import TinierOS.Library.Transition

/-!
# Pipes

`old/kernel_pipe.c`: the ring of characters that `init_list` builds, and
`pipe_write` and `pipe_read` on it.  A call gives up the kernel only in
`kernel_wait`; when it comes back, whether it was signalled or not, it tests its
condition again.
-/

namespace TinierOS

/-! ## Machine integers -/

/-- `PIPE_BUFFER_SIZE`, and the largest `int`. -/
structure PipeLimits where
  bufferSize : Nat
  intMax : Nat

namespace PipeLimits

/-- The number of values of an `unsigned int`. -/
def modulus (limits : PipeLimits) : Nat := 2 * (limits.intMax + 1)

/-- Conversion to `unsigned int`. -/
def unsigned (limits : PipeLimits) (value : Int) : Nat :=
  (value % limits.modulus).toNat

/-- Conversion of an `unsigned int` to `int`. -/
def signed (limits : PipeLimits) (value : Nat) : Int :=
  if value ≤ limits.intMax then value else value - limits.modulus

theorem unsigned_of_le
    {limits : PipeLimits}
    {value : Nat}
    (fits : value ≤ limits.intMax + 1) :
    limits.unsigned value = value := by
  have small : (value : Int) % limits.modulus = value := by
    apply Int.emod_eq_of_lt (Int.natCast_nonneg value)
    unfold modulus
    omega
  rw [unsigned, small, Int.toNat_natCast]

theorem signed_of_le
    {limits : PipeLimits}
    {value : Nat}
    (fits : value ≤ limits.intMax) :
    limits.signed value = value :=
  if_pos fits

end PipeLimits

/-! ## The ring of characters -/

/-- `c_list` -/
structure CList (α : Type) where
  prev : α
  next : α
  c : UInt8

/-- The cells at all addresses. -/
abbrev CHeap (α : Type) := α → CList α

namespace CHeap

variable {α : Type}

/-- The links of the cells, without the characters. -/
def links (heap : CHeap α) : Links α where
  next := fun cell => (heap cell).next
  prev := fun cell => (heap cell).prev

@[simp] theorem links_next (heap : CHeap α) (cell : α) :
    heap.links.next cell = (heap cell).next := rfl

@[simp] theorem links_prev (heap : CHeap α) (cell : α) :
    heap.links.prev cell = (heap cell).prev := rfl

variable [DecidableEq α]

def setNext (heap : CHeap α) (cell next : α) : CHeap α :=
  Function.update heap cell { heap cell with next := next }

def setPrev (heap : CHeap α) (cell prev : α) : CHeap α :=
  Function.update heap cell { heap cell with prev := prev }

def setC (heap : CHeap α) (cell : α) (c : UInt8) : CHeap α :=
  Function.update heap cell { heap cell with c := c }

/-- The character for a new node: `data[i]`, or zero without data. -/
def initialC (data : Option (Nat → UInt8)) (i : Nat) : UInt8 :=
  match data with
  | none => 0
  | some data => data i

/-- The loop of `init_list`: `nodes` are the addresses that `malloc` returns. -/
def initListLoop
    (null : α)
    (data : Option (Nat → UInt8)) :
    List α → Nat → α → CHeap α → CHeap α
  | [], _, _, heap => heap
  | newNode :: nodes, i, startNode, heap =>
      let next :=
        if (heap startNode).next ≠ null then (heap startNode).next
        else startNode
      let heap := heap.setNext newNode next
      let heap := heap.setPrev newNode startNode
      let heap := heap.setNext (heap newNode).prev newNode
      let heap := heap.setPrev (heap newNode).next newNode
      let heap := heap.setC newNode (initialC data i)
      initListLoop null data nodes (i + 1) newNode heap

/-- `init_list`; the first node and the `size` others are the addresses that
`malloc` returns. -/
def initList
    (null : α)
    (heap : CHeap α)
    (startNode : α)
    (nodes : List α)
    (data : Option (Nat → UInt8)) : CHeap α :=
  let heap := heap.setC startNode (initialC data 0)
  let heap := heap.setNext startNode null
  let heap := heap.setPrev startNode null
  initListLoop null data nodes 0 startNode heap

end CHeap

/-! ## The code -/

/-- `pipe_cb` with its cells.  The two condition variables only say who is woken
up, which is left open here. -/
structure Pipe (α : Type) where
  cells : CHeap α
  writer : Option Nat
  reader : Option Nat
  bufferNode : α
  wPos : α
  rPos : α
  bufferBytes : Nat

/-- How a stretch of a call ends: in `kernel_wait`, with -1 and nothing done,
with -1 in the middle of the transfer, or with the bytes it moved. -/
inductive PipeOutcome
  | waits
  | fails
  | torn
  | moved (bytes : List UInt8)

namespace Pipe

variable {α : Type} [DecidableEq α]

/-- `pipe_init`, with the ends that `sys_Pipe` sets afterwards.  All allocations
succeed. -/
def pipeInit
    (null : α)
    (heap : CHeap α)
    (startNode : α)
    (nodes : List α)
    (writer reader : Nat) : Pipe α where
  cells := heap.initList null startNode nodes none
  writer := some writer
  reader := some reader
  bufferNode := startNode
  wPos := startNode
  rPos := startNode
  bufferBytes := 0

/-- The loop of `pipe_write` from index `i` on, with the number of turns left; it
ends early at a cell that is not marked empty. -/
def writeLoop
    (limits : PipeLimits)
    (buf : Nat → UInt8) :
    Nat → Nat → Pipe α → Bool × Pipe α
  | 0, _, pipe => (true, pipe)
  | left + 1, i, pipe =>
      if (pipe.cells pipe.wPos).c ≠ 0 then (false, pipe)
      else
        let cells := pipe.cells.setC pipe.wPos (buf i)
        writeLoop limits buf left (i + 1)
          { pipe with
            cells := cells
            wPos := (cells pipe.wPos).next
            bufferBytes := limits.unsigned (pipe.bufferBytes + 1) }

/-- `pipe_write` from the test of its waiting loop on; `bytesAvailable` has just
been computed whenever that test is made. -/
def writeFrom
    (limits : PipeLimits)
    (pipe : Pipe α)
    (buf : Nat → UInt8)
    (n : Nat) : PipeOutcome × Pipe α :=
  let bytesAvailable :=
    limits.signed (limits.unsigned (limits.bufferSize - pipe.bufferBytes))
  if bytesAvailable = 0 ∧ pipe.reader ≠ none then (.waits, pipe)
  else if pipe.reader = none then (.fails, pipe)
  else
    let wBytes :=
      limits.signed (if n < limits.unsigned bytesAvailable then n
        else limits.unsigned bytesAvailable)
    match writeLoop limits buf wBytes.toNat 0 pipe with
    | (true, pipe) => (.moved ((List.range wBytes.toNat).map buf), pipe)
    | (false, pipe) => (.torn, pipe)

/-- `pipe_write` -/
def pipeWrite
    (limits : PipeLimits)
    (pipe : Pipe α)
    (buf : Nat → UInt8)
    (n : Nat) : PipeOutcome × Pipe α :=
  if pipe.writer = none ∨ pipe.reader = none then (.fails, pipe)
  else pipe.writeFrom limits buf n

/-- The loop of `pipe_read`, with the number of turns left: the bytes it puts
into the buffer. -/
def readLoop
    (limits : PipeLimits) :
    Nat → Pipe α → List UInt8 × Pipe α
  | 0, pipe => ([], pipe)
  | left + 1, pipe =>
      let c := (pipe.cells pipe.rPos).c
      let cells := pipe.cells.setC pipe.rPos 0
      let (bytes, pipe) := readLoop limits left
        { pipe with
          cells := cells
          rPos := (cells pipe.rPos).next
          bufferBytes := limits.unsigned (pipe.bufferBytes - 1) }
      (c :: bytes, pipe)

/-- `pipe_read` from the test of its waiting loop on. -/
def readFrom
    (limits : PipeLimits)
    (pipe : Pipe α)
    (n : Nat) : PipeOutcome × Pipe α :=
  if pipe.bufferBytes = 0 ∧ pipe.writer ≠ none then (.waits, pipe)
  else if pipe.writer = none ∧ pipe.bufferBytes = 0 then (.moved [], pipe)
  else
    let rBytes :=
      limits.signed (if n < pipe.bufferBytes then n else pipe.bufferBytes)
    let (bytes, pipe) := readLoop limits rBytes.toNat pipe
    (.moved bytes, pipe)

/-- `pipe_read` -/
def pipeRead
    (limits : PipeLimits)
    (pipe : Pipe α)
    (n : Nat) : PipeOutcome × Pipe α :=
  if pipe.reader = none then (.fails, pipe)
  else if pipe.writer = none ∧ pipe.bufferBytes = 0 then (.moved [], pipe)
  else pipe.readFrom limits n

/-- `pipe_writer_close` while the reader is open. -/
def pipeWriterClose (pipe : Pipe α) : Pipe α :=
  { pipe with writer := none }

/-! ## What the ring holds -/

/-- The ring, read from `r_pos`, holds the given bytes and then only empty marks;
`w_pos` is at the first mark, and the counter counts the bytes.  One cell more
than `PIPE_BUFFER_SIZE` keeps the two positions apart when the buffer is full. -/
structure Stores
    (limits : PipeLimits)
    (pipe : Pipe α)
    (contents : List UInt8)
    (rest : List α) : Prop where
  ring : pipe.cells.links.IsRing pipe.rPos rest
  size : rest.length = limits.bufferSize
  marks : (pipe.rPos :: rest).map (fun cell => (pipe.cells cell).c) =
    contents ++ List.replicate (limits.bufferSize + 1 - contents.length) 0
  writePos : (pipe.rPos :: rest)[contents.length]? = some pipe.wPos
  counted : pipe.bufferBytes = contents.length
  fits : contents.length ≤ limits.bufferSize

end Pipe

namespace CHeap

variable {α : Type} [DecidableEq α]

@[simp] theorem setC_links (heap : CHeap α) (cell : α) (c : UInt8) :
    (heap.setC cell c).links = heap.links := by
  ext other
  · by_cases same : other = cell
    · subst same
      simp [setC]
    · simp [setC, same]
  · by_cases same : other = cell
    · subst same
      simp [setC]
    · simp [setC, same]

theorem setC_next (heap : CHeap α) (cell other : α) (c : UInt8) :
    (heap.setC cell c other).next = (heap other).next :=
  congrFun (congrArg Links.next (setC_links heap cell c)) other

/-- On distinct cells, storing a character changes one place of the list. -/
theorem map_setC
    {heap : CHeap α}
    {cells : List α}
    {cell : α}
    {index : Nat}
    (nodup : cells.Nodup)
    (isCell : cells[index]? = some cell)
    (c : UInt8) :
    cells.map (fun other => (heap.setC cell c other).c) =
      (cells.map fun other => (heap other).c).set index c := by
  apply List.ext_getElem?
  intro place
  rw [List.getElem?_map, List.getElem?_set, List.getElem?_map, List.length_map]
  obtain ⟨inRange, isAt⟩ := List.getElem?_eq_some_iff.mp isCell
  by_cases same : index = place
  · subst same
    rw [if_pos rfl, if_pos inRange, isCell]
    simp [setC]
  · rw [if_neg same]
    cases isOther : cells[place]? with
    | none => rfl
    | some other =>
        obtain ⟨placeInRange, isAtPlace⟩ := List.getElem?_eq_some_iff.mp isOther
        have different : other ≠ cell := by
          rw [← isAt, ← isAtPlace]
          exact fun equal => same ((nodup.getElem_inj_iff.mp equal).symm)
        simp [setC, different]

end CHeap

namespace Pipe

variable {α : Type} [DecidableEq α] {limits : PipeLimits}

omit [DecidableEq α] in
/-- The cell that the writer is at is marked empty, whatever has been written. -/
theorem Stores.mark_wPos
    {pipe : Pipe α}
    {contents : List UInt8}
    {rest : List α}
    (stores : Stores limits pipe contents rest) :
    (pipe.cells pipe.wPos).c = 0 := by
  have fits := stores.fits
  have place := congrArg (·[contents.length]?) stores.marks
  simp only [List.getElem?_map, stores.writePos, Option.map_some] at place
  rw [List.getElem?_append_right (Nat.le_refl _), Nat.sub_self,
    List.getElem?_replicate, if_pos (by omega)] at place
  exact Option.some.inj place

/-- Storing one byte at `w_pos`. -/
theorem Stores.write
    {pipe : Pipe α}
    {contents : List UInt8}
    {rest : List α}
    (stores : Stores limits pipe contents rest)
    (sizeFits : limits.bufferSize ≤ limits.intMax)
    (room : contents.length < limits.bufferSize)
    (byte : UInt8) :
    Stores limits
      { pipe with
        cells := pipe.cells.setC pipe.wPos byte
        wPos := (pipe.cells.setC pipe.wPos byte pipe.wPos).next
        bufferBytes := limits.unsigned (pipe.bufferBytes + 1) }
      (contents ++ [byte]) rest := by
  have nodup := stores.ring.nodup
  have size := stores.size
  refine ⟨?_, size, ?_, ?_, ?_, ?_⟩
  · rw [CHeap.setC_links]
    exact stores.ring
  · rw [CHeap.map_setC nodup stores.writePos, stores.marks]
    have split : limits.bufferSize + 1 - contents.length =
        (limits.bufferSize - contents.length) + 1 := by omega
    rw [List.set_append_right _ _ (Nat.le_refl _), Nat.sub_self, split,
      List.replicate_succ, List.set_cons_zero, List.length_append,
      List.length_singleton, List.append_assoc, List.singleton_append]
    congr 3
    omega
  · rw [List.length_append, List.length_singleton, CHeap.setC_next]
    have nextPlace : ∃ cell, (pipe.rPos :: rest)[contents.length + 1]? =
        some cell := by
      rw [List.getElem?_cons_succ]
      exact ⟨_, List.getElem?_eq_getElem (by omega)⟩
    obtain ⟨cell, isCell⟩ := nextPlace
    rw [isCell]
    rw [List.getElem?_cons_succ] at isCell
    have follows := stores.ring.segment.next_getElem stores.writePos
      (List.getElem?_append_left (by omega : contents.length < rest.length) ▸
        isCell)
    rw [CHeap.links_next] at follows
    rw [follows]
  · rw [List.length_append, List.length_singleton, stores.counted]
    have small : contents.length + 1 ≤ limits.intMax + 1 := by omega
    exact_mod_cast PipeLimits.unsigned_of_le small
  · rw [List.length_append, List.length_singleton]
    exact room

/-- Taking one byte at `r_pos`. -/
theorem Stores.read
    {pipe : Pipe α}
    {byte : UInt8}
    {contents : List UInt8}
    {rest : List α}
    (stores : Stores limits pipe (byte :: contents) rest)
    (sizeFits : limits.bufferSize ≤ limits.intMax) :
    (pipe.cells pipe.rPos).c = byte ∧
      ∃ others, Stores limits
        { pipe with
          cells := pipe.cells.setC pipe.rPos 0
          rPos := (pipe.cells.setC pipe.rPos 0 pipe.rPos).next
          bufferBytes := limits.unsigned (pipe.bufferBytes - 1) }
        contents others := by
  have marks := stores.marks
  have fits := stores.fits
  have size := stores.size
  rw [List.length_cons] at fits
  rw [List.map_cons, List.cons_append, List.cons.injEq] at marks
  refine ⟨marks.1, ?_⟩
  obtain ⟨first, others, rfl⟩ : ∃ first others, rest = first :: others :=
    List.exists_cons_of_length_pos (by omega)
  have forward : (pipe.cells pipe.rPos).next = first := stores.ring.next_head
  have turned : pipe.cells.links.IsRing first (others ++ [pipe.rPos]) :=
    Links.IsRing.rotate stores.ring
  have nodup := turned.nodup
  have last : (first :: (others ++ [pipe.rPos]))[(others.length + 1)]? =
      some pipe.rPos := by simp
  refine ⟨others ++ [pipe.rPos], ?_, ?_, ?_, ?_, ?_, ?_⟩
  · rw [CHeap.setC_links, CHeap.setC_next, forward]
    exact turned
  · simpa using size
  · rw [CHeap.setC_next, forward, CHeap.map_setC nodup last]
    have tail := marks.2
    rw [List.map_cons] at tail
    rw [List.map_cons, List.map_append, ← List.cons_append, tail]
    rw [List.length_cons] at size
    have split : limits.bufferSize + 1 - contents.length =
        (limits.bufferSize + 1 - (byte :: contents).length) + 1 := by
      rw [List.length_cons]
      omega
    have atEnd : others.length + 1 = (contents ++ List.replicate
        (limits.bufferSize + 1 - (byte :: contents).length) (0 : UInt8)).length := by
      rw [List.length_append, List.length_replicate, List.length_cons]
      omega
    rw [atEnd, List.set_append_right _ _ (Nat.le_refl _), Nat.sub_self, split,
      List.replicate_succ', List.append_assoc]
    rfl
  · rw [CHeap.setC_next, forward]
    have place := stores.writePos
    rw [List.length_cons, List.getElem?_cons_succ] at place
    rw [← List.cons_append]
    rw [List.length_cons] at size
    rw [List.getElem?_append_left (by rw [List.length_cons]; omega)]
    exact place
  · have isSucc : ((pipe.bufferBytes : Int) - 1) = contents.length := by
      rw [stores.counted, List.length_cons]
      omega
    rw [isSucc]
    exact PipeLimits.unsigned_of_le (by omega)
  · omega

/-- The loop of `pipe_write` never meets an occupied cell and stores all its
bytes. -/
theorem Stores.writeLoop
    {pipe : Pipe α}
    {contents : List UInt8}
    {rest : List α}
    (buf : Nat → UInt8)
    (left i : Nat)
    (stores : Stores limits pipe contents rest)
    (sizeFits : limits.bufferSize ≤ limits.intMax)
    (room : contents.length + left ≤ limits.bufferSize) :
    ∃ after, Pipe.writeLoop limits buf left i pipe = (true, after) ∧
      Stores limits after
        (contents ++ (List.range' i left).map buf) rest ∧
      after.writer = pipe.writer ∧ after.reader = pipe.reader := by
  induction left generalizing pipe contents i with
  | zero => exact ⟨pipe, rfl, by simpa using stores, rfl, rfl⟩
  | succ left inductionHypothesis =>
      have written := stores.write sizeFits (by omega) (buf i)
      obtain ⟨after, ran, storesAll, sameWriter, sameReader⟩ :=
        inductionHypothesis (i + 1) written
          (by rw [List.length_append, List.length_singleton]; omega)
      refine ⟨after, ?_, ?_, sameWriter, sameReader⟩
      · rw [Pipe.writeLoop, if_neg (not_not.mpr stores.mark_wPos)]
        exact ran
      · simpa [List.range'_succ] using storesAll

/-- The loop of `pipe_read` takes the oldest bytes. -/
theorem Stores.readLoop
    {pipe : Pipe α}
    {contents : List UInt8}
    {rest : List α}
    (left : Nat)
    (stores : Stores limits pipe contents rest)
    (sizeFits : limits.bufferSize ≤ limits.intMax)
    (enough : left ≤ contents.length) :
    ∃ after others,
      Pipe.readLoop limits left pipe = (contents.take left, after) ∧
      Stores limits after (contents.drop left) others ∧
      after.writer = pipe.writer ∧ after.reader = pipe.reader := by
  induction left generalizing pipe contents rest with
  | zero => exact ⟨pipe, rest, rfl, stores, rfl, rfl⟩
  | succ left inductionHypothesis =>
      obtain ⟨byte, contents, rfl⟩ :=
        List.exists_cons_of_length_pos (Nat.lt_of_lt_of_le (by omega) enough)
      obtain ⟨isByte, others, storesRest⟩ := stores.read sizeFits
      obtain ⟨after, others, ran, storesAll, sameWriter, sameReader⟩ :=
        inductionHypothesis storesRest (Nat.le_of_succ_le_succ enough)
      refine ⟨after, others, ?_, storesAll, sameWriter, sameReader⟩
      rw [Pipe.readLoop]
      simp only [ran, isByte, List.take_succ_cons]

end Pipe

/-! ## The ring that `init_list` builds -/

namespace CHeap

variable {α : Type} [DecidableEq α]

/-- One turn of the loop of `init_list`: a new node after the last one. -/
def appendNode
    (heap : CHeap α)
    (startNode newNode next : α)
    (c : UInt8) : CHeap α :=
  let heap := heap.setNext newNode next
  let heap := heap.setPrev newNode startNode
  let heap := heap.setNext (heap newNode).prev newNode
  let heap := heap.setPrev (heap newNode).next newNode
  heap.setC newNode c

theorem setNext_links (heap : CHeap α) (cell next : α) :
    (heap.setNext cell next).links =
      { heap.links with next := Function.update heap.links.next cell next } := by
  ext other
  · by_cases same : other = cell
    · subst same
      simp [setNext]
    · simp [setNext, same]
  · by_cases same : other = cell
    · subst same
      simp [setNext]
    · simp [setNext, same]

theorem setPrev_links (heap : CHeap α) (cell prev : α) :
    (heap.setPrev cell prev).links =
      { heap.links with prev := Function.update heap.links.prev cell prev } := by
  ext other
  · by_cases same : other = cell
    · subst same
      simp [setPrev]
    · simp [setPrev, same]
  · by_cases same : other = cell
    · subst same
      simp [setPrev]
    · simp [setPrev, same]

theorem appendNode_links
    {startNode newNode : α}
    (heap : CHeap α)
    (next : α)
    (c : UInt8)
    (different : newNode ≠ startNode) :
    (heap.appendNode startNode newNode next c).links =
      { next := Function.update (Function.update heap.links.next newNode next)
          startNode newNode
        prev := Function.update (Function.update heap.links.prev newNode startNode)
          next newNode } := by
  have backward : ((heap.setNext newNode next).setPrev newNode startNode
      newNode).prev = startNode := by
    simp [setPrev]
  have forward : (((heap.setNext newNode next).setPrev newNode startNode).setNext
      startNode newNode newNode).next = next := by
    simp [setNext, setPrev, different]
  rw [appendNode, setC_links, backward, forward, setPrev_links, setNext_links,
    setPrev_links, setNext_links]

/-- The other characters stay. -/
theorem appendNode_c
    {newNode cell : α}
    (heap : CHeap α)
    (startNode next : α)
    (c : UInt8)
    (different : cell ≠ newNode) :
    (heap.appendNode startNode newNode next c cell).c = (heap cell).c := by
  simp only [appendNode, setC, setPrev, setNext]
  simp only [Function.update_apply, different, if_false]
  split_ifs <;> simp_all

theorem appendNode_c_self
    (heap : CHeap α)
    (startNode newNode next : α)
    (c : UInt8) :
    (heap.appendNode startNode newNode next c newNode).c = c := by
  simp [appendNode, setC]

/-- The new node closes the ring after the last one: at first the start stands
alone and points nowhere, later it points back to the start. -/
theorem appendNode_isRing
    {heap : CHeap α}
    {head newNode : α}
    {done : List α}
    (c : UInt8)
    (nodup : (head :: (done ++ [newNode])).Nodup)
    (ring : done ≠ [] → heap.links.IsRing head done) :
    (heap.appendNode ((head :: done).getLast (by simp)) newNode head c).links.IsRing
      head (done ++ [newNode]) := by
  have notHead : newNode ≠ head := by
    rintro rfl
    simp at nodup
  have headFresh : head ∉ done := by
    simp only [List.nodup_cons, List.mem_append, not_or] at nodup
    exact nodup.1.1
  have newFresh : newNode ∉ done := by
    rw [List.nodup_cons, List.nodup_append] at nodup
    exact fun member => nodup.2.2.2 newNode member newNode (by simp) rfl
  refine ⟨nodup, ?_⟩
  rcases List.eq_nil_or_concat done with rfl | ⟨earlier, last, rfl⟩
  · rw [List.nil_append, Links.segment_cons, Links.segment_nil]
    simp [appendNode_links heap head c notHead, Links.Follows, notHead]
  · rw [List.concat_eq_append] at nodup ring headFresh newFresh ⊢
    have isLast : (head :: (earlier ++ [last])).getLast (by simp) = last := by simp
    simp only [List.mem_append, List.mem_singleton, not_or] at headFresh newFresh
    have lastFresh : last ∉ head :: earlier := by
      have old := (ring (by simp)).nodup
      rw [← List.cons_append, List.nodup_append] at old
      exact fun member => old.2.2 last member last (by simp) rfl
    have old := (Links.segment_append_cons.mp (ring (by simp)).segment).1
    simp only [isLast, appendNode_links heap head c newFresh.2]
    rw [List.append_assoc, List.singleton_append, Links.segment_append_cons,
      Links.segment_cons, Links.segment_nil]
    refine ⟨old.congr ?_ ?_, ?_, ?_⟩
    · intro cell member
      have notLast : cell ≠ last := by
        rintro rfl
        exact lastFresh member
      have notNew : cell ≠ newNode := by
        rintro rfl
        rcases List.mem_cons.mp member with isHead | inEarlier
        · exact notHead isHead
        · exact newFresh.1 inEarlier
      dsimp only
      rw [Function.update_of_ne notLast, Function.update_of_ne notNew]
    · intro cell member
      have cellIn : cell ∈ earlier ∨ cell = last := by simpa using member
      have notHead' : cell ≠ head := by
        rintro rfl
        rcases cellIn with inEarlier | isLast'
        · exact headFresh.1 inEarlier
        · exact headFresh.2 isLast'
      have notNew : cell ≠ newNode := by
        rintro rfl
        rcases cellIn with inEarlier | isLast'
        · exact newFresh.1 inEarlier
        · exact newFresh.2 isLast'
      dsimp only
      rw [Function.update_of_ne notHead', Function.update_of_ne notNew]
    · simp [Links.Follows, notHead]
    · simp [Links.Follows, newFresh.2]

/-- The node that a turn of the loop links the new one to is the first one. -/
theorem appendNode_target
    {heap : CHeap α}
    {null head : α}
    {done : List α}
    (real : head ≠ null)
    (alone : done = [] → (heap head).next = null)
    (ring : done ≠ [] → heap.links.IsRing head done) :
    (if (heap ((head :: done).getLast (by simp))).next ≠ null then
        (heap ((head :: done).getLast (by simp))).next
      else (head :: done).getLast (by simp)) = head := by
  rcases List.eq_nil_or_concat done with rfl | ⟨earlier, last, rfl⟩
  · rw [List.getLast_singleton, if_neg (not_not.mpr (alone rfl))]
  · rw [List.concat_eq_append] at ring ⊢
    have closed := ring (by simp)
    have isLast : (head :: (earlier ++ [last])).getLast (by simp) = last := by simp
    have forward : (heap last).next = head :=
      (Links.segment_nil.mp
        (Links.segment_append_cons.mp closed.segment).2).1
    rw [isLast, forward, if_pos real]

/-- The loop of `init_list` extends the ring node by node. -/
theorem initListLoop_isRing
    {heap : CHeap α}
    {null head : α}
    {done nodes : List α}
    (i : Nat)
    (real : head ≠ null)
    (nodup : (head :: (done ++ nodes)).Nodup)
    (alone : done = [] → (heap head).next = null)
    (ring : done ≠ [] → heap.links.IsRing head done)
    (nonempty : done ++ nodes ≠ [])
    (marks : ∀ cell ∈ head :: done, (heap cell).c = 0) :
    (initListLoop null none nodes i ((head :: done).getLast (by simp))
        heap).links.IsRing head (done ++ nodes) ∧
      ∀ cell ∈ head :: (done ++ nodes),
        (initListLoop null none nodes i ((head :: done).getLast (by simp))
          heap cell).c = 0 := by
  induction nodes generalizing heap done i with
  | nil =>
      rw [List.append_nil] at nonempty ⊢
      exact ⟨ring nonempty, marks⟩
  | cons newNode nodes inductionHypothesis =>
      have regrouped : done ++ newNode :: nodes = (done ++ [newNode]) ++ nodes := by
        simp
      rw [regrouped] at nodup nonempty ⊢
      have firstNodup : (head :: (done ++ [newNode])).Nodup := by
        rw [← List.cons_append] at nodup
        exact (List.nodup_append.mp nodup).1
      have longer := appendNode_isRing 0 firstNodup ring
      have newApart : ∀ cell ∈ head :: done, cell ≠ newNode := by
        rintro cell member rfl
        rw [← List.cons_append, List.nodup_append] at firstNodup
        exact firstNodup.2.2 cell member cell (by simp) rfl
      have stillMarks : ∀ cell ∈ head :: (done ++ [newNode]),
          (heap.appendNode ((head :: done).getLast (by simp)) newNode head 0
            cell).c = 0 := by
        intro cell member
        rw [← List.cons_append, List.mem_append, List.mem_singleton] at member
        rcases member with old | rfl
        · rw [appendNode_c heap _ head 0 (newApart cell old)]
          exact marks cell old
        · exact appendNode_c_self ..
      have later := inductionHypothesis (i + 1) nodup (by simp)
        (fun _ => longer) nonempty stillMarks
      have newLast : (head :: (done ++ [newNode])).getLast (by simp) = newNode := by
        simp
      rw [newLast] at later
      rw [initListLoop, appendNode_target real alone ring]
      exact later

/-- `init_list` builds a ring of empty cells. -/
theorem initList_isRing
    {null startNode : α}
    {nodes : List α}
    (heap : CHeap α)
    (real : startNode ≠ null)
    (nodup : (startNode :: nodes).Nodup)
    (nonempty : nodes ≠ []) :
    (heap.initList null startNode nodes none).links.IsRing startNode nodes ∧
      ∀ cell ∈ startNode :: nodes,
        (heap.initList null startNode nodes none cell).c = 0 := by
  let first := ((heap.setC startNode 0).setNext startNode null).setPrev startNode
    null
  have alone : (first startNode).next = null := by
    simp [first, setNext, setPrev]
  have marks : ∀ cell ∈ [startNode], (first cell).c = 0 := by
    intro cell member
    rw [List.mem_singleton] at member
    subst member
    simp [first, setNext, setPrev, setC]
  exact @initListLoop_isRing α _ first null startNode [] nodes 0 real nodup
    (fun _ => alone) (fun ring => absurd rfl ring) nonempty marks

end CHeap

namespace Pipe

variable {α : Type} [DecidableEq α] {limits : PipeLimits}

/-- A new pipe is empty. -/
theorem stores_pipeInit
    {null startNode : α}
    {nodes : List α}
    (heap : CHeap α)
    (writer reader : Nat)
    (real : startNode ≠ null)
    (nodup : (startNode :: nodes).Nodup)
    (size : nodes.length = limits.bufferSize)
    (room : 1 ≤ limits.bufferSize) :
    Stores limits (pipeInit null heap startNode nodes writer reader) [] nodes := by
  have nonempty : nodes ≠ [] := by
    rintro rfl
    rw [List.length_nil] at size
    omega
  obtain ⟨ring, marks⟩ := CHeap.initList_isRing heap real nodup nonempty
  refine ⟨ring, size, ?_, rfl, rfl, Nat.zero_le _⟩
  rw [List.nil_append, List.length_nil, Nat.sub_zero, ← size, ← List.length_cons,
    List.eq_replicate_iff]
  refine ⟨List.length_map .., ?_⟩
  intro c member
  obtain ⟨cell, inRing, rfl⟩ := List.mem_map.mp member
  exact marks cell inRing

end Pipe
end TinierOS
