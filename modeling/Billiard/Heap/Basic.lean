import Mathlib.Algebra.Ring.Nat
import Mathlib.Data.Finset.Basic
import Billiard.Data.Bisect
import Billiard.Data.Dict

/-! The allocator of `heap.py`: arenas, the five structures that index the free
blocks, and the operations on them. -/

namespace Billiard

open Bisect

/-- `mmap.PAGESIZE` is `2 ^ pageShift`. -/
abbrev pagesize (pageShift : Nat) : Nat := 2 ^ pageShift

/-- `sys.maxsize` of a 64-bit build. -/
def maxsize : Nat := 2 ^ 63 - 1

def alignment : Nat := 8

/-- An `Arena` is compared by identity: `id` is its position in `_arenas`. -/
structure Arena where
  id : Nat
  size : Nat
deriving DecidableEq, Repr

structure Block where
  arena : Arena
  start : Nat
  stop : Nat
deriving DecidableEq, Repr

def Block.length (block : Block) : Nat := block.stop - block.start

/-- The free blocks: by length (`_lengths`, `_len_to_seq`), by start and by stop. -/
structure FreeIndex where
  lengths : List Nat
  lenToSeq : Dict Nat (List Block)
  startToBlock : Dict (Arena × Nat) Block
  stopToBlock : Dict (Arena × Nat) Block

structure Heap extends FreeIndex where
  lastpid : Nat
  size : Nat
  allocatedBlocks : Finset Block
  arenas : List Arena
  pendingFreeBlocks : List Block

/-- What an operation can raise; a failed `Arena(length)` leaves `after` behind. -/
inductive HeapFault where
  | keyError
  | valueError
  | indexError
  | assertionError
  | arenaError (after : Heap)

def orRaise (fault : HeapFault) : Option α → Except HeapFault α
  | none => .error fault
  | some value => .ok value

@[simp] theorem orRaise_some (fault : HeapFault) (value : α) :
    orRaise fault (some value) = .ok value := rfl

/-- `x & ~mask` on naturals. -/
def andNot (x mask : Nat) : Nat := x ^^^ (x &&& mask)

def roundup (n alignment : Nat) : Nat :=
  let mask := alignment - 1
  andNot (n + mask) mask

namespace FreeIndex

def empty : FreeIndex where
  lengths := []
  lenToSeq := Dict.empty
  startToBlock := Dict.empty
  stopToBlock := Dict.empty

/-- `_absorb`: deregister a block so that it can be merged with a neighbour. -/
def absorb (index : FreeIndex) (block : Block) : Except HeapFault (FreeIndex × Nat × Nat) := do
  let startToBlock ← orRaise .keyError (index.startToBlock.del? (block.arena, block.start))
  let stopToBlock ← orRaise .keyError (index.stopToBlock.del? (block.arena, block.stop))
  let length := block.length
  let seq ← orRaise .keyError (index.lenToSeq length)
  if block ∉ seq then throw .valueError
  let seq := seq.erase block
  if seq.isEmpty then
    let lenToSeq ← orRaise .keyError (index.lenToSeq.del? length)
    if length ∉ index.lengths then throw .valueError
    pure (⟨index.lengths.erase length, lenToSeq, startToBlock, stopToBlock⟩,
      block.start, block.stop)
  else
    pure (⟨index.lengths, index.lenToSeq.set length seq, startToBlock, stopToBlock⟩,
      block.start, block.stop)

/-- The second half of `_free`: enter a block that was merged with its neighbours. -/
def register (index : FreeIndex) (block : Block) : FreeIndex :=
  let length := block.length
  let startToBlock := index.startToBlock.set (block.arena, block.start) block
  let stopToBlock := index.stopToBlock.set (block.arena, block.stop) block
  match index.lenToSeq length with
  | some seq =>
      ⟨index.lengths, index.lenToSeq.set length (seq ++ [block]), startToBlock, stopToBlock⟩
  | none =>
      ⟨insort index.lengths length, index.lenToSeq.set length [block],
        startToBlock, stopToBlock⟩

/-- The first `try` of `_free`: merge with the free block that stops at `block.start`. -/
def absorbPrev (index : FreeIndex) (block : Block) : Except HeapFault (FreeIndex × Block) :=
  match index.stopToBlock (block.arena, block.start) with
  | none => .ok (index, block)
  | some prevBlock => do
      let (index, start, _) ← index.absorb prevBlock
      pure (index, { block with start })

/-- The second `try` of `_free`: merge with the free block that starts at `block.stop`. -/
def absorbNext (index : FreeIndex) (block : Block) : Except HeapFault (FreeIndex × Block) :=
  match index.startToBlock (block.arena, block.stop) with
  | none => .ok (index, block)
  | some nextBlock => do
      let (index, _, stop) ← index.absorb nextBlock
      pure (index, { block with stop })

/-- `_free` -/
def free (index : FreeIndex) (block : Block) : Except HeapFault FreeIndex := do
  let (index, block) ← index.absorbPrev block
  let (index, block) ← index.absorbNext block
  pure (index.register block)

/-- The `else` branch of `_malloc`: take the last block of the shortest
sufficient length, which stands at `i` in `_lengths`. -/
def take (index : FreeIndex) (i : Nat) : Except HeapFault (FreeIndex × Block) := do
  let length ← orRaise .indexError index.lengths[i]?
  let seq ← orRaise .keyError (index.lenToSeq length)
  let block ← orRaise .indexError seq.getLast?
  let seq := seq.dropLast
  let (lengths, lenToSeq) ←
    if seq.isEmpty then do
      let lenToSeq ← orRaise .keyError (index.lenToSeq.del? length)
      pure (index.lengths.eraseIdx i, lenToSeq)
    else pure (index.lengths, index.lenToSeq.set length seq)
  let startToBlock ← orRaise .keyError (index.startToBlock.del? (block.arena, block.start))
  let stopToBlock ← orRaise .keyError (index.stopToBlock.del? (block.arena, block.stop))
  pure (⟨lengths, lenToSeq, startToBlock, stopToBlock⟩, block)

end FreeIndex

namespace Heap

def init (pid size : Nat) : Heap :=
  { FreeIndex.empty with
    lastpid := pid
    size
    allocatedBlocks := ∅
    arenas := []
    pendingFreeBlocks := [] }

/-- `_malloc`; `mapped` tells whether `Arena(length)` succeeds. -/
def mallocBlock (pageShift : Nat) (mapped : Bool) (heap : Heap) (size : Nat) :
    Except HeapFault (Heap × Block) :=
  let i := bisectLeft heap.lengths size
  if i = heap.lengths.length then
    let length := roundup (max heap.size size) (pagesize pageShift)
    let heap := { heap with size := heap.size * 2 }
    if mapped then
      let arena : Arena := ⟨heap.arenas.length, length⟩
      .ok ({ heap with arenas := heap.arenas ++ [arena] }, ⟨arena, 0, length⟩)
    else .error (.arenaError heap)
  else do
    let (index, block) ← heap.toFreeIndex.take i
    pure ({ heap with toFreeIndex := index }, block)

/-- `_allocated_blocks.remove(block)`, then `_free(block)` -/
def freeBlock (heap : Heap) (block : Block) : Except HeapFault Heap := do
  if block ∉ heap.allocatedBlocks then throw .keyError
  let index ← heap.toFreeIndex.free block
  pure { heap with
    toFreeIndex := index
    allocatedBlocks := heap.allocatedBlocks.erase block }

/-- One round of the loop in `_free_pending_blocks`; `none` is its `break`. -/
def freePendingBlock (heap : Heap) : Option (Except HeapFault Heap) :=
  heap.pendingFreeBlocks.getLast?.map fun block =>
    { heap with pendingFreeBlocks := heap.pendingFreeBlocks.dropLast }.freeBlock block

def freePendingRounds : Nat → Heap → Except HeapFault Heap
  | 0, heap => .ok heap
  | rounds + 1, heap =>
      match heap.freePendingBlock with
      | none => .ok heap
      | some freed => freed.bind (freePendingRounds rounds)

/-- `_free_pending_blocks`: each round takes one block off the list. -/
def freePendingBlocks (heap : Heap) : Except HeapFault Heap :=
  freePendingRounds heap.pendingFreeBlocks.length heap

/-- The part of `malloc` that follows `_free_pending_blocks`. -/
def carve (pageShift : Nat) (mapped : Bool) (heap : Heap) (size : Nat) :
    Except HeapFault (Heap × Block) := do
  let size := roundup (max size 1) alignment
  let (heap, found) ← heap.mallocBlock pageShift mapped size
  let newStop := found.start + size
  let index ←
    if newStop < found.stop then heap.toFreeIndex.free { found with start := newStop }
    else pure heap.toFreeIndex
  let block := { found with stop := newStop }
  pure ({ heap with
    toFreeIndex := index
    allocatedBlocks := insert block heap.allocatedBlocks }, block)

/-- `malloc`; a process that inherited the heap over a fork starts a new one. -/
def malloc (pageShift pid : Nat) (mapped : Bool) (heap : Heap) (size : Nat) :
    Except HeapFault (Heap × Block) := do
  if ¬ size < maxsize then throw .assertionError
  let heap := if pid ≠ heap.lastpid then init pid (pagesize pageShift) else heap
  let heap ← heap.freePendingBlocks
  heap.carve pageShift mapped size

/-- `free`; `locked` tells that `_lock` could not be acquired. -/
def free (pid : Nat) (locked : Bool) (heap : Heap) (block : Block) : Except HeapFault Heap := do
  if pid ≠ heap.lastpid then throw .assertionError
  if locked then
    pure { heap with pendingFreeBlocks := heap.pendingFreeBlocks ++ [block] }
  else
    let heap ← heap.freePendingBlocks
    heap.freeBlock block

end Heap

end Billiard
