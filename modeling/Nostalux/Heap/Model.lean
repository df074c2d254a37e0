import Mathlib.Tactic

/-!
# `kernel/heap.c`: the allocator

The list of blocks that starts at `g_head` is a list here, and the pointer `next` of a block is the
next element.  A block is the header at its address; what lies behind the header is the payload.
-/

namespace Nostalux.Memory

/-- `SIZE_MAX`. -/
abbrev sizeMax : UInt64 := 0xFFFFFFFFFFFFFFFF

/-- `sizeof(struct heap_block)`: the flag is padded to the alignment of the pointer behind it, and
the whole to a multiple of 16. -/
abbrev heapBlockSize : UInt64 := 48

/-- `struct heap_block`. -/
structure HeapBlock where
  address : UInt64
  size : UInt64
  isFree : Bool
  deriving DecidableEq

/-- The address of the payload. -/
def HeapBlock.payload (block : HeapBlock) : UInt64 := block.address + heapBlockSize

/-- The variables of the allocator. -/
@[ext]
structure Heap where
  /-- The list that starts at `g_head`. -/
  blocks : List HeapBlock
  /-- `g_heap_total_size`. -/
  totalSize : UInt64
  /-- `g_heap_used_size`. -/
  usedSize : UInt64
  /-- `g_heap_start`. -/
  heapStart : UInt64
  /-- `g_heap_end`. -/
  heapEnd : UInt64
  deriving DecidableEq

/-- The heap before `heap_init`. -/
def Heap.empty : Heap := ⟨[], 0, 0, 0, 0⟩

/-- The part of `heap_init` behind the alignment of the start. -/
def heapInitAligned (startAddr sizeBytes : UInt64) : Heap :=
  if sizeBytes < heapBlockSize then Heap.empty
  else
    { blocks := [⟨startAddr, sizeBytes - heapBlockSize, true⟩]
      totalSize := sizeBytes
      usedSize := 0
      heapStart := startAddr
      heapEnd := startAddr + sizeBytes }

/-- `heap_init`. -/
def heapInit (startAddr sizeBytes : UInt64) : Heap :=
  let misalignment := startAddr % 16
  if misalignment ≠ 0 then
    let adjustment := 16 - misalignment
    if sizeBytes ≤ adjustment then Heap.empty
    else heapInitAligned (startAddr + adjustment) (sizeBytes - adjustment)
  else heapInitAligned startAddr sizeBytes

namespace Heap

/-- The block that fits is taken, and what is left of it becomes a block of its own if it is large
enough.  The first component is the block that is taken. -/
def takeBlock (alignedSize : UInt64) (curr : HeapBlock) (next : List HeapBlock) :
    HeapBlock × List HeapBlock :=
  if curr.size ≥ alignedSize + heapBlockSize + 16 then
    let newBlock : HeapBlock :=
      ⟨curr.address + heapBlockSize + alignedSize, curr.size - alignedSize - heapBlockSize, true⟩
    let taken : HeapBlock := { curr with size := alignedSize, isFree := false }
    (taken, taken :: newBlock :: next)
  else
    let taken : HeapBlock := { curr with isFree := false }
    (taken, taken :: next)

/-- The loop of `kmalloc`: the block that is taken and the list after that. -/
def kmallocFrom (alignedSize : UInt64) : List HeapBlock → Option (HeapBlock × List HeapBlock)
  | [] => none
  | curr :: next =>
    if curr.isFree ∧ curr.size ≥ alignedSize then some (takeBlock alignedSize curr next)
    else (kmallocFrom alignedSize next).map fun (taken, blocks) => (taken, curr :: blocks)

/-- The size of a request, rounded to a multiple of 16. -/
def alignedSize (size : UInt64) : UInt64 := (size + 15) &&& ~~~15

/-- `kmalloc`; no pointer is `NULL`. -/
def kmalloc (heap : Heap) (size : UInt64) : Option UInt64 × Heap :=
  if size = 0 ∨ heap.blocks = [] then (none, heap)
  else if size > sizeMax - 15 then (none, heap)
  else
    match kmallocFrom (alignedSize size) heap.blocks with
    | none => (none, heap)
    | some (taken, blocks) =>
      (some taken.payload, { heap with blocks := blocks, usedSize := heap.usedSize + taken.size })

/-- A block and the one behind it become one. -/
def mergeBlocks (block next : HeapBlock) : HeapBlock :=
  { block with size := block.size + (heapBlockSize + next.size) }

/-- The block that is freed is merged with the next one if that is free. -/
def mergeNext (block : HeapBlock) : List HeapBlock → List HeapBlock
  | [] => [block]
  | next :: rest => if next.isFree then mergeBlocks block next :: rest else block :: next :: rest

/-- The block with the given payload becomes free. -/
def releaseBlock (ptr : UInt64) : List HeapBlock → List HeapBlock
  | [] => []
  | curr :: next =>
    if curr.payload = ptr then mergeNext { curr with isFree := true } next
    else curr :: releaseBlock ptr next

/-- The loop of the global merge pass of `kfree`, at the block `curr`. -/
def mergeFrom (curr : HeapBlock) : List HeapBlock → List HeapBlock
  | [] => [curr]
  | next :: rest =>
    if curr.isFree ∧ next.isFree then mergeFrom (mergeBlocks curr next) rest
    else curr :: mergeFrom next rest

/-- The global merge pass of `kfree`. -/
def mergePass : List HeapBlock → List HeapBlock
  | [] => []
  | head :: rest => mergeFrom head rest

/-- `kfree`. -/
def kfree (heap : Heap) (ptr : UInt64) : Heap :=
  if ptr = 0 then heap
  else if ptr < heap.heapStart + heapBlockSize ∨ ptr ≥ heap.heapEnd ∨ ptr &&& 0xF ≠ 0 then heap
  else
    match heap.blocks.find? fun curr => curr.payload = ptr with
    | none => heap
    | some block =>
      if block.isFree then heap
      else
        { heap with
          usedSize := if block.size ≤ heap.usedSize then heap.usedSize - block.size else 0
          blocks := mergePass (releaseBlock ptr heap.blocks) }

/-- `heap_free_space`. -/
def heapFreeSpace (heap : Heap) : UInt64 :=
  heap.blocks.foldl (fun total curr => if curr.isFree then total + curr.size else total) 0

/-- `heap_used_space`. -/
def heapUsedSpace (heap : Heap) : UInt64 := heap.usedSize

end Heap

end Nostalux.Memory
