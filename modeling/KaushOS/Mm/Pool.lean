import KaushOS.Inc.List
import KaushOS.Library.Tiling
import Mathlib.Algebra.Group.Nat.Defs

/-! # Pools (`kern/mm/pool.c`)

A pool is a region of memory that is cut into blocks. Each block begins with a header, and the
headers are linked in a list. Memory is kept word by word, at the addresses at which the members
of a `POOLHEADER` stand; arithmetic on sizes and addresses is modulo `2 ^ 32`.

* **`mmInitializePool`** — a region becomes one free block.
* **`mmAllocatePoolWithTag`** — the first free block that is big enough, cut to size.
* **`mmFreePoolWithTag`** — a block is freed and merged with its neighbours. -/

namespace KaushOS

open CircularList

/-! ## Words and headers -/

/-- The number of values of a `ULONG`. -/
def ULONG_VALUES : Nat := 2 ^ 32

/-- Addition of two `ULONG`s. -/
def ulongAdd (a b : Nat) : Nat := (a + b) % ULONG_VALUES

/-- Subtraction of two `ULONG`s, the second of which is in range. -/
def ulongSub (a b : Nat) : Nat := (a + (ULONG_VALUES - b)) % ULONG_VALUES

/-- `ROUNDUP(a, n)`. -/
def roundUp (a n : Nat) : Nat :=
  let x := ulongSub (ulongAdd a n) 1
  x - x % n

/-- `NULLTAG`. -/
def NULLTAG : Nat := 0

/-- `POOL_STATUS_FREE`. -/
def POOL_STATUS_FREE : Nat := 0x00

/-- `POOL_STATUS_ALLOCATED`. -/
def POOL_STATUS_ALLOCATED : Nat := 0x01

/-- `MINIMUMFREEPOOLSIZE`. -/
def MINIMUMFREEPOOLSIZE : Nat := 512

/-- `POOLPAD`. -/
def POOLPAD : Nat := 56

/-- `NUMBEROFPOOLS`. -/
def NUMBEROFPOOLS : Nat := 2

/-- `sizeof(POOLHEADER)`. -/
def POOLHEADER_SIZE : Nat := 28

/-- The offset of `mem` in a `POOLHEADER`, the length of the members in front of it. -/
def POOLHEADER_MEM : Nat := 24

/-- Memory, word by word. -/
abbrev Memory := Nat → Nat

/-- Store a word. -/
def Memory.store (m : Memory) (a v : Nat) : Memory := Function.update m a v

/-- `pPoolBlock->PoolType`. -/
def poolType (m : Memory) (b : Nat) : Nat := m b

/-- `pPoolBlock->size`. -/
def blockSize (m : Memory) (b : Nat) : Nat := m (b + 4)

/-- `pPoolBlock->Tag`. -/
def blockTag (m : Memory) (b : Nat) : Nat := m (b + 16)

/-- `pPoolBlock->status`. -/
def blockStatus (m : Memory) (b : Nat) : Nat := m (b + 20)

/-- `!(pPoolBlock->status & POOL_STATUS_ALLOCATED)`. -/
def isFreeBlock (m : Memory) (b : Nat) : Bool := blockStatus m b &&& POOL_STATUS_ALLOCATED = 0

/-- The pointer in a word. -/
def pointer (w : Nat) : Option Nat := if w = 0 then none else some w

/-- The member `link` of a `POOLHEADER`. -/
def poolLink : LinkField Memory Nat where
  next m b := pointer (m (b + 8))
  prev m b := pointer (m (b + 12))
  setNext m b v := m.store (b + 8) (v.getD 0)
  setPrev m b v := m.store (b + 12) (v.getD 0)

/-- Memory and the heads of the lists of blocks. -/
structure PoolState where
  memory : Memory
  KernelPools : Nat → ListHead Nat

/-- Store to the memory and to the head of one pool. -/
def PoolState.set (s : PoolState) (pooltype : Nat) (head : ListHead Nat) (m : Memory) :
    PoolState where
  memory := m
  KernelPools := Function.update s.KernelPools pooltype head

/-! ## The functions -/

/-- `pPoolBlock->mem[0] = 0`: the lowest byte of the word. -/
def clearMem (m : Memory) (b : Nat) : Memory := m.store (b + 24) (m (b + 24) / 256 * 256)

/-- The header of a new free block. -/
def newFreeBlock (pooltype size b : Nat) (m : Memory) : Memory :=
  let m := m.store (b + 16) NULLTAG
  let m := (m.store (b + 8) 0).store (b + 12) 0
  let m := m.store b pooltype
  let m := m.store (b + 4) size
  let m := clearMem m b
  m.store (b + 20) POOL_STATUS_FREE

/-- `MmInitializePool(va, size, pooltype)`; `mapped` says whether `MmVirtualAlloc` has mapped the
region. -/
def mmInitializePool (va size pooltype : Nat) (mapped : Bool) (s : PoolState) :
    Kernel PoolState := do
  if mapped = false then keBugCheck "Pool Alocation Failed Pooltype %d VA 0x%x size %d\n"
  else
    let m := newFreeBlock pooltype (ulongSub size POOLHEADER_SIZE) va s.memory
    let (head, m) ← listInsertHead poolLink listInit va m
    return s.set pooltype head m

/-- The number of bytes that a request needs: padding is put behind it, and it is rounded up. -/
def poolBytes (numberOfBytes : Nat) : Nat := roundUp (ulongAdd numberOfBytes POOLPAD) 4

/-- The condition in the loop of `MmAllocatePoolWithTag`. -/
def blockSuits (m : Memory) (bytes b : Nat) : Bool := isFreeBlock m b && bytes < blockSize m b

/-- A new free block at the end of block `b`, which keeps `bytes`. -/
def splitBlock (pooltype bytes b : Nat) (head : ListHead Nat) (m : Memory) :
    Kernel (ListHead Nat × Memory) := do
  let new := ulongAdd (ulongAdd b POOLHEADER_SIZE) bytes
  let m := newFreeBlock pooltype (ulongSub (ulongSub (blockSize m b) POOLHEADER_SIZE) bytes) new m
  let (head, m) ← listInsertAfter poolLink head (fun _ => .ok b) new m
  return (head, m.store (b + 4) bytes)

/-- The block that `MmAllocatePoolWithTag` has found is cut, unless the rest is too small. -/
def cutBlock (pooltype bytes b : Nat) (head : ListHead Nat) (m : Memory) :
    Kernel (ListHead Nat × Memory) :=
  if bytes < ulongSub (blockSize m b) MINIMUMFREEPOOLSIZE then
    splitBlock pooltype bytes b head m
  else .ok (head, m)

/-- `MmAllocatePoolWithTag(pooltype, NumberOfBytes, Tag)`. -/
def mmAllocatePoolWithTag (pooltype numberOfBytes tag : Nat) (s : PoolState) :
    Kernel (Option Nat × PoolState) := do
  let bytes := poolBytes numberOfBytes
  let head := s.KernelPools pooltype
  if listEmpty head then keBugCheck "allocating pool before init pooltype %d Tag %s\n"
  else
    let found ← listFind poolLink s.memory head (blockSuits s.memory bytes)
    match found with
    | none => return (none, s)
    | some b =>
      if ¬ isFreeBlock s.memory b then
        keBugCheck "Free pool block already allocated pool status 0x%x, pooltype 0x%x "
      else
        let (head, m) ← cutBlock pooltype bytes b head s.memory
        let m := m.store (b + 16) tag
        let m := m.store (b + 20) (blockStatus m b ||| POOL_STATUS_ALLOCATED)
        return (some (ulongAdd b POOLHEADER_MEM), s.set pooltype head m)

/-- A block is merged with the one behind it in the list. -/
def mergeBlocks (b c : Nat) (head : ListHead Nat) (m : Memory) : Kernel (ListHead Nat × Memory) :=
  let m := m.store (b + 4)
    (ulongAdd (blockSize m b) (ulongAdd (blockSize m c) POOLHEADER_SIZE))
  listRemove poolLink head c m

/-- `MmFreePoolWithTag` merges a block with the next one, if that is free. -/
def mergeNext (b : Nat) (head : ListHead Nat) (m : Memory) : Kernel (ListHead Nat × Memory) :=
  match listNext poolLink m head b with
  | some next => if isFreeBlock m next then mergeBlocks b next head m else .ok (head, m)
  | none => .ok (head, m)

/-- `MmFreePoolWithTag` merges a block with the previous one, if that is free. -/
def mergePrev (b : Nat) (head : ListHead Nat) (m : Memory) : Kernel (ListHead Nat × Memory) :=
  match listPrev poolLink m head b with
  | some prev => if isFreeBlock m prev then mergeBlocks prev b head m else .ok (head, m)
  | none => .ok (head, m)

/-- The test at the beginning of `MmFreePoolWithTag`: the conditional operator takes all three
comparisons as its condition. -/
def verificationFails (m : Memory) (b tag : Nat) : Bool :=
  if isFreeBlock m b || NUMBEROFPOOLS ≤ poolType m b || tag ≠ 0 then blockTag m b ≠ tag else false

/-- `MmFreePoolWithTag(P, Tag)`. -/
def mmFreePoolWithTag (p tag : Nat) (s : PoolState) : Kernel PoolState := do
  let b := ulongSub p POOLHEADER_MEM
  let pooltype := poolType s.memory b
  if verificationFails s.memory b tag then
    keBugCheck " Verification Failed Status 0x%x pooltype 0x%x oldtag %s newtag %s\n"
  else
    let m := s.memory.store (b + 16) NULLTAG
    let m := clearMem m b
    let m := m.store (b + 20) POOL_STATUS_FREE
    let (head, m) ← mergeNext b (s.KernelPools pooltype) m
    let (head, m) ← mergePrev b head m
    return s.set pooltype head m

/-- **The blocks of a pool**, as `LIST_FOREACH` visits them. -/
def poolBlocks (s : PoolState) (pooltype : Nat) : List Nat :=
  listElements poolLink s.memory (s.KernelPools pooltype)

end KaushOS
