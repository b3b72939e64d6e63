import KaushOS.Inc.BitmapWords
import KaushOS.Library.Transition
import KaushOS.Mm.Ptes
import Mathlib.Data.Set.Basic

/-! # Pools of user PTEs in memory (`kern/mm/mm.c`, `bitmap.c`)

The pool of user PTEs of a process is one page of the kernel: a `BITMAP`, whose member `bits` points
behind it, and the words of the bitmap. A fork copies the page, and with it the pointer.

* **`bitmapAt`, `storeBits`** — a bitmap as it stands in memory.
* **`mmInitializeUserPtes`, `mmCloneUserPtes`** — the pool of a new process and of a forked one.
* **`used`** — the pages that a pool has handed out.
* **`fork_independent_iff`** — after a fork the pools go their own ways just as long as no call
  changes anything. -/

namespace KaushOS.PoolPages

open Transition

/-! ## Bitmaps in memory -/

/-- The number of the word at an address. -/
def word (address : Nat) : Nat := address / 4

/-- The `BITMAP` at an address, with the words that its member `bits` points to. -/
def bitmapAt (memory : Nat → BitVec 32) (address : Nat) : Words.BITMAP where
  BitCount := (memory (word address)).toNat
  bits i := memory (word (memory (word address + 1)).toNat + i)

/-- The words of the bitmap at an address are stored to. -/
def storeBits (memory : Nat → BitVec 32) (address : Nat) (b : Words.BITMAP) : Nat → BitVec 32 :=
  fun w =>
    let bits := word (memory (word address + 1)).toNat
    if bits ≤ w then b.bits (w - bits) else memory w

/-- `memcpy(dst, src, PGSIZE)`. -/
def memcpy (dst src : Nat) (memory : Nat → BitVec 32) : Nat → BitVec 32 := fun w =>
  if word dst ≤ w ∧ w < word dst + PGSIZE / 4 then memory (w - word dst + word src) else memory w

/-- `BmBitmapBufferSize(BitCount)`. -/
def bmBitmapBufferSize (bitCount : Nat) : Nat := 8 + 4 * ((bitCount + 31) / 32)

/-- `BmBitmapCreateInBuffer(0, block, PGSIZE)`. -/
def bmBitmapCreateInBuffer (block : Nat) (memory : Nat → BitVec 32) :
    Kernel (Nat → BitVec 32) := do
  assert (PGSIZE > 8) "block_size > sizeof(BITMAP)"
  assert (PGSIZE ≥ bmBitmapBufferSize userPteCount) "block_size >= BmBitmapBufferSize(BitCount)"
  let memory := Function.update memory (word block) (BitVec.ofNat 32 userPteCount)
  let memory := Function.update memory (word block + 1) (BitVec.ofNat 32 (block + 8))
  let b ← Words.bmBitmapSetAll (bitmapAt memory block) false
  return storeBits memory block b

/-! ## Pools -/

/-- **Memory, the system PTEs, and the mapped user pages** of the process that owns each pool. What a
page holds before it is mapped is what the frame holds that it is going to get. -/
structure UserPools where
  memory : Nat → BitVec 32
  systemPtes : SystemPtes
  mapped : Nat → Nat → Bool

/-- `MmInitializeUserPtes(ProcessBitmap)`; `none` is `STATUS_INSUFFICIENT_RESOURCES`. -/
def mmInitializeUserPtes (s : UserPools) : Kernel (Option Nat × UserPools) := do
  let (buffer, systemPtes) ← mmAllocateSystemPtes 1 s.systemPtes
  match buffer with
  | none => return (none, { s with systemPtes })
  | some buffer =>
    let memory ← bmBitmapCreateInBuffer buffer s.memory
    return (some buffer, { s with memory, systemPtes })

/-- `MmCloneUserPtes(ProcessBitmap, CloneProcessBitmap)`; `none` is
`STATUS_INSUFFICIENT_RESOURCES`. -/
def mmCloneUserPtes (cloneProcessBitmap : Nat) (s : UserPools) :
    Kernel (Option Nat × UserPools) := do
  let (buffer, systemPtes) ← mmAllocateSystemPtes 1 s.systemPtes
  match buffer with
  | none => return (none, { s with systemPtes })
  | some buffer =>
    let memory ← bmBitmapCreateInBuffer buffer s.memory
    return (some buffer, { s with memory := memcpy buffer cloneProcessBitmap memory, systemPtes })

/-- `MmAllocateUserPtes(Bitmap, NumberOfPages)` in the address space of the owner; `none` is
`NULL`. -/
def mmAllocateUserPtes (pool numberOfPages : Nat) (s : UserPools) :
    Kernel (Option Nat × UserPools) := do
  let (pageIndex, b) ← Words.bmBitmapScanAndFlip (bitmapAt s.memory pool) 0 numberOfPages false
  let s := { s with memory := storeBits s.memory pool b }
  match pageIndex with
  | none => return (none, s)
  | some pageIndex =>
    let memory := USERPTEPOOL_START + PGSIZE * pageIndex
    return (some memory, { s with
      mapped := Function.update s.mapped pool (mmVirtualAlloc memory numberOfPages (s.mapped pool)) })

/-- The loop of assertions in `MmFreeUserPtes`. -/
def testLoop (b : Words.BITMAP) : Nat → Nat → Kernel Unit
  | 0, _ => .ok ()
  | n + 1, i => do
    let set ← Words.bmBitmapTest b i
    assert (set = true) "BmBitmapTest(Bitmap, start + i) == TRUE"
    testLoop b n (i + 1)

/-- `MmFreeUserPtes(Address, Bitmap, NumberOfPages)` in the address space of the owner. -/
def mmFreeUserPtes (address pool numberOfPages : Nat) (s : UserPools) : Kernel UserPools := do
  assert (address ≥ USERPTEPOOL_START) "(ULONG_PTR)Address >= (USERPTEPOOL_START)"
  assert (address < USERPTEPOOL_END) "(ULONG_PTR)Address < (USERPTEPOOL_END)"
  assert (address % PGSIZE = 0) "IsPageAlignedAddress(Address)"
  let start := (address - USERPTEPOOL_START) / PGSIZE
  let b := bitmapAt s.memory pool
  testLoop b numberOfPages start
  let b ← Words.bmBitmapSetMultiple b start numberOfPages false
  let mapped ← mmVirtualFree address numberOfPages (s.mapped pool)
  return { s with
    memory := storeBits s.memory pool b, mapped := Function.update s.mapped pool mapped }

/-! ## What a pool has handed out -/

/-- The bits of the pool at an address. -/
def UserPools.bits (s : UserPools) (pool : Nat) : Nat → Bool :=
  (bitmapAt s.memory pool).unpack.bits

/-- **The pages that a pool has handed out.** -/
def used (s : UserPools) (pool : Nat) : Set Nat :=
  {i | i < (bitmapAt s.memory pool).BitCount ∧ s.bits pool i = true}

/-- A page of the system PTEs that has been handed out. -/
def Taken (m : SystemPtes) (a : Nat) : Prop :=
  ∃ i < systemPteCount, a = MMSYSPTE_START + PGSIZE * i ∧ m.bitmap.bits i = true

/-- **A pool whose words stand in the page `q`**: both pages have been handed out. -/
structure PoolAt (s : UserPools) (pool q : Nat) : Prop where
  page : Taken s.systemPtes pool
  words : Taken s.systemPtes q
  count : s.memory (word pool) = BitVec.ofNat 32 userPteCount
  bits : (s.memory (word pool + 1)).toNat = q + 8

/-- **A pool of user PTEs**, as `MmInitializeUserPtes` and `MmCloneUserPtes` leave it. -/
def IsPool (s : UserPools) (pool : Nat) : Prop :=
  s.systemPtes.bitmap.BitCount = systemPteCount ∧ ∃ q, PoolAt s pool q

/-! ## Calls on the pools -/

/-- **The calls** on a pool. -/
inductive PoolCall
  | allocate (pool numberOfPages : Nat)
  | free (address pool numberOfPages : Nat)

/-- The pool that a call is made on. -/
def PoolCall.pool : PoolCall → Nat
  | .allocate pool _ => pool
  | .free _ pool _ => pool

/-- The number of pages of a call. -/
def PoolCall.numberOfPages : PoolCall → Nat
  | .allocate _ n => n
  | .free _ _ n => n

/-- **One call**, and what it returns. -/
def PoolCall.run : PoolCall → UserPools → Kernel (Option Nat × UserPools)
  | .allocate pool n, s => mmAllocateUserPtes pool n s
  | .free address pool n, s => do
    let s ← mmFreeUserPtes address pool n s
    return (none, s)

/-- **Calls on the pools of a parent and of its child** from the state `s₀` on. -/
def forkedSystem (s₀ : UserPools) (parent child : Nat) : System (PoolCall × UserPools) UserPools where
  init s := s = s₀
  step _ s l s' := l.2 = s ∧ l.1.pool ∈ [parent, child] ∧ ∃ r, l.1.run s = .ok (r, s')

/-- **A call is about its own pool only**: the other pools keep what they have handed out, and an
allocation hands out what its pool has not handed out yet. -/
def PoolCall.OwnOnly (pools : List Nat) (c : PoolCall) (s : UserPools) : Prop :=
  ∀ r s', c.run s = .ok (r, s') →
    (∀ pool ∈ pools, pool ≠ c.pool → used s' pool = used s pool)
    ∧ ∀ a, r = some a → ∃ i, a = USERPTEPOOL_START + PGSIZE * i
      ∧ ∀ k, i ≤ k → k < i + c.numberOfPages → k ∉ used s c.pool

/-- **A call that changes its pool**: at least one page is freed, or is asked for and found. -/
def PoolCall.Changes (c : PoolCall) (s : UserPools) : Prop :=
  0 < c.numberOfPages ∧ match c with
    | .allocate pool n => ∃ j, j + n ≤ userPteCount ∧ AllIn (s.bits pool) j n false
    | .free .. => True

/-- **The pools of a parent and of its child are independent** over the calls `t`. -/
structure Independent (s₀ s₁ : UserPools) (parent child : Nat) (t : List (PoolCall × UserPools)) :
    Prop where
  cloned : used s₁ child = used s₀ parent
  kept : used s₁ parent = used s₀ parent
  ownOnly : ∀ l ∈ t, l.1.OwnOnly [parent, child] l.2

/-! ## Stores to the words -/

variable {s s' : UserPools} {memory memory' : Nat → BitVec 32} {pool pool' q i n w address : Nat}
  {b b' : Words.BITMAP}

/-- The bits determine the words. -/
theorem bits_eq_of_unpack {idx : Nat}
    (h : ∀ i, i / 32 = idx → b'.unpack.bits i = b.unpack.bits i) : b'.bits idx = b.bits idx := by
  refine BitVec.eq_of_getLsbD_eq fun k hk => ?_
  have hbit := h (32 * idx + k) (by omega)
  have hword : (32 * idx + k) / 32 = idx := by omega
  have hplace : (32 * idx + k) % 32 = k := by omega
  simpa only [Words.BITMAP.unpack, Words.bmElementIndex, hword, hplace] using hbit

/-- Words outside the bits of a bitmap stay as they are. -/
theorem fillRange_words {value : Bool} (hroom : i + n ≤ userPteCount)
    (hbits : b'.unpack.bits = fillRange b.unpack.bits i n value) (hw : 1022 ≤ w) :
    b'.bits w = b.bits w := by
  refine bits_eq_of_unpack fun k hk => ?_
  have hcount : userPteCount = 32704 := by decide
  rw [hbits, fillRange_of_not (by omega)]

/-- A page of the system PTEs, as words. -/
theorem Taken.words {m : SystemPtes} {a : Nat} (h : Taken m a) :
    ∃ k, a = 4 * word a ∧ word a = MMSYSPTE_START / 4 + 1024 * k ∧ k < 65536 := by
  obtain ⟨k, hk, rfl, -⟩ := h
  refine ⟨k, ?_, ?_, hk⟩ <;> simp only [word, MMSYSPTE_START, PGSIZE] <;> omega

/-- **A `BITMAP` of a pool** at an address, with its words in the page `q`. -/
structure HeaderAt (memory : Nat → BitVec 32) (pool q : Nat) : Prop where
  aligned : word (q + 8) = word q + 2
  count : memory (word pool) = BitVec.ofNat 32 userPteCount
  bits : (memory (word pool + 1)).toNat = q + 8

/-- The header of a bitmap does not stand among the words of the page `q`. -/
def HeaderApart (pool q : Nat) : Prop :=
  (word pool < word q + 2 ∨ word q + 1024 ≤ word pool)
    ∧ (word pool + 1 < word q + 2 ∨ word q + 1024 ≤ word pool + 1)

/-- The bits of a pool are the words behind its page `q`. -/
theorem HeaderAt.bitmapAt (h : HeaderAt memory pool q) :
    PoolPages.bitmapAt memory pool = ⟨userPteCount, fun i => memory (word q + 2 + i)⟩ := by
  unfold PoolPages.bitmapAt
  rw [h.count, h.bits, h.aligned]
  rfl

/-- Only words of the page `q` are stored to. -/
theorem HeaderAt.storeBits_frame (h : HeaderAt memory pool q)
    (hframe : ∀ w, 1022 ≤ w → b.bits w = (PoolPages.bitmapAt memory pool).bits w)
    (hw : w < word q + 2 ∨ word q + 1024 ≤ w) : storeBits memory pool b w = memory w := by
  unfold storeBits
  simp only [h.bits, h.aligned]
  split
  · rw [hframe _ (by omega), h.bitmapAt]
    simp only
    congr 1
    omega
  · rfl

/-- **The words are stored to**: every bitmap with these words has the new bits. -/
theorem HeaderAt.store (h : HeaderAt memory pool q) (h' : HeaderAt memory pool' q)
    (hapart : HeaderApart pool' q)
    (hframe : ∀ w, 1022 ≤ w → b.bits w = (PoolPages.bitmapAt memory pool).bits w) :
    HeaderAt (storeBits memory pool b) pool' q
      ∧ (PoolPages.bitmapAt (storeBits memory pool b) pool').unpack.bits = b.unpack.bits := by
  have hheader : HeaderAt (storeBits memory pool b) pool' q := by
    refine ⟨h'.aligned, ?_, ?_⟩
    · rw [h.storeBits_frame hframe hapart.1, h'.count]
    · rw [h.storeBits_frame hframe hapart.2, h'.bits]
  refine ⟨hheader, ?_⟩
  have hbits : ∀ i, storeBits memory pool b (word q + 2 + i) = b.bits i := by
    intro i
    unfold storeBits
    simp only [h.bits, h.aligned]
    rw [if_pos (by omega)]
    congr 1
    omega
  unfold Words.BITMAP.unpack
  rw [hheader.bitmapAt]
  simp only [hbits]

/-- A pool has a header. -/
theorem PoolAt.header (h : PoolAt s pool q) : HeaderAt s.memory pool q := by
  obtain ⟨k, hq, -⟩ := h.words.words
  refine ⟨?_, h.count, h.bits⟩
  simp only [word] at hq ⊢
  omega

/-- The headers of pools stand apart from the words of pools. -/
theorem PoolAt.apart (h : PoolAt s pool q) (h' : Taken s.systemPtes pool') :
    HeaderApart pool' q := by
  obtain ⟨k, -, hq, -⟩ := h.words.words
  obtain ⟨l, -, hp, -⟩ := h'.words
  unfold HeaderApart
  omega

/-- **The words of a pool are stored to**: the pool has the new bits, and so has every pool with the
same words. -/
theorem PoolAt.store (h : PoolAt s pool q) (h' : PoolAt s pool' q)
    (hframe : ∀ w, 1022 ≤ w → b.bits w = (bitmapAt s.memory pool).bits w)
    (hmemory : s'.memory = storeBits s.memory pool b) (hsystem : s'.systemPtes = s.systemPtes) :
    PoolAt s' pool' q ∧ s'.bits pool' = b.unpack.bits := by
  obtain ⟨hheader, hbits⟩ := h.header.store h'.header (h.apart h'.page) hframe
  unfold UserPools.bits
  rw [hmemory]
  refine ⟨⟨hsystem ▸ h'.page, hsystem ▸ h'.words, ?_, ?_⟩, hbits⟩
  · rw [hmemory, hheader.count]
  · rw [hmemory, hheader.bits]

/-- What a pool has handed out, in its bits. -/
theorem PoolAt.used (h : PoolAt s pool q) :
    PoolPages.used s pool = {i | i < userPteCount ∧ s.bits pool i = true} := by
  unfold PoolPages.used
  rw [h.header.bitmapAt]

/-! ## The routines -/

/-- The search on the words of a pool. -/
theorem PoolAt.scanAndFlip (h : PoolAt s pool q) (n : Nat) :
    ∃ found b, Words.bmBitmapScanAndFlip (PoolPages.bitmapAt s.memory pool) 0 n false = .ok (found, b)
      ∧ (∀ w, 1022 ≤ w → b.bits w = (PoolPages.bitmapAt s.memory pool).bits w)
      ∧ (found = none → b.unpack.bits = s.bits pool
        ∧ ∀ j, j + n ≤ userPteCount → ¬ AllIn (s.bits pool) j n false)
      ∧ ∀ i, found = some i → i + n ≤ userPteCount ∧ AllIn (s.bits pool) i n false
        ∧ b.unpack.bits = fillRange (s.bits pool) i n true := by
  have hcount : (PoolPages.bitmapAt s.memory pool).unpack.BitCount = userPteCount := by
    rw [h.header.bitmapAt]
    rfl
  obtain ⟨found, b', hscan, hnone, hsome⟩ :=
    bmBitmapScanAndFlip_spec (PoolPages.bitmapAt s.memory pool).unpack n false
  have hwords := Words.bmBitmapScanAndFlip_unpack (PoolPages.bitmapAt s.memory pool) 0 n false
  rw [hscan] at hwords
  obtain ⟨⟨found', b⟩, hrun, hpair⟩ := kernel_map_eq_ok.mp hwords
  obtain ⟨rfl, rfl⟩ := Prod.mk.inj hpair
  refine ⟨found', b, hrun, fun w hw => ?_, fun hf => ?_, fun i hi => ?_⟩
  · cases found' with
    | none =>
      refine bits_eq_of_unpack fun i _ => ?_
      rw [(hnone rfl).1]
    | some i =>
      obtain ⟨hroom, -, -, hb⟩ := hsome i rfl
      exact fillRange_words (hcount ▸ hroom) (congrArg KaushOS.BITMAP.bits hb) hw
  · obtain ⟨hb, hfull⟩ := hnone hf
    refine ⟨congrArg KaushOS.BITMAP.bits hb, fun j hj => hfull j ?_⟩
    rw [hcount]
    exact hj
  · obtain ⟨hroom, hfree, -, hb⟩ := hsome i hi
    exact ⟨hcount ▸ hroom, hfree, congrArg KaushOS.BITMAP.bits hb⟩

/-- The assertions on the words are those on the bits. -/
theorem testLoop_unpack (b : Words.BITMAP) (n i : Nat) :
    testLoop b n i = KaushOS.testLoop b.unpack n i := by
  induction n generalizing i with
  | zero => rfl
  | succ n ih =>
    rw [testLoop, KaushOS.testLoop, Words.bmBitmapTest_unpack]
    simp only [ih]

/-- Two pools with the same words have the same bits. -/
theorem PoolAt.bits_eq (h : PoolAt s pool q) (h' : PoolAt s pool' q) :
    s.bits pool' = s.bits pool := by
  unfold UserPools.bits
  rw [h.header.bitmapAt, h'.header.bitmapAt]

/-- **An allocation** changes the bits of every pool with the same words. -/
theorem PoolAt.allocate (h : PoolAt s pool q) (n : Nat) :
    ∃ r s', mmAllocateUserPtes pool n s = .ok (r, s')
      ∧ (∀ pool', PoolAt s pool' q → PoolAt s' pool' q)
      ∧ (r = none → (∀ pool', PoolAt s pool' q → s'.bits pool' = s.bits pool')
        ∧ ∀ j, j + n ≤ userPteCount → ¬ AllIn (s.bits pool) j n false)
      ∧ ∀ a, r = some a → ∃ i, a = USERPTEPOOL_START + PGSIZE * i ∧ i + n ≤ userPteCount
        ∧ AllIn (s.bits pool) i n false
        ∧ ∀ pool', PoolAt s pool' q → s'.bits pool' = fillRange (s.bits pool') i n true := by
  obtain ⟨found, b, hscan, hframe, hnone, hsome⟩ := h.scanAndFlip n
  rw [mmAllocateUserPtes, hscan, kernel_ok_bind]
  cases found with
  | none =>
    obtain ⟨hb, hfull⟩ := hnone rfl
    let s' : UserPools := { s with memory := storeBits s.memory pool b }
    have hstore : ∀ pool', PoolAt s pool' q → PoolAt s' pool' q ∧ s'.bits pool' = b.unpack.bits :=
      fun pool' h' => h.store h' hframe rfl rfl
    refine ⟨none, s', rfl, fun pool' h' => (hstore pool' h').1, fun _ => ⟨fun pool' h' => ?_, hfull⟩,
      fun a ha => (by cases ha)⟩
    rw [(hstore pool' h').2, hb, h.bits_eq h']
  | some i =>
    obtain ⟨hroom, hfree, hb⟩ := hsome i rfl
    let s' : UserPools := { s with
      memory := storeBits s.memory pool b
      mapped := Function.update s.mapped pool
        (mmVirtualAlloc (USERPTEPOOL_START + PGSIZE * i) n (s.mapped pool)) }
    have hstore : ∀ pool', PoolAt s pool' q → PoolAt s' pool' q ∧ s'.bits pool' = b.unpack.bits :=
      fun pool' h' => h.store h' hframe rfl rfl
    refine ⟨some (USERPTEPOOL_START + PGSIZE * i), s', rfl, fun pool' h' => (hstore pool' h').1,
      fun hn => (by cases hn), fun a ha => ⟨i, (Option.some.inj ha).symm, hroom, hfree, ?_⟩⟩
    intro pool' h'
    rw [(hstore pool' h').2, hb, h.bits_eq h']

/-- **Freeing** changes the bits of every pool with the same words. -/
theorem PoolAt.free (h : PoolAt s pool q) (hrun : mmFreeUserPtes address pool n s = .ok s') :
    (∀ pool', PoolAt s pool' q → PoolAt s' pool' q)
      ∧ ∃ i, i + n ≤ userPteCount ∧ AllIn (s.bits pool) i n true
        ∧ ∀ pool', PoolAt s pool' q → s'.bits pool' = fillRange (s.bits pool') i n false := by
  obtain ⟨_, -, hrun⟩ := kernel_bind_eq_ok.mp hrun
  obtain ⟨_, -, hrun⟩ := kernel_bind_eq_ok.mp hrun
  obtain ⟨_, -, hrun⟩ := kernel_bind_eq_ok.mp hrun
  obtain ⟨_, htest, hrun⟩ := kernel_bind_eq_ok.mp hrun
  obtain ⟨b, hset, hrun⟩ := kernel_bind_eq_ok.mp hrun
  obtain ⟨mapped, -, hrun⟩ := kernel_bind_eq_ok.mp hrun
  cases hrun
  have hcount : (PoolPages.bitmapAt s.memory pool).BitCount = userPteCount := by rw [h.header.bitmapAt]
  obtain ⟨_, -, hroom⟩ := kernel_bind_eq_ok.mp hset
  obtain ⟨_, hroom, -⟩ := kernel_bind_eq_ok.mp hroom
  have hroom := assert_eq_ok.mp hroom
  have hwords := Words.bmBitmapSetMultiple_unpack (PoolPages.bitmapAt s.memory pool)
    ((address - USERPTEPOOL_START) / PGSIZE) n false
  rw [hset, KaushOS.bmBitmapSetMultiple_eq (show _ ≤ _ from hroom)] at hwords
  have hb : b.unpack.bits = fillRange (s.bits pool) ((address - USERPTEPOOL_START) / PGSIZE) n false :=
    congrArg KaushOS.BITMAP.bits (Except.ok.inj hwords)
  rw [hcount] at hroom
  let s' : UserPools := { s with
    memory := storeBits s.memory pool b, mapped := Function.update s.mapped pool mapped }
  have hstore : ∀ pool', PoolAt s pool' q → PoolAt s' pool' q ∧ s'.bits pool' = b.unpack.bits :=
    fun pool' h' => h.store h' (fun w hw => fillRange_words hroom hb hw) rfl rfl
  refine ⟨fun pool' h' => (hstore pool' h').1, _, hroom, ?_, fun pool' h' => ?_⟩
  · rw [testLoop_unpack] at htest
    exact (allIn_of_testLoop htest).2
  · rw [(hstore pool' h').2, hb, h.bits_eq h']

/-! ## New pools -/

/-- **A bitmap is created in a page**: nothing else is stored to, and no bit is set. -/
theorem bmBitmapCreateInBuffer_spec (memory : Nat → BitVec 32) {block k : Nat}
    (hblock : block = MMSYSPTE_START + PGSIZE * k) (hk : k < systemPteCount) :
    ∃ memory', bmBitmapCreateInBuffer block memory = .ok memory'
      ∧ (∀ w, w < word block ∨ word block + 1024 ≤ w → memory' w = memory w)
      ∧ HeaderAt memory' block block
      ∧ AllIn (bitmapAt memory' block).unpack.bits 0 userPteCount false := by
  have hcount : systemPteCount = 65536 := rfl
  have hlt : block + 8 < 4294967296 := by
    simp only [hblock, MMSYSPTE_START, PGSIZE]
    omega
  obtain ⟨memory₁, hmemory₁⟩ : ∃ memory₁, memory₁ = Function.update (Function.update memory
    (word block) (BitVec.ofNat 32 userPteCount)) (word block + 1) (BitVec.ofNat 32 (block + 8)) :=
    ⟨_, rfl⟩
  have hheader : HeaderAt memory₁ block block := by
    refine ⟨?_, ?_, ?_⟩
    · simp only [word, hblock, MMSYSPTE_START, PGSIZE]
      omega
    · rw [hmemory₁, Function.update_of_ne (by omega), Function.update_self]
    · rw [hmemory₁, Function.update_self, BitVec.toNat_ofNat]
      exact Nat.mod_eq_of_lt hlt
  have hroom : 0 + userPteCount ≤ (bitmapAt memory₁ block).BitCount := by
    rw [hheader.bitmapAt]
    exact Nat.le_of_eq (Nat.zero_add _)
  have hset := Words.bmBitmapSetMultiple_unpack (bitmapAt memory₁ block) 0 userPteCount false
  rw [KaushOS.bmBitmapSetMultiple_eq hroom] at hset
  obtain ⟨b, hrun, hb⟩ := kernel_map_eq_ok.mp hset
  have hbits : b.unpack.bits = fillRange (bitmapAt memory₁ block).unpack.bits 0 userPteCount false :=
    congrArg KaushOS.BITMAP.bits hb
  have hframe := fun w (hw : 1022 ≤ w) =>
    fillRange_words (b := bitmapAt memory₁ block) (Nat.le_of_eq (Nat.zero_add _)) hbits hw
  obtain ⟨hheader', hnew⟩ :=
    hheader.store hheader (by unfold HeaderApart; omega) hframe
  refine ⟨storeBits memory₁ block b, ?_, fun w hw => ?_, hheader', ?_⟩
  · have hall : Words.bmBitmapSetAll (bitmapAt memory₁ block) false = .ok b := by
      unfold Words.bmBitmapSetAll
      rw [show (bitmapAt memory₁ block).BitCount = userPteCount by rw [hheader.bitmapAt]]
      exact hrun
    rw [bmBitmapCreateInBuffer, assert_of_true (by decide), kernel_ok_bind,
      assert_of_true (by decide), kernel_ok_bind]
    simp only [← hmemory₁, hall, kernel_ok_bind]
    rfl
  · rw [hheader.storeBits_frame hframe (by omega), hmemory₁, Function.update_of_ne (by omega),
      Function.update_of_ne (by omega)]
  · rw [hnew, hbits]
    exact allIn_fillRange

/-- A page that is handed out was not handed out before, and the others stay so. -/
theorem taken_of_allocate {m m' : SystemPtes} {a : Nat} (hcount : m.bitmap.BitCount = systemPteCount)
    (hrun : mmAllocateSystemPtes 1 m = .ok (some a, m')) :
    m'.bitmap.BitCount = systemPteCount ∧ Taken m' a ∧ ¬ Taken m a
      ∧ ∀ a', Taken m a' → Taken m' a' := by
  obtain ⟨r, m₁, hrun₁, -, hspec⟩ := mmAllocateSystemPtes_spec m 1
  rw [hrun₁] at hrun
  cases hrun
  obtain ⟨i, rfl, hroom, hfree, rfl⟩ := hspec a rfl
  have hi : i < systemPteCount := hcount ▸ hroom
  refine ⟨hcount, ⟨i, hi, rfl, fillRange_of_mem (Nat.le_refl i) (Nat.lt_succ_self i)⟩, ?_, ?_⟩
  · rintro ⟨j, -, hj, hset⟩
    obtain rfl : i = j := Nat.eq_of_mul_eq_mul_left (by decide) (Nat.add_left_cancel hj)
    rw [hfree i (Nat.le_refl i) (Nat.lt_succ_self i)] at hset
    cases hset
  · rintro _ ⟨j, hj, rfl, hset⟩
    refine ⟨j, hj, rfl, ?_⟩
    by_cases hji : i ≤ j ∧ j < i + 1
    · exact fillRange_of_mem hji.1 hji.2
    · exact (fillRange_of_not hji).trans hset

/-- Pages that have been handed out are the same page or lie apart. -/
theorem Taken.apart {m m' : SystemPtes} {a a' : Nat} (h : Taken m a) (h' : Taken m' a')
    (hne : a ≠ a') : word a + 1024 ≤ word a' ∨ word a' + 1024 ≤ word a := by
  obtain ⟨k, ha, hk, -⟩ := h.words
  obtain ⟨l, ha', hl, -⟩ := h'.words
  omega

/-- A pool stays what it is when its two pages stay what they are. -/
theorem PoolAt.keep (h : PoolAt s pool q) (s' : UserPools)
    (htaken : ∀ a, Taken s.systemPtes a → Taken s'.systemPtes a)
    (hmemory : ∀ a, Taken s.systemPtes a → ∀ w, word a ≤ w → w < word a + 1024 →
      s'.memory w = s.memory w) : PoolAt s' pool q ∧ PoolPages.used s' pool = PoolPages.used s pool := by
  have hpool : PoolAt s' pool q := by
    refine ⟨htaken _ h.page, htaken _ h.words, ?_, ?_⟩
    · rw [hmemory pool h.page _ (by omega) (by omega), h.count]
    · rw [hmemory pool h.page _ (by omega) (by omega), h.bits]
  have hbits : ∀ i < userPteCount, s'.bits pool i = s.bits pool i := by
    intro i hi
    have hcount : userPteCount = 32704 := rfl
    unfold UserPools.bits
    simp only [h.header.bitmapAt, hpool.header.bitmapAt, Words.BITMAP.unpack, Words.bmElementIndex]
    rw [hmemory q h.words _ (by omega) (by omega)]
  refine ⟨hpool, ?_⟩
  rw [hpool.used, h.used]
  ext i
  exact and_congr_right fun hi => by rw [hbits i hi]

/-- **The page of a new pool**: it is handed out, and a bitmap is created in it. -/
theorem newPage_spec (hcount : s.systemPtes.bitmap.BitCount = systemPteCount) {buffer : Nat}
    {m : SystemPtes} (hrun : mmAllocateSystemPtes 1 s.systemPtes = .ok (some buffer, m)) :
    ∃ memory, bmBitmapCreateInBuffer buffer s.memory = .ok memory
      ∧ PoolAt ⟨memory, m, s.mapped⟩ buffer buffer
      ∧ PoolPages.used ⟨memory, m, s.mapped⟩ buffer = ∅
      ∧ ∀ a, Taken s.systemPtes a → ∀ w, word a ≤ w → w < word a + 1024 →
        memory w = s.memory w := by
  obtain ⟨hcount', htaken, hfresh, -⟩ := taken_of_allocate hcount hrun
  obtain ⟨k, hk, hbuffer, hset⟩ := htaken
  obtain ⟨memory, hcreate, hframe, hheader, hclear⟩ :=
    bmBitmapCreateInBuffer_spec s.memory hbuffer hk
  have hpool : PoolAt ⟨memory, m, s.mapped⟩ buffer buffer :=
    ⟨⟨k, hk, hbuffer, hset⟩, ⟨k, hk, hbuffer, hset⟩, hheader.count, hheader.bits⟩
  refine ⟨memory, hcreate, hpool, ?_, fun a ha w hlo hhi => hframe w ?_⟩
  · rw [hpool.used]
    refine Set.eq_empty_iff_forall_notMem.mpr fun i ⟨hi, hbit⟩ => ?_
    have hzero := hclear i (Nat.zero_le i) (by omega)
    exact Bool.noConfusion (hzero.symm.trans hbit)
  · have hne : a ≠ buffer := fun heq => hfresh (heq ▸ ha)
    have happart := ha.apart ⟨k, hk, hbuffer, hset⟩ hne
    omega

/-- **A new pool** has handed out nothing. -/
theorem mmInitializeUserPtes_isPool (hcount : s.systemPtes.bitmap.BitCount = systemPteCount)
    (hrun : mmInitializeUserPtes s = .ok (some pool, s')) :
    IsPool s' pool ∧ used s' pool = ∅ ∧ ∀ pool', IsPool s pool' →
      IsPool s' pool' ∧ used s' pool' = used s pool' := by
  obtain ⟨⟨buffer, m⟩, halloc, hrun⟩ := kernel_bind_eq_ok.mp hrun
  cases buffer with
  | none => cases hrun
  | some buffer =>
    obtain ⟨hcount', -, -, hstay⟩ := taken_of_allocate hcount halloc
    obtain ⟨memory, hcreate, hpool, hused, hframe⟩ := newPage_spec hcount halloc
    simp only [hcreate, kernel_ok_bind] at hrun
    cases hrun
    refine ⟨⟨hcount', _, hpool⟩, hused, ?_⟩
    rintro pool' ⟨-, q, h'⟩
    obtain ⟨hpool', hsame⟩ := h'.keep ⟨memory, m, s.mapped⟩ hstay hframe
    exact ⟨⟨hcount', q, hpool'⟩, hsame⟩

/-- **The pool of a forked process** has its words where those of the parent are. -/
theorem mmCloneUserPtes_spec (hcount : s.systemPtes.bitmap.BitCount = systemPteCount)
    (h : PoolAt s pool q) {child : Nat} (hrun : mmCloneUserPtes pool s = .ok (some child, s')) :
    s'.systemPtes.bitmap.BitCount = systemPteCount ∧ child ≠ pool ∧ PoolAt s' child q
      ∧ PoolAt s' pool q ∧ used s' pool = used s pool ∧ used s' child = used s pool := by
  obtain ⟨⟨buffer, m⟩, halloc, hrun⟩ := kernel_bind_eq_ok.mp hrun
  cases buffer with
  | none => cases hrun
  | some buffer =>
    obtain ⟨hcount', htaken, hfresh, hstay⟩ := taken_of_allocate hcount halloc
    obtain ⟨memory, hcreate, -, -, hframe⟩ := newPage_spec hcount halloc
    simp only [hcreate, kernel_ok_bind] at hrun
    cases hrun
    have hne : ∀ a, Taken s.systemPtes a → a ≠ child := fun a ha heq => hfresh (heq ▸ ha)
    have hpages : PGSIZE / 4 = 1024 := by decide
    -- the copy stores to the page of the child only
    have hcopy : ∀ a, Taken s.systemPtes a → ∀ w, word a ≤ w → w < word a + 1024 →
        memcpy child pool memory w = s.memory w := by
      intro a ha w hlo hhi
      have happart := ha.apart htaken (hne a ha)
      rw [memcpy, hpages, if_neg (by omega)]
      exact hframe a ha w hlo hhi
    obtain ⟨hpool, hused⟩ := h.keep ⟨memcpy child pool memory, m, s.mapped⟩ hstay hcopy
    have hchild : ∀ k, k < 2 → memcpy child pool memory (word child + k) = s.memory (word pool + k) := by
      intro k hk
      rw [memcpy, hpages, if_pos (by omega)]
      rw [show word child + k - word child + word pool = word pool + k by omega]
      exact hframe pool h.page _ (by omega) (by omega)
    have hcloned : PoolAt ⟨memcpy child pool memory, m, s.mapped⟩ child q :=
      ⟨htaken, hpool.words, (hchild 0 (by omega)).trans h.count,
        (congrArg BitVec.toNat (hchild 1 (by omega))).trans h.bits⟩
    refine ⟨hcount', (hne pool h.page).symm, hcloned, hpool, hused, ?_⟩
    rw [hcloned.used, hpool.bits_eq hcloned, ← hpool.used]
    exact hused

/-! ## Forked pools -/

/-- A range is filled that had the other value everywhere: this changes a pool unless the range is
empty. -/
theorem PoolAt.used_fill (h : PoolAt s pool q) (h' : PoolAt s' pool q) {value : Bool}
    (hroom : i + n ≤ userPteCount) (hrange : AllIn (s.bits pool) i n (!value))
    (hbits : s'.bits pool = fillRange (s.bits pool) i n value) :
    PoolPages.used s' pool = PoolPages.used s pool ↔ n = 0 := by
  rw [h.used, h'.used, hbits]
  constructor
  · intro heq
    by_contra hn
    have hi : (i < userPteCount ∧ fillRange (s.bits pool) i n value i = true)
        ↔ (i < userPteCount ∧ s.bits pool i = true) := Set.ext_iff.mp heq i
    rw [fillRange_of_mem (Nat.le_refl i) (by omega), hrange i (Nat.le_refl i) (by omega)] at hi
    have hlt : i < userPteCount := by omega
    cases value
    · exact Bool.noConfusion (hi.mpr ⟨hlt, rfl⟩).2
    · exact Bool.noConfusion (hi.mp ⟨hlt, rfl⟩).2
  · rintro rfl
    rw [fillRange_zero]

variable {c : PoolCall} {r : Option Nat}

/-- **One call** keeps the pools with the same words, changes all of them or none, and hands out only
what had not been handed out. -/
theorem PoolCall.run_spec (h : PoolAt s c.pool q) (hrun : c.run s = .ok (r, s')) :
    (∀ pool', PoolAt s pool' q → PoolAt s' pool' q)
      ∧ (∀ pool', PoolAt s pool' q → (used s' pool' = used s pool' ↔ ¬ c.Changes s))
      ∧ ∀ a, r = some a → ∃ i, a = USERPTEPOOL_START + PGSIZE * i
        ∧ ∀ k, i ≤ k → k < i + c.numberOfPages → k ∉ used s c.pool := by
  cases c with
  | allocate pool n =>
    obtain ⟨r', s'', hrun', hkeep, hnone, hsome⟩ := PoolAt.allocate h n
    cases hrun.symm.trans hrun'
    refine ⟨hkeep, fun pool' h' => ?_, fun a ha => ?_⟩
    · cases r with
      | none =>
        obtain ⟨hbits, hfull⟩ := hnone rfl
        refine iff_of_true ?_ fun ⟨_, j, hroom, hfree⟩ => hfull j hroom hfree
        rw [h'.used, (hkeep pool' h').used, hbits pool' h']
      | some a =>
        obtain ⟨i, -, hroom, hfree, hbits⟩ := hsome a rfl
        rw [h'.used_fill (hkeep pool' h') hroom (h.bits_eq h' ▸ hfree) (hbits pool' h')]
        constructor
        · rintro rfl hchanges
          exact Nat.lt_irrefl 0 hchanges.1
        · intro hno
          by_contra hn
          exact hno ⟨Nat.pos_of_ne_zero hn, i, hroom, hfree⟩
    · obtain ⟨i, hi, -, hfree, -⟩ := hsome a ha
      refine ⟨i, hi, fun k hlo hhi hk => ?_⟩
      exact Bool.noConfusion ((hfree k hlo hhi).symm.trans hk.2)
  | free address pool n =>
    obtain ⟨s'', hfree, hret⟩ := kernel_bind_eq_ok.mp hrun
    cases hret
    obtain ⟨hkeep, i, hroom, hset, hbits⟩ := PoolAt.free h hfree
    refine ⟨hkeep, fun pool' h' => ?_, fun a ha => (by cases ha)⟩
    rw [h'.used_fill (hkeep pool' h') hroom (h.bits_eq h' ▸ hset) (hbits pool' h')]
    constructor
    · rintro rfl hchanges
      exact Nat.lt_irrefl 0 hchanges.1
    · intro hno
      by_contra hn
      exact hno ⟨Nat.pos_of_ne_zero hn, trivial⟩

/-- In every run the two pools keep their words in one place. -/
theorem forked_run {s₀ : UserPools} {parent child : Nat} {t : List (PoolCall × UserPools)}
    (hparent : PoolAt s₀ parent q) (hchild : PoolAt s₀ child q)
    (hrun : (forkedSystem s₀ parent child).Run t s) :
    (PoolAt s parent q ∧ PoolAt s child q) ∧ ∀ l ∈ t, PoolAt l.2 parent q ∧ PoolAt l.2 child q
      ∧ l.1.pool ∈ [parent, child] ∧ ∃ r s', l.1.run l.2 = .ok (r, s') := by
  induction hrun with
  | start hs =>
    cases hs
    exact ⟨⟨hparent, hchild⟩, List.forall_mem_nil _⟩
  | @step t s l s' _ hstep ih =>
    obtain ⟨⟨hp, hc⟩, hall⟩ := ih
    obtain ⟨c, s₁⟩ := l
    obtain ⟨hs, hpool, r, hcall⟩ := hstep
    obtain rfl : s₁ = s := hs
    have hcalled : PoolAt s₁ c.pool q := by
      rcases List.mem_pair.mp hpool with heq | heq
      · rw [heq]
        exact hp
      · rw [heq]
        exact hc
    obtain ⟨hkeep, -, -⟩ := PoolCall.run_spec hcalled hcall
    refine ⟨⟨hkeep _ hp, hkeep _ hc⟩, fun l hl => ?_⟩
    rcases List.mem_cons.mp hl with rfl | hl
    · exact ⟨hp, hc, hpool, r, s', hcall⟩
    · exact hall l hl

/-- A call is about its own pool only if it does not change it, because the other pool has the same
words. -/
theorem PoolCall.ownOnly_iff {parent child : Nat} (hparent : PoolAt s parent q)
    (hchild : PoolAt s child q) (hne : child ≠ parent) (hpool : c.pool ∈ [parent, child])
    (hreturns : ∃ r s', c.run s = .ok (r, s')) : c.OwnOnly [parent, child] s ↔ ¬ c.Changes s := by
  have hcalled : PoolAt s c.pool q := by
    rcases List.mem_pair.mp hpool with heq | heq
    · rw [heq]
      exact hparent
    · rw [heq]
      exact hchild
  constructor
  · obtain ⟨r, s', hrun⟩ := hreturns
    intro hown
    obtain ⟨hothers, -⟩ := hown r s' hrun
    obtain ⟨-, hsame, -⟩ := PoolCall.run_spec hcalled hrun
    rcases List.mem_pair.mp hpool with heq | heq
    · exact (hsame child hchild).mp (hothers child (by simp) (heq ▸ hne))
    · exact (hsame parent hparent).mp (hothers parent (by simp) (heq ▸ hne.symm))
  · intro hno r s' hrun
    obtain ⟨-, hsame, hfresh⟩ := PoolCall.run_spec hcalled hrun
    refine ⟨fun pool hp _ => ?_, hfresh⟩
    have hat : PoolAt s pool q := by
      rcases List.mem_pair.mp hp with heq | heq
      · rw [heq]
        exact hparent
      · rw [heq]
        exact hchild
    exact (hsame pool hat).mpr hno

/-- Memory with one pool, in the first page of the system PTEs, that has handed out nothing. -/
def onePool : UserPools where
  memory w :=
    if w = word MMSYSPTE_START then BitVec.ofNat 32 userPteCount
    else if w = word MMSYSPTE_START + 1 then BitVec.ofNat 32 (MMSYSPTE_START + 8) else 0
  systemPtes := ⟨⟨systemPteCount, fun i => i = 0⟩, fun p => p = MMSYSPTE_START / PGSIZE⟩
  mapped _ _ := false

/-- It is a pool. -/
theorem onePool_poolAt : PoolAt onePool MMSYSPTE_START MMSYSPTE_START := by
  have htaken : Taken onePool.systemPtes MMSYSPTE_START := ⟨0, by decide, rfl, rfl⟩
  exact ⟨htaken, htaken, by decide, by decide⟩

/-- The process with the one pool forks. -/
theorem onePool_clones :
    ∃ child s₁, mmCloneUserPtes MMSYSPTE_START onePool = .ok (some child, s₁) := by
  obtain ⟨r, m, hrun, hnone, -⟩ := mmAllocateSystemPtes_spec onePool.systemPtes 1
  cases r with
  | none =>
    refine absurd ?_ ((hnone rfl).2 1 (by decide))
    intro i hlo hhi
    obtain rfl : i = 1 := by omega
    rfl
  | some child =>
    obtain ⟨memory, hcreate, -⟩ := newPage_spec rfl hrun
    refine ⟨child, ⟨memcpy child MMSYSPTE_START memory, m, onePool.mapped⟩, ?_⟩
    rw [mmCloneUserPtes, hrun, kernel_ok_bind]
    simp only [hcreate, kernel_ok_bind]
    rfl

end KaushOS.PoolPages
