import KaushOS.Mm.PoolRuns

/-! # Sizes of requests (`kern/mm/pool.c`)

`MmAllocatePoolWithTag` puts `POOLPAD` bytes behind a request and rounds it up to whole words, in the
arithmetic of `ULONG`, before it looks for a block.

* **`poolBytes_eq`** — what the sum is without an overflow.
* **`PoolInvariant.request`** — where the memory lies that is handed out, whatever the request.
* **`request_inside_iff`** — exactly the requests that do not overflow get what they ask for. -/

namespace KaushOS

open CircularList Tiling

variable {va size pooltype b n tag p bytes : Nat} {s s' : PoolState} {m : Memory} {out : Finset Nat}
  {l l₁ l₂ : List Nat} {head : ListHead Nat}

/-! ## The sum -/

/-- A request that does not overflow is rounded up. -/
theorem poolBytes_eq (hn : n + 60 ≤ ULONG_VALUES) : n + POOLPAD ≤ poolBytes n := by
  unfold ULONG_VALUES at hn
  unfold poolBytes roundUp ulongSub ulongAdd ULONG_VALUES POOLPAD
  simp only
  omega

/-! ## The block that is handed out -/

/-- **Where the memory of block `b` ends** after the call: the header of the block says so, and neither
the next header nor the end of the region comes first. -/
structure BlockEnds (va size pooltype b stop : Nat) (s : PoolState) : Prop where
  block : stop ≤ b + POOLHEADER_SIZE + blockSize s.memory b
  next : ∀ c, listNext poolLink s.memory (s.KernelPools pooltype) b = some c → stop ≤ c
  region : stop ≤ va + size

theorem BlockEnds.mono {stop stop' : Nat} (h : BlockEnds va size pooltype b stop s)
    (hle : stop' ≤ stop) : BlockEnds va size pooltype b stop' s :=
  ⟨hle.trans h.block, fun c hc => hle.trans (h.next c hc), hle.trans h.region⟩

/-- Every block of the list is linked to a block of the list. -/
theorem PoolInvariant.next_mem (h : PoolInvariant va size pooltype head m out l) (hb : b ∈ l) :
    ∃ c ∈ l, poolLink.next m b = some c := by
  obtain ⟨l₁, l₂, rfl⟩ := List.append_of_mem hb
  have hring : Ring poolLink m (b :: (l₂ ++ l₁)) := by simpa using Ring.rotate h.list.ring
  obtain ⟨-, -, c, hc, -, hadj⟩ := hring.exists_neighbours
  refine ⟨c, ?_, hadj.1⟩
  simp only [List.mem_cons, List.mem_append] at hc ⊢
  tauto

/-- **A block is cut**, even if the rest has no room for a header: the block has the size that it is cut
to, and the new header stands behind it. -/
theorem PoolInvariant.splitBlock_ends (h : PoolInvariant va size pooltype head m out l)
    (hr : PoolRegion va size) (hb : b ∈ l) (hroom : bytes < blockSize m b) :
    ∃ head' m', splitBlock pooltype bytes b head m = .ok (head', m') ∧ head'.lh_first = head.lh_first
      ∧ blockSize m' b = bytes ∧ poolLink.next m' b = some (b + 28 + bytes) := by
  have hbounds := h.bounds hb
  have hfits := hr.fits
  have hnull := hr.notNull
  unfold ULONG_VALUES at hfits
  obtain ⟨new, hnew⟩ : ∃ new, new = b + 28 + bytes := ⟨_, rfl⟩
  have hnew' : ulongAdd (ulongAdd b POOLHEADER_SIZE) bytes = new := by
    unfold ulongAdd ULONG_VALUES POOLHEADER_SIZE
    omega
  obtain ⟨c, hc, hnext⟩ := h.next_mem hb
  have hcb := h.apart hc hb
  have hcpos := (h.bounds hc).1
  have hpointer : ∀ w, 0 < w → pointer w = some w := fun w hw => if_neg (by omega)
  generalize hrest : ulongSub (ulongSub (blockSize m b) POOLHEADER_SIZE) bytes = rest
  -- the words that the insertion reads
  have hnext₁ : poolLink.next (newFreeBlock pooltype rest new m) b = some c := by
    show pointer (newFreeBlock pooltype rest new m (b + 8)) = some c
    rw [newFreeBlock_outside (by omega)]
    exact hnext
  let m₂ := ((newFreeBlock pooltype rest new m).store (new + 8) c).store (b + 8) new
  let m₃ := m₂.store (new + 12) b
  have hnext₃ : poolLink.next m₃ new = some c := by
    show pointer ((((newFreeBlock pooltype rest new m).store (new + 8) c).store (b + 8) new).store
      (new + 12) b (new + 8)) = some c
    rw [store_of_ne (by omega), store_of_ne (by omega), store_self]
    exact hpointer c (by omega)
  let m₄ := (m₃.store (c + 12) new).store (b + 4) bytes
  have hinsert : listInsertAfter poolLink head (fun _ => .ok b) new
      (newFreeBlock pooltype rest new m)
      = .ok ({ head with NumberOfElements := head.NumberOfElements + 1 },
        m₃.store (c + 12) new) := by
    unfold listInsertAfter
    simp only [kernel_ok_bind, hnext₁]
    show (deref (poolLink.next m₃ new) >>= _) = _
    rw [hnext₃]
    rfl
  refine ⟨{ head with NumberOfElements := head.NumberOfElements + 1 }, m₄, ?_, rfl, store_self ..,
    ?_⟩
  · rw [splitBlock, hnew', hrest]
    show (listInsertAfter poolLink head (fun _ => .ok b) new (newFreeBlock pooltype rest new m) >>= _)
      = _
    rw [hinsert]
    rfl
  · have hlink : m₂ (b + 8) = new := store_self ..
    show pointer ((((m₂.store (new + 12) b).store (c + 12) new).store (b + 4) bytes) (b + 8)) = _
    rw [store_of_ne (by omega), store_of_ne (by omega), store_of_ne (by omega), hlink, ← hnew]
    exact hpointer new (by omega)

/-- **A call of `MmAllocatePoolWithTag`**, whatever the request: no free block is big enough, or memory
of the padded size is handed out. -/
theorem PoolInvariant.request
    (h : PoolInvariant va size pooltype (s.KernelPools pooltype) s.memory out l)
    (hr : PoolRegion va size) (n tag : Nat) :
    (mmAllocatePoolWithTag pooltype n tag s = .ok (none, s)
      ∧ ∀ b ∈ l, blockSuits s.memory (poolBytes n) b = false)
    ∨ ∃ b ∈ l, blockSuits s.memory (poolBytes n) b = true
      ∧ ∃ s', mmAllocatePoolWithTag pooltype n tag s = .ok (some (b + POOLHEADER_MEM), s')
        ∧ BlockEnds va size pooltype b (b + POOLHEADER_SIZE + poolBytes n) s' := by
  have hfits := hr.fits
  have hheader := hr.header
  have hnull := hr.notNull
  unfold ULONG_VALUES at hfits
  unfold POOLHEADER_SIZE at hheader
  have hne : ¬ listEmpty (s.KernelPools pooltype) = true := by
    rw [h.list.listEmpty_iff]
    rintro rfl
    have hend : va = va + size := h.tiles
    omega
  have hfind := h.list.listFind_eq (blockSuits s.memory (poolBytes n))
  rw [mmAllocatePoolWithTag]
  simp only
  rw [if_neg hne, hfind, kernel_ok_bind]
  cases hfound : l.find? (blockSuits s.memory (poolBytes n)) with
  | none =>
    refine .inl ⟨rfl, fun b hb => ?_⟩
    simpa using List.find?_eq_none.mp hfound b hb
  | some b =>
    have hb := List.mem_of_find?_eq_some hfound
    have hsuits := List.find?_some hfound
    obtain ⟨hfree, hlarge⟩ : isFreeBlock s.memory b = true ∧ poolBytes n < blockSize s.memory b := by
      simpa [blockSuits] using hsuits
    have hbounds := h.bounds hb
    -- the block is cut or not; its size says where it ends
    obtain ⟨head', m', hcut, hsize, hstop, hnext⟩ : ∃ head' m',
        cutBlock pooltype (poolBytes n) b (s.KernelPools pooltype) s.memory = .ok (head', m')
        ∧ poolBytes n ≤ blockSize m' b ∧ b + 28 + poolBytes n ≤ va + size
        ∧ ∀ c, listNext poolLink m' head' b = some c → b + 28 + poolBytes n ≤ c := by
      by_cases hsplit : poolBytes n < ulongSub (blockSize s.memory b) MINIMUMFREEPOOLSIZE
      · obtain ⟨head', m', hok, hfirst, hsize, hnext⟩ := h.splitBlock_ends hr hb hlarge
        refine ⟨head', m', (if_pos hsplit).trans hok, hsize.ge, by omega, fun c hc => ?_⟩
        unfold listNext at hc
        split at hc
        · cases hc
        · rw [hnext] at hc
          exact (Option.some.inj hc).le
      · refine ⟨_, _, if_neg hsplit, hlarge.le, by omega, fun c hc => ?_⟩
        obtain ⟨l₁, l₂, rfl⟩ := List.append_of_mem hb
        rw [h.list.listNext_eq] at hc
        obtain ⟨l₃, rfl⟩ := List.head?_eq_some_iff.mp hc
        have hbehind : c = b + 28 + blockSize s.memory b := h.tiles.next
        omega
    have hptr : ulongAdd b POOLHEADER_MEM = b + POOLHEADER_MEM := by
      unfold ulongAdd ULONG_VALUES POOLHEADER_MEM
      omega
    let m₂ := m'.store (b + 16) tag
    let m₃ := m₂.store (b + 20) (blockStatus m₂ b ||| POOL_STATUS_ALLOCATED)
    have hword : ∀ k, k < 16 → m₃ (b + k) = m' (b + k) := by
      intro k hk
      show (m₂.store _ _) _ = _
      rw [store_of_ne (by omega)]
      exact store_of_ne (by omega)
    have hhead : (s.set pooltype head' m₃).KernelPools pooltype = head' := Function.update_self ..
    refine .inr ⟨b, hb, hsuits, s.set pooltype head' m₃, ?_, ?_, fun c hc => ?_, hstop⟩
    · simp only
      rw [if_neg (not_not_intro hfree), hcut, kernel_ok_bind]
      simp only
      rw [hptr]
      rfl
    · show b + POOLHEADER_SIZE + poolBytes n ≤ b + POOLHEADER_SIZE + m₃ (b + 4)
      rw [hword 4 (by omega)]
      exact Nat.add_le_add_left hsize _
    · rw [hhead] at hc
      refine hnext c ?_
      have hlink : poolLink.next m₃ b = poolLink.next m' b := by
        show pointer (m₃ (b + 8)) = pointer (m' (b + 8))
        rw [hword 8 (by omega)]
      unfold listNext at hc ⊢
      rw [← hlink]
      exact hc

/-! ## What was asked for -/

/-- **A request gets what it asks for**: if a pointer is returned, it is the one to a block of the list,
and the bytes that were asked for lie in this block, before the next header and in the region. -/
def RequestInside (va size pooltype n tag : Nat) (s : PoolState) (l : List Nat) : Prop :=
  ∀ p s', mmAllocatePoolWithTag pooltype n tag s = .ok (some p, s') →
    ∃ b ∈ l, p = b + POOLHEADER_MEM ∧ BlockEnds va size pooltype b (p + n) s'

/-- **A request gets what it asks for** exactly if the sum does not overflow or nothing is big enough
for what is left of it. -/
theorem request_inside_iff
    (h : PoolInvariant va size pooltype (s.KernelPools pooltype) s.memory out l)
    (hr : PoolRegion va size) (hn : n < ULONG_VALUES) (tag : Nat) :
    RequestInside va size pooltype n tag s l
      ↔ n + 60 ≤ ULONG_VALUES ∨ ∀ b ∈ l, blockSuits s.memory (poolBytes n) b = false := by
  have hfits := hr.fits
  have hnull := hr.notNull
  rcases h.request hr n tag with ⟨hnone, hno⟩ | ⟨b, hb, hsuits, s', hsome, hends⟩
  · refine iff_of_true (fun p s' hrun => ?_) (.inr hno)
    cases hnone.symm.trans hrun
  · have hbounds := h.bounds hb
    constructor
    · intro hinside
      by_contra hwraps
      obtain ⟨hwraps, -⟩ := not_or.mp hwraps
      obtain ⟨b', -, -, hends'⟩ := hinside _ _ hsome
      have hregion := hends'.region
      unfold POOLHEADER_MEM at hregion
      omega
    · rintro (hsum | hno)
      · intro p s'' hrun
        cases hsome.symm.trans hrun
        have hbytes := poolBytes_eq hsum
        unfold POOLPAD at hbytes
        refine ⟨b, hb, rfl, hends.mono ?_⟩
        unfold POOLHEADER_MEM POOLHEADER_SIZE
        omega
      · rw [hno b hb] at hsuits
        cases hsuits

/-- One hundred bytes out of a page. -/
theorem request_inside_page : ∃ s, PoolInvariant 4096 4096 0 (s.KernelPools 0) s.memory ∅ [4096]
    ∧ (RequestInside 4096 4096 0 100 1 s [4096]
      ↔ 100 + 60 ≤ ULONG_VALUES ∨ ∀ b ∈ [4096], blockSuits s.memory (poolBytes 100) b = false) := by
  obtain ⟨s, -, hinv, -⟩ := PoolInvariant.create page_region 0 ⟨fun _ => 0, fun _ => listInit⟩
  exact ⟨s, hinv, request_inside_iff hinv page_region (by decide) 1⟩

/-- **A request for almost all of the address space** gets sixteen bytes out of a page. -/
theorem request_not_inside : ∃ s, PoolInvariant 4096 4096 0 (s.KernelPools 0) s.memory ∅ [4096]
    ∧ ¬ RequestInside 4096 4096 0 (ULONG_VALUES - 40) 1 s [4096] := by
  obtain ⟨s, hok, hinv, -⟩ := PoolInvariant.create page_region 0 ⟨fun _ => 0, fun _ => listInit⟩
  refine ⟨s, hinv, fun hinside => ?_⟩
  rcases hinv.request page_region (ULONG_VALUES - 40) 1 with ⟨-, hno⟩ | ⟨b, hb, -, s', hsome, -⟩
  · have hsuits : blockSuits s.memory (poolBytes (ULONG_VALUES - 40)) 4096 = true := by
      have hsize : 4096 + POOLHEADER_SIZE + blockSize s.memory 4096 = 4096 + 4096 := hinv.tiles.2
      have hfree : isFreeBlock s.memory 4096 = true :=
        (hinv.isFree (by simp)).mpr (Finset.notMem_empty _)
      have hbytes : poolBytes (ULONG_VALUES - 40) = 16 := by decide
      unfold POOLHEADER_SIZE at hsize
      unfold blockSuits
      rw [hfree, hbytes, Bool.true_and, decide_eq_true_iff]
      omega
    rw [hno 4096 (by simp)] at hsuits
    cases hsuits
  · obtain ⟨b', -, -, hends⟩ := hinside _ _ hsome
    have hregion := hends.region
    unfold ULONG_VALUES POOLHEADER_MEM at hregion
    omega

end KaushOS
