import KaushOS.Library.Transition
import KaushOS.Mm.PoolInvariant
import Mathlib

/-! # Runs of a pool

* **`PoolInvariant.create`, `PoolInvariant.allocate`, `PoolInvariant.free`** — what the three
  functions do to the tiling.
* **`SplitFits`** — the block that an allocation finds is large enough to be cut, or too small to
  be considered for it.
* **`pool_tiling`** — along runs of such allocations the blocks tile the region. -/

namespace KaushOS

open CircularList Tiling Transition

variable {va size pooltype b n tag p : Nat} {s s' : PoolState} {m : Memory}
  {out : Finset Nat} {l : List Nat}

/-! ## A region becomes a pool -/

/-- **A new pool** is one free block. -/
theorem PoolInvariant.create (hr : PoolRegion va size) (pooltype : Nat) (s : PoolState) :
    ∃ s', mmInitializePool va size pooltype true s = .ok s'
      ∧ PoolInvariant va size pooltype (s'.KernelPools pooltype) s'.memory ∅ [va]
      ∧ blockTag s'.memory va = NULLTAG := by
  have hfits := hr.fits
  have hheader := hr.header
  have hnull := hr.notNull
  unfold ULONG_VALUES at hfits
  unfold POOLHEADER_SIZE at hheader
  have hsize : ulongSub size POOLHEADER_SIZE = size - 28 := by
    unfold ulongSub ULONG_VALUES POOLHEADER_SIZE
    omega
  let m₁ := newFreeBlock pooltype (size - 28) va s.memory
  have hspaced : Spaced {x | x ∈ [va]} := by
    refine ⟨fun x hx => ?_, fun x hx y hy => Or.inl ?_⟩
    · rw [List.mem_singleton.mp hx]
      omega
    · exact (List.mem_singleton.mp hx).trans (List.mem_singleton.mp hy).symm
  have hempty : IsList poolLink {x | x ∈ [va]} m₁ listInit [] := isList_listInit
  obtain ⟨head, m₂, hok, hlist, hedits⟩ :=
    hempty.insertHead hspaced.lawful (List.not_mem_nil (a := va)) List.mem_cons_self
  have hfield : ∀ k, k < 28 → k ≠ 8 → k ≠ 12 → m₂ (va + k) = m₁ (va + k) := by
    intro k hk h8 h12
    refine edits_word hedits fun y hy => ?_
    rw [List.mem_singleton.mp hy]
    omega
  refine ⟨s.set pooltype head m₂, ?_, ?_⟩
  · rw [mmInitializePool, if_neg (by simp), hsize]
    show (listInsertHead poolLink listInit va m₁ >>= _) = _
    rw [hok]
    rfl
  · have hhead : (s.set pooltype head m₂).KernelPools pooltype = head := Function.update_self ..
    rw [hhead]
    refine ⟨⟨hlist, ⟨rfl, ?_⟩, fun x hx => ?_, fun x hx => ?_, fun x hx => ?_, fun p hp => ?_⟩,
      (hfield 16 (by omega) (by omega) (by omega)).trans newFreeBlock_tag⟩
    · have hrest : blockSize m₂ va = size - 28 :=
        (hfield 4 (by omega) (by omega) (by omega)).trans newFreeBlock_size
      show va + 28 + blockSize m₂ va = va + size
      rw [hrest]
      omega
    · rw [List.mem_singleton.mp hx]
      exact hr.aligned
    · rw [List.mem_singleton.mp hx]
      exact (hfield 0 (by omega) (by omega) (by omega)).trans newFreeBlock_type
    · rw [List.mem_singleton.mp hx]
      exact (hfield 20 (by omega) (by omega) (by omega)).trans newFreeBlock_status
    · exact absurd hp (Finset.notMem_empty p)

/-! ## Allocation -/

/-- A request is rounded up to whole words, also when the padding makes it wrap around. -/
theorem poolBytes_dvd (n : Nat) : 4 ∣ poolBytes n := by
  unfold poolBytes roundUp
  simp only
  omega

/-- **The block that an allocation finds has room for the request and another header, or it is not
smaller than `MINIMUMFREEPOOLSIZE`.** -/
def SplitFits (m : Memory) (l : List Nat) (bytes : Nat) : Prop :=
  ∀ l₁ b l₂, l = l₁ ++ b :: l₂ → blockSuits m bytes b = true →
    (∀ x ∈ l₁, blockSuits m bytes x = false) →
    MINIMUMFREEPOOLSIZE ≤ blockSize m b ∨ bytes + POOLHEADER_SIZE ≤ blockSize m b

/-- The blocks of a list into which one has been put behind `b`. -/
theorem mem_insert_behind {x c : Nat} {l m : List Nat} :
    x ∈ l ++ b :: c :: m ↔ x ∈ l ++ b :: m ∨ x = c := by
  simp only [List.mem_append, List.mem_cons]
  tauto

/-- **An allocation**: nothing is big enough, or the first free block that is goes out, and every
block stays in the list. -/
theorem PoolInvariant.allocate
    (h : PoolInvariant va size pooltype (s.KernelPools pooltype) s.memory out l)
    (hr : PoolRegion va size) (hfit : SplitFits s.memory l (poolBytes n))
    (tag : Nat) : mmAllocatePoolWithTag pooltype n tag s = .ok (none, s)
      ∧ l.find? (blockSuits s.memory (poolBytes n)) = none
    ∨ ∃ b s' l', mmAllocatePoolWithTag pooltype n tag s = .ok (some (b + POOLHEADER_MEM), s')
      ∧ PoolInvariant va size pooltype (s'.KernelPools pooltype) s'.memory
        (insert (b + POOLHEADER_MEM) out) l'
      ∧ l.find? (blockSuits s.memory (poolBytes n)) = some b ∧ (∀ x ∈ l, x ∈ l')
      ∧ blockTag s'.memory b = tag ∧ ∀ x ∈ l', x ≠ b →
        x ∈ l ∧ blockTag s'.memory x = blockTag s.memory x
        ∨ x ∉ l ∧ blockTag s'.memory x = NULLTAG := by
  have hfits := hr.fits
  have hheader := hr.header
  have hnull := hr.notNull
  unfold ULONG_VALUES at hfits
  unfold POOLHEADER_SIZE at hheader
  have hne : ¬ listEmpty (s.KernelPools pooltype) = true := by
    rw [h.list.listEmpty_iff]
    rintro rfl
    have hend : va = va + size := h.tiles
    omega
  have hfind := h.list.listFind_eq (blockSuits s.memory (poolBytes n))
  cases hfound : l.find? (blockSuits s.memory (poolBytes n)) with
  | none =>
    refine Or.inl ⟨?_, rfl⟩
    rw [mmAllocatePoolWithTag]
    simp only
    rw [if_neg hne, hfind, hfound]
    rfl
  | some b =>
    obtain ⟨hsuits, l₁, l₂, hl, hbefore⟩ := List.find?_eq_some_iff_append.mp hfound
    subst hl
    have hbefore' : ∀ x ∈ l₁, blockSuits s.memory (poolBytes n) x = false := by
      intro x hx
      simpa using hbefore x hx
    obtain ⟨hfree, hlarge⟩ : isFreeBlock s.memory b = true
        ∧ poolBytes n < blockSize s.memory b := by
      simpa [blockSuits] using hsuits
    have hb : b ∈ l₁ ++ b :: l₂ := by simp
    have hbout := (h.isFree hb).mp hfree
    have hbounds := h.bounds hb
    have hroom := hfit l₁ b l₂ rfl hsuits hbefore'
    unfold MINIMUMFREEPOOLSIZE POOLHEADER_SIZE at hroom
    -- the block is cut or not; either way it stays in the tiling
    obtain ⟨head', m', l', hcut, hinv, hkept, htags⟩ : ∃ head' m' l',
        cutBlock pooltype (poolBytes n) b (s.KernelPools pooltype) s.memory = .ok (head', m')
        ∧ PoolInvariant va size pooltype head' m' out l' ∧ (∀ x ∈ l₁ ++ b :: l₂, x ∈ l')
        ∧ ∀ x ∈ l', x ∈ l₁ ++ b :: l₂ ∧ blockTag m' x = blockTag s.memory x
          ∨ x ∉ l₁ ++ b :: l₂ ∧ blockTag m' x = NULLTAG := by
      by_cases hsplit : poolBytes n < ulongSub (blockSize s.memory b) MINIMUMFREEPOOLSIZE
      · have hspace : poolBytes n + 28 ≤ blockSize s.memory b := by
          unfold ulongSub ULONG_VALUES MINIMUMFREEPOOLSIZE at hsplit
          omega
        obtain ⟨head', m', hok, hinv, hfresh, hnew, hold⟩ := h.split hr (poolBytes_dvd n) hspace
        have hmem := fun x => mem_insert_behind (x := x) (b := b) (l := l₁) (m := l₂)
          (c := b + 28 + poolBytes n)
        refine ⟨head', m', _, (if_pos hsplit).trans hok, hinv, fun x hx => (hmem x).mpr (.inl hx),
          fun x hx => ?_⟩
        rcases (hmem x).mp hx with hx | hx
        · exact .inl ⟨hx, hold x hx⟩
        · rw [hx]
          exact .inr ⟨hfresh, hnew⟩
      · exact ⟨_, _, _, if_neg hsplit, h, fun x hx => hx, fun x hx => .inl ⟨hx, rfl⟩⟩
    have hb' := hkept b hb
    have hstatus : blockStatus (m'.store (b + 16) tag) b = 0 := by
      show (m'.store (b + 16) tag) (b + 20) = 0
      rw [store_of_ne (by omega)]
      exact (hinv.status b hb').trans (if_neg hbout)
    have hptr : ulongAdd b POOLHEADER_MEM = b + POOLHEADER_MEM := by
      unfold ulongAdd ULONG_VALUES POOLHEADER_MEM
      omega
    refine Or.inr ⟨b, s.set pooltype head' ((m'.store (b + 16) tag).store (b + 20) 1), l', ?_, ?_,
      rfl, hkept, ?_, fun x hx hxb => ?_⟩
    · rw [mmAllocatePoolWithTag]
      simp only
      rw [if_neg hne, hfind, hfound, kernel_ok_bind]
      simp only
      rw [if_neg (not_not_intro hfree), hcut, kernel_ok_bind]
      simp only
      rw [hstatus, hptr]
      rfl
    · have hhead : (s.set pooltype head' ((m'.store (b + 16) tag).store (b + 20) 1)).KernelPools
          pooltype = head' := Function.update_self ..
      rw [hhead]
      refine hinv.mark hr hb' (fun w h16 h20 _ => ?_) ?_ fun p hp => ?_
      · exact (store_of_ne h20).trans (store_of_ne h16)
      · exact (store_self ..).trans (if_pos (Finset.mem_insert_self ..)).symm
      · exact ⟨fun hmem => Finset.mem_of_mem_insert_of_ne hmem hp, Finset.mem_insert_of_mem⟩
    · exact (store_of_ne (by omega)).trans (store_self ..)
    · have hapart := (hinv.spaced hr).apart x hx b hb'
      have hsame : blockTag ((m'.store (b + 16) tag).store (b + 20) 1) x = blockTag m' x :=
        (store_of_ne (by omega)).trans (store_of_ne (by omega))
      show x ∈ l₁ ++ b :: l₂ ∧ blockTag ((m'.store (b + 16) tag).store (b + 20) 1) x = _
        ∨ x ∉ l₁ ++ b :: l₂ ∧ blockTag ((m'.store (b + 16) tag).store (b + 20) 1) x = NULLTAG
      rw [hsame]
      exact htags x hx

/-! ## Freeing -/

/-- **A free block is merged with the next one**, if that is free, which then leaves the list. -/
theorem PoolInvariant.mergeNext {head : ListHead Nat} {l₁ l₂ : List Nat}
    (h : PoolInvariant va size pooltype head m out (l₁ ++ b :: l₂)) (hr : PoolRegion va size) :
    ∃ head' m' l', KaushOS.mergeNext b head m = .ok (head', m')
      ∧ PoolInvariant va size pooltype head' m' out (l₁ ++ b :: l')
      ∧ ((∃ c, l₂ = c :: l' ∧ isFreeBlock m c = true ∧ Merges (l₁ ++ b :: l₂) b c m m')
        ∨ (∀ c ∈ l₂.head?, isFreeBlock m c = false) ∧ l' = l₂ ∧ m' = m) := by
  unfold KaushOS.mergeNext
  rw [h.list.listNext_eq]
  cases l₂ with
  | nil => exact ⟨head, m, [], rfl, h, .inr ⟨fun c hc => (by cases hc), rfl, rfl⟩⟩
  | cons c l₂ =>
    by_cases hc : isFreeBlock m c = true
    · obtain ⟨head', m', hok, hinv, hwords⟩ := h.merge hr ((h.isFree (by simp)).mp hc)
      exact ⟨head', m', l₂, (if_pos hc).trans hok, hinv, .inl ⟨c, rfl, hc, hwords⟩⟩
    · refine ⟨head, m, c :: l₂, if_neg hc, h, .inr ⟨fun d hd => ?_, rfl, rfl⟩⟩
      cases hd
      exact Bool.eq_false_iff.mpr hc

/-- **A free block is merged with the previous one**, if that is free, and then leaves the list. -/
theorem PoolInvariant.mergePrev {head : ListHead Nat} {l₁ l₂ : List Nat}
    (h : PoolInvariant va size pooltype head m out (l₁ ++ b :: l₂)) (hr : PoolRegion va size)
    (hbout : b + POOLHEADER_MEM ∉ out) :
    ∃ head' m' l', KaushOS.mergePrev b head m = .ok (head', m')
      ∧ PoolInvariant va size pooltype head' m' out l'
      ∧ ((∃ l₀ a, l₁ = l₀ ++ [a] ∧ isFreeBlock m a = true ∧ l' = l₀ ++ a :: l₂
          ∧ Merges (l₁ ++ b :: l₂) a b m m')
        ∨ (∀ a ∈ l₁.getLast?, isFreeBlock m a = false) ∧ l' = l₁ ++ b :: l₂ ∧ m' = m) := by
  unfold KaushOS.mergePrev
  rw [h.list.listPrev_eq]
  rcases List.eq_nil_or_concat l₁ with rfl | ⟨l₀, a, rfl⟩
  · exact ⟨head, m, _, rfl, h, .inr ⟨fun a ha => (by cases ha), rfl, rfl⟩⟩
  · rw [List.concat_eq_append] at h ⊢
    rw [List.getLast?_concat]
    by_cases ha : isFreeBlock m a = true
    · rw [List.append_assoc] at h ⊢
      obtain ⟨head', m', hok, hinv, hwords⟩ := PoolInvariant.merge h hr hbout
      exact ⟨head', m', l₀ ++ a :: l₂, (if_pos ha).trans hok, hinv, .inl ⟨l₀, a, rfl, ha, rfl, hwords⟩⟩
    · refine ⟨head, m, _, if_neg ha, h, .inr ⟨fun d hd => ?_, rfl, rfl⟩⟩
      cases hd
      exact Bool.eq_false_iff.mpr ha

/-- What `MmFreePoolWithTag` stores to the header of the block before it looks at its neighbours. -/
def freedMemory (m : Memory) (b : Nat) : Memory :=
  (clearMem (m.store (b + 16) NULLTAG) b).store (b + 20) POOL_STATUS_FREE

/-- Three words of the block are stored to. -/
theorem freedMemory_of_ne {w : Nat} (h16 : w ≠ b + 16) (h20 : w ≠ b + 20) (h24 : w ≠ b + 24) :
    freedMemory m b w = m w :=
  (store_of_ne h20).trans ((store_of_ne h24).trans (store_of_ne h16))

/-- The block is no longer handed out. -/
theorem PoolInvariant.freed {head : ListHead Nat} (h : PoolInvariant va size pooltype head m out l)
    (hr : PoolRegion va size) (hb : b ∈ l) :
    PoolInvariant va size pooltype head (freedMemory m b) (out.erase (b + POOLHEADER_MEM)) l := by
  refine h.mark hr hb (fun w h16 h20 h24 => freedMemory_of_ne h16 h20 h24) ?_ fun q hq => ?_
  · rw [if_neg (Finset.notMem_erase _ _)]
    exact store_self ..
  · rw [Finset.mem_erase]
    exact ⟨fun hmem => hmem.2, fun hmem => ⟨hq, hmem⟩⟩

/-- The pointer to a block leads back to it. -/
theorem PoolInvariant.block_of_pointer {head : ListHead Nat}
    (h : PoolInvariant va size pooltype head m out l) (hr : PoolRegion va size) (hb : b ∈ l) :
    ulongSub (b + POOLHEADER_MEM) POOLHEADER_MEM = b := by
  have hfits := hr.fits
  have hbounds := h.bounds hb
  unfold ULONG_VALUES at hfits
  unfold ulongSub ULONG_VALUES POOLHEADER_MEM
  omega

/-- **A call of `MmFreePoolWithTag`** that passes the verification, put together from its merges. -/
theorem PoolInvariant.free_eq {head₂ head₃ : ListHead Nat} {m₂ m₃ : Memory}
    (h : PoolInvariant va size pooltype (s.KernelPools pooltype) s.memory out l)
    (hr : PoolRegion va size) (hb : b ∈ l) (hverify : ¬ verificationFails s.memory b tag = true)
    (hnext : KaushOS.mergeNext b (s.KernelPools pooltype) (freedMemory s.memory b)
      = .ok (head₂, m₂))
    (hprev : KaushOS.mergePrev b head₂ m₂ = .ok (head₃, m₃)) :
    mmFreePoolWithTag (b + POOLHEADER_MEM) tag s = .ok (s.set pooltype head₃ m₃) := by
  rw [mmFreePoolWithTag]
  simp only
  rw [h.block_of_pointer hr hb, if_neg hverify, h.type b hb]
  show (KaushOS.mergeNext b (s.KernelPools pooltype) (freedMemory s.memory b) >>= _) = _
  rw [hnext, kernel_ok_bind]
  simp only
  rw [hprev]
  rfl

/-- The tags of the blocks after both merges. -/
theorem PoolInvariant.merged_tags {head : ListHead Nat} {m₂ m₃ : Memory} {l₁ l₂ l₃ l' : List Nat}
    (h : PoolInvariant va size pooltype head m out (l₁ ++ b :: l₂)) (hr : PoolRegion va size)
    (hnext : (∃ c, l₂ = c :: l₃ ∧ isFreeBlock m c = true ∧ Merges (l₁ ++ b :: l₂) b c m m₂)
      ∨ (∀ c ∈ l₂.head?, isFreeBlock m c = false) ∧ l₃ = l₂ ∧ m₂ = m)
    (hprev : (∃ l₀ a, l₁ = l₀ ++ [a] ∧ isFreeBlock m₂ a = true ∧ l' = l₀ ++ a :: l₃
        ∧ Merges (l₁ ++ b :: l₃) a b m₂ m₃)
      ∨ (∀ a ∈ l₁.getLast?, isFreeBlock m₂ a = false) ∧ l' = l₁ ++ b :: l₃ ∧ m₃ = m₂) :
    ∀ x ∈ l', x ∈ l₁ ++ b :: l₂ ∧ blockTag m₃ x = blockTag m x := by
  have hspaced := (h.spaced hr).apart
  have hsub : ∀ x ∈ l₁ ++ b :: l₃, x ∈ l₁ ++ b :: l₂ := by
    intro x hx
    rcases hnext with ⟨c, rfl, -⟩ | ⟨-, rfl, -⟩
    · exact (mem_insert_behind).mpr (.inl hx)
    · exact hx
  have hsub' : ∀ x ∈ l', x ∈ l₁ ++ b :: l₃ := by
    intro x hx
    rcases hprev with ⟨l₀, a, rfl, -, rfl, -⟩ | ⟨-, rfl, -⟩
    · simp only [List.mem_append, List.mem_cons] at hx ⊢
      tauto
    · exact hx
  -- a tag is neither a size nor a link of a block
  have htag : ∀ x ∈ l₁ ++ b :: l₂, ∀ y ∈ l₁ ++ b :: l₂, ∀ k < 16, x + 16 ≠ y + k := by
    intro x hx y hy k hk
    have hapart := hspaced x hx y hy
    omega
  have htag₂ : ∀ x ∈ l₁ ++ b :: l₂, blockTag m₂ x = blockTag m x := by
    intro x hx
    rcases hnext with ⟨c, -, -, hwords⟩ | ⟨-, -, rfl⟩
    · exact hwords.frame _ (htag x hx b (by simp) 4 (by omega)) fun y hy =>
        ⟨htag x hx y hy 8 (by omega), htag x hx y hy 12 (by omega)⟩
    · rfl
  intro x hx
  have hx₂ := hsub x (hsub' x hx)
  refine ⟨hx₂, ?_⟩
  rw [← htag₂ x hx₂]
  rcases hprev with ⟨l₀, a, rfl, -, -, hwords⟩ | ⟨-, -, rfl⟩
  · exact hwords.frame _ (htag x hx₂ a (by simp) 4 (by omega)) fun y hy =>
      ⟨htag x hx₂ y (hsub y hy) 8 (by omega), htag x hx₂ y (hsub y hy) 12 (by omega)⟩
  · rfl

/-- **A block is freed** if the tag passes the verification, and merged with its neighbours. -/
theorem PoolInvariant.free
    (h : PoolInvariant va size pooltype (s.KernelPools pooltype) s.memory out l)
    (hr : PoolRegion va size) (hp : p ∈ out) (tag : Nat) :
    (∃ text, mmFreePoolWithTag p tag s = .error (.message text))
    ∨ ∃ s' l', mmFreePoolWithTag p tag s = .ok s'
      ∧ PoolInvariant va size pooltype (s'.KernelPools pooltype) s'.memory (out.erase p) l'
      ∧ ∀ x ∈ l', x ∈ l ∧ blockTag s'.memory x
        = if x + POOLHEADER_MEM = p then NULLTAG else blockTag s.memory x := by
  obtain ⟨b, hb, rfl⟩ := h.handedOut p hp
  by_cases hverify : verificationFails s.memory b tag = true
  · refine Or.inl ⟨" Verification Failed Status 0x%x pooltype 0x%x oldtag %s newtag %s\n", ?_⟩
    rw [mmFreePoolWithTag]
    simp only
    rw [h.block_of_pointer hr hb, if_pos hverify]
    rfl
  · have hfreed := h.freed hr hb
    have htag : ∀ x ∈ l, blockTag (freedMemory s.memory b) x
        = if x + POOLHEADER_MEM = b + POOLHEADER_MEM then NULLTAG else blockTag s.memory x := by
      intro x hx
      have hapart := (h.spaced hr).apart x hx b hb
      by_cases hxb : x = b
      · rw [hxb, if_pos rfl]
        exact (store_of_ne (by omega)).trans ((store_of_ne (by omega)).trans (store_self ..))
      · rw [if_neg fun heq => hxb (Nat.add_right_cancel heq)]
        exact freedMemory_of_ne (by omega) (by omega) (by omega)
    obtain ⟨l₁, l₂, rfl⟩ := List.append_of_mem hb
    obtain ⟨head₂, m₂, l₃, hnext, hinv₂, hcase₂⟩ := hfreed.mergeNext hr
    obtain ⟨head₃, m₃, l₄, hprev, hinv₃, hcase₃⟩ := hinv₂.mergePrev hr (Finset.notMem_erase _ _)
    have hhead : (s.set pooltype head₃ m₃).KernelPools pooltype = head₃ := Function.update_self ..
    refine Or.inr ⟨s.set pooltype head₃ m₃, l₄, h.free_eq hr hb hverify hnext hprev, ?_,
      fun x hx => ?_⟩
    · rw [hhead]
      exact hinv₃
    · obtain ⟨hxl, hxtag⟩ := hfreed.merged_tags hr hcase₂ hcase₃ x hx
      exact ⟨hxl, hxtag.trans (htag x hxl)⟩

/-! ## What a pool promises -/

/-- The bytes of the members of a header. -/
def headerBytes (b : Nat) : Set Nat := Set.Ico b (b + POOLHEADER_MEM)

/-- The bytes behind a pointer that is handed out, up to the end of its block. -/
def payload (m : Memory) (p : Nat) : Set Nat :=
  Set.Ico p (p - POOLHEADER_MEM + POOLHEADER_SIZE + blockSize m (p - POOLHEADER_MEM))

/-- **The representation of a pool.** The blocks are in increasing order and tile the region; the
payloads handed out are payloads of blocks, lie inside the region, and meet neither each other nor
a header. -/
structure PoolTiled (va size pooltype : Nat) (s : PoolState) (out : Finset Nat) : Prop where
  increasing : (poolBlocks s pooltype).Pairwise (· < ·)
  tiles : Tiles POOLHEADER_SIZE (blockSize s.memory) va (poolBlocks s pooltype) (va + size)
  handedOut : ∀ p ∈ out, ∃ b ∈ poolBlocks s pooltype, p = b + POOLHEADER_MEM
  inside : ∀ p ∈ out, payload s.memory p ⊆ Set.Ico va (va + size)
  disjoint : ∀ p ∈ out, ∀ q ∈ out, p ≠ q → Disjoint (payload s.memory p) (payload s.memory q)
  headers : ∀ p ∈ out, ∀ b ∈ poolBlocks s pooltype,
    Disjoint (payload s.memory p) (headerBytes b)

/-- The payload of a block. -/
theorem payload_block (m : Memory) (b : Nat) :
    payload m (b + POOLHEADER_MEM) = Set.Ico (b + 24) (b + 28 + blockSize m b) := by
  unfold payload
  rw [Nat.add_sub_cancel]
  rfl

/-- **The invariant is the representation.** -/
theorem PoolInvariant.tiled
    (h : PoolInvariant va size pooltype (s.KernelPools pooltype) s.memory out l) :
    PoolTiled va size pooltype s out := by
  have hblocks : poolBlocks s pooltype = l := h.list.listElements_eq
  refine ⟨?_, ?_, ?_, fun p hp => ?_, fun p hp q hq hpq => ?_, fun p hp b hb => ?_⟩
  · rw [hblocks]
    refine h.tiles.pairwise.imp fun hab => ?_
    unfold POOLHEADER_SIZE at hab
    omega
  · rw [hblocks]
    exact h.tiles
  · rw [hblocks]
    exact h.handedOut
  · obtain ⟨b, hb, rfl⟩ := h.handedOut p hp
    have hbounds := h.bounds hb
    rw [payload_block]
    exact Set.Ico_subset_Ico (by omega) (by omega)
  · obtain ⟨b, hb, rfl⟩ := h.handedOut p hp
    obtain ⟨c, hc, rfl⟩ := h.handedOut q hq
    have hbc : b ≠ c := fun heq => hpq (by rw [heq])
    rw [payload_block, payload_block, Set.disjoint_left]
    intro x hx hx'
    simp only [Set.mem_Ico] at hx hx'
    have hapart := h.apart hb hc
    omega
  · rw [hblocks] at hb
    obtain ⟨c, hc, rfl⟩ := h.handedOut p hp
    rw [payload_block, headerBytes, Set.disjoint_left]
    intro x hx hx'
    simp only [Set.mem_Ico, POOLHEADER_MEM] at hx hx'
    have hapart := h.apart hb hc
    omega

/-! ## Runs -/

/-- **The calls on a pool**, and the stores of its users. -/
inductive PoolEvent
  | allocate (numberOfBytes tag : Nat)
  | free (p tag : Nat)
  | write (a v : Nat)

/-- A pool and the pointers that are handed out. -/
structure PoolMachine where
  pool : PoolState
  out : Finset Nat

/-- The pointers that are handed out after an allocation. -/
def handOut (p : Option Nat) (out : Finset Nat) : Finset Nat :=
  match p with
  | some p => insert p out
  | none => out

/-- **One call**, or one store. -/
def PoolEvent.run (pooltype : Nat) : PoolEvent → PoolMachine → Kernel PoolMachine
  | .allocate n tag, m => do
    let (p, s) ← mmAllocatePoolWithTag pooltype n tag m.pool
    return ⟨s, handOut p m.out⟩
  | .free p tag, m => do
    let s ← mmFreePoolWithTag p tag m.pool
    return ⟨s, m.out.erase p⟩
  | .write a v, m => .ok ⟨{ m.pool with memory := m.pool.memory.store a v }, m.out⟩

/-- **What the users promise.** Requests are not larger than the region, pointers are freed once,
and words are stored in payloads that are handed out or outside the region. -/
def PoolEvent.Enabled (va size : Nat) : PoolEvent → PoolMachine → Prop
  | .allocate n _, _ => n ≤ size
  | .free p _, m => p ∈ m.out
  | .write a _, m => a ∉ Set.Ico va (va + size) ∨ ∃ p ∈ m.out, a ∈ payload m.pool.memory p

/-- **The calls that keep the tiling**: see `SplitFits`. -/
def PoolEvent.KeepsTiling (pooltype : Nat) : PoolEvent → PoolMachine → Prop
  | .allocate n _, m => SplitFits m.pool.memory (poolBlocks m.pool pooltype) (poolBytes n)
  | _, _ => True

/-- **A pool as a transition system**, started by `MmInitializePool`; a label is a call and the
state it was made in. -/
def poolSystem (va size pooltype : Nat) : System (PoolEvent × PoolMachine) PoolMachine where
  init m := m.out = ∅ ∧ ∃ s, mmInitializePool va size pooltype true s = .ok m.pool
  step _ m l m' := l.2 = m ∧ l.1.Enabled va size m ∧ l.1.run pooltype m = .ok m'

/-- A run goes on with an allocation. -/
theorem PoolRun.allocate {t : List (PoolEvent × PoolMachine)} {k k' : PoolMachine}
    (h : (poolSystem va size pooltype).Run t k) (hn : n ≤ size)
    (hrun : (PoolEvent.allocate n tag).run pooltype k = .ok k') :
    (poolSystem va size pooltype).Run ((.allocate n tag, k) :: t) k' :=
  h.step ⟨rfl, hn, hrun⟩

/-- The invariant of a machine. -/
def PoolMachine.Inv (va size pooltype : Nat) (m : PoolMachine) : Prop :=
  ∃ l, PoolInvariant va size pooltype (m.pool.KernelPools pooltype) m.pool.memory m.out l

/-- Stores of users keep clear of the headers. -/
theorem PoolInvariant.write_outside {k : PoolMachine} {a v x i : Nat}
    (h : PoolInvariant va size pooltype (k.pool.KernelPools pooltype) k.pool.memory k.out l)
    (hen : (PoolEvent.write a v).Enabled va size k) (hx : x ∈ l) (hi : i < 24) : x + i ≠ a := by
  have hbounds := h.bounds hx
  rcases hen with hout | ⟨p, hp, ha⟩
  · rw [Set.mem_Ico] at hout
    omega
  · obtain ⟨b, hb, rfl⟩ := h.handedOut p hp
    rw [payload_block, Set.mem_Ico] at ha
    have hapart := h.apart hx hb
    omega

/-- **One call.** -/
theorem PoolEvent.run_inv {k k' : PoolMachine} {e : PoolEvent} (hr : PoolRegion va size)
    (h : k.Inv va size pooltype) (hen : e.Enabled va size k) (hkeeps : e.KeepsTiling pooltype k)
    (hrun : e.run pooltype k = .ok k') : k'.Inv va size pooltype := by
  obtain ⟨l, h⟩ := h
  cases e with
  | allocate n tag =>
    have hblocks : poolBlocks k.pool pooltype = l := h.list.listElements_eq
    obtain ⟨⟨p, s⟩, hok, hk'⟩ := kernel_bind_eq_ok.mp hrun
    cases hk'
    have hfit : SplitFits k.pool.memory l (poolBytes n) := hblocks ▸ hkeeps
    rcases h.allocate hr hfit tag with ⟨hnone, -⟩ | ⟨b, s', l', hsome, hinv, -⟩
    · cases hok.symm.trans hnone
      exact ⟨l, h⟩
    · cases hok.symm.trans hsome
      exact ⟨l', hinv⟩
  | free p tag =>
    obtain ⟨s, hok, hk'⟩ := kernel_bind_eq_ok.mp hrun
    cases hk'
    rcases h.free hr hen tag with ⟨text, herr⟩ | ⟨s', l', hok', hinv, -⟩
    · cases hok.symm.trans herr
    · cases hok.symm.trans hok'
      exact ⟨l', hinv⟩
  | write a v =>
    cases hrun
    exact ⟨l, h.of_words fun x hx i hi => store_of_ne (h.write_outside hen hx hi)⟩

/-- **The representation of a pool along a run**: after allocations that keep the tiling, and any
number of frees and stores, the blocks tile the region and the payloads keep clear of each other
and of the headers. -/
theorem pool_tiling {t : List (PoolEvent × PoolMachine)} {k : PoolMachine}
    (hr : PoolRegion va size) (h : (poolSystem va size pooltype).Run t k)
    (hkeeps : ∀ l ∈ t, l.1.KeepsTiling pooltype l.2) :
    PoolTiled va size pooltype k.pool k.out := by
  have hrun : (∀ l ∈ t, l.1.KeepsTiling pooltype l.2) → k.Inv va size pooltype := by
    refine h.invariant
      (I := fun t k => (∀ l ∈ t, l.1.KeepsTiling pooltype l.2) → k.Inv va size pooltype) ?_ ?_
    · intro k hinit _
      obtain ⟨hout, s, hs⟩ := hinit
      obtain ⟨s', hok, hinv, -⟩ := PoolInvariant.create hr pooltype s
      cases hs.symm.trans hok
      exact ⟨[va], hout ▸ hinv⟩
    · intro t k l k' _ ih hstep hall
      obtain ⟨hl, hen, hok⟩ := hstep
      have hinv := ih fun l' hl' => hall l' (List.mem_cons_of_mem _ hl')
      have hlast := hall l List.mem_cons_self
      rw [hl] at hlast
      exact PoolEvent.run_inv hr hinv hen hlast hok
  obtain ⟨l, hinv⟩ := hrun hkeeps
  exact hinv.tiled

/-! ## A page as a pool -/

theorem page_region : PoolRegion 4096 4096 := ⟨by decide, by decide, by decide, by decide⟩

/-- A page as a pool is one block, which is large enough to be cut. -/
theorem PoolInvariant.page_fits {head : ListHead Nat} {m : Memory}
    (h : PoolInvariant 4096 4096 pooltype head m out [4096]) (bytes : Nat) :
    SplitFits m [4096] bytes := by
  have hend : 4096 + 28 + blockSize m 4096 = 4096 + 4096 := h.tiles.2
  intro l₁ b l₂ hl _ _
  have hb : b ∈ [4096] := by
    rw [hl]
    simp
  rw [List.mem_singleton.mp hb]
  unfold MINIMUMFREEPOOLSIZE
  omega

/-- One request out of a page. -/
theorem pool_tiling_one : ∃ e k k', (poolSystem 4096 4096 0).Run [(PoolEvent.allocate 100 e, k)] k'
    ∧ PoolTiled 4096 4096 0 k'.pool k'.out := by
  obtain ⟨s, hok, hinv, -⟩ := PoolInvariant.create page_region 0 ⟨fun _ => 0, fun _ => listInit⟩
  have hstart : (poolSystem 4096 4096 0).Run [] ⟨s, ∅⟩ := .start ⟨rfl, _, hok⟩
  have hblocks : poolBlocks s 0 = [4096] := hinv.list.listElements_eq
  have hfit := hinv.page_fits (poolBytes 100)
  have hgo : ∃ k', (PoolEvent.allocate 100 0).run 0 ⟨s, ∅⟩ = .ok k' := by
    rcases hinv.allocate page_region (n := 100) hfit 0 with ⟨hn, -⟩ | ⟨b, s', _, hs, _⟩
    · exact ⟨_, kernel_bind_eq_ok.mpr ⟨_, hn, rfl⟩⟩
    · exact ⟨_, kernel_bind_eq_ok.mpr ⟨_, hs, rfl⟩⟩
  obtain ⟨k', hk'⟩ := hgo
  have hrun := PoolRun.allocate hstart (by decide) hk'
  refine ⟨0, ⟨s, ∅⟩, k', hrun, pool_tiling page_region hrun fun l hl => ?_⟩
  rw [List.mem_singleton.mp hl]
  show SplitFits s.memory (poolBlocks s 0) (poolBytes 100)
  rw [hblocks]
  exact hfit

/-- Three requests, the second of which leaves the block it was cut from too small for the header
of the rest. -/
def overrun : Kernel PoolMachine := do
  let s ← mmInitializePool 4096 4096 0 true ⟨fun _ => 0, fun _ => listInit⟩
  let k ← (PoolEvent.allocate 3496 1).run 0 ⟨s, ∅⟩
  let k ← (PoolEvent.allocate 428 1).run 0 k
  (PoolEvent.allocate 16 1).run 0 k

/-- **A block smaller than `MINIMUMFREEPOOLSIZE` is cut**, although the rest has no room for a
header: its size wraps around, and the next request gets memory outside the region. -/
theorem pool_tiling_overrun : ∃ t k, (poolSystem 4096 4096 0).Run t k
    ∧ ¬ PoolTiled 4096 4096 0 k.pool k.out := by
  have hlast : (overrun.map fun k => decide (8212 ∈ k.out)) = .ok true := by decide +kernel
  cases hrun : overrun with
  | error b =>
    rw [hrun] at hlast
    cases hlast
  | ok k =>
    rw [hrun] at hlast
    have hout : 8212 ∈ k.out := of_decide_eq_true (Except.ok.inj hlast)
    obtain ⟨s, hinit, hrest⟩ := kernel_bind_eq_ok.mp hrun
    obtain ⟨k₁, h₁, hrest⟩ := kernel_bind_eq_ok.mp hrest
    obtain ⟨k₂, h₂, h₃⟩ := kernel_bind_eq_ok.mp hrest
    have hstart : (poolSystem 4096 4096 0).Run [] ⟨s, ∅⟩ := .start ⟨rfl, _, hinit⟩
    have hgo := PoolRun.allocate (PoolRun.allocate (PoolRun.allocate hstart (by decide) h₁)
      (by decide) h₂) (by decide) h₃
    refine ⟨_, k, hgo, fun htiled => ?_⟩
    obtain ⟨b, hb, hpb⟩ := htiled.handedOut _ hout
    have hbounds := htiled.tiles.bounds hb
    unfold POOLHEADER_SIZE at hbounds
    unfold POOLHEADER_MEM at hpb
    omega

end KaushOS
