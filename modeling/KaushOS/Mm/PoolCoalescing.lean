import KaushOS.Mm.PoolRuns

/-! # Coalescing (`kern/mm/pool.c`)

`MmFreePoolWithTag` merges the block that it frees with the next and with the previous one. If no two
neighbours in the list were free before, none are afterwards.

* **`PoolOrdered`** — a list of blocks that tile their region, no two free ones side by side.
* **`PoolOrdered.free`** — what one free does to the blocks.
* **`freeAll`** — the blocks that are allocated are freed one after another.
* **`free_coalesces`** — a free keeps the order, and after all of them one free block is left. -/

namespace KaushOS

open CircularList Tiling

variable {va size pooltype b c tag p : Nat} {s s' : PoolState} {m m' : Memory} {out : Finset Nat}
  {l l' l₁ l₂ : List Nat} {head : ListHead Nat}

/-! ## Blocks in order -/

/-- **The blocks `l` of a pool are in order**: they tile the region, each is free or allocated, and no
two free ones stand side by side. -/
structure PoolOrdered (va size pooltype : Nat) (s : PoolState) (l : List Nat) : Prop where
  list : IsList poolLink {x | x ∈ l} s.memory (s.KernelPools pooltype) l
  tiles : Tiles POOLHEADER_SIZE (blockSize s.memory) va l (va + size)
  aligned : ∀ x ∈ l, 4 ∣ x
  type : ∀ x ∈ l, poolType s.memory x = pooltype
  status : ∀ x ∈ l,
    blockStatus s.memory x = POOL_STATUS_FREE ∨ blockStatus s.memory x = POOL_STATUS_ALLOCATED
  coalesced : Coalesced (isFreeBlock s.memory) l

/-- The pointers to the allocated blocks. -/
def allocatedPointers (m : Memory) (l : List Nat) : Finset Nat :=
  ((l.filter fun x => isFreeBlock m x = false).map (· + POOLHEADER_MEM)).toFinset

/-- The pointer to a block is among them if the block is allocated. -/
theorem mem_allocatedPointers (hb : b ∈ l) :
    b + POOLHEADER_MEM ∈ allocatedPointers m l ↔ isFreeBlock m b = false := by
  unfold allocatedPointers
  rw [List.mem_toFinset, List.mem_map]
  constructor
  · rintro ⟨x, hx, heq⟩
    obtain rfl : x = b := Nat.add_right_cancel heq
    simpa using (List.mem_filter.mp hx).2
  · intro hfree
    exact ⟨b, List.mem_filter.mpr ⟨hb, by simpa using hfree⟩, rfl⟩

/-- Blocks in order satisfy the invariant, their allocated ones being those handed out. -/
theorem PoolOrdered.invariant (h : PoolOrdered va size pooltype s l) :
    PoolInvariant va size pooltype (s.KernelPools pooltype) s.memory
      (allocatedPointers s.memory l) l := by
  refine ⟨h.list, h.tiles, h.aligned, h.type, fun x hx => ?_, fun p hp => ?_⟩
  · rw [if_congr (mem_allocatedPointers hx) rfl rfl]
    unfold isFreeBlock
    rcases h.status x hx with hstatus | hstatus <;> rw [hstatus] <;> rfl
  · obtain ⟨x, hx, rfl⟩ := List.mem_map.mp (List.mem_toFinset.mp hp)
    exact ⟨x, List.mem_of_mem_filter hx, rfl⟩

/-- Blocks that satisfy the invariant are in order if no two free ones stand side by side. -/
theorem PoolInvariant.ordered
    (h : PoolInvariant va size pooltype (s.KernelPools pooltype) s.memory out l)
    (hfree : Coalesced (isFreeBlock s.memory) l) : PoolOrdered va size pooltype s l := by
  refine ⟨h.list, h.tiles, h.aligned, h.type, fun x hx => ?_, hfree⟩
  have hstatus := h.status x hx
  split at hstatus
  · exact .inr hstatus
  · exact .inl hstatus

/-! ## One free -/

/-- The bytes of a block, its header included. -/
def blockSpan (m : Memory) (b : Nat) : Set Nat := Set.Ico b (b + POOLHEADER_SIZE + blockSize m b)

/-- **A block is as it was**: the members of its header that are not links, and its bytes. -/
structure SameBlock (m m' : Memory) (b : Nat) : Prop where
  type : poolType m' b = poolType m b
  size : blockSize m' b = blockSize m b
  tag : blockTag m' b = blockTag m b
  status : blockStatus m' b = blockStatus m b
  bytes : ∀ w, b + POOLHEADER_MEM ≤ w → w < b + POOLHEADER_SIZE + blockSize m b → m' w = m w

/-- **What the free of block `b` between `l₁` and `l₂` does**: the new list `l'` is in order, has the
other allocated blocks as they were and no more, and the block that `b` is part of spans `b` and those
of its neighbours that were free. -/
structure Coalesces (va size pooltype : Nat) (l₁ : List Nat) (b : Nat) (l₂ : List Nat)
    (s s' : PoolState) (l' : List Nat) : Prop where
  ordered : PoolOrdered va size pooltype s' l'
  others : ∀ x ∈ l₁ ++ b :: l₂, x ≠ b → isFreeBlock s.memory x = false →
    x ∈ l' ∧ SameBlock s.memory s'.memory x
  allocated : ∀ x ∈ l', isFreeBlock s'.memory x = false →
    x ∈ l₁ ++ b :: l₂ ∧ x ≠ b ∧ isFreeBlock s.memory x = false
  span : ∃ e ∈ l', isFreeBlock s'.memory e = true ∧ ∀ w, w ∈ blockSpan s'.memory e
    ↔ w ∈ blockSpan s.memory b
      ∨ (∃ a ∈ l₁.getLast?, isFreeBlock s.memory a = true ∧ w ∈ blockSpan s.memory a)
      ∨ ∃ c ∈ l₂.head?, isFreeBlock s.memory c = true ∧ w ∈ blockSpan s.memory c

/-- Stores that change links of the blocks `l` and headers of the blocks `t` only. -/
def KeepsWords (l t : List Nat) (m m' : Memory) : Prop :=
  ∀ w, (∀ x ∈ l, w ≠ x + 8 ∧ w ≠ x + 12) → (∀ x ∈ t, w < x ∨ x + 28 ≤ w) → m' w = m w

theorem KeepsWords.trans {t : List Nat} {m'' : Memory} (h : KeepsWords l t m m')
    (h' : KeepsWords l t m' m'') : KeepsWords l t m m'' :=
  fun w hl ht => (h' w hl ht).trans (h w hl ht)

theorem KeepsWords.mono {t t' : List Nat} (h : KeepsWords l' t m m') (hl : ∀ x ∈ l', x ∈ l)
    (ht : ∀ x ∈ t, x ∈ t') : KeepsWords l t' m m' :=
  fun w hw hw' => h w (fun x hx => hw x (hl x hx)) fun x hx => hw' x (ht x hx)

/-- What `MmFreePoolWithTag` stores to the block it frees. -/
theorem keepsWords_freedMemory : KeepsWords l [b] m (freedMemory m b) := by
  intro w _ hw
  have hwb := hw b (List.mem_singleton.mpr rfl)
  exact freedMemory_of_ne (by omega) (by omega) (by omega)

/-- What a merge stores. -/
theorem Merges.keeps (h : Merges l b c m m') : KeepsWords l [b] m m' := by
  intro w hl hw
  have hwb := hw b (List.mem_singleton.mpr rfl)
  exact h.frame w (by omega) hl

/-- The words of a block that is not one of `t`, its links apart. -/
theorem KeepsWords.word {t : List Nat} {x k : Nat} (hk : KeepsWords l t m m')
    (h : PoolInvariant va size pooltype head m out l) (hx : x ∈ l) (ht : ∀ y ∈ t, y ∈ l ∧ y ≠ x)
    (hlt : k < 28 + blockSize m x) (h8 : k ≠ 8) (h12 : k ≠ 12) : m' (x + k) = m (x + k) := by
  refine hk _ (fun y hy => ?_) fun y hy => ?_
  · by_cases hyx : y = x
    · rw [hyx]
      omega
    · have hapart := h.apart hy hx
      omega
  · obtain ⟨hy, hyx⟩ := ht y hy
    have hapart := h.apart hy hx
    omega

/-- Such a block is as it was. -/
theorem KeepsWords.same {t : List Nat} {x : Nat} (hk : KeepsWords l t m m')
    (h : PoolInvariant va size pooltype head m out l) (hx : x ∈ l)
    (ht : ∀ y ∈ t, y ∈ l ∧ y ≠ x) : SameBlock m m' x := by
  have hword := fun k => hk.word (k := k) h hx ht
  refine ⟨hword 0 (by omega) (by omega) (by omega), hword 4 (by omega) (by omega) (by omega),
    hword 16 (by omega) (by omega) (by omega), hword 20 (by omega) (by omega) (by omega),
    fun w hlo hhi => ?_⟩
  unfold POOLHEADER_MEM at hlo
  unfold POOLHEADER_SIZE at hhi
  have hw := hword (w - x) (by omega) (by omega) (by omega)
  rwa [show x + (w - x) = w by omega] at hw

/-- A block that is as it was is as free as it was. -/
theorem SameBlock.isFree (h : SameBlock m m' b) : isFreeBlock m' b = isFreeBlock m b := by
  unfold isFreeBlock
  rw [h.status]

/-- **The freed block and the next one**: `q` is what follows. -/
theorem PoolOrdered.freeNext (h : PoolOrdered va size pooltype s (l₁ ++ b :: l₂))
    (hr : PoolRegion va size) :
    ∃ head₂ m₂ q, mergeNext b (s.KernelPools pooltype) (freedMemory s.memory b) = .ok (head₂, m₂)
      ∧ PoolInvariant va size pooltype head₂ m₂
        ((allocatedPointers s.memory (l₁ ++ b :: l₂)).erase (b + POOLHEADER_MEM)) (l₁ ++ b :: q)
      ∧ KeepsWords (l₁ ++ b :: l₂) [b] s.memory m₂
      ∧ ((∃ c, l₂ = c :: q ∧ isFreeBlock s.memory c = true
          ∧ blockSize m₂ b = blockSize s.memory b + (blockSize s.memory c + POOLHEADER_SIZE))
        ∨ (∀ c ∈ l₂.head?, isFreeBlock s.memory c = false) ∧ q = l₂
          ∧ blockSize m₂ b = blockSize s.memory b) := by
  have hb : b ∈ l₁ ++ b :: l₂ := by simp
  have hinv := h.invariant
  have hb₂ : ∀ x ∈ l₂, x ∈ l₁ ++ b :: l₂ ∧ ∀ y ∈ [b], y ∈ l₁ ++ b :: l₂ ∧ y ≠ x := by
    intro x hx
    refine ⟨by simp [hx], fun y hy => ?_⟩
    rw [List.mem_singleton.mp hy]
    refine ⟨hb, ?_⟩
    rintro rfl
    exact (List.nodup_cons.mp (List.nodup_append.mp h.list.nodup).2.1).1 hx
  have hfreed : KeepsWords (l₁ ++ b :: l₂) [b] s.memory (freedMemory s.memory b) :=
    keepsWords_freedMemory
  have hsame : ∀ x ∈ l₂, SameBlock s.memory (freedMemory s.memory b) x := fun x hx =>
    hfreed.same hinv (hb₂ x hx).1 (hb₂ x hx).2
  have hsize : blockSize (freedMemory s.memory b) b = blockSize s.memory b :=
    freedMemory_of_ne (by omega) (by omega) (by omega)
  obtain ⟨head₂, m₂, q, hnext, hinv₂, hcase⟩ := (hinv.freed hr hb).mergeNext hr
  refine ⟨head₂, m₂, q, hnext, hinv₂, ?_, ?_⟩
  · rcases hcase with ⟨c, -, -, hwords⟩ | ⟨-, -, rfl⟩
    · exact hfreed.trans hwords.keeps
    · exact hfreed
  · rcases hcase with ⟨c, rfl, hc, hwords⟩ | ⟨hnone, rfl, rfl⟩
    · have hcsame := hsame c (List.mem_cons_self ..)
      refine .inl ⟨c, rfl, hcsame.isFree.symm.trans hc, ?_⟩
      rw [hwords.size, hsize, hcsame.size]
    · refine .inr ⟨fun c hc => ?_, rfl, hsize⟩
      rw [← (hsame c (List.mem_of_mem_head? hc)).isFree]
      exact hnone c hc

/-- **The merged blocks**: the list is `p`, the block `e` that the freed one is part of, and `q`. -/
theorem PoolOrdered.coalesces {p q t : List Nat} {e : Nat} {head₃ : ListHead Nat} {m₃ : Memory}
    (h : PoolOrdered va size pooltype s (l₁ ++ b :: l₂))
    (hinv : PoolInvariant va size pooltype head₃ m₃ out (p ++ e :: q))
    (hkeeps : KeepsWords (l₁ ++ b :: l₂) t s.memory m₃)
    (hold : ∀ x ∈ p ++ q, x ∈ l₁ ++ b :: l₂ ∧ x ≠ b ∧ ∀ y ∈ t, y ∈ l₁ ++ b :: l₂ ∧ y ≠ x)
    (hstay : ∀ x ∈ l₁ ++ b :: l₂, x ≠ b → isFreeBlock s.memory x = false → x ∈ p ++ q)
    (hp : Coalesced (isFreeBlock s.memory) p) (hq : Coalesced (isFreeBlock s.memory) q)
    (hlast : ∀ a ∈ p.getLast?, isFreeBlock s.memory a = false)
    (hhead : ∀ c ∈ q.head?, isFreeBlock s.memory c = false) (he : e + POOLHEADER_MEM ∉ out)
    (hspan : ∀ w, w ∈ blockSpan m₃ e ↔ w ∈ blockSpan s.memory b
      ∨ (∃ a ∈ l₁.getLast?, isFreeBlock s.memory a = true ∧ w ∈ blockSpan s.memory a)
      ∨ ∃ c ∈ l₂.head?, isFreeBlock s.memory c = true ∧ w ∈ blockSpan s.memory c) :
    Coalesces va size pooltype l₁ b l₂ s (s.set pooltype head₃ m₃) (p ++ e :: q) := by
  have hset : (s.set pooltype head₃ m₃).KernelPools pooltype = head₃ := Function.update_self ..
  have hsame : ∀ x ∈ p ++ q, SameBlock s.memory m₃ x := fun x hx =>
    hkeeps.same h.invariant (hold x hx).1 (hold x hx).2.2
  have hfree : ∀ x ∈ p ++ q, isFreeBlock m₃ x = isFreeBlock s.memory x := fun x hx =>
    (hsame x hx).isFree
  have hefree : isFreeBlock m₃ e = true := (hinv.isFree (by simp)).mpr he
  have hpq : ∀ x ∈ p ++ q, x ∈ p ++ e :: q := by
    intro x hx
    rcases List.mem_append.mp hx with hx | hx
    · exact List.mem_append_left _ hx
    · exact List.mem_append_right _ (List.mem_cons_of_mem _ hx)
  refine ⟨PoolInvariant.ordered (hset.symm ▸ hinv) ?_, fun x hx hxb hxfree => ?_,
    fun x hx hxfree => ?_, ⟨e, by simp, hefree, hspan⟩⟩
  · refine Coalesced.between (hp.congr fun x hx => hfree x (List.mem_append_left _ hx))
      (hq.congr fun x hx => hfree x (List.mem_append_right _ hx)) (fun a ha => ?_) fun c hc => ?_
    · exact (hfree a (List.mem_append_left _ (List.mem_of_mem_getLast? ha))).trans (hlast a ha)
    · exact (hfree c (List.mem_append_right _ (List.mem_of_mem_head? hc))).trans (hhead c hc)
  · have hx' := hstay x hx hxb hxfree
    exact ⟨hpq x hx', hsame x hx'⟩
  · have hx' : x ∈ p ++ q := by
      rcases List.mem_append.mp hx with hx | hx
      · exact List.mem_append_left _ hx
      · rcases List.mem_cons.mp hx with rfl | hx
        · exact Bool.noConfusion (hxfree.symm.trans hefree)
        · exact List.mem_append_right _ hx
    exact ⟨(hold x hx').1, (hold x hx').2.1, (hfree x hx').symm.trans hxfree⟩

/-- A block lies next to the bytes of the one behind it. -/
theorem blockSpan_merge {m₁ : Memory} {n : Nat} (hc : c = b + POOLHEADER_SIZE + blockSize m b)
    (hsize : blockSize m₁ b = blockSize m b + (n + POOLHEADER_SIZE)) (w : Nat) :
    w ∈ blockSpan m₁ b ↔ w ∈ blockSpan m b ∨ w ∈ Set.Ico c (c + POOLHEADER_SIZE + n) := by
  unfold blockSpan
  rw [hsize, hc]
  simp only [Set.mem_Ico]
  omega

/-- **One free.** The block `b` between `l₁` and `l₂` is allocated, and the tag is its own. -/
theorem PoolOrdered.free (h : PoolOrdered va size pooltype s (l₁ ++ b :: l₂))
    (hr : PoolRegion va size) :
    ∃ s' l', mmFreePoolWithTag (b + POOLHEADER_MEM) (blockTag s.memory b) s = .ok s'
      ∧ Coalesces va size pooltype l₁ b l₂ s s' l' := by
  have hinv := h.invariant
  have hb : b ∈ l₁ ++ b :: l₂ := by simp
  have hnd := h.list.nodup
  have hverify : ¬ verificationFails s.memory b (blockTag s.memory b) = true := by
    unfold verificationFails
    split <;> simp
  have hb₁ : ∀ x ∈ l₁, x ≠ b := fun x hx => (List.nodup_append.mp hnd).2.2 x hx b (by simp)
  have hb₂ : ∀ x ∈ l₂, x ≠ b := fun x hx heq =>
    (List.nodup_cons.mp (List.nodup_append.mp hnd).2.1).1 (heq ▸ hx)
  have hbout := Finset.notMem_erase (b + POOLHEADER_MEM) (allocatedPointers s.memory (l₁ ++ b :: l₂))
  obtain ⟨head₂, m₂, q, hnext, hinv₂, hkeeps₂, hcase₂⟩ := h.freeNext hr
  obtain ⟨head₃, m₃, l', hprev, hinv₃, hcase₃⟩ := hinv₂.mergePrev hr hbout
  have hcall := hinv.free_eq hr hb hverify hnext hprev
  obtain ⟨hfree₁, hfree₂, hjoin⟩ := coalesced_append.mp h.coalesced
  obtain ⟨-, hfree₂, hjoin₂⟩ := (coalesced_append (l := [b])).mp hfree₂
  -- what is behind the freed block
  have hqsub : ∀ x ∈ q, x ∈ l₂ := by
    rcases hcase₂ with ⟨c, rfl, -⟩ | ⟨-, rfl, -⟩
    · exact fun x hx => List.mem_cons_of_mem c hx
    · exact fun x hx => hx
  have hqstay : ∀ x ∈ l₂, isFreeBlock s.memory x = false → x ∈ q := by
    rcases hcase₂ with ⟨c, rfl, hc, -⟩ | ⟨-, rfl, -⟩
    · intro x hx hxfree
      refine (List.mem_cons.mp hx).resolve_left ?_
      rintro rfl
      exact Bool.noConfusion (hxfree.symm.trans hc)
    · exact fun x hx _ => hx
  have hqfree : Coalesced (isFreeBlock s.memory) q
      ∧ ∀ c ∈ q.head?, isFreeBlock s.memory c = false := by
    rcases hcase₂ with ⟨c, rfl, hc, -⟩ | ⟨hnone, rfl, -⟩
    · obtain ⟨-, hq, hcq⟩ := (coalesced_append (l := [c])).mp hfree₂
      refine ⟨hq, fun d hd => Bool.eq_false_iff.mpr fun hdfree => ?_⟩
      exact hcq c rfl d hd ⟨hc, hdfree⟩
    · exact ⟨hfree₂, hnone⟩
  have hspan₂ : ∀ w, w ∈ blockSpan m₂ b ↔ w ∈ blockSpan s.memory b
      ∨ ∃ c ∈ l₂.head?, isFreeBlock s.memory c = true ∧ w ∈ blockSpan s.memory c := by
    intro w
    rcases hcase₂ with ⟨c, rfl, hc, hsize⟩ | ⟨hnone, -, hsize⟩
    · rw [blockSpan_merge h.tiles.next hsize w]
      refine or_congr_right ⟨fun hw => ⟨c, rfl, hc, hw⟩, ?_⟩
      rintro ⟨d, hd, -, hw⟩
      cases hd
      exact hw
    · unfold blockSpan
      rw [hsize]
      refine (or_iff_left ?_).symm
      rintro ⟨c, hc, hcfree, -⟩
      exact Bool.noConfusion ((hnone c hc).symm.trans hcfree)
  have hold₂ : ∀ x ∈ q, x ∈ l₁ ++ b :: l₂ ∧ x ≠ b := fun x hx =>
    ⟨by simp [hqsub x hx], hb₂ x (hqsub x hx)⟩
  have hold₁ : ∀ x ∈ l₁, SameBlock s.memory m₂ x := fun x hx =>
    hkeeps₂.same hinv (by simp [hx]) fun y hy => by
      rw [List.mem_singleton.mp hy]
      exact ⟨hb, (hb₁ x hx).symm⟩
  rcases hcase₃ with ⟨l₀, a, rfl, ha, rfl, hwords⟩ | ⟨hnone, rfl, rfl⟩
  · -- the freed block becomes part of the one in front of it
    have hasame := hold₁ a (by simp)
    have hafree : isFreeBlock s.memory a = true := hasame.isFree.symm.trans ha
    have hkeeps : KeepsWords (l₀ ++ [a] ++ b :: l₂) [a, b] s.memory m₃ := by
      refine (hkeeps₂.mono (fun x hx => hx) (by simp)).trans
        (hwords.keeps.mono (fun x hx => ?_) (by simp))
      rcases List.mem_append.mp hx with hx | hx
      · exact List.mem_append_left _ hx
      · rcases List.mem_cons.mp hx with rfl | hx
        · exact hb
        · exact (hold₂ x hx).1
    have hanodup : ∀ x ∈ l₀ ++ q, x ≠ a := by
      intro x hx
      rcases List.mem_append.mp hx with hx | hx
      · exact (List.nodup_append.mp (List.nodup_append.mp hnd).1).2.2 x hx a (by simp)
      · exact ((List.nodup_append.mp hnd).2.2 a (by simp) x
          (List.mem_cons_of_mem _ (hqsub x hx))).symm
    have haout : a + POOLHEADER_MEM ∉ (allocatedPointers s.memory (l₀ ++ [a] ++ b :: l₂)).erase
        (b + POOLHEADER_MEM) := by
      intro hmem
      have hmem' := (mem_allocatedPointers (by simp)).mp (Finset.mem_of_mem_erase hmem)
      exact Bool.noConfusion (hmem'.symm.trans hafree)
    obtain ⟨hfree₀, -, hjoin₀⟩ := coalesced_append.mp hfree₁
    refine ⟨_, _, hcall, h.coalesces hinv₃ hkeeps (fun x hx => ?_) (fun x hx hxb hxfree => ?_)
      hfree₀ hqfree.1 (fun d hd => ?_) hqfree.2 haout fun w => ?_⟩
    · have hxb : x ∈ l₀ ++ [a] ++ b :: l₂ ∧ x ≠ b := by
        rcases List.mem_append.mp hx with hx | hx
        · exact ⟨by simp [hx], hb₁ x (by simp [hx])⟩
        · exact hold₂ x hx
      refine ⟨hxb.1, hxb.2, fun y hy => ?_⟩
      rcases List.mem_pair.mp hy with rfl | rfl
      · exact ⟨by simp, (hanodup x hx).symm⟩
      · exact ⟨hb, hxb.2.symm⟩
    · rcases List.mem_append.mp hx with hx | hx
      · rcases List.mem_append.mp hx with hx | hx
        · exact List.mem_append_left _ hx
        · rw [List.mem_singleton.mp hx] at hxfree
          exact Bool.noConfusion (hxfree.symm.trans hafree)
      · exact List.mem_append_right _ (hqstay x ((List.mem_cons.mp hx).resolve_left hxb) hxfree)
    · exact Bool.eq_false_iff.mpr fun hdfree => hjoin₀ d hd a rfl ⟨hdfree, hafree⟩
    · have htiles := h.tiles
      rw [List.append_assoc] at htiles
      have hbnext : b = a + POOLHEADER_SIZE + blockSize s.memory a := htiles.next
      have hsize := hwords.size
      rw [hasame.size] at hsize
      rw [blockSpan_merge hbnext hsize w, show Set.Ico b (b + POOLHEADER_SIZE + blockSize m₂ b)
        = blockSpan m₂ b from rfl, hspan₂ w, List.getLast?_concat]
      constructor
      · rintro (hw | hw | hw)
        · exact .inr (.inl ⟨a, rfl, hafree, hw⟩)
        · exact .inl hw
        · exact .inr (.inr hw)
      · rintro (hw | ⟨d, hd, -, hw⟩ | hw)
        · exact .inr (.inl hw)
        · cases hd
          exact .inl hw
        · exact .inr (.inr hw)
  · have hnone' : ∀ a ∈ l₁.getLast?, isFreeBlock s.memory a = false := fun a ha =>
      (hold₁ a (List.mem_of_mem_getLast? ha)).isFree.symm.trans (hnone a ha)
    refine ⟨_, _, hcall, h.coalesces hinv₃ hkeeps₂ (fun x hx => ?_) (fun x hx hxb hxfree => ?_)
      hfree₁ hqfree.1 hnone' hqfree.2 hbout fun w => ?_⟩
    · have hxb : x ∈ l₁ ++ b :: l₂ ∧ x ≠ b := by
        rcases List.mem_append.mp hx with hx | hx
        · exact ⟨by simp [hx], hb₁ x hx⟩
        · exact hold₂ x hx
      refine ⟨hxb.1, hxb.2, fun y hy => ?_⟩
      rw [List.mem_singleton.mp hy]
      exact ⟨hb, hxb.2.symm⟩
    · rcases List.mem_append.mp hx with hx | hx
      · exact List.mem_append_left _ hx
      · exact List.mem_append_right _ (hqstay x ((List.mem_cons.mp hx).resolve_left hxb) hxfree)
    · rw [hspan₂ w]
      refine or_congr_right ⟨fun hw => .inr hw, ?_⟩
      rintro (⟨a, ha, hafree, -⟩ | hw)
      · exact Bool.noConfusion ((hnone' a ha).symm.trans hafree)
      · exact hw

/-! ## All frees -/

/-- **Blocks are freed one after another**: calls of `MmFreePoolWithTag`, each a pointer and a tag. -/
def freeAll : List (Nat × Nat) → PoolState → Kernel PoolState
  | [], s => .ok s
  | (p, tag) :: calls, s => do
    let s ← mmFreePoolWithTag p tag s
    freeAll calls s

/-- **A pool with all of its memory free**: one free block of the size of the region without a
header. -/
structure PoolWhole (va size pooltype : Nat) (s : PoolState) : Prop where
  ordered : PoolOrdered va size pooltype s [va]
  free : isFreeBlock s.memory va = true
  size : blockSize s.memory va = size - POOLHEADER_SIZE

/-- Blocks in order, all of them free, are a single one. -/
theorem PoolOrdered.whole (h : PoolOrdered va size pooltype s l) (hr : PoolRegion va size)
    (hall : ∀ x ∈ l, isFreeBlock s.memory x = true) : PoolWhole va size pooltype s := by
  have hheader := hr.header
  unfold POOLHEADER_SIZE at hheader
  have hone := h.coalesced.length_le_one hall
  obtain ⟨b, rfl⟩ : ∃ b, l = [b] := by
    cases l with
    | nil =>
      have hend : va = va + size := h.tiles
      omega
    | cons b l =>
      obtain rfl : l = [] := List.length_eq_zero_iff.mp (by simpa using hone)
      exact ⟨b, rfl⟩
  obtain ⟨rfl, hend⟩ := h.tiles
  refine ⟨h, hall b (List.mem_singleton.mpr rfl), ?_⟩
  have hend' : b + POOLHEADER_SIZE + blockSize s.memory b = b + size := hend
  omega

/-- **All frees**, in any order. Each keeps the order of the blocks and the tags of the others; in the
end no block is allocated. -/
theorem PoolOrdered.freeAll (hr : PoolRegion va size) (tagOf : Nat → Nat) (order : List Nat)
    (h : PoolOrdered va size pooltype s l) (hnd : order.Nodup)
    (horder : ∀ x, x ∈ order ↔ x ∈ l ∧ isFreeBlock s.memory x = false)
    (htag : ∀ x ∈ order, tagOf x = blockTag s.memory x) :
    ∃ s', KaushOS.freeAll (order.map fun x => (x + POOLHEADER_MEM, tagOf x)) s = .ok s'
      ∧ PoolWhole va size pooltype s' := by
  induction order generalizing s l with
  | nil =>
    refine ⟨s, rfl, h.whole hr fun x hx => ?_⟩
    by_contra hfree
    exact absurd ((horder x).mpr ⟨hx, Bool.eq_false_iff.mpr hfree⟩) List.not_mem_nil
  | cons b order ih =>
    obtain ⟨hb, halloc⟩ := (horder b).mp (List.mem_cons_self ..)
    obtain ⟨hbfresh, hnd⟩ := List.nodup_cons.mp hnd
    obtain ⟨l₁, l₂, rfl⟩ := List.append_of_mem hb
    obtain ⟨s₁, l', hcall, hfreed⟩ := h.free hr
    have horder' : ∀ x, x ∈ order ↔ x ∈ l' ∧ isFreeBlock s₁.memory x = false := by
      intro x
      constructor
      · intro hx
        obtain ⟨hxl, hxfree⟩ := (horder x).mp (List.mem_cons_of_mem b hx)
        have hxb : x ≠ b := fun heq => hbfresh (heq ▸ hx)
        obtain ⟨hxl', hsame⟩ := hfreed.others x hxl hxb hxfree
        exact ⟨hxl', hsame.isFree.trans hxfree⟩
      · rintro ⟨hxl', hxfree⟩
        obtain ⟨hxl, hxb, hxfree'⟩ := hfreed.allocated x hxl' hxfree
        exact (List.mem_cons.mp ((horder x).mpr ⟨hxl, hxfree'⟩)).resolve_left hxb
    have htag' : ∀ x ∈ order, tagOf x = blockTag s₁.memory x := by
      intro x hx
      obtain ⟨hxl, hxfree⟩ := (horder x).mp (List.mem_cons_of_mem b hx)
      have hxb : x ≠ b := fun heq => hbfresh (heq ▸ hx)
      rw [htag x (List.mem_cons_of_mem b hx)]
      exact (hfreed.others x hxl hxb hxfree).2.tag.symm
    obtain ⟨s', hrun, hwhole⟩ := ih hfreed.ordered hnd horder' htag'
    refine ⟨s', ?_, hwhole⟩
    rw [List.map_cons, KaushOS.freeAll, htag b (List.mem_cons_self ..), hcall]
    exact hrun

/-- **What freeing does to the blocks `l`.** The free of an allocated block with its tag returns, merges
the block with its free neighbours and changes nothing else; and after the free of all allocated blocks,
in any order, the one free block is left that `MmInitializePool` has made. -/
structure FreesCoalesce (va size pooltype : Nat) (s : PoolState) (l : List Nat) : Prop where
  one : ∀ l₁ b l₂, l = l₁ ++ b :: l₂ → isFreeBlock s.memory b = false →
    ∃ s' l', mmFreePoolWithTag (b + POOLHEADER_MEM) (blockTag s.memory b) s = .ok s'
      ∧ Coalesces va size pooltype l₁ b l₂ s s' l'
  all : ∀ order : List Nat, order.Perm (l.filter fun x => isFreeBlock s.memory x = false) →
    ∃ s', freeAll (order.map fun x => (x + POOLHEADER_MEM, blockTag s.memory x)) s = .ok s'
      ∧ poolBlocks s' pooltype = [va] ∧ isFreeBlock s'.memory va = true
      ∧ ∀ s₀ s₁, mmInitializePool va size pooltype true s₀ = .ok s₁ →
        blockSize s'.memory va = blockSize s₁.memory va

/-- **Coalescing**, from every list of blocks in order. -/
theorem free_coalesces (hr : PoolRegion va size) (h : PoolOrdered va size pooltype s l) :
    FreesCoalesce va size pooltype s l := by
  constructor
  · rintro l₁ b l₂ rfl -
    exact h.free hr
  · intro order hperm
    have hnd : order.Nodup := hperm.nodup_iff.mpr (h.list.nodup.filter _)
    have horder : ∀ x, x ∈ order ↔ x ∈ l ∧ isFreeBlock s.memory x = false := by
      intro x
      rw [hperm.mem_iff, List.mem_filter, decide_eq_true_iff]
    obtain ⟨s', hrun, hwhole⟩ := h.freeAll hr (blockTag s.memory) order hnd horder fun x _ => rfl
    refine ⟨s', hrun, hwhole.ordered.list.listElements_eq, hwhole.free, fun s₀ s₁ hinit => ?_⟩
    obtain ⟨s₂, hok, hinv, -⟩ := PoolInvariant.create hr pooltype s₀
    cases hinit.symm.trans hok
    have hend : va + POOLHEADER_SIZE + blockSize s₁.memory va = va + size := hinv.tiles.2
    rw [hwhole.size]
    omega

/-- A page as a pool, one hundred bytes of which have been allocated. -/
theorem free_coalesces_page : ∃ s, PoolOrdered 4096 4096 0 s [4096, 4280]
    ∧ isFreeBlock s.memory 4096 = false
    ∧ FreesCoalesce 4096 4096 0 s [4096, 4280] := by
  obtain ⟨s₀, hinit, hinv, -⟩ := PoolInvariant.create page_region 0 ⟨fun _ => 0, fun _ => listInit⟩
  have hrun : ((mmInitializePool 4096 4096 0 true ⟨fun _ => 0, fun _ => listInit⟩ >>=
      mmAllocatePoolWithTag 0 100 1).map fun r => (r.1, poolBlocks r.2 0))
      = .ok (some (4096 + POOLHEADER_MEM), [4096, 4280]) := by decide +kernel
  rw [hinit, kernel_ok_bind] at hrun
  obtain ⟨⟨r, s⟩, hok, hblocks⟩ := kernel_map_eq_ok.mp hrun
  obtain ⟨rfl, hblocks⟩ := Prod.mk.inj hblocks
  rcases hinv.allocate page_region (n := 100) (hinv.page_fits _) 1 with
    ⟨hnone, -⟩ | ⟨b, s', l', hsome, hinv', -⟩
  · cases hok.symm.trans hnone
  · cases hok.symm.trans hsome
    obtain rfl : l' = [4096, 4280] := hinv'.list.listElements_eq.symm.trans hblocks
    have halloc : isFreeBlock s.memory 4096 = false := by
      rw [Bool.eq_false_iff, Ne, hinv'.isFree (by simp), not_not]
      exact Finset.mem_insert_self ..
    have hordered : PoolOrdered 4096 4096 0 s [4096, 4280] := by
      refine hinv'.ordered (List.isChain_cons_cons.mpr ⟨fun hboth => ?_, List.isChain_singleton _⟩)
      exact Bool.noConfusion (halloc.symm.trans hboth.1)
    exact ⟨s, hordered, halloc, free_coalesces page_region hordered⟩

end KaushOS
