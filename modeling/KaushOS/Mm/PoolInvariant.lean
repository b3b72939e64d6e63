import KaushOS.Mm.Pool
import Mathlib.Data.Finset.Basic

/-! # The tiling of a pool

The blocks of a pool fill its region without gaps. Each operation is followed through the words it
stores: links of other headers and sizes of other blocks stay, because headers do not meet.

* **`PoolInvariant`** — the blocks tile the region, and the allocated ones are those handed out.
* **`PoolInvariant.split`, `PoolInvariant.merge`, `PoolInvariant.mark`** — a block is cut, two
  blocks are joined, a block changes hands.
* **`PoolInvariant.allocate`, `PoolInvariant.free`** — the two calls. -/

namespace KaushOS

open CircularList Tiling

/-! ## Words of a header -/

variable {m m' : Memory} {a b c v w : Nat} {l l₁ l₂ : List Nat} {head : ListHead Nat}

@[simp] theorem store_self (m : Memory) (a v : Nat) : (m.store a v) a = v :=
  Function.update_self ..

theorem store_of_ne (h : w ≠ a) : (m.store a v) w = m w :=
  Function.update_of_ne h ..

/-- The header of a new block lies inside its 28 bytes. -/
theorem newFreeBlock_outside {pooltype size : Nat} (h : w < b ∨ b + 28 ≤ w) :
    newFreeBlock pooltype size b m w = m w := by
  unfold newFreeBlock clearMem
  rw [store_of_ne (by omega), store_of_ne (by omega), store_of_ne (by omega),
    store_of_ne (by omega), store_of_ne (by omega), store_of_ne (by omega), store_of_ne (by omega)]

theorem newFreeBlock_type {pooltype size : Nat} :
    poolType (newFreeBlock pooltype size b m) b = pooltype := by
  unfold poolType newFreeBlock clearMem
  rw [store_of_ne (by omega), store_of_ne (by omega), store_of_ne (by omega), store_self]

theorem newFreeBlock_size {pooltype size : Nat} :
    blockSize (newFreeBlock pooltype size b m) b = size := by
  unfold blockSize newFreeBlock clearMem
  rw [store_of_ne (by omega), store_of_ne (by omega), store_self]

theorem newFreeBlock_status {pooltype size : Nat} :
    blockStatus (newFreeBlock pooltype size b m) b = 0 := by
  unfold blockStatus newFreeBlock
  rw [store_self]
  rfl

theorem newFreeBlock_tag {pooltype size : Nat} :
    blockTag (newFreeBlock pooltype size b m) b = NULLTAG := by
  unfold blockTag newFreeBlock clearMem
  rw [store_of_ne (by omega), store_of_ne (by omega), store_of_ne (by omega),
    store_of_ne (by omega), store_of_ne (by omega), store_of_ne (by omega), store_self]

/-- Link writes store to the two link words of their nodes only. -/
theorem edits_word {T : Set Nat} (h : Edits poolLink T m m')
    (hw : ∀ x ∈ T, w ≠ x + 8 ∧ w ≠ x + 12) : m' w = m w := by
  refine h.invariant (P := fun n => n w = m w) (fun n x y hx _ hn => ?_)
    (fun n x y hx _ hn => ?_) rfl
  · exact (store_of_ne (hw x hx).1).trans hn
  · exact (store_of_ne (hw x hx).2).trans hn

/-- Headers do not meet, and none is at `NULL`. -/
structure Spaced (S : Set Nat) : Prop where
  pos : ∀ x ∈ S, x ≠ 0
  apart : ∀ x ∈ S, ∀ y ∈ S, x = y ∨ x + 28 ≤ y ∨ y + 28 ≤ x

/-- The link words of headers that do not meet are independent. -/
theorem Spaced.lawful {S : Set Nat} (hS : Spaced S) : poolLink.LawfulOn S := by
  have hpointer : ∀ x ∈ S, pointer x = some x := fun x hx => if_neg (hS.pos x hx)
  refine ⟨fun n x hx y hy z hz => ?_, fun n x hx y hy z hz => ?_, fun n x hx y hy z hz => ?_,
    fun n x hx y hy z hz => ?_⟩
  · show pointer (n.store (x + 8) y (z + 8)) = _
    by_cases hzx : z = x
    · rw [hzx, store_self, if_pos rfl, hpointer y hy]
    · rw [store_of_ne (by omega), if_neg hzx]
      rfl
  · show pointer (n.store (x + 12) y (z + 12)) = _
    by_cases hzx : z = x
    · rw [hzx, store_self, if_pos rfl, hpointer y hy]
    · rw [store_of_ne (by omega), if_neg hzx]
      rfl
  · show pointer (n.store (x + 12) y (z + 8)) = pointer (n (z + 8))
    have hapart := hS.apart x hx z hz
    rw [store_of_ne (by omega)]
  · show pointer (n.store (x + 8) y (z + 12)) = pointer (n (z + 12))
    have hapart := hS.apart x hx z hz
    rw [store_of_ne (by omega)]

/-- A list of blocks depends on the link words of its headers. -/
theorem IsList.of_words {S : Set Nat} (h : IsList poolLink S m head l)
    (hw : ∀ x ∈ l, m' (x + 8) = m (x + 8) ∧ m' (x + 12) = m (x + 12)) :
    IsList poolLink S m' head l := by
  refine ⟨h.ring.congr (fun x hx => ?_) (fun x hx => ?_), h.first, h.count, h.nodup, h.mem⟩
  · show pointer (m' (x + 8)) = pointer (m (x + 8))
    rw [(hw x hx).1]
  · show pointer (m' (x + 12)) = pointer (m (x + 12))
    rw [(hw x hx).2]

/-! ## The invariant -/

/-- **A region for a pool**: it holds a header, does not wrap around, and stays clear of the page
at `NULL`. -/
structure PoolRegion (va size : Nat) : Prop where
  header : POOLHEADER_SIZE ≤ size
  aligned : 4 ∣ va
  notNull : 4096 ≤ va
  fits : va + size ≤ ULONG_VALUES

/-- **The invariant.** The list holds the blocks `l`, which tile the region; the allocated blocks
are those whose payloads `out` are handed out. -/
structure PoolInvariant (va size pooltype : Nat) (head : ListHead Nat) (m : Memory)
    (out : Finset Nat) (l : List Nat) : Prop where
  list : IsList poolLink {x | x ∈ l} m head l
  tiles : Tiles POOLHEADER_SIZE (blockSize m) va l (va + size)
  aligned : ∀ x ∈ l, 4 ∣ x
  type : ∀ x ∈ l, poolType m x = pooltype
  status : ∀ x ∈ l, blockStatus m x = if x + POOLHEADER_MEM ∈ out then 1 else 0
  handedOut : ∀ p ∈ out, ∃ x ∈ l, p = x + POOLHEADER_MEM

variable {va size pooltype : Nat} {out out' : Finset Nat}

theorem PoolInvariant.bounds (h : PoolInvariant va size pooltype head m out l) (hb : b ∈ l) :
    va ≤ b ∧ b + 28 + blockSize m b ≤ va + size :=
  h.tiles.bounds hb

theorem PoolInvariant.apart (h : PoolInvariant va size pooltype head m out l) (hb : b ∈ l)
    (hc : c ∈ l) : b = c ∨ b + 28 + blockSize m b ≤ c
      ∨ c + 28 + blockSize m c ≤ b := by
  by_cases hbc : b = c
  · exact Or.inl hbc
  · exact Or.inr (h.tiles.apart hb hc hbc)

theorem PoolInvariant.spaced (h : PoolInvariant va size pooltype head m out l)
    (hr : PoolRegion va size) : Spaced {x | x ∈ l} := by
  refine ⟨fun x hx => ?_, fun x hx y hy => ?_⟩
  · have hlow := (h.bounds hx).1
    have hnull := hr.notNull
    omega
  · rcases h.apart hx hy with hxy | hxy | hxy
    · exact Or.inl hxy
    · exact Or.inr (Or.inl (by omega))
    · exact Or.inr (Or.inr (by omega))

/-- The test of a block for being free. -/
theorem PoolInvariant.isFree (h : PoolInvariant va size pooltype head m out l) (hb : b ∈ l) :
    isFreeBlock m b = true ↔ b + POOLHEADER_MEM ∉ out := by
  rw [isFreeBlock, h.status b hb]
  split <;> simp [POOL_STATUS_ALLOCATED, *]

/-- The invariant is about the words of the headers. -/
theorem PoolInvariant.of_words (h : PoolInvariant va size pooltype head m out l)
    (hm : ∀ x ∈ l, ∀ k < 24, m' (x + k) = m (x + k)) :
    PoolInvariant va size pooltype head m' out l :=
  ⟨h.list.of_words fun x hx => ⟨hm x hx 8 (by omega), hm x hx 12 (by omega)⟩,
    h.tiles.congr fun x hx => hm x hx 4 (by omega), h.aligned,
    fun x hx => (hm x hx 0 (by omega)).trans (h.type x hx),
    fun x hx => (hm x hx 20 (by omega)).trans (h.status x hx), h.handedOut⟩

/-- **The members of a header that a change of hands does not touch stay**, so the blocks do. -/
theorem PoolInvariant.mark (h : PoolInvariant va size pooltype head m out l) (hr : PoolRegion va size)
    (hb : b ∈ l) (hm : ∀ w, w ≠ b + 16 → w ≠ b + 20 → w ≠ b + 24 → m' w = m w)
    (hstatus : m' (b + 20) = if b + POOLHEADER_MEM ∈ out' then 1 else 0)
    (hout : ∀ p, p ≠ b + POOLHEADER_MEM → (p ∈ out' ↔ p ∈ out)) :
    PoolInvariant va size pooltype head m' out' l := by
  have hspaced := (h.spaced hr).apart
  have hword : ∀ x ∈ l, ∀ k < 16, m' (x + k) = m (x + k) := by
    intro x hx k hk
    have hapart := hspaced x hx b hb
    exact hm _ (by omega) (by omega) (by omega)
  refine ⟨h.list.of_words fun x hx => ⟨hword x hx 8 (by omega), hword x hx 12 (by omega)⟩,
    h.tiles.congr fun x hx => hword x hx 4 (by omega), h.aligned, fun x hx => ?_, fun x hx => ?_,
    fun p hp => ?_⟩
  · exact (hword x hx 0 (by omega)).trans (h.type x hx)
  · by_cases hxb : x = b
    · rw [hxb]
      exact hstatus
    · have hapart := hspaced x hx b hb
      have hne : x + POOLHEADER_MEM ≠ b + POOLHEADER_MEM := fun he => hxb (by omega)
      have hsame : m' (x + 20) = m (x + 20) := hm _ (by omega) (by omega) (by omega)
      show m' (x + 20) = _
      rw [hsame, if_congr (hout _ hne) rfl rfl]
      exact h.status x hx
  · by_cases hpb : p = b + POOLHEADER_MEM
    · exact ⟨b, hb, hpb⟩
    · exact h.handedOut p ((hout p hpb).mp hp)

/-! ## Splitting a block -/

/-- **A block is cut to size**, if the rest has room for a header. -/
theorem PoolInvariant.split (h : PoolInvariant va size pooltype head m out (l₁ ++ b :: l₂))
    (hr : PoolRegion va size) {bytes : Nat} (hbytes : 4 ∣ bytes)
    (hroom : bytes + 28 ≤ blockSize m b) :
    ∃ head' m', splitBlock pooltype bytes b head m = .ok (head', m')
      ∧ PoolInvariant va size pooltype head' m' out (l₁ ++ b :: (b + 28 + bytes) :: l₂)
      ∧ b + 28 + bytes ∉ l₁ ++ b :: l₂ ∧ blockTag m' (b + 28 + bytes) = NULLTAG
      ∧ ∀ x ∈ l₁ ++ b :: l₂, blockTag m' x = blockTag m x := by
  have hb : b ∈ l₁ ++ b :: l₂ := by simp
  have hbounds := h.bounds hb
  have hfits := hr.fits
  have hnull := hr.notNull
  unfold ULONG_VALUES at hfits
  let new := b + 28 + bytes
  have hnew : ulongAdd (ulongAdd b POOLHEADER_SIZE) bytes = new := by
    unfold ulongAdd ULONG_VALUES POOLHEADER_SIZE
    omega
  have hrest : ulongSub (ulongSub (blockSize m b) POOLHEADER_SIZE) bytes
      = blockSize m b - 28 - bytes := by
    unfold ulongSub ULONG_VALUES POOLHEADER_SIZE
    omega
  -- the new header lies inside the block, so it meets no other
  have hclear : ∀ x ∈ l₁ ++ b :: l₂, x + 28 ≤ new ∨ new + 28 ≤ x := by
    intro x hx
    have hapart := h.apart hx hb
    omega
  have hfresh : new ∉ l₁ ++ b :: l₂ := by
    intro hmem
    have hself := hclear new hmem
    omega
  let rest := blockSize m b - 28 - bytes
  let m₁ := newFreeBlock pooltype rest new m
  have hold : ∀ x ∈ l₁ ++ b :: l₂, ∀ k < 28, m₁ (x + k) = m (x + k) := by
    intro x hx k hk
    have hx' := hclear x hx
    exact newFreeBlock_outside (by omega)
  have hlist : IsList poolLink {x | x ∈ new :: (l₁ ++ b :: l₂)} m₁ head
      (l₁ ++ b :: l₂) := by
    have hwords := h.list.of_words fun x hx => ⟨hold x hx 8 (by omega), hold x hx 12 (by omega)⟩
    exact ⟨hwords.ring, hwords.first, hwords.count, hwords.nodup,
      fun x hx => List.mem_cons_of_mem _ hx⟩
  have hspaced : Spaced {x | x ∈ new :: (l₁ ++ b :: l₂)} := by
    have hs := h.spaced hr
    refine ⟨fun x hx => ?_, fun x hx y hy => ?_⟩
    · rcases List.mem_cons.mp hx with rfl | hx
      · show b + 28 + bytes ≠ 0
        omega
      · exact hs.pos x hx
    · rcases List.mem_cons.mp hx with hx | hx <;> rcases List.mem_cons.mp hy with hy | hy
      · exact Or.inl (hx.trans hy.symm)
      · have hclear' := hclear y hy
        omega
      · have hclear' := hclear x hx
        omega
      · exact hs.apart x hx y hy
  obtain ⟨m₂, hok, hlist₂, hedits⟩ := hlist.insertAfter hspaced.lawful hfresh (by simp)
  have hmem : ∀ x, x ∈ l₁ ++ b :: new :: l₂ ↔ x ∈ new :: (l₁ ++ b :: l₂) := by
    intro x
    simp only [List.mem_append, List.mem_cons]
    tauto
  -- the members that are not links
  have hfields : ∀ x ∈ new :: (l₁ ++ b :: l₂), ∀ k, k < 28 → k ≠ 8 → k ≠ 12 →
      m₂ (x + k) = m₁ (x + k) := by
    intro x hx k hk h8 h12
    refine edits_word hedits fun y hy => ?_
    have hapart := hspaced.apart x hx y hy
    omega
  have hsize : ∀ x ∈ new :: (l₁ ++ b :: l₂), x ≠ b → ∀ k, k < 28 →
      (m₂.store (b + 4) bytes) (x + k) = m₂ (x + k) := by
    intro x hx hxb k hk
    have hapart := hspaced.apart x hx b (List.mem_cons_of_mem _ hb)
    exact store_of_ne (by omega)
  have hnewb : new ≠ b := by omega
  refine ⟨⟨head.lh_first, head.NumberOfElements + 1⟩, m₂.store (b + 4) bytes, ?_, ?_⟩
  · rw [splitBlock, hnew, hrest]
    show (listInsertAfter poolLink head (fun _ => .ok b) new m₁ >>= _) = _
    rw [hok]
    rfl
  have hheader : ∀ x ∈ l₁ ++ b :: l₂, ∀ k, k < 28 → k ≠ 4 → k ≠ 8 → k ≠ 12 →
      (m₂.store (b + 4) bytes) (x + k) = m (x + k) := by
    intro x hx k hk h4 h8 h12
    have hxn := List.mem_cons_of_mem new hx
    by_cases hxb : x = b
    · rw [hxb, store_of_ne (by omega), ← hxb, hfields x hxn k hk h8 h12, hold x hx k hk]
    · rw [hsize x hxn hxb k hk, hfields x hxn k hk h8 h12, hold x hx k hk]
  have hnewField : ∀ k, k < 28 → k ≠ 8 → k ≠ 12 →
      (m₂.store (b + 4) bytes) (new + k) = m₁ (new + k) := by
    intro k hk h8 h12
    rw [hsize new (by simp) hnewb k hk, hfields new (by simp) k hk h8 h12]
  have hother : ∀ x ∈ l₁ ++ b :: l₂, x ≠ b →
      blockSize (m₂.store (b + 4) bytes) x = blockSize m x := by
    intro x hx hxb
    have hxn := List.mem_cons_of_mem new hx
    show (m₂.store (b + 4) bytes) (x + 4) = m (x + 4)
    rw [hsize x hxn hxb 4 (by omega), hfields x hxn 4 (by omega) (by omega) (by omega),
      hold x hx 4 (by omega)]
  have hbsize : blockSize (m₂.store (b + 4) bytes) b = bytes := store_self ..
  have hnsize : blockSize (m₂.store (b + 4) bytes) new = rest :=
    (hnewField 4 (by omega) (by omega) (by omega)).trans newFreeBlock_size
  have hnd := h.list.nodup
  have hb₁ : ∀ x ∈ l₁, x ≠ b := fun x hx heq =>
    (List.nodup_append.mp hnd).2.2 x hx b (by simp) heq
  have hb₂ : ∀ x ∈ l₂, x ≠ b := fun x hx heq =>
    (List.nodup_cons.mp (List.nodup_append.mp hnd).2.1).1 (heq ▸ hx)
  refine ⟨⟨?_, ?_, fun x hx => ?_, fun x hx => ?_, fun x hx => ?_, fun p hp => ?_⟩, hfresh,
    (hnewField 16 (by omega) (by omega) (by omega)).trans newFreeBlock_tag,
    fun x hx => hheader x hx 16 (by omega) (by omega) (by omega) (by omega)⟩
  · have hwords : ∀ x ∈ l₁ ++ b :: new :: l₂, (m₂.store (b + 4) bytes) (x + 8) = m₂ (x + 8)
        ∧ (m₂.store (b + 4) bytes) (x + 12) = m₂ (x + 12) := by
      intro x hx
      have hapart := hspaced.apart x ((hmem x).mp hx) b (List.mem_cons_of_mem _ hb)
      exact ⟨store_of_ne (by omega), store_of_ne (by omega)⟩
    have hl := hlist₂.of_words hwords
    exact ⟨hl.ring, hl.first, hl.count, hl.nodup, fun x hx => hx⟩
  · refine h.tiles.split (fun x hx => hother x (by simp [hx]) (hb₁ x hx))
      (fun x hx => hother x (by simp [hx]) (hb₂ x hx)) ?_ ?_
    · show b + 28 + bytes = b + 28 + blockSize (m₂.store (b + 4) bytes) b
      rw [hbsize]
    · show new + 28 + blockSize (m₂.store (b + 4) bytes) new = b + 28 + blockSize m b
      rw [hnsize]
      omega
  · rcases List.mem_cons.mp ((hmem x).mp hx) with rfl | hx
    · have hbal := h.aligned b hb
      omega
    · exact h.aligned x hx
  · rcases List.mem_cons.mp ((hmem x).mp hx) with rfl | hx
    · exact (hnewField 0 (by omega) (by omega) (by omega)).trans newFreeBlock_type
    · exact (hheader x hx 0 (by omega) (by omega) (by omega) (by omega)).trans (h.type x hx)
  · rcases List.mem_cons.mp ((hmem x).mp hx) with rfl | hx
    · have hnot : new + POOLHEADER_MEM ∉ out := by
        intro hout
        obtain ⟨y, hy, heq⟩ := h.handedOut _ hout
        exact hfresh (by rwa [show new = y by omega])
      rw [if_neg hnot]
      exact (hnewField 20 (by omega) (by omega) (by omega)).trans newFreeBlock_status
    · exact (hheader x hx 20 (by omega) (by omega) (by omega) (by omega)).trans (h.status x hx)
  · obtain ⟨x, hx, hpx⟩ := h.handedOut p hp
    exact ⟨x, (hmem x).mpr (List.mem_cons_of_mem new hx), hpx⟩

/-! ## Merging two blocks -/

/-- **The words that a merge stores to**: the size of block `b`, which takes in block `c`, and links
of the blocks `l`. -/
structure Merges (l : List Nat) (b c : Nat) (m m' : Memory) : Prop where
  size : blockSize m' b = blockSize m b + (blockSize m c + POOLHEADER_SIZE)
  frame : ∀ w, w ≠ b + 4 → (∀ x ∈ l, w ≠ x + 8 ∧ w ≠ x + 12) → m' w = m w

/-- **A block is merged with the one behind it**, if that one is not handed out. -/
theorem PoolInvariant.merge (h : PoolInvariant va size pooltype head m out (l₁ ++ b :: c :: l₂))
    (hr : PoolRegion va size) (hcout : c + POOLHEADER_MEM ∉ out) :
    ∃ head' m', mergeBlocks b c head m = .ok (head', m')
      ∧ PoolInvariant va size pooltype head' m' out (l₁ ++ b :: l₂)
      ∧ Merges (l₁ ++ b :: c :: l₂) b c m m' := by
  have hb : b ∈ l₁ ++ b :: c :: l₂ := by simp
  have hc : c ∈ l₁ ++ b :: c :: l₂ := by simp
  have hspaced := h.spaced hr
  have hnd := h.list.nodup
  have hcb : c ≠ b := by
    rintro rfl
    exact (List.nodup_cons.mp (List.nodup_append.mp hnd).2.1).1 List.mem_cons_self
  have hsum : ulongAdd (blockSize m b) (ulongAdd (blockSize m c) POOLHEADER_SIZE)
      = blockSize m b + (blockSize m c + 28) := by
    have hbbounds := h.bounds hb
    have hcbounds := h.bounds hc
    have hapart := h.apart hb hc
    have hfits := hr.fits
    unfold ulongAdd ULONG_VALUES POOLHEADER_SIZE
    unfold ULONG_VALUES at hfits
    omega
  let m₁ := m.store (b + 4) (blockSize m b + (blockSize m c + 28))
  have hm₁ : ∀ x ∈ l₁ ++ b :: c :: l₂, ∀ k, k < 28 → (x = b → k ≠ 4) → m₁ (x + k) = m (x + k) := by
    intro x hx k hk hxb
    have hapart := hspaced.apart x hx b hb
    exact store_of_ne (by
      by_cases hxb' : x = b
      · have hk4 := hxb hxb'
        omega
      · omega)
  have hlist : IsList poolLink {x | x ∈ l₁ ++ b :: c :: l₂} m₁ head (l₁ ++ b :: c :: l₂) :=
    h.list.of_words fun x hx => ⟨hm₁ x hx 8 (by omega) (by omega), hm₁ x hx 12 (by omega) (by omega)⟩
  obtain ⟨head', m₂, hok, hlist₂, hedits⟩ := hlist.remove hspaced.lawful hc
  have herase : (l₁ ++ b :: c :: l₂).erase c = l₁ ++ b :: l₂ := by
    have hnot : c ∉ l₁ := fun hmem => (List.nodup_append.mp hnd).2.2 c hmem c (by simp) rfl
    rw [List.erase_append_right _ hnot, List.erase_cons_tail (by simpa using hcb.symm),
      List.erase_cons_head]
  rw [herase] at hlist₂
  have hm₂ : ∀ x ∈ l₁ ++ b :: c :: l₂, ∀ k, k < 28 → k ≠ 8 → k ≠ 12 → m₂ (x + k) = m₁ (x + k) := by
    intro x hx k hk h8 h12
    refine edits_word hedits fun y hy => ?_
    have hapart := hspaced.apart x hx y hy
    omega
  have hsub : ∀ x ∈ l₁ ++ b :: l₂, x ∈ l₁ ++ b :: c :: l₂ := by
    intro x hx
    rw [← herase] at hx
    exact List.mem_of_mem_erase hx
  have hfield : ∀ x ∈ l₁ ++ b :: c :: l₂, ∀ k, k < 28 → k ≠ 4 → k ≠ 8 → k ≠ 12 →
      m₂ (x + k) = m (x + k) := by
    intro x hx k hk h4 h8 h12
    rw [hm₂ x hx k hk h8 h12, hm₁ x hx k hk fun _ => h4]
  have hother : ∀ x ∈ l₁ ++ b :: c :: l₂, x ≠ b → blockSize m₂ x = blockSize m x := by
    intro x hx hxb
    show m₂ (x + 4) = m (x + 4)
    rw [hm₂ x hx 4 (by omega) (by omega) (by omega), hm₁ x hx 4 (by omega) fun heq => absurd heq hxb]
  have hbsize : blockSize m₂ b = blockSize m b + (blockSize m c + 28) := by
    show m₂ (b + 4) = _
    rw [hm₂ b hb 4 (by omega) (by omega) (by omega)]
    exact store_self ..
  have hb₁ : ∀ x ∈ l₁, x ≠ b := fun x hx heq =>
    (List.nodup_append.mp hnd).2.2 x hx b (by simp) heq
  have hb₂ : ∀ x ∈ l₂, x ≠ b := fun x hx heq =>
    (List.nodup_cons.mp (List.nodup_append.mp hnd).2.1).1 (heq ▸ List.mem_cons_of_mem c hx)
  refine ⟨head', m₂, ?_, ⟨⟨hlist₂.ring, hlist₂.first, hlist₂.count, hlist₂.nodup, fun x hx => hx⟩,
    ?_, fun x hx => h.aligned x (hsub x hx), fun x hx => ?_, fun x hx => ?_, fun p hp => ?_⟩,
    hbsize, fun w hw hlinks => ?_⟩
  · rw [mergeBlocks, hsum]
    exact hok
  · exact h.tiles.merge (fun x hx => hother x (by simp [hx]) (hb₁ x hx))
      (fun x hx => hother x (by simp [hx]) (hb₂ x hx)) hbsize
  · exact (hfield x (hsub x hx) 0 (by omega) (by omega) (by omega) (by omega)).trans
      (h.type x (hsub x hx))
  · exact (hfield x (hsub x hx) 20 (by omega) (by omega) (by omega) (by omega)).trans
      (h.status x (hsub x hx))
  · obtain ⟨x, hx, hpx⟩ := h.handedOut p hp
    have hxc : x ≠ c := fun heq => hcout (by rw [← heq, ← hpx]; exact hp)
    refine ⟨x, ?_, hpx⟩
    rw [← herase]
    exact (List.mem_erase_of_ne hxc).mpr hx
  · rw [edits_word hedits fun x hx => hlinks x hx]
    exact store_of_ne hw

end KaushOS
