import KaushOS.Library.Transition
import KaushOS.Mm.Frames

/-! # Runs of the system PTEs (`kern/mm/mm.c`)

`MmAllocateSystemPtes` and `MmFreeSystemPtes` keep three records of the pages of their area: the words
of `MiSystemPteBitmap`, the addresses that they have handed out, and the page tables with the frames
behind them.

* **`Frames.mmAllocateSystemPtes_forget`, `Frames.mmFreeSystemPtes_forget`** — with enough frames the
  routines do what those of `KaushOS.Mm.Ptes` do, and keep the frames of the pages apart.
* **`SystemPteMachine`** — the area, and the ranges that are live.
* **`SystemPteMachine.Inv`** — the three records agree.
* **`system_ptes_exact`** — so they do in every run, and nothing is refused that there is room for. -/

namespace KaushOS

open Transition

/-! ## With frames and without -/

/-- The pages of the area of the system PTEs. -/
def systemPages : Set Nat :=
  {p | MMSYSPTE_START / PGSIZE ≤ p ∧ p < MMSYSPTE_START / PGSIZE + systemPteCount}

/-- **The area is in order**: the bitmap has a bit for every page, which is set if the page is mapped,
and the frames of the pages lie apart. -/
structure SystemArea.Ordered (s : SystemArea) : Prop where
  count : s.bitmap.BitCount = systemPteCount
  frames : FramesOwned systemPages s.mm
  agree : ∀ i < systemPteCount,
    s.mm.mapped (MMSYSPTE_START / PGSIZE + i) = s.bitmap.unpack.bits i

/-- **Physical frames are available** for a range of `n` pages, if there is one. -/
def SystemArea.FramesSuffice (s : SystemArea) (n : Nat) : Prop :=
  (∃ j, j + n ≤ systemPteCount ∧ AllIn s.bitmap.unpack.bits j n false) →
    n ≤ s.mm.PfnFreeList.length

variable {s s' : SystemArea} {i n : Nat}

/-- The pages of a range of the bitmap lie in the area. -/
theorem systemPages_range (hroom : i + n ≤ systemPteCount) (p : Nat)
    (hlo : MMSYSPTE_START / PGSIZE + i ≤ p) (hhi : p < MMSYSPTE_START / PGSIZE + i + n) :
    p ∈ systemPages :=
  ⟨by omega, by omega⟩

/-- Bits and pages of a range have the same values. -/
theorem SystemArea.Ordered.allIn (h : s.Ordered) (hroom : i + n ≤ systemPteCount) {value : Bool}
    (hbits : AllIn s.bitmap.unpack.bits i n value) :
    AllIn s.mm.mapped (MMSYSPTE_START / PGSIZE + i) n value := by
  intro p hlo hhi
  have hp := h.agree (p - MMSYSPTE_START / PGSIZE) (by omega)
  rw [show MMSYSPTE_START / PGSIZE + (p - MMSYSPTE_START / PGSIZE) = p by omega] at hp
  rw [hp]
  exact hbits _ (by omega) (by omega)

/-- Storing to a range of bits and to the range of their pages keeps them in agreement. -/
theorem SystemArea.Ordered.fill (h : s.Ordered) {value : Bool}
    (hcount : s'.bitmap.BitCount = s.bitmap.BitCount)
    (hbits : s'.bitmap.unpack.bits = fillRange s.bitmap.unpack.bits i n value)
    (hmapped : s'.mm.mapped = fillRange s.mm.mapped (MMSYSPTE_START / PGSIZE + i) n value)
    (hframes : FramesOwned systemPages s'.mm) : s'.Ordered := by
  refine ⟨hcount.trans h.count, hframes, fun j hj => ?_⟩
  rw [hbits, hmapped]
  by_cases hin : i ≤ j ∧ j < i + n
  · rw [fillRange_of_mem hin.1 hin.2, fillRange_of_mem (by omega) (by omega)]
  · rw [fillRange_of_not hin, fillRange_of_not (by omega), h.agree j hj]

/-- **An allocation** of pages for which there are frames. -/
theorem Frames.mmAllocateSystemPtes_forget (h : s.Ordered) (hsuffice : s.FramesSuffice n) :
    ∃ r s', Frames.mmAllocateSystemPtes n s = .ok (r, s') ∧ s'.Ordered
      ∧ KaushOS.mmAllocateSystemPtes n s.forget = .ok (r, s'.forget) := by
  obtain ⟨found, b', hscan, hnone, hsome⟩ := bmBitmapScanAndFlip_spec s.bitmap.unpack n false
  have hwords := Words.bmBitmapScanAndFlip_unpack s.bitmap 0 n false
  rw [hscan] at hwords
  obtain ⟨⟨found', b⟩, hrun, hpair⟩ := kernel_map_eq_ok.mp hwords
  obtain ⟨rfl, rfl⟩ := Prod.mk.inj hpair
  have hbit : KaushOS.bmBitmapScanAndFlip s.forget.bitmap 0 n false = .ok (found', b.unpack) := hscan
  cases found' with
  | none =>
    have hb : b.unpack = s.bitmap.unpack := (hnone rfl).1
    refine ⟨none, { s with bitmap := b }, ?_, ?_, ?_⟩
    · rw [Frames.mmAllocateSystemPtes, hrun, kernel_ok_bind]
      rfl
    · have hcount : b.BitCount = s.bitmap.BitCount := congrArg BITMAP.BitCount hb
      refine ⟨hcount.trans h.count, h.frames, fun i hi => ?_⟩
      rw [hb]
      exact h.agree i hi
    · rw [KaushOS.mmAllocateSystemPtes, hbit, kernel_ok_bind]
      rfl
  | some i =>
    obtain ⟨hroom, hfree, -, hb⟩ := hsome i rfl
    have hroom' : i + n ≤ systemPteCount := h.count ▸ hroom
    obtain ⟨mm, hmm, hframes, hmapped, -⟩ := h.frames.allocate (systemPages_range hroom')
      (h.allIn hroom' hfree) (hsuffice ⟨i, hroom', hfree⟩) PTE_W
    have hcount : b.BitCount = s.bitmap.BitCount := congrArg BITMAP.BitCount hb
    have hbits : b.unpack.bits = fillRange s.bitmap.unpack.bits i n true :=
      congrArg KaushOS.BITMAP.bits hb
    refine ⟨some (MMSYSPTE_START + PGSIZE * i), ⟨b, mm⟩, ?_,
      h.fill hcount hbits hmapped hframes, ?_⟩
    · rw [Frames.mmAllocateSystemPtes, hrun, kernel_ok_bind]
      simp only
      rw [Frames.mmVirtualAlloc, systemPage, hmm]
      rfl
    · rw [KaushOS.mmAllocateSystemPtes, hbit, kernel_ok_bind]
      simp only [SystemArea.forget, KaushOS.mmVirtualAlloc, systemPage, hmapped]
      rfl

/-- **Freeing pages** that are marked. -/
theorem Frames.mmFreeSystemPtes_forget (h : s.Ordered) (hn : 0 < n) (hroom : i + n ≤ systemPteCount)
    (hset : AllIn s.bitmap.unpack.bits i n true) :
    ∃ s', Frames.mmFreeSystemPtes (MMSYSPTE_START + PGSIZE * i) n s = .ok s' ∧ s'.Ordered
      ∧ KaushOS.mmFreeSystemPtes (MMSYSPTE_START + PGSIZE * i) n s.forget = .ok s'.forget := by
  have hmap := h.allIn hroom hset
  have habstract : KaushOS.mmFreeSystemPtes (MMSYSPTE_START + PGSIZE * i) n s.forget = .ok
      { bitmap := { s.bitmap.unpack with bits := fillRange s.bitmap.unpack.bits i n false }
        mapped := fillRange s.mm.mapped (MMSYSPTE_START / PGSIZE + i) n false } :=
    KaushOS.mmFreeSystemPtes_eq (m := s.forget) hn h.count hroom hmap
  have hwords := Words.bmBitmapSetMultiple_unpack s.bitmap i n false
  have hroom' : i + n ≤ s.bitmap.unpack.BitCount := hroom.trans_eq h.count.symm
  rw [KaushOS.bmBitmapSetMultiple_eq hroom'] at hwords
  obtain ⟨b, hrun, hb⟩ := kernel_map_eq_ok.mp hwords
  obtain ⟨mm, hmm, hframes, hmapped, -⟩ := h.frames.free_range (systemPages_range hroom) hmap
  have hcount : b.BitCount = s.bitmap.BitCount := congrArg BITMAP.BitCount hb
  have hbits : b.unpack.bits = fillRange s.bitmap.unpack.bits i n false :=
    congrArg KaushOS.BITMAP.bits hb
  refine ⟨⟨b, mm⟩, ?_, h.fill hcount hbits hmapped hframes, ?_⟩
  · obtain ⟨hhi, haligned, hstart⟩ := systemAddress (i := i) (by omega)
    rw [Frames.mmFreeSystemPtes, assert_of_true (Nat.le_add_right _ _), kernel_ok_bind,
      assert_of_true hhi, kernel_ok_bind, assert_of_true haligned, kernel_ok_bind]
    simp only [hstart]
    rw [hrun, kernel_ok_bind, Frames.mmVirtualFree, systemPage, hmm]
    rfl
  · rw [habstract, ← hb, ← hmapped]
    rfl

/-! ## Events -/

/-- **The area and the ranges that are live**, each an address and a number of pages. -/
structure SystemPteMachine where
  area : SystemArea
  live : List (Nat × Nat)

/-- **The calls.** -/
inductive SystemPteEvent
  | allocate (numberOfPages : Nat)
  | free (address numberOfPages : Nat)

/-- **One call.** -/
def SystemPteEvent.run : SystemPteEvent → SystemPteMachine → Kernel SystemPteMachine
  | .allocate n, m => do
    let (memory, area) ← Frames.mmAllocateSystemPtes n m.area
    return ⟨area, memory.toList.map (·, n) ++ m.live⟩
  | .free address n, m => do
    let area ← Frames.mmFreeSystemPtes address n m.area
    return ⟨area, m.live.erase (address, n)⟩

/-- **What the callers promise**, and that frames are available: at least one page is asked for, and
what is freed is live and has its own length. -/
def SystemPteEvent.Enabled : SystemPteEvent → SystemPteMachine → Prop
  | .allocate n, m => 0 < n ∧ m.area.FramesSuffice n
  | .free address n, m => (address, n) ∈ m.live

/-- **The system PTEs as a transition system.** `MmInitializeSystemPtes` starts with no page of the area
mapped, and free frames that nothing refers to. -/
def systemPteSystem : System (SystemPteEvent × SystemPteMachine) SystemPteMachine where
  init m := m.live = [] ∧ ∃ buffer mm, Frames.mmInitializeSystemPtes buffer mm = .ok m.area
    ∧ mm.PfnFreeList.Nodup ∧ (∀ f ∈ mm.PfnFreeList, mm.RefCount f = 0 ∧ f ≠ 0)
    ∧ ∀ p ∈ systemPages, mm.pte p = .zero
  step _ m l m' := l.2 = m ∧ l.1.Enabled m ∧ l.1.run m = .ok m'

/-! ## What is claimed -/

/-- Page `i` of the area belongs to the range `r`. -/
def Covers (r : Nat × Nat) (i : Nat) : Prop :=
  r.1 ≤ MMSYSPTE_START + PGSIZE * i ∧ MMSYSPTE_START + PGSIZE * i < r.1 + PGSIZE * r.2

/-- Page `i` of the area belongs to a live range. -/
def SystemPteMachine.LivePage (m : SystemPteMachine) (i : Nat) : Prop := ∃ r ∈ m.live, Covers r i

/-- A page-aligned range of pages inside the area. -/
structure InArea (r : Nat × Nat) : Prop where
  aligned : r.1 % PGSIZE = 0
  start : MMSYSPTE_START ≤ r.1
  stop : r.1 + PGSIZE * r.2 ≤ MMSYSPTE_END

/-- **The three records agree**: the live ranges lie apart in the area, exactly the bits of their pages
are set in the words of the bitmap, and exactly their pages are mapped, each to a frame of its
own. -/
structure SystemPtesExact (m : SystemPteMachine) : Prop where
  inside : ∀ r ∈ m.live, InArea r
  apart : m.live.Pairwise Apart
  bits : ∀ i < systemPteCount,
    (m.area.bitmap.bits (i / 32)).getLsbD (i % 32) = true ↔ m.LivePage i
  mapped : ∀ i < systemPteCount,
    (m.area.mm.pte (MMSYSPTE_START / PGSIZE + i)).Valid = true ↔ m.LivePage i
  frames : ∀ i < systemPteCount, ∀ j < systemPteCount, m.LivePage i → m.LivePage j →
    (m.area.mm.pte (MMSYSPTE_START / PGSIZE + i)).PageFrameNumber
      = (m.area.mm.pte (MMSYSPTE_START / PGSIZE + j)).PageFrameNumber → i = j
  owned : ∀ i < systemPteCount, m.LivePage i →
    (m.area.mm.pte (MMSYSPTE_START / PGSIZE + i)).PageFrameNumber ∉ m.area.mm.PfnFreeList
      ∧ m.area.mm.RefCount (m.area.mm.pte (MMSYSPTE_START / PGSIZE + i)).PageFrameNumber = 1

/-- **What an allocation returns**: a range of `n` pages inside the area and apart from the live ones,
or `NULL`, and then there are no `n` consecutive free pages. -/
def AllocationExact (l : SystemPteEvent × SystemPteMachine) : Prop :=
  match l.1 with
  | .allocate n => ∀ memory area, Frames.mmAllocateSystemPtes n l.2.area = .ok (memory, area) →
    match memory with
    | some address => InArea (address, n) ∧ ∀ r ∈ l.2.live, Apart (address, n) r
    | none => ∀ j, j + n ≤ systemPteCount → ∃ i, j ≤ i ∧ i < j + n ∧ l.2.LivePage i
  | .free _ _ => True

/-! ## The invariant -/

/-- **The invariant**: the area is in order, and its marked pages are those of the live ranges. -/
structure SystemPteMachine.Inv (m : SystemPteMachine) : Prop where
  ordered : m.area.Ordered
  ranges : ∀ r ∈ m.live, ∃ k, r.1 = MMSYSPTE_START + PGSIZE * k ∧ 0 < r.2 ∧ k + r.2 ≤ systemPteCount
  apart : m.live.Pairwise Apart
  bits : ∀ i < systemPteCount, m.area.bitmap.unpack.bits i = true ↔ m.LivePage i

variable {m m' : SystemPteMachine} {k j : Nat}

/-- The pages of a range. -/
theorem covers_iff : Covers (MMSYSPTE_START + PGSIZE * k, n) i ↔ k ≤ i ∧ i < k + n := by
  have hpos : 0 < PGSIZE := by decide
  unfold Covers
  simp only
  rw [Nat.add_assoc, ← Nat.mul_add, Nat.add_le_add_iff_left, Nat.add_lt_add_iff_left,
    Nat.mul_le_mul_left_iff hpos, Nat.mul_lt_mul_left hpos]

/-- A range of the area. -/
theorem inArea_range (h : k + n ≤ systemPteCount) : InArea (MMSYSPTE_START + PGSIZE * k, n) := by
  have hend : MMSYSPTE_END = MMSYSPTE_START + PGSIZE * systemPteCount := by decide
  refine ⟨?_, Nat.le_add_right _ _, ?_⟩
  · show (MMSYSPTE_START + PGSIZE * k) % PGSIZE = 0
    rw [Nat.add_mul_mod_self_left]
    decide
  · show MMSYSPTE_START + PGSIZE * k + PGSIZE * n ≤ MMSYSPTE_END
    rw [hend, Nat.add_assoc, ← Nat.mul_add]
    exact Nat.add_le_add_left (Nat.mul_le_mul_left _ h) _

/-- A free range lies apart from the live ones. -/
theorem SystemPteMachine.Inv.apart_free (h : m.Inv) (hn : 0 < n) (hroom : k + n ≤ systemPteCount)
    (hfree : AllIn m.area.bitmap.unpack.bits k n false) :
    ∀ r ∈ m.live, Apart (MMSYSPTE_START + PGSIZE * k, n) r := by
  rintro ⟨a, l⟩ hr
  obtain ⟨j, rfl, hl, hj⟩ := h.ranges _ hr
  refine apart_iff.mpr ?_
  by_contra hno
  -- a page of both would be live and not marked
  have hset := (h.bits (max k j) (by omega)).mpr ⟨_, hr, covers_iff.mpr ⟨by omega, by omega⟩⟩
  rw [hfree (max k j) (by omega) (by omega)] at hset
  cases hset

/-- **An allocation.** -/
theorem SystemPteMachine.Inv.allocate (h : m.Inv) (hn : 0 < n) (hsuffice : m.area.FramesSuffice n) :
    ∃ m', (SystemPteEvent.allocate n).run m = .ok m' ∧ m'.Inv
      ∧ AllocationExact (.allocate n, m) := by
  obtain ⟨r, area, hrun, hordered, habstract⟩ :=
    Frames.mmAllocateSystemPtes_forget h.ordered hsuffice
  obtain ⟨memory, after, hspec, hnone, hsome⟩ := mmAllocateSystemPtes_spec m.area.forget n
  obtain ⟨rfl, rfl⟩ := Prod.mk.inj (Except.ok.inj (habstract.symm.trans hspec))
  have hstep : (SystemPteEvent.allocate n).run m = .ok ⟨area, r.toList.map (·, n) ++ m.live⟩ := by
    rw [SystemPteEvent.run, hrun]
    rfl
  have hcount : m.area.forget.bitmap.BitCount = systemPteCount := h.ordered.count
  refine ⟨_, hstep, ?_, ?_⟩
  · cases r with
    | none =>
      have hbits : area.bitmap.unpack = m.area.bitmap.unpack :=
        congrArg SystemPtes.bitmap (hnone rfl).1
      refine ⟨hordered, h.ranges, h.apart, fun i hi => ?_⟩
      show area.bitmap.unpack.bits i = true ↔ _
      rw [hbits]
      exact h.bits i hi
    | some a =>
      obtain ⟨k, rfl, hroom, hfree, hafter⟩ := hsome a rfl
      rw [hcount] at hroom
      have hbits : area.bitmap.unpack.bits = fillRange m.area.bitmap.unpack.bits k n true :=
        congrArg (fun s => s.bitmap.bits) hafter
      refine ⟨hordered, ?_, List.pairwise_cons.mpr ⟨h.apart_free hn hroom hfree, h.apart⟩,
        fun i hi => ?_⟩
      · exact List.forall_mem_cons.mpr ⟨⟨k, rfl, hn, hroom⟩, h.ranges⟩
      · show area.bitmap.unpack.bits i = true ↔
          ∃ r ∈ (MMSYSPTE_START + PGSIZE * k, n) :: m.live, Covers r i
        rw [hbits, List.exists_mem_cons_iff, covers_iff]
        by_cases hin : k ≤ i ∧ i < k + n
        · rw [fillRange_of_mem hin.1 hin.2]
          exact iff_of_true rfl (.inl hin)
        · rw [fillRange_of_not hin, h.bits i hi]
          exact (or_iff_right hin).symm
  · intro memory area' hrun'
    obtain ⟨rfl, rfl⟩ := Prod.mk.inj (Except.ok.inj (hrun'.symm.trans hrun))
    cases memory with
    | none =>
      intro j hj
      by_contra hno
      refine (hnone rfl).2 j (by rw [hcount]; exact hj) fun i hlo hhi => ?_
      refine Bool.eq_false_iff.mpr fun hset => hno ⟨i, hlo, hhi, ?_⟩
      exact (h.bits i (by omega)).mp hset
    | some a =>
      obtain ⟨k, rfl, hroom, hfree, -⟩ := hsome a rfl
      rw [hcount] at hroom
      exact ⟨inArea_range hroom, h.apart_free hn hroom hfree⟩

/-- A live range is live once, and lies apart from the others. -/
theorem SystemPteMachine.Inv.apart_erase (h : m.Inv) {a r : Nat × Nat} (ha : a ∈ m.live)
    (hr : r ∈ m.live.erase a) : Apart a r := by
  have hirrefl : ∀ x ∈ m.live, ¬ Apart x x := by
    rintro ⟨b, l⟩ hx
    obtain ⟨j, rfl, hl, -⟩ := h.ranges _ hx
    rw [apart_iff]
    simp only at hl
    omega
  have hnodup : m.live.Nodup := by
    refine h.apart.imp_of_mem fun hx _ hapart => ?_
    rintro rfl
    exact hirrefl _ hx hapart
  have hsymm : Std.Symm Apart := ⟨fun _ _ => Apart.symm⟩
  obtain ⟨hne, hr'⟩ := hnodup.mem_erase_iff.mp hr
  exact h.apart.forall ha hr' hne.symm

/-- **A live range is freed.** -/
theorem SystemPteMachine.Inv.free (h : m.Inv) {a : Nat} (hlive : (a, n) ∈ m.live) :
    ∃ m', (SystemPteEvent.free a n).run m = .ok m' ∧ m'.Inv := by
  obtain ⟨k, hk, hn, hroom⟩ := h.ranges _ hlive
  obtain rfl : a = MMSYSPTE_START + PGSIZE * k := hk
  have hset : AllIn m.area.bitmap.unpack.bits k n true := fun i hlo hhi =>
    (h.bits i (Nat.lt_of_lt_of_le hhi hroom)).mpr ⟨_, hlive, covers_iff.mpr ⟨hlo, hhi⟩⟩
  obtain ⟨area, hrun, hordered, habstract⟩ :=
    Frames.mmFreeSystemPtes_forget h.ordered hn hroom hset
  have hfreed := mmFreeSystemPtes_eq (m := m.area.forget) hn h.ordered.count hroom
    (h.ordered.allIn hroom hset)
  have hbits : area.bitmap.unpack.bits = fillRange m.area.bitmap.unpack.bits k n false :=
    congrArg (fun s => s.bitmap.bits) (Except.ok.inj (habstract.symm.trans hfreed))
  have hstep : (SystemPteEvent.free (MMSYSPTE_START + PGSIZE * k) n).run m
      = .ok ⟨area, m.live.erase (MMSYSPTE_START + PGSIZE * k, n)⟩ := by
    rw [SystemPteEvent.run, hrun]
    rfl
  refine ⟨_, hstep, hordered, fun r hr => h.ranges r (List.mem_of_mem_erase hr),
    h.apart.sublist (List.erase_sublist ..), fun i hi => ?_⟩
  show area.bitmap.unpack.bits i = true ↔
    ∃ r ∈ m.live.erase (MMSYSPTE_START + PGSIZE * k, n), Covers r i
  rw [hbits]
  by_cases hin : k ≤ i ∧ i < k + n
  · rw [fillRange_of_mem hin.1 hin.2]
    refine iff_of_false Bool.noConfusion ?_
    rintro ⟨⟨b, l⟩, hr, hcovers⟩
    have hapart := h.apart_erase hlive hr
    obtain ⟨j, rfl, -, -⟩ := h.ranges _ (List.mem_of_mem_erase hr)
    have hcov := covers_iff.mp hcovers
    have hside := apart_iff.mp hapart
    omega
  · rw [fillRange_of_not hin, h.bits i hi]
    constructor
    · rintro ⟨r, hr, hcovers⟩
      refine ⟨r, (List.mem_erase_of_ne fun heq => hin ?_).mpr hr, hcovers⟩
      subst heq
      exact covers_iff.mp hcovers
    · rintro ⟨r, hr, hcovers⟩
      exact ⟨r, List.mem_of_mem_erase hr, hcovers⟩

/-- **The invariant promises what is claimed.** -/
theorem SystemPteMachine.Inv.exact (h : m.Inv) : SystemPtesExact m := by
  have hpage : ∀ i < systemPteCount, MMSYSPTE_START / PGSIZE + i ∈ systemPages :=
    fun i hi => ⟨Nat.le_add_right _ _, Nat.add_lt_add_left hi _⟩
  have hmapped : ∀ i < systemPteCount,
      m.area.mm.mapped (MMSYSPTE_START / PGSIZE + i) = true ↔ m.LivePage i := by
    intro i hi
    rw [h.ordered.agree i hi]
    exact h.bits i hi
  refine ⟨fun r hr => ?_, h.apart, h.bits, hmapped, fun i hi j hj hil hjl heq => ?_,
    fun i hi hil => ?_⟩
  · obtain ⟨k, hk, -, hroom⟩ := h.ranges r hr
    have hr' : r = (MMSYSPTE_START + PGSIZE * k, r.2) := Prod.ext hk rfl
    rw [hr']
    exact inArea_range hroom
  · have hpages := h.ordered.frames.injective _ (hpage i hi) _ (hpage j hj)
      ((hmapped i hi).mpr hil) ((hmapped j hj).mpr hjl) heq
    exact Nat.add_left_cancel hpages
  · have hm := (hmapped i hi).mpr hil
    exact ⟨h.ordered.frames.not_free (hpage i hi) hm,
      (h.ordered.frames.referred _ (hpage i hi) hm).1⟩

/-! ## Runs -/

/-- **An enabled call returns**, and keeps the invariant. -/
theorem SystemPteMachine.Inv.run (h : m.Inv) {e : SystemPteEvent} (hen : e.Enabled m) :
    ∃ m', e.run m = .ok m' ∧ m'.Inv ∧ AllocationExact (e, m) := by
  cases e with
  | allocate n => exact h.allocate hen.1 hen.2
  | free a n =>
    obtain ⟨m', hrun, hinv⟩ := h.free hen
    exact ⟨m', hrun, hinv, trivial⟩

/-- After `MmInitializeSystemPtes` nothing is marked. -/
theorem SystemPteMachine.Inv.start (h : systemPteSystem.init m) : m.Inv := by
  obtain ⟨hlive, buffer, mm, hinit, hnodup, hfree, hzero⟩ := h
  obtain ⟨b, hb, hcount, hbits⟩ := Words.bmBitmapCreateInBuffer_eq systemPteCount buffer
  have harea : m.area = ⟨b, mm⟩ := by
    rw [Frames.mmInitializeSystemPtes, hb] at hinit
    exact (Except.ok.inj hinit).symm
  have hunmapped : ∀ p ∈ systemPages, mm.mapped p = false := by
    intro p hp
    unfold MmState.mapped
    rw [hzero p hp]
    rfl
  refine ⟨?_, ?_, ?_, fun i hi => ?_⟩
  · rw [harea]
    refine ⟨hcount, ⟨hnodup, hfree, fun p hp _ => hzero p hp, fun p hp hm => ?_,
      fun p hp q _ hm => ?_⟩, fun i hi => ?_⟩
    · rw [hunmapped p hp] at hm
      cases hm
    · rw [hunmapped p hp] at hm
      cases hm
    · show mm.mapped _ = b.unpack.bits i
      rw [hunmapped _ ⟨Nat.le_add_right _ _, Nat.add_lt_add_left hi _⟩,
        hbits i (Nat.zero_le i) (by omega)]
  · rw [hlive]
    exact List.forall_mem_nil _
  · rw [hlive]
    exact List.Pairwise.nil
  · rw [harea]
    show b.unpack.bits i = true ↔ _
    rw [hbits i (Nat.zero_le i) (by omega)]
    refine iff_of_false Bool.noConfusion ?_
    rintro ⟨r, hr, -⟩
    rw [hlive] at hr
    cases hr

/-- The invariant holds in every run. -/
theorem systemPteSystem_inv {t : List (SystemPteEvent × SystemPteMachine)}
    (h : systemPteSystem.Run t m) : m.Inv ∧ ∀ l ∈ t, AllocationExact l := by
  induction h with
  | start hinit => exact ⟨.start hinit, List.forall_mem_nil _⟩
  | @step t m l m' _ hstep ih =>
    obtain ⟨e, m₀⟩ := l
    obtain ⟨hm₀, hen, hrun⟩ := hstep
    obtain rfl : m₀ = m := hm₀
    obtain ⟨m₁, hrun₁, hinv, hexact⟩ := ih.1.run hen
    obtain rfl : m₁ = m' := Except.ok.inj (hrun₁.symm.trans hrun)
    exact ⟨hinv, List.forall_mem_cons.mpr ⟨hexact, ih.2⟩⟩

/-- **The system PTEs along a run**: bitmap, live ranges and page tables agree in every state, every
allocation returned what it promises, and every call that is enabled returns. -/
theorem system_ptes_exact {t : List (SystemPteEvent × SystemPteMachine)}
    (h : systemPteSystem.Run t m) : SystemPtesExact m ∧ (∀ l ∈ t, AllocationExact l)
      ∧ ∀ e : SystemPteEvent, e.Enabled m → ∃ m', e.run m = .ok m' := by
  obtain ⟨hinv, hexact⟩ := systemPteSystem_inv h
  refine ⟨hinv.exact, hexact, fun e hen => ?_⟩
  obtain ⟨m', hrun, -⟩ := hinv.run hen
  exact ⟨m', hrun⟩

/-- Three free frames, and no page mapped. -/
def threeFrames : MmState where
  pte _ := .zero
  PfnFreeList := [257, 258, 259]
  PteAddress _ := 0
  RefCount _ := 0

/-- Two pages out of three frames. -/
theorem system_ptes_exact_two : ∃ m m', systemPteSystem.Run [(.allocate 2, m)] m'
    ∧ SystemPtesExact m' ∧ (∀ l ∈ [(SystemPteEvent.allocate 2, m)], AllocationExact l)
    ∧ ∀ e : SystemPteEvent, e.Enabled m' → ∃ m'', e.run m' = .ok m'' := by
  obtain ⟨b, hb, -⟩ := Words.bmBitmapCreateInBuffer_eq systemPteCount fun _ => 0
  have hinit : systemPteSystem.init ⟨⟨b, threeFrames⟩, []⟩ := by
    refine ⟨rfl, fun _ => 0, threeFrames, ?_, by decide, by decide, fun _ _ => rfl⟩
    rw [Frames.mmInitializeSystemPtes, hb]
    rfl
  have hen : (SystemPteEvent.allocate 2).Enabled ⟨⟨b, threeFrames⟩, []⟩ :=
    ⟨by decide, fun _ => (show 2 ≤ threeFrames.PfnFreeList.length by decide)⟩
  obtain ⟨m', hrun, -⟩ := (SystemPteMachine.Inv.start hinit).run hen
  have hgo : systemPteSystem.Run [(.allocate 2, ⟨⟨b, threeFrames⟩, []⟩)] m' :=
    (System.Run.start hinit).step ⟨rfl, hen, hrun⟩
  exact ⟨_, m', hgo, system_ptes_exact hgo⟩

end KaushOS
