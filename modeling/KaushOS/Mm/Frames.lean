import KaushOS.Inc.BitmapWords
import KaushOS.Mm.Pool
import KaushOS.Mm.Ptes

/-! # Frames behind the pages (`kern/mm/mm.c`)

`MmVirtualAlloc` takes a frame off the free list for every page and stores it in the PTE of the page;
`MmVirtualFree` counts the references of the frames down and gives them back. The routines of
`KaushOS.Mm.Ptes` are translated here once more, with the frames, the page tables and the words of
the bitmap.

* **`MmState`** — the page tables of the kernel half, which exist since boot, and the PFN database.
* **`Frames.mmVirtualAlloc`, `Frames.mmVirtualFree`** — mapping and unmapping pages.
* **`FramesOwned`** — every mapped page of a window has a frame of its own.
* **`SystemArea`** — the system PTEs with their frames, and `SystemArea.forget`, the view of them in
  `KaushOS.Mm.Ptes`. -/

namespace KaushOS

/-! ## Page tables and frames -/

/-- `MMPTE`: the bits that the code reads or stores. -/
structure MMPTE where
  Valid : Bool
  Writable : Bool
  UserPriv : Bool
  PageFrameNumber : Nat
  deriving DecidableEq, Repr

/-- `u.Long = 0`. -/
def MMPTE.zero : MMPTE := ⟨false, false, false, 0⟩

/-- `PTE_P`. -/
def PTE_P : Nat := 1

/-- `PTE_W`. -/
def PTE_W : Nat := 2

/-- `MiPFNtoPhysicalAddress(pPfn) | Perm | PTE_P`. -/
def MMPTE.make (frame perm : Nat) : MMPTE where
  Valid := true
  Writable := perm.testBit 1
  UserPriv := perm.testBit 2
  PageFrameNumber := frame

/-- **Page tables and frames.** `pte` is the PTE of each page number. Frames have numbers; `PteAddress`
is the page whose PTE a frame was allocated for. -/
structure MmState where
  pte : Nat → MMPTE
  PfnFreeList : List Nat
  PteAddress : Nat → Nat
  RefCount : Nat → Nat

/-- `Pte->u.Hard.Valid` of a page. -/
def MmState.mapped (s : MmState) (page : Nat) : Bool := (s.pte page).Valid

namespace Frames

/-- `MmAllocatePFN(pfn, PteAddress)`; `none` is `STATUS_NO_MEMORY`. -/
def mmAllocatePFN (page : Nat) (s : MmState) : Option Nat × MmState :=
  match s.PfnFreeList with
  | [] => (none, s)
  | pfn :: rest =>
    (some pfn,
      { s with PfnFreeList := rest, PteAddress := Function.update s.PteAddress pfn page })

/-- `MiFreePFN(pfn)`. -/
def miFreePFN (pfn : Nat) (s : MmState) : Kernel MmState := do
  assert (s.RefCount pfn = 0) "pfn->RefCount == 0"
  return { s with PfnFreeList := pfn :: s.PfnFreeList }

/-- `MiIncReferencePFN(x)`. -/
def miIncReferencePFN (pfn : Nat) (s : MmState) : MmState :=
  { s with RefCount := Function.update s.RefCount pfn (ulongAdd (s.RefCount pfn) 1) }

/-- `MiDecReferencePFN(pfn)`. -/
def miDecReferencePFN (pfn : Nat) (s : MmState) : Kernel MmState :=
  let count := ulongSub (s.RefCount pfn) 1
  let s := { s with RefCount := Function.update s.RefCount pfn count }
  if count = 0 then miFreePFN pfn s else .ok s

/-- Store to a PTE. -/
def setPte (page : Nat) (pte : MMPTE) (s : MmState) : MmState :=
  { s with pte := Function.update s.pte page pte }

/-- `MiRemovePage(PageDirectory, Address)` in the current page directory. -/
def miRemovePage (page : Nat) (s : MmState) : Kernel MmState :=
  if (s.pte page).Valid = false then keBugCheck "Trying to remove an unmapped page\n"
  else do
    let s ← miDecReferencePFN (s.pte page).PageFrameNumber s
    return setPte page .zero s

/-- `MiInsertPage(PageDirectory, Address, pPfn, Perm)` in the current page directory, for a page of
the kernel half. -/
def miInsertPage (page pfn perm : Nat) (s : MmState) : Kernel MmState :=
  if (s.pte page).PageFrameNumber = pfn then .ok s
  else do
    let s ← if s.pte page ≠ .zero then miRemovePage page s else pure s
    return miIncReferencePFN pfn (setPte page (.make pfn perm) s)

/-- The loop of `MmVirtualAlloc`; the assertion is about the status of `MmAllocatePFN`. -/
def virtualAllocLoop (perm : Nat) : Nat → Nat → MmState → Kernel MmState
  | 0, _, s => .ok s
  | n + 1, page, s =>
    match mmAllocatePFN page s with
    | (none, _) => .error (.assertion "success(status)")
    | (some pfn, s) => do
      let s ← miInsertPage page pfn perm s
      virtualAllocLoop perm n (page + 1) s

/-- `MmVirtualAlloc(VirtualAddress, size, perm)` for whole pages. -/
def mmVirtualAlloc (address pageCount perm : Nat) (s : MmState) : Kernel MmState :=
  virtualAllocLoop perm pageCount (address / PGSIZE) s

/-- The loop of `MmVirtualFree`. -/
def virtualFreeLoop : Nat → Nat → MmState → Kernel MmState
  | 0, _, s => .ok s
  | n + 1, page, s => do
    let s ← miRemovePage page s
    virtualFreeLoop n (page + 1) s

/-- `MmVirtualFree(VirtualAddress, size)` for whole pages. -/
def mmVirtualFree (address pageCount : Nat) (s : MmState) : Kernel MmState :=
  virtualFreeLoop pageCount (address / PGSIZE) s

end Frames

/-! ## System PTEs -/

/-- `MiSystemPteBitmap`, the page tables and the frames. -/
structure SystemArea where
  bitmap : Words.BITMAP
  mm : MmState

namespace Frames

/-- `MmInitializeSystemPtes()`; `buffer` is what the buffer from `MiInitBootAlloc` holds. -/
def mmInitializeSystemPtes (buffer : Nat → BitVec 32) (mm : MmState) : Kernel SystemArea := do
  let bitmap ← Words.bmBitmapCreateInBuffer systemPteCount buffer
  return ⟨bitmap, mm⟩

/-- `MmAllocateSystemPtes(NumberOfPages)`; `none` is `NULL`. -/
def mmAllocateSystemPtes (numberOfPages : Nat) (s : SystemArea) :
    Kernel (Option Nat × SystemArea) := do
  let (pageIndex, bitmap) ← Words.bmBitmapScanAndFlip s.bitmap 0 numberOfPages false
  match pageIndex with
  | none => return (none, { s with bitmap })
  | some pageIndex => do
    let memory := MMSYSPTE_START + PGSIZE * pageIndex
    let mm ← mmVirtualAlloc memory numberOfPages PTE_W s.mm
    return (some memory, { bitmap, mm })

/-- `MmFreeSystemPtes(Address, NumberOfPages)`. -/
def mmFreeSystemPtes (address numberOfPages : Nat) (s : SystemArea) : Kernel SystemArea := do
  assert (address ≥ MMSYSPTE_START) "(ULONG_PTR)Address >= (MMSYSPTE_START)"
  assert (address < MMSYSPTE_END) "(ULONG_PTR)Address < (MMSYSPTE_END)"
  assert (address % PGSIZE = 0) "IsPageAlignedAddress(Address)"
  let start := (address - MMSYSPTE_START) / PGSIZE
  let bitmap ← Words.bmBitmapSetMultiple s.bitmap start numberOfPages false
  let mm ← mmVirtualFree address numberOfPages s.mm
  return { bitmap, mm }

end Frames

/-- **The system PTEs without frames and words.** -/
def SystemArea.forget (s : SystemArea) : SystemPtes := ⟨s.bitmap.unpack, s.mm.mapped⟩

/-! ## Pages with frames of their own -/

/-- **Every mapped page of the window `W` has a frame of its own**: no other page of the window has
it, its only reference is this page, and it is not on the free list. -/
structure FramesOwned (W : Set Nat) (s : MmState) : Prop where
  nodup : s.PfnFreeList.Nodup
  free : ∀ f ∈ s.PfnFreeList, s.RefCount f = 0 ∧ f ≠ 0
  unmapped : ∀ p ∈ W, s.mapped p = false → s.pte p = .zero
  referred : ∀ p ∈ W, s.mapped p = true → s.RefCount (s.pte p).PageFrameNumber = 1
    ∧ (s.pte p).PageFrameNumber ≠ 0
  injective : ∀ p ∈ W, ∀ q ∈ W, s.mapped p = true → s.mapped q = true →
    (s.pte p).PageFrameNumber = (s.pte q).PageFrameNumber → p = q

variable {W : Set Nat} {s : MmState} {page n pfn : Nat} {rest : List Nat}

/-- A frame with a reference is not free. -/
theorem FramesOwned.not_free (h : FramesOwned W s) (hp : page ∈ W) (hmapped : s.mapped page = true) :
    (s.pte page).PageFrameNumber ∉ s.PfnFreeList := by
  intro hfree
  have hzero := (h.free _ hfree).1
  rw [(h.referred page hp hmapped).1] at hzero
  cases hzero

/-- **A page of the window is mapped** to the first free frame. -/
theorem FramesOwned.insert (h : FramesOwned W s) (hp : page ∈ W) (hmapped : s.mapped page = false)
    (hlist : s.PfnFreeList = pfn :: rest) (perm : Nat) :
    ∃ s', Frames.miInsertPage page pfn perm (Frames.mmAllocatePFN page s).2 = .ok s'
      ∧ (Frames.mmAllocatePFN page s).1 = some pfn ∧ FramesOwned W s'
      ∧ s'.mapped = Function.update s.mapped page true ∧ s'.PfnFreeList = rest := by
  have hzero := h.unmapped page hp hmapped
  obtain ⟨href, hne⟩ := h.free pfn (hlist ▸ List.mem_cons_self ..)
  have hnodup := List.nodup_cons.mp (hlist ▸ h.nodup)
  let s' : MmState :=
    { pte := Function.update s.pte page (.make pfn perm)
      PfnFreeList := rest
      PteAddress := Function.update s.PteAddress pfn page
      RefCount := Function.update s.RefCount pfn 1 }
  have hpte : ∀ q, s'.pte q = if q = page then .make pfn perm else s.pte q :=
    fun q => Function.update_apply ..
  have hvalid : s'.mapped = Function.update s.mapped page true := by
    funext q
    show (s'.pte q).Valid = _
    rw [hpte q, Function.update_apply]
    split <;> rfl
  have hold : ∀ q, q ≠ page → s'.pte q = s.pte q ∧ s'.mapped q = s.mapped q := fun q hq => by
    rw [hpte q, if_neg hq, hvalid, Function.update_of_ne hq]
    exact ⟨rfl, rfl⟩
  -- the frames of the other pages are not free, so none of them is `pfn`
  have hother : ∀ q ∈ W, s.mapped q = true → (s.pte q).PageFrameNumber ≠ pfn := by
    intro q hq hqm heq
    refine h.not_free hq hqm ?_
    rw [heq, hlist]
    exact List.mem_cons_self ..
  have hnew : (s'.pte page).PageFrameNumber = pfn := by
    rw [hpte page, if_pos rfl]
    rfl
  refine ⟨s', ?_, ?_, ⟨hnodup.2, fun f hf => ?_, fun q hq hqm => ?_, fun q hq hqm => ?_,
    fun q hq r hr hqm hrm heq => ?_⟩, hvalid, rfl⟩
  · have hskip : (s.pte page).PageFrameNumber ≠ pfn := by
      rw [hzero]
      exact fun heq => hne heq.symm
    have halloc : (Frames.mmAllocatePFN page s).2 = { s with
        PfnFreeList := rest, PteAddress := Function.update s.PteAddress pfn page } := by
      unfold Frames.mmAllocatePFN
      rw [hlist]
    rw [halloc, Frames.miInsertPage, if_neg hskip, if_neg (not_not_intro hzero)]
    have hcount : ulongAdd (s.RefCount pfn) 1 = 1 := by
      rw [href]
      rfl
    show Except.ok (Frames.miIncReferencePFN pfn (Frames.setPte page (.make pfn perm) { s with
      PfnFreeList := rest, PteAddress := Function.update s.PteAddress pfn page })) = .ok s'
    unfold Frames.miIncReferencePFN Frames.setPte
    simp only [hcount]
    rfl
  · unfold Frames.mmAllocatePFN
    rw [hlist]
  · have hfp : f ≠ pfn := fun heq => hnodup.1 (heq ▸ hf)
    have hf' := h.free f (hlist ▸ List.mem_cons_of_mem _ hf)
    exact ⟨(Function.update_of_ne hfp ..).trans hf'.1, hf'.2⟩
  · by_cases hqp : q = page
    · subst hqp
      rw [hvalid, Function.update_self] at hqm
      cases hqm
    · rw [(hold q hqp).1]
      exact h.unmapped q hq ((hold q hqp).2 ▸ hqm)
  · by_cases hqp : q = page
    · subst hqp
      rw [hnew]
      exact ⟨Function.update_self .., hne⟩
    · rw [(hold q hqp).2] at hqm
      rw [(hold q hqp).1]
      have hq' := h.referred q hq hqm
      exact ⟨(Function.update_of_ne (hother q hq hqm) ..).trans hq'.1, hq'.2⟩
  · by_cases hqp : q = page <;> by_cases hrp : r = page
    · exact hqp.trans hrp.symm
    · rw [(hold r hrp).2] at hrm
      rw [hqp, hnew, (hold r hrp).1] at heq
      exact absurd heq.symm (hother r hr hrm)
    · rw [(hold q hqp).2] at hqm
      rw [hrp, hnew, (hold q hqp).1] at heq
      exact absurd heq (hother q hq hqm)
    · rw [(hold q hqp).2] at hqm
      rw [(hold r hrp).2] at hrm
      rw [(hold q hqp).1, (hold r hrp).1] at heq
      exact h.injective q hq r hr hqm hrm heq

/-- **A mapped page of the window is unmapped**, and its frame is free again. -/
theorem FramesOwned.remove (h : FramesOwned W s) (hp : page ∈ W) (hmapped : s.mapped page = true) :
    ∃ s', Frames.miRemovePage page s = .ok s' ∧ FramesOwned W s'
      ∧ s'.mapped = Function.update s.mapped page false
      ∧ s'.PfnFreeList.length = s.PfnFreeList.length + 1 := by
  obtain ⟨href, hne⟩ := h.referred page hp hmapped
  have hfree := h.not_free hp hmapped
  let f := (s.pte page).PageFrameNumber
  let s' : MmState :=
    { pte := Function.update s.pte page .zero
      PfnFreeList := f :: s.PfnFreeList
      PteAddress := s.PteAddress
      RefCount := Function.update s.RefCount f 0 }
  have hpte : ∀ q, s'.pte q = if q = page then .zero else s.pte q :=
    fun q => Function.update_apply ..
  have hvalid : s'.mapped = Function.update s.mapped page false := by
    funext q
    show (s'.pte q).Valid = _
    rw [hpte q, Function.update_apply]
    split <;> rfl
  have hold : ∀ q, q ≠ page → s'.pte q = s.pte q ∧ s'.mapped q = s.mapped q := fun q hq => by
    rw [hpte q, if_neg hq, hvalid, Function.update_of_ne hq]
    exact ⟨rfl, rfl⟩
  have hgone : ∀ q, s'.mapped q = true → q ≠ page := by
    rintro q hqm rfl
    rw [hvalid, Function.update_self] at hqm
    cases hqm
  refine ⟨s', ?_, ⟨List.nodup_cons.mpr ⟨hfree, h.nodup⟩, fun g hg => ?_, fun q hq hqm => ?_,
    fun q hq hqm => ?_, fun q hq r hr hqm hrm heq => ?_⟩, hvalid, rfl⟩
  · have hv : (s.pte page).Valid ≠ false := by
      show s.mapped page ≠ false
      rw [hmapped]
      exact Bool.noConfusion
    have hcount : ulongSub (s.RefCount f) 1 = 0 := by
      rw [href]
      rfl
    have hdec : Frames.miDecReferencePFN f s = .ok { s with
        RefCount := Function.update s.RefCount f 0, PfnFreeList := f :: s.PfnFreeList } := by
      unfold Frames.miDecReferencePFN
      simp only [hcount, ↓reduceIte]
      rw [Frames.miFreePFN, assert_of_true (Function.update_self ..)]
      rfl
    rw [Frames.miRemovePage, if_neg hv, hdec]
    rfl
  · rcases List.mem_cons.mp hg with rfl | hg
    · exact ⟨Function.update_self .., hne⟩
    · have hgf : g ≠ f := fun heq => hfree (show f ∈ s.PfnFreeList from heq ▸ hg)
      exact ⟨(Function.update_of_ne hgf ..).trans (h.free g hg).1, (h.free g hg).2⟩
  · by_cases hqp : q = page
    · rw [hpte q, if_pos hqp]
    · rw [(hold q hqp).1]
      exact h.unmapped q hq ((hold q hqp).2 ▸ hqm)
  · have hqp := hgone q hqm
    rw [(hold q hqp).2] at hqm
    rw [(hold q hqp).1]
    have hq' := h.referred q hq hqm
    have hne' : (s.pte q).PageFrameNumber ≠ f := fun heq =>
      hqp (h.injective q hq page hp hqm hmapped heq)
    exact ⟨(Function.update_of_ne hne' ..).trans hq'.1, hq'.2⟩
  · have hqp := hgone q hqm
    have hrp := hgone r hrm
    rw [(hold q hqp).2] at hqm
    rw [(hold r hrp).2] at hrm
    rw [(hold q hqp).1, (hold r hrp).1] at heq
    exact h.injective q hq r hr hqm hrm heq

/-! ## Ranges of pages -/

/-- **`MmVirtualAlloc` maps unmapped pages of the window** when there are frames for them. -/
theorem FramesOwned.allocate (h : FramesOwned W s) (hW : ∀ i, page ≤ i → i < page + n → i ∈ W)
    (hmapped : AllIn s.mapped page n false) (hframes : n ≤ s.PfnFreeList.length) (perm : Nat) :
    ∃ s', Frames.virtualAllocLoop perm n page s = .ok s' ∧ FramesOwned W s'
      ∧ s'.mapped = fillRange s.mapped page n true
      ∧ s'.PfnFreeList.length + n = s.PfnFreeList.length := by
  induction n generalizing page s with
  | zero => exact ⟨s, rfl, h, fillRange_zero.symm, rfl⟩
  | succ n ih =>
    obtain ⟨pfn, rest, hlist⟩ : ∃ pfn rest, s.PfnFreeList = pfn :: rest := by
      cases hl : s.PfnFreeList with
      | nil =>
        rw [hl] at hframes
        exact absurd hframes (Nat.not_succ_le_zero n)
      | cons pfn rest => exact ⟨pfn, rest, rfl⟩
    obtain ⟨s₁, hins, halloc, h₁, hmap₁, hrest⟩ := h.insert
      (hW page (Nat.le_refl _) (by omega)) (hmapped page (Nat.le_refl _) (by omega)) hlist perm
    have hlength : s.PfnFreeList.length = s₁.PfnFreeList.length + 1 := by
      rw [hlist, hrest, List.length_cons]
    have hmapped₁ : AllIn s₁.mapped (page + 1) n false := by
      intro i hlo hhi
      rw [hmap₁, Function.update_of_ne (show i ≠ page by omega)]
      exact hmapped i (by omega) (by omega)
    obtain ⟨s₂, hrun, h₂, hmap₂, hlength₂⟩ := ih h₁ (fun i hlo hhi => hW i (by omega) (by omega))
      hmapped₁ (by omega)
    refine ⟨s₂, ?_, h₂, ?_, by omega⟩
    · rw [Frames.virtualAllocLoop]
      have hsplit : Frames.mmAllocatePFN page s = (some pfn, (Frames.mmAllocatePFN page s).2) :=
        Prod.ext halloc rfl
      rw [hsplit]
      show (Frames.miInsertPage page pfn perm (Frames.mmAllocatePFN page s).2 >>= _) = _
      rw [hins]
      exact hrun
    · rw [hmap₂, hmap₁, fillRange_succ]

/-- **`MmVirtualFree` unmaps mapped pages of the window.** -/
theorem FramesOwned.free_range (h : FramesOwned W s) (hW : ∀ i, page ≤ i → i < page + n → i ∈ W)
    (hmapped : AllIn s.mapped page n true) :
    ∃ s', Frames.virtualFreeLoop n page s = .ok s' ∧ FramesOwned W s'
      ∧ s'.mapped = fillRange s.mapped page n false
      ∧ s'.PfnFreeList.length = s.PfnFreeList.length + n := by
  induction n generalizing page s with
  | zero => exact ⟨s, rfl, h, fillRange_zero.symm, rfl⟩
  | succ n ih =>
    obtain ⟨s₁, hrem, h₁, hmap₁, hlength⟩ :=
      h.remove (hW page (Nat.le_refl _) (by omega)) (hmapped page (Nat.le_refl _) (by omega))
    have hmapped₁ : AllIn s₁.mapped (page + 1) n true := by
      intro i hlo hhi
      rw [hmap₁, Function.update_of_ne (show i ≠ page by omega)]
      exact hmapped i (by omega) (by omega)
    obtain ⟨s₂, hrun, h₂, hmap₂, hlength₂⟩ :=
      ih h₁ (fun i hlo hhi => hW i (by omega) (by omega)) hmapped₁
    refine ⟨s₂, ?_, h₂, ?_, by omega⟩
    · rw [Frames.virtualFreeLoop, hrem]
      exact hrun
    · rw [hmap₂, hmap₁, fillRange_succ]

end KaushOS
