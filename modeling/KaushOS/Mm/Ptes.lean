import KaushOS.Inc.Bitmap

/-! # System and user PTEs (`kern/mm/mm.c`)

Pages of the kernel half of the address space, and pages of the user half of each process, are
handed out by a bitmap search and mapped at once. What is mapped is kept as the set of mapped
pages of an address space; the frames behind the pages, of which there are always enough here, are
not part of this file.

* **`mmVirtualAlloc`, `mmVirtualFree`** — mapping and unmapping a range of pages.
* **`mmAllocateSystemPtes`, `mmFreeSystemPtes`** — pages of the kernel.
* **`mmAllocateUserPtes`, `mmFreeUserPtes`** — pages of the loaded process. -/

namespace KaushOS

/-! ## The layout of the address space -/

/-- `PGSIZE`. -/
def PGSIZE : Nat := 4096

/-- `USERPTEPOOL_START`. -/
def USERPTEPOOL_START : Nat := 0x77C00000

/-- `USERPTEPOOL_END`. -/
def USERPTEPOOL_END : Nat := 0x7FC00000

/-- `MMSYSPTE_START`. -/
def MMSYSPTE_START : Nat := 0x85800000

/-- `MMSYSPTE_END`. -/
def MMSYSPTE_END : Nat := 0x95800000

/-- The number of bits of `MiSystemPteBitmap`: `MMSYSPTE_SIZE / PGSIZE`. -/
def systemPteCount : Nat := 65536

/-- The number of bits that `BmBitmapCreateInBuffer(0, Buffer, PGSIZE)` finds room for behind the
structure itself. -/
def userPteCount : Nat := (PGSIZE - 8) * 8

/-! ## Mapping and unmapping -/

/-- `MmVirtualAlloc(VirtualAddress, size, perm)` for whole pages: they are mapped afterwards. -/
def mmVirtualAlloc (address pageCount : Nat) (mapped : Nat → Bool) : Nat → Bool :=
  fillRange mapped (address / PGSIZE) pageCount true

/-- `MiRemovePage(PageDirectory, Address)` for the page with the number `page`. -/
def miRemovePage (page : Nat) (mapped : Nat → Bool) : Kernel (Nat → Bool) :=
  if mapped page then .ok (Function.update mapped page false)
  else keBugCheck "Trying to remove an unmapped page\n"

/-- The loop of `MmVirtualFree`. -/
def virtualFreeLoop : Nat → Nat → (Nat → Bool) → Kernel (Nat → Bool)
  | 0, _, mapped => .ok mapped
  | n + 1, page, mapped => do
    let mapped ← miRemovePage page mapped
    virtualFreeLoop n (page + 1) mapped

/-- `MmVirtualFree(VirtualAddress, size)` for whole pages. -/
def mmVirtualFree (address pageCount : Nat) (mapped : Nat → Bool) : Kernel (Nat → Bool) :=
  virtualFreeLoop pageCount (address / PGSIZE) mapped

/-! ## System PTEs -/

/-- `MiSystemPteBitmap`, and the pages that are mapped in the kernel half. -/
structure SystemPtes where
  bitmap : BITMAP
  mapped : Nat → Bool

/-- `MmAllocateSystemPtes(NumberOfPages)`; `none` is `NULL`. -/
def mmAllocateSystemPtes (numberOfPages : Nat) (m : SystemPtes) :
    Kernel (Option Nat × SystemPtes) := do
  let (pageIndex, bitmap) ← bmBitmapScanAndFlip m.bitmap 0 numberOfPages false
  match pageIndex with
  | none => return (none, { m with bitmap })
  | some pageIndex =>
    let memory := MMSYSPTE_START + PGSIZE * pageIndex
    return (some memory, { bitmap, mapped := mmVirtualAlloc memory numberOfPages m.mapped })

/-- `MmFreeSystemPtes(Address, NumberOfPages)`. -/
def mmFreeSystemPtes (address numberOfPages : Nat) (m : SystemPtes) : Kernel SystemPtes := do
  assert (address ≥ MMSYSPTE_START) "(ULONG_PTR)Address >= (MMSYSPTE_START)"
  assert (address < MMSYSPTE_END) "(ULONG_PTR)Address < (MMSYSPTE_END)"
  assert (address % PGSIZE = 0) "IsPageAlignedAddress(Address)"
  let start := (address - MMSYSPTE_START) / PGSIZE
  let bitmap ← bmBitmapSetMultiple m.bitmap start numberOfPages false
  let mapped ← mmVirtualFree address numberOfPages m.mapped
  return { bitmap, mapped }

/-! ## User PTEs -/

/-- `MmAllocateUserPtes(Bitmap, NumberOfPages)` in the address space with the pages `mapped`;
`none` is `NULL`. -/
def mmAllocateUserPtes (bitmap : BITMAP) (numberOfPages : Nat) (mapped : Nat → Bool) :
    Kernel (Option Nat × BITMAP × (Nat → Bool)) := do
  let (pageIndex, bitmap) ← bmBitmapScanAndFlip bitmap 0 numberOfPages false
  match pageIndex with
  | none => return (none, bitmap, mapped)
  | some pageIndex =>
    let memory := USERPTEPOOL_START + PGSIZE * pageIndex
    return (some memory, bitmap, mmVirtualAlloc memory numberOfPages mapped)

/-- The loop of assertions in `MmFreeUserPtes`. -/
def testLoop (bitmap : BITMAP) : Nat → Nat → Kernel Unit
  | 0, _ => .ok ()
  | n + 1, i => do
    let set ← bmBitmapTest bitmap i
    assert (set = true) "BmBitmapTest(Bitmap, start + i) == TRUE"
    testLoop bitmap n (i + 1)

/-- `MmFreeUserPtes(Address, Bitmap, NumberOfPages)` in the address space with the pages
`mapped`. -/
def mmFreeUserPtes (address : Nat) (bitmap : BITMAP) (numberOfPages : Nat) (mapped : Nat → Bool) :
    Kernel (BITMAP × (Nat → Bool)) := do
  assert (address ≥ USERPTEPOOL_START) "(ULONG_PTR)Address >= (USERPTEPOOL_START)"
  assert (address < USERPTEPOOL_END) "(ULONG_PTR)Address < (USERPTEPOOL_END)"
  assert (address % PGSIZE = 0) "IsPageAlignedAddress(Address)"
  let start := (address - USERPTEPOOL_START) / PGSIZE
  testLoop bitmap numberOfPages start
  let bitmap ← bmBitmapSetMultiple bitmap start numberOfPages false
  let mapped ← mmVirtualFree address numberOfPages mapped
  return (bitmap, mapped)

/-! ## What the routines do -/

variable {m : SystemPtes} {bitmap : BITMAP} {mapped : Nat → Bool} {i n page address : Nat}

/-- The loop unmaps the whole range, if all of it is mapped. -/
theorem virtualFreeLoop_eq (h : AllIn mapped page n true) :
    virtualFreeLoop n page mapped = .ok (fillRange mapped page n false) := by
  induction n generalizing page mapped with
  | zero => rw [virtualFreeLoop, fillRange_zero]
  | succ n ih =>
    have hfirst : mapped page = true := h page (Nat.le_refl _) (by omega)
    have hrest : AllIn (Function.update mapped page false) (page + 1) n true := by
      intro i hlo hhi
      rw [Function.update_of_ne (show i ≠ page by omega)]
      exact h i (by omega) (by omega)
    rw [virtualFreeLoop, miRemovePage, if_pos hfirst, kernel_ok_bind, ih hrest, fillRange_succ]

/-- The loop of assertions passes when all bits are set. -/
theorem testLoop_eq (hcount : i + n ≤ bitmap.BitCount) (h : AllIn bitmap.bits i n true) :
    testLoop bitmap n i = .ok () := by
  induction n generalizing i with
  | zero => rfl
  | succ n ih =>
    have hfirst : bitmap.bits i = true := h i (Nat.le_refl _) (by omega)
    have hrest : AllIn bitmap.bits (i + 1) n true := fun j hlo hhi => h j (by omega) (by omega)
    rw [testLoop, bmBitmapTest, assert_of_true (show i < bitmap.BitCount by omega)]
    simp only [kernel_ok_bind]
    rw [show (pure (bitmap.bits i) : Kernel Bool) = .ok (bitmap.bits i) from rfl, kernel_ok_bind,
      assert_of_true hfirst, kernel_ok_bind]
    exact ih (by omega) hrest

/-- The page number of an address of the system area. -/
theorem systemPage (i : Nat) :
    (MMSYSPTE_START + PGSIZE * i) / PGSIZE = MMSYSPTE_START / PGSIZE + i := by
  have hpage : MMSYSPTE_START = PGSIZE * (MMSYSPTE_START / PGSIZE) := by decide
  rw [hpage, ← Nat.mul_add, Nat.mul_div_cancel_left _ (by decide),
    Nat.mul_div_cancel_left _ (by decide)]

/-- The page number of an address of the user area. -/
theorem userPage (i : Nat) :
    (USERPTEPOOL_START + PGSIZE * i) / PGSIZE = USERPTEPOOL_START / PGSIZE + i := by
  have hpage : USERPTEPOOL_START = PGSIZE * (USERPTEPOOL_START / PGSIZE) := by decide
  rw [hpage, ← Nat.mul_add, Nat.mul_div_cancel_left _ (by decide),
    Nat.mul_div_cancel_left _ (by decide)]

/-- **An allocation of system pages** returns; what it hands out was free, and is marked and mapped
afterwards. It hands out nothing only if no range is free. -/
theorem mmAllocateSystemPtes_spec (m : SystemPtes) (n : Nat) :
    ∃ memory m', mmAllocateSystemPtes n m = .ok (memory, m')
      ∧ (memory = none → m' = m
        ∧ ∀ j, j + n ≤ m.bitmap.BitCount → ¬ AllIn m.bitmap.bits j n false)
      ∧ ∀ a, memory = some a → ∃ i, a = MMSYSPTE_START + PGSIZE * i
        ∧ i + n ≤ m.bitmap.BitCount ∧ AllIn m.bitmap.bits i n false
        ∧ m' =
          { bitmap := { m.bitmap with bits := fillRange m.bitmap.bits i n true }
            mapped := fillRange m.mapped (MMSYSPTE_START / PGSIZE + i) n true } := by
  obtain ⟨found, b', hrun, hnone, hsome⟩ := bmBitmapScanAndFlip_spec m.bitmap n false
  rw [mmAllocateSystemPtes, hrun, kernel_ok_bind]
  cases found with
  | none =>
    obtain ⟨rfl, hfull⟩ := hnone rfl
    exact ⟨none, _, rfl, fun _ => ⟨rfl, hfull⟩, fun a ha => (by cases ha)⟩
  | some i =>
    obtain ⟨hroom, hfree, -, rfl⟩ := hsome i rfl
    refine ⟨_, _, rfl, fun hn => (by cases hn),
      fun a ha => ⟨i, (Option.some.inj ha).symm, hroom, hfree, ?_⟩⟩
    simp only [mmVirtualAlloc, systemPage, Bool.not_false]

/-- The address of a page of the system area passes the assertions of `MmFreeSystemPtes`. -/
theorem systemAddress (hi : i < systemPteCount) : MMSYSPTE_START + PGSIZE * i < MMSYSPTE_END
    ∧ (MMSYSPTE_START + PGSIZE * i) % PGSIZE = 0
    ∧ (MMSYSPTE_START + PGSIZE * i - MMSYSPTE_START) / PGSIZE = i := by
  refine ⟨?_, ?_, ?_⟩
  · have hend : MMSYSPTE_END = MMSYSPTE_START + PGSIZE * systemPteCount := by decide
    have hlt : PGSIZE * i < PGSIZE * systemPteCount := Nat.mul_lt_mul_of_pos_left hi (by decide)
    omega
  · rw [Nat.add_mul_mod_self_left]
    decide
  · rw [Nat.add_sub_cancel_left, Nat.mul_div_cancel_left _ (by decide)]

/-- **Freeing system pages** that are mapped returns. -/
theorem mmFreeSystemPtes_eq (hn : 0 < n) (hcount : m.bitmap.BitCount = systemPteCount)
    (hroom : i + n ≤ systemPteCount) (hmap : AllIn m.mapped (MMSYSPTE_START / PGSIZE + i) n true) :
    mmFreeSystemPtes (MMSYSPTE_START + PGSIZE * i) n m = .ok
      { bitmap := { m.bitmap with bits := fillRange m.bitmap.bits i n false }
        mapped := fillRange m.mapped (MMSYSPTE_START / PGSIZE + i) n false } := by
  obtain ⟨hhi, haligned, hstart⟩ := systemAddress (i := i) (by omega)
  rw [mmFreeSystemPtes, assert_of_true (Nat.le_add_right _ _), kernel_ok_bind, assert_of_true hhi,
    kernel_ok_bind, assert_of_true haligned, kernel_ok_bind]
  simp only [hstart]
  rw [bmBitmapSetMultiple_eq (by rw [hcount]; exact hroom), kernel_ok_bind, mmVirtualFree,
    systemPage, virtualFreeLoop_eq hmap, kernel_ok_bind]
  rfl

/-- **An allocation of user pages** returns; what it hands out is the first range that was free. -/
theorem mmAllocateUserPtes_spec (bitmap : BITMAP) (n : Nat) (mapped : Nat → Bool) :
    ∃ memory bitmap' mapped', mmAllocateUserPtes bitmap n mapped = .ok (memory, bitmap', mapped')
      ∧ ∀ a, memory = some a → ∃ i, a = USERPTEPOOL_START + PGSIZE * i
        ∧ i + n ≤ bitmap.BitCount ∧ AllIn bitmap.bits i n false
        ∧ (∀ j < i, ¬ AllIn bitmap.bits j n false)
        ∧ bitmap' = { bitmap with bits := fillRange bitmap.bits i n true }
        ∧ mapped' = fillRange mapped (USERPTEPOOL_START / PGSIZE + i) n true := by
  obtain ⟨found, b', hrun, -, hsome⟩ := bmBitmapScanAndFlip_spec bitmap n false
  rw [mmAllocateUserPtes, hrun, kernel_ok_bind]
  cases found with
  | none => exact ⟨none, _, _, rfl, fun a ha => (by cases ha)⟩
  | some i =>
    obtain ⟨hroom, hfree, hfirst, rfl⟩ := hsome i rfl
    refine ⟨_, _, _, rfl, fun a ha =>
      ⟨i, (Option.some.inj ha).symm, hroom, hfree, hfirst, rfl, ?_⟩⟩
    rw [mmVirtualAlloc, userPage]

/-- The loop of assertions passes only when all bits are set. -/
theorem allIn_of_testLoop (hrun : testLoop bitmap n i = .ok ()) :
    (0 < n → i + n ≤ bitmap.BitCount) ∧ AllIn bitmap.bits i n true := by
  induction n generalizing i with
  | zero => exact ⟨fun h => absurd h (Nat.lt_irrefl 0), fun j hlo hhi => absurd hlo (by omega)⟩
  | succ n ih =>
    obtain ⟨set, htest, hrun⟩ := kernel_bind_eq_ok.mp hrun
    obtain ⟨_, hcheck, hrun⟩ := kernel_bind_eq_ok.mp hrun
    obtain ⟨_, hcount, htest⟩ := kernel_bind_eq_ok.mp htest
    have hroom := assert_eq_ok.mp hcount
    have hfirst : bitmap.bits i = true := by
      have hset := assert_eq_ok.mp hcheck
      cases htest
      exact hset
    obtain ⟨hrest, hbits⟩ := ih hrun
    refine ⟨fun _ => ?_, fun j hlo hhi => ?_⟩
    · rcases Nat.eq_zero_or_pos n with rfl | hpos
      · omega
      · have hle := hrest hpos
        omega
    · rcases Nat.eq_or_lt_of_le hlo with rfl | hlt
      · exact hfirst
      · exact hbits j hlt (by omega)

/-- The loop unmaps only what is mapped. -/
theorem allIn_of_virtualFreeLoop {mapped' : Nat → Bool}
    (hrun : virtualFreeLoop n page mapped = .ok mapped') : AllIn mapped page n true := by
  induction n generalizing page mapped with
  | zero => exact fun j hlo hhi => absurd hlo (by omega)
  | succ n ih =>
    obtain ⟨rest, hremove, hrun⟩ := kernel_bind_eq_ok.mp hrun
    unfold miRemovePage at hremove
    split at hremove
    · rename_i hfirst
      cases hremove
      intro j hlo hhi
      rcases Nat.eq_or_lt_of_le hlo with rfl | hlt
      · exact hfirst
      · have hj := ih hrun j hlt (by omega)
        rwa [Function.update_of_ne (show j ≠ page by omega)] at hj
    · cases hremove

/-- The index of a page of the user area. -/
theorem userIndex (i : Nat) : (USERPTEPOOL_START + PGSIZE * i - USERPTEPOOL_START) / PGSIZE = i := by
  rw [Nat.add_sub_cancel_left, Nat.mul_div_cancel_left _ (by decide)]

/-- **Freeing user pages** that are marked and mapped returns. -/
theorem mmFreeUserPtes_eq (hhi : USERPTEPOOL_START + PGSIZE * i < USERPTEPOOL_END)
    (hroom : i + n ≤ bitmap.BitCount) (hbits : AllIn bitmap.bits i n true)
    (hmapped : AllIn mapped (USERPTEPOOL_START / PGSIZE + i) n true) :
    mmFreeUserPtes (USERPTEPOOL_START + PGSIZE * i) bitmap n mapped = .ok
      ({ bitmap with bits := fillRange bitmap.bits i n false },
        fillRange mapped (USERPTEPOOL_START / PGSIZE + i) n false) := by
  have haligned : (USERPTEPOOL_START + PGSIZE * i) % PGSIZE = 0 := by
    rw [Nat.add_mul_mod_self_left]
    decide
  rw [mmFreeUserPtes, assert_of_true (Nat.le_add_right _ _), kernel_ok_bind, assert_of_true hhi,
    kernel_ok_bind, assert_of_true haligned, kernel_ok_bind]
  simp only [userIndex]
  rw [testLoop_eq hroom hbits, kernel_ok_bind, bmBitmapSetMultiple_eq hroom, kernel_ok_bind,
    mmVirtualFree, userPage, virtualFreeLoop_eq hmapped, kernel_ok_bind]
  rfl

/-- **When user pages can be freed**: they lie in the user area, are marked and are mapped. -/
theorem mmFreeUserPtes_ok_iff (hn : 0 < n) :
    (∃ r, mmFreeUserPtes address bitmap n mapped = .ok r)
      ↔ ∃ i, address = USERPTEPOOL_START + PGSIZE * i ∧ address < USERPTEPOOL_END
        ∧ i + n ≤ bitmap.BitCount ∧ AllIn bitmap.bits i n true
        ∧ AllIn mapped (USERPTEPOOL_START / PGSIZE + i) n true := by
  constructor
  · rintro ⟨r, hrun⟩
    obtain ⟨_, hlo, hrun⟩ := kernel_bind_eq_ok.mp hrun
    obtain ⟨_, hhi, hrun⟩ := kernel_bind_eq_ok.mp hrun
    obtain ⟨_, haligned, hrun⟩ := kernel_bind_eq_ok.mp hrun
    obtain ⟨_, htest, hrun⟩ := kernel_bind_eq_ok.mp hrun
    obtain ⟨bitmap', -, hrun⟩ := kernel_bind_eq_ok.mp hrun
    obtain ⟨mapped', hfree, -⟩ := kernel_bind_eq_ok.mp hrun
    have hlo := assert_eq_ok.mp hlo
    have haligned := assert_eq_ok.mp haligned
    obtain ⟨i, rfl⟩ : ∃ i, address = USERPTEPOOL_START + PGSIZE * i := by
      refine ⟨(address - USERPTEPOOL_START) / PGSIZE, ?_⟩
      have hbase : USERPTEPOOL_START % PGSIZE = 0 := by decide
      have hmod : (address - USERPTEPOOL_START) % PGSIZE = 0 := by
        simp only [PGSIZE, USERPTEPOOL_START] at hbase haligned hlo ⊢
        omega
      have hdiv := Nat.div_add_mod (address - USERPTEPOOL_START) PGSIZE
      omega
    rw [userIndex] at htest
    obtain ⟨hroom, hbits⟩ := allIn_of_testLoop htest
    rw [mmVirtualFree, userPage] at hfree
    exact ⟨i, rfl, assert_eq_ok.mp hhi, hroom hn, hbits, allIn_of_virtualFreeLoop hfree⟩
  · rintro ⟨i, rfl, hhi, hroom, hbits, hmapped⟩
    exact ⟨_, mmFreeUserPtes_eq hhi hroom hbits hmapped⟩

/-- What freeing user pages has done when it returns. -/
theorem mmFreeUserPtes_ok {r : BITMAP × (Nat → Bool)} (hn : 0 < n)
    (hrun : mmFreeUserPtes address bitmap n mapped = .ok r) :
    ∃ i, address = USERPTEPOOL_START + PGSIZE * i ∧ i + n ≤ bitmap.BitCount
      ∧ AllIn bitmap.bits i n true
      ∧ r = ({ bitmap with bits := fillRange bitmap.bits i n false },
        fillRange mapped (USERPTEPOOL_START / PGSIZE + i) n false) := by
  obtain ⟨i, rfl, hhi, hroom, hbits, hmapped⟩ := (mmFreeUserPtes_ok_iff hn).mp ⟨r, hrun⟩
  rw [mmFreeUserPtes_eq hhi hroom hbits hmapped] at hrun
  exact ⟨i, rfl, hroom, hbits, (Except.ok.inj hrun).symm⟩

/-! ## Areas of system pages -/

/-- Two areas, each an address and a number of pages, lie apart. -/
def Apart (a b : Nat × Nat) : Prop := a.1 + PGSIZE * a.2 ≤ b.1 ∨ b.1 + PGSIZE * b.2 ≤ a.1

theorem Apart.symm {a b : Nat × Nat} (h : Apart a b) : Apart b a := Or.symm h

/-- **An area that has been handed out**: its pages are marked and mapped. -/
def SystemPtes.Holds (m : SystemPtes) (a : Nat × Nat) : Prop :=
  ∃ i, a.1 = MMSYSPTE_START + PGSIZE * i ∧ i + a.2 ≤ systemPteCount
    ∧ AllIn m.bitmap.bits i a.2 true ∧ AllIn m.mapped (MMSYSPTE_START / PGSIZE + i) a.2 true

/-- Areas lie apart where their page indices do. -/
theorem apart_iff {i j k l : Nat} :
    Apart (MMSYSPTE_START + PGSIZE * i, k) (MMSYSPTE_START + PGSIZE * j, l)
      ↔ i + k ≤ j ∨ j + l ≤ i := by
  have hpos : 0 < PGSIZE := by decide
  have hside : ∀ i j k : Nat,
      MMSYSPTE_START + PGSIZE * i + PGSIZE * k ≤ MMSYSPTE_START + PGSIZE * j ↔ i + k ≤ j := by
    intro i j k
    rw [Nat.add_assoc, ← Nat.mul_add, Nat.add_le_add_iff_left]
    exact Nat.mul_le_mul_left_iff hpos
  exact or_congr (hside i j k) (hside j i l)

/-- **Freeing an area that has been handed out** returns and leaves the other areas alone. -/
theorem mmFreeSystemPtes_holds {a n : Nat} (hn : 0 < n)
    (hcount : m.bitmap.BitCount = systemPteCount) (h : m.Holds (a, n)) :
    ∃ m', mmFreeSystemPtes a n m = .ok m' ∧ m'.bitmap.BitCount = systemPteCount
      ∧ ∀ b, m.Holds b → Apart (a, n) b → m'.Holds b := by
  obtain ⟨i, rfl, hroom, -, hmap⟩ := h
  refine ⟨_, mmFreeSystemPtes_eq hn hcount hroom hmap, hcount, ?_⟩
  rintro ⟨_, l⟩ ⟨j, rfl, hroom', hbits, hmap'⟩ hapart
  have hij : i + n ≤ j ∨ j + l ≤ i := apart_iff.mp hapart
  refine ⟨j, rfl, hroom', hbits.fillRange ?_, hmap'.fillRange ?_⟩
  · exact hij.symm
  · have hpages := hij.symm
    omega

/-- **What an allocation hands out** lies apart from everything that has been handed out. -/
theorem mmAllocateSystemPtes_holds {n : Nat} {m' : SystemPtes} {a : Nat} (hn : 0 < n)
    (hcount : m.bitmap.BitCount = systemPteCount)
    (hrun : mmAllocateSystemPtes n m = .ok (some a, m')) :
    m'.bitmap.BitCount = systemPteCount ∧ m'.Holds (a, n) ∧ (∀ b, m.Holds b → m'.Holds b)
      ∧ ∀ b, 0 < b.2 → m.Holds b → Apart (a, n) b := by
  obtain ⟨memory, m₁, hrun₁, -, hspec⟩ := mmAllocateSystemPtes_spec m n
  rw [hrun₁] at hrun
  cases hrun
  obtain ⟨i, rfl, hroom, hfree, rfl⟩ := hspec a rfl
  have hroom' : i + n ≤ systemPteCount := by rw [← hcount]; exact hroom
  have happart : ∀ j l, 0 < l → AllIn m.bitmap.bits j l true → i + n ≤ j ∨ j + l ≤ i := by
    intro j l hl hbits
    by_contra hno
    -- a page in both areas would be free and marked
    have hset := hbits (max i j) (by omega) (by omega)
    rw [hfree (max i j) (by omega) (by omega)] at hset
    cases hset
  refine ⟨hcount, ⟨i, rfl, hroom', allIn_fillRange, allIn_fillRange⟩, ?_, ?_⟩
  · rintro ⟨_, l⟩ ⟨j, rfl, hl, hbits, hmap⟩
    rcases Nat.eq_zero_or_pos l with rfl | hpos
    · refine ⟨j, rfl, hl, ?_, ?_⟩
      · exact fun k hlo hhi => absurd hhi (by simp only; omega)
      · exact fun k hlo hhi => absurd hhi (by simp only; omega)
    · have hij := happart j l hpos hbits
      refine ⟨j, rfl, hl, hbits.fillRange hij.symm, hmap.fillRange ?_⟩
      simp only
      omega
  · rintro ⟨_, l⟩ hpos ⟨j, rfl, -, hbits, -⟩
    exact apart_iff.mpr (happart j l hpos hbits)

/-- The page at the address is marked. -/
def SystemPtes.Marked (m : SystemPtes) (a : Nat) : Prop :=
  ∃ i, a = MMSYSPTE_START + PGSIZE * i ∧ m.bitmap.bits i = true

/-- A page that is handed out was not marked before. -/
theorem mmAllocateSystemPtes_unmarked {m' : SystemPtes} {a : Nat}
    (hrun : mmAllocateSystemPtes 1 m = .ok (some a, m')) : ¬ m.Marked a := by
  obtain ⟨memory, m₁, hrun₁, -, hspec⟩ := mmAllocateSystemPtes_spec m 1
  rw [hrun₁] at hrun
  cases hrun
  obtain ⟨i, rfl, -, hfree, -⟩ := hspec a rfl
  rintro ⟨j, hj, hset⟩
  obtain rfl : i = j := Nat.eq_of_mul_eq_mul_left (by decide) (Nat.add_left_cancel hj)
  rw [hfree i (Nat.le_refl i) (Nat.lt_succ_self i)] at hset
  cases hset

end KaushOS
