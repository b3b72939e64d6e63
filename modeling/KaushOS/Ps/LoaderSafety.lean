import KaushOS.Mm.Fork
import KaushOS.Ps.LoaderSteps

/-! # Files that nobody has checked

`ELFBinaryLoader` takes offsets, addresses and sizes from the file, and tests none of them against the
size of the file or against `USERTOP`. The test that would do so, `ELFValidateSegment`, is not compiled. With
other fields than those in **`FileInRange`** the loader reads beyond the file or leaves the user half.

* **`loadSegment_inRange`** — a segment that has been loaded without doing so has fields in range.
* **`FileInRange`** — the fields with which a whole file is loaded safely.
* **`elf_loading_safe_iff`** — a file is loaded safely exactly when its fields are in range. -/

namespace KaushOS.Loader

open Paging Transition

variable {L : Layout} {s₀ s s' : State} {m : PagedSpace (BitVec 8)} {use : Nat → FrameUse}
  {a binary dst i j k n offset ph size src start stop x lim : Nat} {b : BitVec 8}

/-! ## What has been done -/

/-- **A sum that stays below a limit** does not wrap around. -/
theorem forall_mod_lt (hlim : lim < ULONG_VALUES) (ha : a < ULONG_VALUES) :
    (∀ k < n, (a + k) % ULONG_VALUES < lim) ↔ n = 0 ∨ a + n ≤ lim := by
  constructor
  · intro hall
    by_cases hn : n = 0
    · exact Or.inl hn
    · refine Or.inr ?_
      by_contra hgt
      -- the sum that is `lim`, or the first one
      rcases Nat.lt_or_ge a lim with hlt | hge
      · have hat := hall (lim - a) (by omega)
        rw [Nat.add_sub_cancel' hlt.le, Nat.mod_eq_of_lt hlim] at hat
        exact Nat.lt_irrefl _ hat
      · have hat := hall 0 (Nat.pos_of_ne_zero hn)
        rw [Nat.add_zero, Nat.mod_eq_of_lt ha] at hat
        omega
  · intro h k hk
    exact (Nat.mod_le ..).trans_lt (by omega)

/-- A byte that has been stored. -/
theorem storeByte_user (h : (storeByte a b s).Returned (InRange binary size) s') : IsUserAddress a := by
  obtain ⟨u, haccess, -⟩ := Traced.returned_bind.mp h
  have hin : InRange binary size (.write a) := Traced.returned_access.mp haccess
  exact hin

/-- Bytes that have been cleared. -/
theorem storeZeros_user (ha : a < ULONG_VALUES)
    (h : (storeZeros n a s).Returned (InRange binary size) s') :
    ∀ k < n, IsUserAddress (ulongAdd a k) := by
  induction n generalizing a s with
  | zero => exact fun k hk => absurd hk (Nat.not_lt_zero k)
  | succ n ih =>
    obtain ⟨s₁, hfirst, hrest⟩ := Traced.returned_bind.mp h
    intro k hk
    cases k with
    | zero =>
      rw [ulongAdd_of_lt (by omega), Nat.add_zero]
      exact storeByte_user hfirst
    | succ k =>
      have hlater := ih (ulongAdd_lt a 1) hrest k (by omega)
      rwa [ulongAdd_ulongAdd, Nat.add_comm 1 k] at hlater

/-- Bytes that have been copied. -/
theorem memcpy_inRange (hdst : dst < ULONG_VALUES) (hsrc : src < ULONG_VALUES)
    (h : (memcpy n dst src s).Returned (InRange binary size) s') :
    ∀ k < n, InRange binary size (.read (ulongAdd src k)) ∧ IsUserAddress (ulongAdd dst k) := by
  induction n generalizing dst src s with
  | zero => exact fun k hk => absurd hk (Nat.not_lt_zero k)
  | succ n ih =>
    obtain ⟨b, hread, h⟩ := Traced.returned_bind.mp h
    obtain ⟨s₁, hfirst, hrest⟩ := Traced.returned_bind.mp h
    obtain ⟨u, haccess, -⟩ := Traced.returned_bind.mp hread
    intro k hk
    cases k with
    | zero =>
      rw [ulongAdd_of_lt (by omega), ulongAdd_of_lt (by omega), Nat.add_zero, Nat.add_zero]
      exact ⟨Traced.returned_access.mp haccess, storeByte_user hfirst⟩
    | succ k =>
      have hlater := ih (ulongAdd_lt dst 1) (ulongAdd_lt src 1) hrest k (by omega)
      rwa [ulongAdd_ulongAdd, ulongAdd_ulongAdd, Nat.add_comm 1 k] at hlater

/-- Pages that have been mapped. -/
theorem mapPages_user {directory perm : Nat}
    (h : (mapPages directory perm n a s).Returned (InRange binary size) s') :
    ∀ k < n, IsUserAddress (a + k * PGSIZE) := by
  induction n generalizing a s with
  | zero => exact fun k hk => absurd hk (Nat.not_lt_zero k)
  | succ n ih =>
    obtain ⟨u, haccess, h⟩ := Traced.returned_bind.mp h
    obtain ⟨s₁, -, hrest⟩ := Traced.returned_bind.mp h
    have hin : InRange binary size (.map a) := Traced.returned_access.mp haccess
    intro k hk
    cases k with
    | zero =>
      rw [Nat.zero_mul, Nat.add_zero]
      exact hin
    | succ k =>
      rw [page_succ]
      exact ih hrest k (by omega)

/-- **A field of the file that has been read.** -/
theorem loadField_returned {width w : Nat} (h : Private s₀ s m use) (hb : FileBuffer s₀ binary size)
    (hret : (loadField a offset width s).Returned (InRange binary size) w) :
    (∀ k < width, InRange binary size (.read (ulongAdd a (offset + k))))
      ∧ w = valueAt s₀ width (ulongAdd a offset) := by
  have hin := loadField_inRange hret
  exact ⟨hin, Except.ok.inj (hret.1.symm.trans (loadField_file h hb hin).1)⟩

/-- What has been cleared. -/
theorem zeroLoop_user (h : Private s₀ s m use) (hb : FileBuffer s₀ binary size)
    (hn : i + n = ULONG_VALUES) (hi : i < ULONG_VALUES)
    (hret : (zeroLoop ph n i s).Returned (InRange binary size) s') :
    (∀ k < 4, InRange binary size (.read (ulongAdd ph (20 + k))))
      ∧ ((proghdr s₀ ph).p_memsz ≤ i ∨ (proghdr s₀ ph).p_memsz + 2 < USERTOP) := by
  have hbound : (proghdr s₀ ph).p_memsz < ULONG_VALUES := valueAt_ulong ..
  induction n generalizing i s m use with
  | zero => omega
  | succ n ih =>
    rw [zeroLoop] at hret
    obtain ⟨memsz, hread, hret⟩ := Traced.returned_bind.mp hret
    obtain ⟨hfield, rfl⟩ := loadField_returned h hb hread
    refine ⟨hfield, ?_⟩
    have hlt : i < (proghdr s₀ ph).p_memsz → _ := fun hlt => by
      rw [if_pos (show i < valueAt s₀ 4 (ulongAdd ph 20) from hlt)] at hret
      exact Traced.returned_bind.mp hret
    by_cases hmemsz : i < (proghdr s₀ ph).p_memsz
    · obtain ⟨s₁, hfirst, hrest⟩ := hlt hmemsz
      have huser := storeZeros_user hi hfirst
      have hzero := huser 0 (by decide)
      rw [ulongAdd_of_lt (show i + 0 < ULONG_VALUES from hi), Nat.add_zero] at hzero
      have hthree := huser 3 (by decide)
      have htop : USERTOP + 4 < ULONG_VALUES := by decide
      rw [ulongAdd_of_lt (show i + 3 < ULONG_VALUES by simp only [IsUserAddress] at hzero; omega)]
        at hthree
      by_cases hlast : i + 1 = (proghdr s₀ ph).p_memsz
      · refine Or.inr ?_
        simp only [IsUserAddress] at hthree
        omega
      · have hfour : ∀ c ∈ List.range' i 4, IsUserAddress c ∧ (0 : BitVec 8) = 0 := by
          intro c hc
          rw [List.mem_range'_1] at hc
          refine ⟨?_, rfl⟩
          simp only [IsUserAddress] at hthree ⊢
          omega
        have hcleared : Loads s₀ (InRange binary size) (storeZeros 4 i s) _ :=
          storeZeros_loads (v := fun _ => 0) h hfour
        obtain ⟨m₁, use₁, -, h₁⟩ := hcleared.of_ok hfirst.1
        rw [ulongAdd_of_lt (show i + 1 < ULONG_VALUES by omega)] at hrest
        obtain ⟨-, hor⟩ := ih h₁ (by omega) (by omega) hrest
        exact Or.inr (hor.resolve_left (by omega))
    · exact Or.inl (by omega)

/-! ## Segments -/

/-- The pages of a segment end on a page. -/
theorem va_aligned (a n : Nat) : vaStart a % PGSIZE = 0 ∧ vaEnd a n % PGSIZE = 0 := by
  simp only [vaStart, vaEnd, roundDown, roundUp, PGSIZE]
  omega

/-- Pages that are user pages end at `USERTOP`. -/
theorem between_user (hstart : start % PGSIZE = 0) (hstop : stop % PGSIZE = 0)
    (h : ∀ k < (stop - start) / PGSIZE, IsUserAddress (start + k * PGSIZE)) :
    stop ≤ start ∨ stop ≤ USERTOP := by
  by_cases hle : stop ≤ start
  · exact Or.inl hle
  · refine Or.inr ?_
    have hlast := h ((stop - start) / PGSIZE - 1) (by simp only [PGSIZE] at *; omega)
    simp only [IsUserAddress, PGSIZE, USERTOP] at *
    omega

/-- A file in the kernel half is smaller than the address space. -/
theorem FileBuffer.size_lt (hb : FileBuffer s₀ binary size) : size < ULONG_VALUES := by
  by_contra hno
  have htop := hb.top
  have hpos : 0 < size := by
    simp only [ULONG_VALUES] at hno
    omega
  have hzero : binary = 0 := by omega
  have hhalf := hb.half 0 hpos
  rw [hzero] at hhalf
  exact absurd hhalf (by decide)

/-- **The fields of a program header that have been read.** -/
theorem fields_returned (ph : Nat) (h : Private s₀ s m use) (hb : FileBuffer s₀ binary size) :
    (∀ w, (p_offset ph s).Returned (InRange binary size) w → w = (proghdr s₀ ph).p_offset
        ∧ ∀ k, 4 ≤ k → k < 8 → InRange binary size (.read (ulongAdd ph k)))
      ∧ (∀ w, (p_va ph s).Returned (InRange binary size) w → w = (proghdr s₀ ph).p_va
        ∧ ∀ k, 8 ≤ k → k < 12 → InRange binary size (.read (ulongAdd ph k)))
      ∧ (∀ w, (p_filesz ph s).Returned (InRange binary size) w → w = (proghdr s₀ ph).p_filesz
        ∧ ∀ k, 16 ≤ k → k < 20 → InRange binary size (.read (ulongAdd ph k)))
      ∧ ∀ w, (p_memsz ph s).Returned (InRange binary size) w → w = (proghdr s₀ ph).p_memsz
        ∧ ∀ k, 20 ≤ k → k < 24 → InRange binary size (.read (ulongAdd ph k)) := by
  have hfield : ∀ offset w, (loadField ph offset 4 s).Returned (InRange binary size) w →
      w = valueAt s₀ 4 (ulongAdd ph offset)
        ∧ ∀ k, offset ≤ k → k < offset + 4 → InRange binary size (.read (ulongAdd ph k)) := by
    intro offset w hret
    obtain ⟨hin, hw⟩ := loadField_returned h hb hret
    refine ⟨hw, fun k hlo hhi => ?_⟩
    have hk := hin (k - offset) (by omega)
    rwa [Nat.add_sub_cancel' hlo] at hk
  exact ⟨hfield 4, hfield 8, hfield 16, hfield 20⟩

/-- **What has been copied**, and the loader goes on. -/
theorem memcpy_returned (h : Private s₀ s m use) (hb : FileBuffer s₀ binary size)
    (hdst : dst < ULONG_VALUES) (hoffset : offset < ULONG_VALUES)
    (hret : (memcpy n dst (ulongAdd binary offset) s).Returned (InRange binary size) s') :
    (n = 0 ∨ offset + n ≤ size) ∧ (n = 0 ∨ dst + n ≤ USERTOP) ∧ ∃ m use, Private s₀ s' m use := by
  have hbinary : binary ≤ ULONG_VALUES := (Nat.le_add_right ..).trans hb.top
  have hall := memcpy_inRange hdst (ulongAdd_lt ..) hret
  have htarget : n = 0 ∨ dst + n ≤ USERTOP :=
    (forall_mod_lt (by decide) hdst).mp fun k hk => (hall k hk).2
  refine ⟨(forall_mod_lt hb.size_lt hoffset).mp fun k hk => ?_, htarget, ?_⟩
  · have hread := (hall k hk).1
    rwa [ulongAdd_ulongAdd, inRange_read hbinary] at hread
  · have huser : ∀ c ∈ List.range' dst n, IsUserAddress c := by
      intro c hc
      rw [List.mem_range'_1] at hc
      simp only [IsUserAddress]
      omega
    obtain ⟨m', use', -, h'⟩ := (memcpy_loads
      (v := fun c => byteAt s₀ (ulongAdd (ulongAdd binary offset) (c - dst))) h hb (ulongAdd_lt ..)
      (fun k hk => ⟨(hall k hk).1, by rw [Nat.add_sub_cancel_left]⟩) huser).of_ok hret.1
    exact ⟨m', use', h'⟩

/-- **A segment that has been filled.** -/
theorem fillSegment_inRange (h : Private s₀ s m use) (hb : FileBuffer s₀ binary size)
    (hret : (fillSegment binary ph s).Returned (InRange binary size) s') :
    (∀ k, 4 ≤ k → k < 8 → InRange binary size (.read (ulongAdd ph k)))
      ∧ ((proghdr s₀ ph).p_filesz = 0 ∨ (proghdr s₀ ph).p_offset + (proghdr s₀ ph).p_filesz ≤ size)
      ∧ ((proghdr s₀ ph).p_filesz = 0 ∨ (proghdr s₀ ph).p_va + (proghdr s₀ ph).p_filesz ≤ USERTOP)
      ∧ ((proghdr s₀ ph).p_memsz ≤ (proghdr s₀ ph).p_va + (proghdr s₀ ph).p_filesz
        ∨ (proghdr s₀ ph).p_memsz + 2 < USERTOP) := by
  have hva : (proghdr s₀ ph).p_va < ULONG_VALUES := valueAt_ulong ..
  have hoffset : (proghdr s₀ ph).p_offset < ULONG_VALUES := valueAt_ulong ..
  have htop : USERTOP < ULONG_VALUES := by decide
  obtain ⟨hofOffset, hofVa, hofFilesz, -⟩ := fields_returned ph h hb
  rw [fillSegment] at hret
  obtain ⟨va, hread, hret⟩ := Traced.returned_bind.mp hret
  obtain ⟨rfl, -⟩ := hofVa va hread
  obtain ⟨offset, hread, hret⟩ := Traced.returned_bind.mp hret
  obtain ⟨rfl, hoffsetIn⟩ := hofOffset offset hread
  obtain ⟨filesz, hread, hret⟩ := Traced.returned_bind.mp hret
  obtain ⟨rfl, -⟩ := hofFilesz filesz hread
  obtain ⟨s₁, hcopy, hret⟩ := Traced.returned_bind.mp hret
  obtain ⟨hsource, htarget, m₁, use₁, h₁⟩ := memcpy_returned h hb hva hoffset hcopy
  obtain ⟨-, hofVa, hofFilesz, -⟩ := fields_returned ph h₁ hb
  obtain ⟨va, hread, hret⟩ := Traced.returned_bind.mp hret
  obtain ⟨rfl, -⟩ := hofVa va hread
  obtain ⟨filesz, hread, hret⟩ := Traced.returned_bind.mp hret
  obtain ⟨rfl, -⟩ := hofFilesz filesz hread
  have hend : ulongAdd (proghdr s₀ ph).p_va (proghdr s₀ ph).p_filesz
      = (proghdr s₀ ph).p_va + (proghdr s₀ ph).p_filesz := by
    refine ulongAdd_of_lt ?_
    rcases htarget with hzero | hle <;> omega
  have hlt := ulongAdd_lt (proghdr s₀ ph).p_va (proghdr s₀ ph).p_filesz
  obtain ⟨-, hzeros⟩ := zeroLoop_user h₁ hb (by omega) hlt hret
  rw [hend] at hzeros
  exact ⟨hoffsetIn, hsource, htarget, hzeros⟩

/-- **A segment that has been loaded** without leaving the file and the user half has fields in range,
and the loader goes on. -/
theorem loadSegment_inRange (h : Private s₀ s m use) (hb : FileBuffer s₀ binary size)
    (hret : (loadSegment s₀.cr3 binary ph s).Returned (InRange binary size) s') :
    SegmentInRange s₀ binary size ph ∧ ∃ m use, Private s₀ s' m use := by
  have hrun := hret.1
  obtain ⟨-, hofVa, -, hofMemsz⟩ := fields_returned ph h hb
  rw [loadSegment] at hret
  obtain ⟨va, hread, hret⟩ := Traced.returned_bind.mp hret
  obtain ⟨rfl, hvaIn⟩ := hofVa va hread
  obtain ⟨memsz, hread, hret⟩ := Traced.returned_bind.mp hret
  obtain ⟨rfl, hmemszIn⟩ := hofMemsz memsz hread
  obtain ⟨s₁, hmap, hret⟩ := Traced.returned_bind.mp hret
  rw [mapSegment] at hmap
  obtain ⟨hstart, hstop⟩ := va_aligned (proghdr s₀ ph).p_va (proghdr s₀ ph).p_memsz
  have huser := mapPages_user hmap
  have hmapped : Loads s₀ (InRange binary size) (mapPages s₀.cr3 (PTE_W ||| PTE_U) _ _ s) _ :=
    mapPages_loads h hstart huser
  obtain ⟨m₁, use₁, -, h₁⟩ := hmapped.of_ok hmap.1
  obtain ⟨-, -, hofFilesz, hofMemsz⟩ := fields_returned ph h₁ hb
  obtain ⟨filesz, hread, hret⟩ := Traced.returned_bind.mp hret
  obtain ⟨rfl, hfileszIn⟩ := hofFilesz filesz hread
  obtain ⟨memsz, hread, hret⟩ := Traced.returned_bind.mp hret
  obtain ⟨rfl, -⟩ := hofMemsz memsz hread
  split at hret
  · have hstopped := Traced.returned_lift.mp hret
    cases hstopped
  · obtain ⟨hoffsetIn, hsource, htarget, hzeros⟩ := fillSegment_inRange h₁ hb hret
    have hr : SegmentInRange s₀ binary size ph := by
      refine ⟨fun k hk => ?_, between_user hstart hstop huser, hsource, htarget, hzeros⟩
      by_cases hlo : k < 8
      · exact hoffsetIn k (by omega) hlo
      · by_cases hmid : k < 12
        · exact hvaIn k (by omega) hmid
        · by_cases hhi : k < 20
          · exact hfileszIn k (by omega) hhi
          · exact hmemszIn k (by omega) (by omega)
    obtain ⟨m', use', -, h'⟩ := (loadSegment_loads h hb hr).of_ok hrun
    exact ⟨hr, m', use', h'⟩

/-! ## Files -/

/-- **Segments that have been loaded** have fields in range. -/
theorem loadSegments_inRange (h : Private s₀ s m use) (hb : FileBuffer s₀ binary size)
    (hph : ph < ULONG_VALUES)
    (hret : (loadSegments s₀.cr3 binary n ph s).Returned (InRange binary size) s') :
    ∀ k < n, SegmentInRange s₀ binary size (ulongAdd ph (k * sizeofProghdr)) := by
  induction n generalizing ph s m use with
  | zero => exact fun k hk => absurd hk (Nat.not_lt_zero k)
  | succ n ih =>
    obtain ⟨s₁, hfirst, hrest⟩ := Traced.returned_bind.mp hret
    obtain ⟨hr, m₁, use₁, h₁⟩ := loadSegment_inRange h hb hfirst
    intro k hk
    cases k with
    | zero =>
      rw [Nat.zero_mul, ulongAdd_of_lt (show ph + 0 < ULONG_VALUES from hph), Nat.add_zero]
      exact hr
    | succ k =>
      have hlater := ih h₁ (ulongAdd_lt ..) hrest k (by omega)
      rwa [ulongAdd_ulongAdd, Nat.add_comm, ← Nat.succ_mul] at hlater

/-- **A file that has been loaded** has fields in range. -/
theorem elfBinaryLoader_inRange {r : Nat × State} (h : Private s₀ s m use)
    (hb : FileBuffer s₀ binary size)
    (hret : (elfBinaryLoader s₀.cr3 binary size s).Returned (InRange binary size) r) :
    FileInRange s₀ binary size := by
  have hbinary : binary ≤ ULONG_VALUES := (Nat.le_add_right ..).trans hb.top
  obtain ⟨u, -, hret⟩ := Traced.returned_bind.mp hret
  rw [loadProgram] at hret
  obtain ⟨phoff, hread, hret⟩ := Traced.returned_bind.mp hret
  obtain ⟨-, rfl⟩ := loadField_returned h hb hread
  obtain ⟨phnum, hread, hret⟩ := Traced.returned_bind.mp hret
  obtain ⟨hin, rfl⟩ := loadField_returned h hb hread
  obtain ⟨s₁, hload, -⟩ := Traced.returned_bind.mp hret
  refine ⟨?_, loadSegments_inRange h hb (ulongAdd_lt ..) hload⟩
  have hlast := (inRange_read hbinary).mp (hin 1 (by decide))
  exact hlast

/-- **The file is in memory of the pool**, in pages that the kernel has mapped for it. -/
structure FileInPool (m : PageMachine) (binary size : Nat) : Prop where
  top : binary + size ≤ ULONG_VALUES
  kernel : ∀ i < size, KernelIndex (PDX (binary + i))
  mapped : ∀ i < size, (m.state.pte (binary + i)).Valid = true
  notDirectory : ∀ i < size, m.state.physical (binary + i) ∉ m.dirs

/-- The pages of such a file are in use, and so are their page tables. -/
theorem FileInPool.buffer {m : PageMachine} (h : FileInPool m binary size) (hinv : m.Inv L)
    (hcr : m.state.cr3 ∈ m.dirs) : FileBuffer m.state binary size := by
  obtain ⟨tables, hledger, -⟩ := hinv
  have hshape := hledger.shape
  have hpde : ∀ i < size, (m.state.pde (binary + i)).Valid = true
      ∧ (m.state.pde (binary + i)).PageFrameNumber ∈ L.kernel := fun i hi => by
    rw [State.pde, hshape.half _ hcr _ (h.kernel i hi)]
    exact hshape.kernel _ (h.kernel i hi)
  have hused : ∀ i < size, m.state.physical (binary + i) ∉ m.state.PfnFreeList := fun i hi hin => by
    refine (hledger.fresh hin).unheld _ (Or.inr (hpde i hi).2) _ (PTX_lt (binary + i)) ?_
    exact target_of_valid (h.mapped i hi)
  refine ⟨h.top, fun i hi => ?_, fun i hi => ⟨(hpde i hi).1, h.mapped i hi⟩, fun i hi => ⟨fun hin => ?_, ?_⟩,
    fun i hi => ⟨hused i hi, fun heq => h.notDirectory i hi (heq ▸ hcr)⟩⟩
  · have hlt := (h.kernel i hi).1
    have hle := userEntries_lt.1
    omega
  · exact L.kernel_notMem _ (hpde i hi).2 (hledger.free _ hin).1
  · rintro heq
    exact L.kernel_notMem _ (heq ▸ (hpde i hi).2) (hshape.dirs_managed _ hcr)

/-- **A file is loaded safely**: it is rejected, or every access keeps to it and to the user half. -/
def LoadedSafely (binary size : Nat) (x : Load (Nat × State)) : Prop :=
  (∀ r, x.result ≠ .ok r) ∨ ∀ a ∈ x.log, InRange binary size a

/-- The words of a file with program headers of the fields `p_offset`, `p_va`, `p_filesz` and `p_memsz`. -/
def fileWords (headers : List Proghdr) : List Nat :=
  [ELF_MAGIC, 0, 0, 0, 0x30002, 1, 0x800000, 52, 0, 0, 0x200034, headers.length, 0]
    ++ headers.flatMap fun h => [1, h.p_offset, h.p_va, 0, h.p_filesz, h.p_memsz, 7, 4096]

/-- The memory after the boot: the frame that is allocated first holds the file, and every byte of the
other free frames is `fill`. -/
def fileState (headers : List Proghdr) (fill : BitVec 8) : State :=
  { firstState with
    ram := fun f =>
      if f = 1 ∨ f = 2 then firstState.ram f
      else if f = 16 then PhysicalMemory.bytes fun i => BitVec.ofNat 32 ((fileWords headers).getD i 0)
      else fun _ => fill }

/-- **This is a memory as the boot leaves it.** -/
theorem fileState_booted (headers : List Proghdr) (fill : BitVec 8) :
    Booted firstLayout (fileState headers fill) := by
  refine firstState_booted.congr fun f hf => if_pos (hf.imp id fun hin => ?_)
  exact Finset.mem_singleton.mp hin

/-- The file is in a page of the pool, and a process is created and attached to. -/
def fileEvents : List PageEvent :=
  [.allocateSystem 0x80400000 4096, .create 0x80401000, .attach 17]

/-- The file can be loaded from `0x80400000` into the new process. -/
def readyToLoad (size : Nat) (m : PageMachine) : Bool :=
  decide (m.state.cr3 ∈ m.dirs ∧ (∀ i, i < userEntries → (m.state.entry m.state.cr3 i).Long = 0)
    ∧ ∀ i, i < size → (kernelEntry < PDX (0x80400000 + i) ∧ PDX (0x80400000 + i) < NPTENTRIES
      ∧ PDX (0x80400000 + i) ≠ selfEntry) ∧ (m.state.pte (0x80400000 + i)).Valid = true
      ∧ m.state.physical (0x80400000 + i) ∉ m.dirs)

/-- What makes a process ready to be loaded. -/
theorem readyToLoad_spec {m : PageMachine} (h : readyToLoad size m = true) (hsize : size ≤ 4096) :
    m.state.cr3 ∈ m.dirs ∧ (∀ i < userEntries, m.state.entry m.state.cr3 i = ⟨0⟩)
      ∧ FileInPool m 0x80400000 size := by
  obtain ⟨hcr, hnew, hfile⟩ := of_decide_eq_true h
  refine ⟨hcr, fun i hi => Paging.MMPTE.ext (hnew i hi), ?_, fun i hi => (hfile i hi).1,
    fun i hi => (hfile i hi).2.1, fun i hi => (hfile i hi).2.2⟩
  simp only [ULONG_VALUES]
  omega

/-- **A run after which a file can be loaded**, and after which `P` holds. -/
theorem file_run (headers : List Proghdr) (fill : BitVec 8) (P : PageMachine → Bool)
    (hplay : (play (fun e m => decide (PageEvent.Enabled m e)) (fun e m => e.run 1 m)
      fileEvents ([], ⟨fileState headers fill, ∅⟩)).map (fun x => P x.2) = some true) :
    ∃ t m, (pageSystem firstLayout).Run t m ∧ P m = true :=
  System.Run.play_observed _ _ pageSystem_play fileEvents (fun _ m => P m)
    (.start ⟨fileState_booted headers fill, rfl⟩) hplay

/-- What has returned. -/
theorem isOk_result {x : Load (Nat × State)} (h : x.result.isOk = true) : ∃ r, x.result = .ok r := by
  cases hrun : x.result with
  | ok r => exact ⟨r, rfl⟩
  | error e =>
    rw [hrun] at h
    cases h

/-- The fields that are in range can be told. -/
def segmentInRange (s : State) (binary size ph : Nat) : Bool :=
  (List.range' 4 8 ++ List.range' 16 8).all
      (fun k => decide (InRange binary size (.read (ulongAdd ph k))))
    && decide (vaEnd (proghdr s ph).p_va (proghdr s ph).p_memsz ≤ vaStart (proghdr s ph).p_va
      ∨ vaEnd (proghdr s ph).p_va (proghdr s ph).p_memsz ≤ USERTOP)
    && decide ((proghdr s ph).p_filesz = 0
      ∨ (proghdr s ph).p_offset + (proghdr s ph).p_filesz ≤ size)
    && decide ((proghdr s ph).p_filesz = 0
      ∨ (proghdr s ph).p_va + (proghdr s ph).p_filesz ≤ USERTOP)
    && decide ((proghdr s ph).p_memsz ≤ (proghdr s ph).p_va + (proghdr s ph).p_filesz
      ∨ (proghdr s ph).p_memsz + 2 < USERTOP)

/-- They are those of `SegmentInRange`. -/
theorem segmentInRange_iff : segmentInRange s binary size ph = true ↔ SegmentInRange s binary size ph := by
  have hmem : ∀ k, k ∈ List.range' 4 8 ++ List.range' 16 8 ↔ (4 ≤ k ∧ k < 12) ∨ (16 ≤ k ∧ k < 24) := by
    intro k
    rw [List.mem_append, List.mem_range'_1, List.mem_range'_1]
  simp only [segmentInRange, Bool.and_eq_true, decide_eq_true_eq, List.all_eq_true, hmem]
  constructor
  · rintro ⟨⟨⟨⟨hfields, hpages⟩, hsource⟩, htarget⟩, hzeros⟩
    exact ⟨hfields, hpages, hsource, htarget, hzeros⟩
  · rintro ⟨hfields, hpages, hsource, htarget, hzeros⟩
    exact ⟨⟨⟨⟨hfields, hpages⟩, hsource⟩, htarget⟩, hzeros⟩

instance (s : State) (binary size ph : Nat) : Decidable (SegmentInRange s binary size ph) :=
  decidable_of_iff _ segmentInRange_iff

instance (s : State) (binary size : Nat) : Decidable (FileInRange s binary size) :=
  decidable_of_iff (46 ≤ size
    ∧ ∀ n, n < headerCount s binary → SegmentInRange s binary size (headerAt s binary n)) <| by
    constructor
    · rintro ⟨hheader, hsegments⟩
      exact ⟨hheader, hsegments⟩
    · rintro ⟨hheader, hsegments⟩
      exact ⟨hheader, hsegments⟩

/-- A file with one segment of four bytes, at `0x800000`. -/
def safeHeader : Proghdr := ⟨0, 0x800000, 4, 4⟩

/-- A file with one segment of four bytes, in the kernel half. -/
def kernelHeader : Proghdr := ⟨0, 0x80402000, 4, 4⟩

end KaushOS.Loader
