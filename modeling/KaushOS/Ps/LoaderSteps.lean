import KaushOS.Library.PagedImage
import KaushOS.Mm.PrivatePages
import KaushOS.Ps.Loader

/-! # What the loader does, step by step

The loader in a new process, with the file in a buffer in the kernel half. As long as it keeps to the
file and to the user half, the file stays what it is, and the loader does to the pages of the process
what the loading of segments does to a space of pages.

* **`InRange`** — the accesses that keep to the file and to the user half.
* **`FileBuffer`** — the file is in the kernel half, in frames that are in use.
* **`Loads`** — a part of the loader keeps to that and follows the space of pages.
* **`SegmentInRange`** — the fields of a program header with which it does;
  **`loadSegment_loads`** — and then the segment is loaded. -/

namespace KaushOS.Loader

open Paging

/-! ## The file -/

/-- **An access that keeps to the file and to the user half.** -/
def InRange (binary size : Nat) : Access → Prop
  | .read address => ulongSub address binary < size
  | .map address => IsUserAddress address
  | .write address => IsUserAddress address

instance (binary size : Nat) (a : Access) : Decidable (InRange binary size a) := by
  cases a <;> unfold InRange <;> infer_instance

/-- **The file is in a buffer in the kernel half**, whose page tables and pages are in frames that are in
use. -/
structure FileBuffer (s : State) (binary size : Nat) : Prop where
  top : binary + size ≤ ULONG_VALUES
  half : ∀ i < size, userEntries ≤ PDX (binary + i)
  present : ∀ i < size, Present s (binary + i)
  table : ∀ i < size, (s.pde (binary + i)).PageFrameNumber ∉ s.PfnFreeList
    ∧ (s.pde (binary + i)).PageFrameNumber ≠ s.cr3
  page : ∀ i < size, s.physical (binary + i) ∉ s.PfnFreeList ∧ s.physical (binary + i) ≠ s.cr3

/-- The little-endian number of `n` bytes at an address. -/
def valueAt (s : State) : Nat → Nat → Nat
  | 0, _ => 0
  | n + 1, address => (byteAt s address).toNat + 256 * valueAt s n (ulongAdd address 1)

/-- **The fields of a program header** that the loader uses. -/
structure Proghdr where
  p_offset : Nat
  p_va : Nat
  p_filesz : Nat
  p_memsz : Nat
  deriving DecidableEq, Repr

/-- The program header at an address. -/
def proghdr (s : State) (ph : Nat) : Proghdr where
  p_offset := valueAt s 4 (ulongAdd ph 4)
  p_va := valueAt s 4 (ulongAdd ph 8)
  p_filesz := valueAt s 4 (ulongAdd ph 16)
  p_memsz := valueAt s 4 (ulongAdd ph 20)

variable {s₀ s s' : State} {m m' : PagedSpace (BitVec 8)} {use : Nat → FrameUse}
  {a binary dst i j k n offset ph size src x : Nat} {b : BitVec 8} {v : Nat → BitVec 8} {α : Type}
  {P : Access → Prop} {o : Option (PagedSpace (BitVec 8))}

/-! ## Addresses -/

/-- Two additions. -/
theorem ulongAdd_ulongAdd (a b c : Nat) : ulongAdd (ulongAdd a b) c = ulongAdd a (b + c) := by
  simp only [ulongAdd, ULONG_VALUES]
  omega

/-- An addition that does not wrap around. -/
theorem ulongAdd_of_lt {c : Nat} (h : a + c < ULONG_VALUES) : ulongAdd a c = a + c :=
  Nat.mod_eq_of_lt h

/-- A sum is a `ULONG`. -/
theorem ulongAdd_lt (a b : Nat) : ulongAdd a b < ULONG_VALUES := Nat.mod_lt _ (by decide)

/-- What is read at an offset from the file. -/
theorem inRange_read (hb : binary ≤ ULONG_VALUES) :
    InRange binary size (.read (ulongAdd binary x)) ↔ x % ULONG_VALUES < size := by
  have heq : ulongSub (ulongAdd binary x) binary = x % ULONG_VALUES := by
    simp only [ulongSub, ulongAdd, ULONG_VALUES] at *
    omega
  rw [InRange, heq]

/-- The value of `n` bytes has a bound. -/
theorem valueAt_lt (s : State) (n a : Nat) : valueAt s n a < 256 ^ n := by
  induction n generalizing a with
  | zero => exact Nat.one_pos
  | succ n ih =>
    have hbyte := (byteAt s a).isLt
    have hrest := ih (ulongAdd a 1)
    rw [valueAt, Nat.pow_succ]
    omega

/-- The value of four bytes is a `ULONG`. -/
theorem valueAt_ulong (s : State) (a : Nat) : valueAt s 4 a < ULONG_VALUES :=
  (valueAt_lt s 4 a).trans_le (by decide)

/-! ## Reading -/

/-- What is read from the file is at an index in it. -/
theorem FileBuffer.index (hb : FileBuffer s₀ binary size) (ha : a < ULONG_VALUES)
    (hin : InRange binary size (.read a)) : ∃ i < size, a = binary + i := by
  have htop := hb.top
  refine ⟨ulongSub a binary, hin, ?_⟩
  have hlt : ulongSub a binary < size := hin
  simp only [ulongSub, ULONG_VALUES] at *
  omega

/-- **A byte of the file is what it was.** -/
theorem loadByte_file (h : Private s₀ s m use) (hb : FileBuffer s₀ binary size) (ha : a < ULONG_VALUES)
    (hin : InRange binary size (.read a)) :
    (loadByte a s).Returned (InRange binary size) (byteAt s₀ a) := by
  obtain ⟨i, hi, rfl⟩ := hb.index ha hin
  obtain ⟨hpde, hpte, hram⟩ := h.kernel_page (hb.half i hi) (hb.table i hi) (hb.page i hi)
  have hpresent : Present s (binary + i) := by
    rw [Present, hpde, hpte]
    exact hb.present i hi
  rw [loadByte, if_pos hpresent]
  refine Traced.returned_bind.mpr ⟨(), Traced.returned_access.mpr hin, Traced.returned_pure.mpr ?_⟩
  rw [byteAt, byteAt, hram]

/-- The first byte of a range, and the others. -/
theorem inRange_succ (ha : a < ULONG_VALUES)
    (hin : ∀ k < n + 1, InRange binary size (.read (ulongAdd a k))) :
    InRange binary size (.read a) ∧ ∀ k < n, InRange binary size (.read (ulongAdd (ulongAdd a 1) k)) := by
  refine ⟨?_, fun k hk => ?_⟩
  · have hzero := hin 0 (Nat.succ_pos n)
    rwa [ulongAdd_of_lt (by omega), Nat.add_zero] at hzero
  · rw [ulongAdd_ulongAdd, Nat.add_comm 1 k]
    exact hin (k + 1) (by omega)

/-- A number in the file is what it was. -/
theorem loadBytes_file (h : Private s₀ s m use) (hb : FileBuffer s₀ binary size) (ha : a < ULONG_VALUES)
    (hin : ∀ k < n, InRange binary size (.read (ulongAdd a k))) :
    (loadBytes n a s).Returned (InRange binary size) (valueAt s₀ n a) := by
  induction n generalizing a with
  | zero => exact Traced.returned_pure.mpr rfl
  | succ n ih =>
    obtain ⟨hfirst, hin⟩ := inRange_succ ha hin
    have hrest := ih (ulongAdd_lt a 1) hin
    refine Traced.returned_bind.mpr ⟨_, loadByte_file h hb ha hfirst, ?_⟩
    exact Traced.returned_bind.mpr ⟨_, hrest, Traced.returned_pure.mpr rfl⟩

/-- What has been read keeps to the file. -/
theorem loadBytes_inRange {w : Nat} (ha : a < ULONG_VALUES)
    (h : (loadBytes n a s).Returned (InRange binary size) w) :
    ∀ k < n, InRange binary size (.read (ulongAdd a k)) := by
  induction n generalizing a w with
  | zero => exact fun k hk => absurd hk (Nat.not_lt_zero k)
  | succ n ih =>
    obtain ⟨b, hfirst, h⟩ := Traced.returned_bind.mp h
    obtain ⟨rest, hrest, -⟩ := Traced.returned_bind.mp h
    obtain ⟨u, haccess, -⟩ := Traced.returned_bind.mp hfirst
    intro k hk
    cases k with
    | zero =>
      rw [ulongAdd_of_lt (by omega), Nat.add_zero]
      exact Traced.returned_access.mp haccess
    | succ k =>
      have hlater := ih (ulongAdd_lt a 1) hrest k (by omega)
      rwa [ulongAdd_ulongAdd, Nat.add_comm 1 k] at hlater

/-- **A field that has been read**, at an offset from an address. -/
theorem loadField_file {width : Nat} (h : Private s₀ s m use) (hb : FileBuffer s₀ binary size)
    (hin : ∀ k < width, InRange binary size (.read (ulongAdd a (offset + k)))) :
    (loadField a offset width s).Returned (InRange binary size)
      (valueAt s₀ width (ulongAdd a offset)) := by
  refine loadBytes_file h hb (ulongAdd_lt ..) fun k hk => ?_
  rw [ulongAdd_ulongAdd]
  exact hin k hk

/-- A field that has been read keeps to the file. -/
theorem loadField_inRange {width w : Nat}
    (h : (loadField a offset width s).Returned (InRange binary size) w) :
    ∀ k < width, InRange binary size (.read (ulongAdd a (offset + k))) := by
  intro k hk
  rw [← ulongAdd_ulongAdd]
  exact loadBytes_inRange (ulongAdd_lt ..) h k hk

/-! ## Loading -/

/-- **A part of the loader follows a space of pages**: it keeps to `P`, and it returns exactly when the
same can be done to the space of pages. -/
structure Loads (s₀ : State) (P : Access → Prop) (x : Load State)
    (o : Option (PagedSpace (BitVec 8))) : Prop where
  log : ∀ b ∈ x.log, P b
  result : (∃ m use s', o = some m ∧ x.result = .ok s' ∧ Private s₀ s' m use)
    ∨ o = none ∧ ∀ s', x.result ≠ .ok s'

/-- Nothing is done. -/
theorem Loads.pure (h : Private s₀ s m use) : Loads s₀ P (pure s) (some m) :=
  ⟨fun _ hb => absurd hb List.not_mem_nil, Or.inl ⟨m, use, s, rfl, rfl, h⟩⟩

/-- The loader rejects the file. -/
theorem Loads.reject (text : String) : Loads s₀ P (Traced.lift (keBugCheck text)) none := by
  refine ⟨fun _ hb => absurd hb List.not_mem_nil, Or.inr ⟨rfl, ?_⟩⟩
  intro s' hrun
  cases hrun

/-- **Sequencing.** -/
theorem Loads.bind {x : Load State} {f : State → Load State}
    {g : PagedSpace (BitVec 8) → Option (PagedSpace (BitVec 8))} (hx : Loads s₀ P x o)
    (hf : ∀ m use s', Private s₀ s' m use → Loads s₀ P (f s') (g m)) :
    Loads s₀ P (x >>= f) (o.bind g) := by
  rcases hx.result with ⟨m, use, s', rfl, hrun, hprivate⟩ | ⟨rfl, hno⟩
  · have hnext := hf m use s' hprivate
    rw [Traced.bind_of_ok hrun]
    exact ⟨fun b hb => (List.mem_append.mp hb).elim (hx.log b) (hnext.log b), hnext.result⟩
  · cases hrun : x.result with
    | ok s' => exact absurd hrun (hno s')
    | error e =>
      rw [Traced.bind_of_error hrun]
      refine ⟨hx.log, Or.inr ⟨rfl, ?_⟩⟩
      intro s' hok
      cases hok

/-- **Reading first.** -/
theorem Loads.read {y : α} {x : Load α} {f : α → Load State} (hx : x.Returned P y)
    (hf : Loads s₀ P (f y) o) : Loads s₀ P (x >>= f) o := by
  rw [Traced.bind_of_ok hx.1]
  exact ⟨fun b hb => (List.mem_append.mp hb).elim (hx.2 b) (hf.log b), hf.result⟩

/-- What has returned has followed. -/
theorem Loads.of_ok {x : Load State} (hx : Loads s₀ P x o) (hrun : x.result = .ok s') :
    ∃ m use, o = some m ∧ Private s₀ s' m use := by
  rcases hx.result with ⟨m, use, s, ho, hok, hprivate⟩ | ⟨-, hno⟩
  · obtain rfl := Except.ok.inj (hok.symm.trans hrun)
    exact ⟨m, use, ho, hprivate⟩
  · exact absurd hrun (hno s')

theorem Loads.keeps {x : Load State} (hx : Loads s₀ P x o) :
    x.Keeps P fun s' => ∃ m use, o = some m ∧ Private s₀ s' m use :=
  ⟨hx.log, fun _ hrun => hx.of_ok hrun⟩

/-! ## Bytes -/

/-- The page fault handler does not return for a page that is not present. -/
theorem mmPfHandler_absent (h : ¬ Present s a) : mmPfHandler a s ≠ .ok s' := by
  intro hrun
  unfold mmPfHandler at hrun
  split at hrun
  · cases hrun
  · split at hrun
    · cases hrun
    · split at hrun
      · cases hrun
      · rename_i hpde hpte
        rw [Bool.not_eq_false] at hpde hpte
        exact h ⟨hpde, hpte⟩

/-- **A byte is stored** to a user address. -/
theorem storeByte_loads (h : Private s₀ s m use) (ha : IsUserAddress a) :
    Loads s₀ (InRange binary size) (storeByte a b s) (m.store PGSIZE a b) := by
  have haccess : (Traced.access (Access.write a) : Load Unit).Returned (InRange binary size) () :=
    Traced.returned_access.mpr ha
  refine Loads.read haccess ?_
  by_cases hpresent : Present s a
  · obtain ⟨f, hf⟩ := Option.ne_none_iff_exists'.mp ((h.user_present ha).mp hpresent)
    rw [if_pos hpresent, PagedSpace.store, hf]
    exact Loads.pure (h.storeByte ha hf)
  · have hnone : m.page (a / PGSIZE) = none := by
      by_contra hsome
      exact hpresent ((h.user_present ha).mpr hsome)
    rw [if_neg hpresent, PagedSpace.store, hnone]
    cases hrun : mmPfHandler a s with
    | ok s' => exact absurd hrun (mmPfHandler_absent hpresent)
    | error e =>
      refine ⟨fun _ hb => absurd hb List.not_mem_nil, Or.inr ⟨rfl, ?_⟩⟩
      intro s' hok
      cases hok

/-- The next user address. -/
theorem user_next (ha : IsUserAddress a) : ulongAdd a 1 = a + 1 := by
  refine ulongAdd_of_lt ?_
  simp only [IsUserAddress, USERTOP, ULONG_VALUES] at *
  omega

/-- The addresses of a range, after the first one. -/
theorem range_next {Q : Nat → Prop} (h : ∀ c ∈ List.range' a (n + 1), Q c) :
    Q a ∧ ∀ c ∈ List.range' (a + 1) n, Q c := by
  rw [List.range'_succ] at h
  exact List.forall_mem_cons.mp h

/-- **Bytes are cleared.** -/
theorem storeZeros_loads (h : Private s₀ s m use)
    (ha : ∀ c ∈ List.range' a n, IsUserAddress c ∧ v c = 0) :
    Loads s₀ (InRange binary size) (storeZeros n a s) (m.storeAll PGSIZE v (List.range' a n)) := by
  induction n generalizing a s m use with
  | zero => exact Loads.pure h
  | succ n ih =>
    obtain ⟨⟨huser, hv⟩, hrest⟩ := range_next ha
    rw [storeZeros, List.range'_succ, PagedSpace.storeAll, user_next huser, hv]
    exact (storeByte_loads h huser).bind fun m use s' h' => ih h' hrest

/-- **`memcpy`** from the file to user addresses. -/
theorem memcpy_loads (h : Private s₀ s m use) (hb : FileBuffer s₀ binary size)
    (hsrc : src < ULONG_VALUES)
    (hread : ∀ k < n, InRange binary size (.read (ulongAdd src k)) ∧ v (dst + k) = byteAt s₀ (ulongAdd src k))
    (huser : ∀ c ∈ List.range' dst n, IsUserAddress c) :
    Loads s₀ (InRange binary size) (memcpy n dst src s)
      (m.storeAll PGSIZE v (List.range' dst n)) := by
  induction n generalizing dst src s m use with
  | zero => exact Loads.pure h
  | succ n ih =>
    obtain ⟨hdst, hrest⟩ := range_next huser
    obtain ⟨hin, hv⟩ := hread 0 (Nat.succ_pos n)
    simp only [ulongAdd_of_lt (show src + 0 < ULONG_VALUES from hsrc), Nat.add_zero] at hin hv
    rw [memcpy, List.range'_succ, PagedSpace.storeAll, user_next hdst]
    refine Loads.read (loadByte_file h hb hsrc hin) ?_
    rw [← hv]
    refine (storeByte_loads h hdst).bind fun m use s' h' => ?_
    refine ih h' (ulongAdd_lt ..) (fun k hk => ?_) hrest
    have hnext := hread (k + 1) (by omega)
    rwa [ulongAdd_ulongAdd, Nat.add_comm 1 k, Nat.add_assoc, Nat.add_comm 1 k]

/-! ## Pages -/

/-- **Pages are mapped.** -/
theorem mapPages_loads (h : Private s₀ s m use) (halign : a % PGSIZE = 0)
    (huser : ∀ k < n, IsUserAddress (a + k * PGSIZE)) :
    Loads s₀ (InRange binary size) (mapPages s₀.cr3 (PTE_W ||| PTE_U) n a s)
      (m.mapAll NPTENTRIES (List.range' (a / PGSIZE) n)) := by
  induction n generalizing a s m use with
  | zero => exact Loads.pure h
  | succ n ih =>
    obtain ⟨ha, hrest⟩ := next_page (P := IsUserAddress) huser
    have haccess : (Traced.access (Access.map a) : Load Unit).Returned (InRange binary size) () :=
      Traced.returned_access.mpr ha
    have hdiv : (a + PGSIZE) / PGSIZE = a / PGSIZE + 1 := Nat.add_div_right a (by decide)
    rw [mapPages, List.range'_succ, PagedSpace.mapAll]
    refine Loads.read haccess ?_
    refine Loads.bind (o := m.mapPage NPTENTRIES (a / PGSIZE)) ⟨?_, ?_⟩ fun m use s' h' => ?_
    · exact fun _ hb => absurd hb List.not_mem_nil
    · rw [← h.cr3]
      rcases h.mapPage ha halign with ⟨m', use', s', hmap, hrun, h'⟩ | hno
      · exact Or.inl ⟨m', use', s', hmap, hrun, h'⟩
      · exact Or.inr hno
    · rw [← hdiv]
      exact ih h' (by rw [Nat.add_mod_right]; exact halign) hrest

/-! ## Segments -/

/-- The addresses that are cleared when `i` counts from a start to an end: four at each step. -/
def zeroed (start stop : Nat) : List Nat :=
  (List.range' start (stop - start)).flatMap (List.range' · 4)

/-- **The segment of a program header**: its pages, the addresses that are filled, and with what. -/
def segment (s : State) (binary ph : Nat) : Segment (BitVec 8) where
  pages := List.range' (vaStart (proghdr s ph).p_va / PGSIZE)
    ((vaEnd (proghdr s ph).p_va (proghdr s ph).p_memsz - vaStart (proghdr s ph).p_va) / PGSIZE)
  addresses := List.range' (proghdr s ph).p_va (proghdr s ph).p_filesz
    ++ zeroed ((proghdr s ph).p_va + (proghdr s ph).p_filesz) (proghdr s ph).p_memsz
  value a := if a < (proghdr s ph).p_va + (proghdr s ph).p_filesz
    then byteAt s (ulongAdd (ulongAdd binary (proghdr s ph).p_offset) (a - (proghdr s ph).p_va)) else 0

/-- **The fields with which the loader keeps to the file and to the user half.** -/
structure SegmentInRange (s : State) (binary size ph : Nat) : Prop where
  fields : ∀ k, (4 ≤ k ∧ k < 12) ∨ (16 ≤ k ∧ k < 24) → InRange binary size (.read (ulongAdd ph k))
  pages : vaEnd (proghdr s ph).p_va (proghdr s ph).p_memsz ≤ vaStart (proghdr s ph).p_va
    ∨ vaEnd (proghdr s ph).p_va (proghdr s ph).p_memsz ≤ USERTOP
  source : (proghdr s ph).p_filesz = 0 ∨ (proghdr s ph).p_offset + (proghdr s ph).p_filesz ≤ size
  target : (proghdr s ph).p_filesz = 0 ∨ (proghdr s ph).p_va + (proghdr s ph).p_filesz ≤ USERTOP
  zeros : (proghdr s ph).p_memsz ≤ (proghdr s ph).p_va + (proghdr s ph).p_filesz
    ∨ (proghdr s ph).p_memsz + 2 < USERTOP

/-- The next addresses to be cleared. -/
theorem zeroed_cons {start stop : Nat} (h : start < stop) :
    zeroed start stop = List.range' start 4 ++ zeroed (start + 1) stop := by
  rw [zeroed, show stop - start = stop - (start + 1) + 1 by omega, List.range'_succ,
    List.flatMap_cons]
  rfl

/-- There is nothing to be cleared. -/
theorem zeroed_nil {start stop : Nat} (h : stop ≤ start) : zeroed start stop = [] := by
  rw [zeroed, Nat.sub_eq_zero_of_le h]
  rfl

/-- **The loop that clears the rest of a segment.** -/
theorem zeroLoop_loads (h : Private s₀ s m use) (hb : FileBuffer s₀ binary size)
    (hfield : ∀ k < 4, InRange binary size (.read (ulongAdd ph (20 + k))))
    (hi : i + n = ULONG_VALUES)
    (hz : ∀ c ∈ zeroed i (proghdr s₀ ph).p_memsz, IsUserAddress c ∧ v c = 0) :
    Loads s₀ (InRange binary size) (zeroLoop ph n i s)
      (m.storeAll PGSIZE v (zeroed i (proghdr s₀ ph).p_memsz)) := by
  have hbound : (proghdr s₀ ph).p_memsz < ULONG_VALUES := valueAt_ulong ..
  induction n generalizing i s m use with
  | zero =>
    rw [zeroed_nil (by omega)]
    exact Loads.pure h
  | succ n ih =>
    rw [zeroLoop]
    refine Loads.read (loadField_file h hb hfield) ?_
    by_cases hlt : i < (proghdr s₀ ph).p_memsz
    · rw [zeroed_cons hlt] at hz ⊢
      obtain ⟨hfirst, hrest⟩ := List.forall_mem_append.mp hz
      rw [if_pos (show i < valueAt s₀ 4 (ulongAdd ph 20) from hlt), PagedSpace.storeAll_append,
        ulongAdd_of_lt (show i + 1 < ULONG_VALUES by omega)]
      exact (storeZeros_loads h hfirst).bind fun m use s' h' => ih h' (by omega) hrest
    · rw [if_neg (show ¬ i < valueAt s₀ 4 (ulongAdd ph 20) from hlt), zeroed_nil (by omega)]
      exact Loads.pure h

/-- Addresses that are cleared are user addresses. -/
theorem zeroed_user {start stop c : Nat} (h : stop ≤ start ∨ stop + 2 < USERTOP)
    (hc : c ∈ zeroed start stop) : IsUserAddress c ∧ start ≤ c := by
  obtain ⟨j, hj, hcj⟩ := List.mem_flatMap.mp hc
  rw [List.mem_range'_1] at hj hcj
  simp only [IsUserAddress]
  omega

/-- The end of the bytes from the file. -/
theorem SegmentInRange.ulongAdd_filesz (hr : SegmentInRange s₀ binary size ph) :
    ulongAdd (proghdr s₀ ph).p_va (proghdr s₀ ph).p_filesz
      = (proghdr s₀ ph).p_va + (proghdr s₀ ph).p_filesz := by
  have hva : (proghdr s₀ ph).p_va < ULONG_VALUES := valueAt_ulong ..
  have htop : USERTOP < ULONG_VALUES := by decide
  refine ulongAdd_of_lt ?_
  rcases hr.target with hzero | hle <;> omega

/-- **The fields of a program header** are what they were. -/
theorem SegmentInRange.read (hr : SegmentInRange s₀ binary size ph) (hb : FileBuffer s₀ binary size)
    (h : Private s₀ s m use) :
    (p_offset ph s).Returned (InRange binary size) (proghdr s₀ ph).p_offset
      ∧ (p_va ph s).Returned (InRange binary size) (proghdr s₀ ph).p_va
      ∧ (p_filesz ph s).Returned (InRange binary size) (proghdr s₀ ph).p_filesz
      ∧ (p_memsz ph s).Returned (InRange binary size) (proghdr s₀ ph).p_memsz := by
  refine ⟨?_, ?_, ?_, ?_⟩
  · exact loadField_file h hb fun k hk => hr.fields _ (by omega)
  · exact loadField_file h hb fun k hk => hr.fields _ (by omega)
  · exact loadField_file h hb fun k hk => hr.fields _ (by omega)
  · exact loadField_file h hb fun k hk => hr.fields _ (by omega)

/-- **A segment is filled.** -/
theorem fillSegment_loads (h : Private s₀ s m use) (hb : FileBuffer s₀ binary size)
    (hr : SegmentInRange s₀ binary size ph) :
    Loads s₀ (InRange binary size) (fillSegment binary ph s)
      (m.storeAll PGSIZE (segment s₀ binary ph).value (segment s₀ binary ph).addresses) := by
  have hbinary : binary ≤ ULONG_VALUES := (Nat.le_add_right ..).trans hb.top
  rw [fillSegment, segment, PagedSpace.storeAll_append]
  obtain ⟨hoffset, hva, hfilesz, -⟩ := hr.read hb h
  refine Loads.read hva (Loads.read hoffset (Loads.read hfilesz ?_))
  refine Loads.bind (memcpy_loads h hb (ulongAdd_lt ..) (fun k hk => ⟨?_, ?_⟩) fun c hc => ?_)
    fun m use s' h' => ?_
  · have hlt : (proghdr s₀ ph).p_offset + (proghdr s₀ ph).p_filesz ≤ size :=
      hr.source.resolve_left fun hzero => absurd (hzero ▸ hk : k < 0) (Nat.not_lt_zero k)
    rw [ulongAdd_ulongAdd, inRange_read hbinary]
    exact (Nat.mod_le ..).trans_lt (by omega)
  · show (if (proghdr s₀ ph).p_va + k < (proghdr s₀ ph).p_va + (proghdr s₀ ph).p_filesz then _ else _) = _
    rw [if_pos (by omega), Nat.add_sub_cancel_left]
  · rw [List.mem_range'_1] at hc
    have htarget := hr.target
    simp only [IsUserAddress]
    omega
  · obtain ⟨-, hva, hfilesz, -⟩ := hr.read hb h'
    refine Loads.read hva (Loads.read hfilesz ?_)
    have hend := hr.ulongAdd_filesz
    rw [hend]
    have hlt := ulongAdd_lt (proghdr s₀ ph).p_va (proghdr s₀ ph).p_filesz
    refine zeroLoop_loads h' hb (fun k hk => hr.fields _ (by omega)) (by omega) fun c hc => ?_
    obtain ⟨huser, hle⟩ := zeroed_user hr.zeros hc
    exact ⟨huser, if_neg (by omega)⟩

/-- The pages between two addresses are user pages. -/
theorem user_between {start stop : Nat} (h : stop ≤ start ∨ stop ≤ USERTOP) :
    ∀ k < (stop - start) / PGSIZE, IsUserAddress (start + k * PGSIZE) := by
  intro k hk
  simp only [IsUserAddress, PGSIZE] at *
  omega

/-- The pages of a segment are user pages. -/
theorem SegmentInRange.user_pages (hr : SegmentInRange s₀ binary size ph) :
    ∀ k < (vaEnd (proghdr s₀ ph).p_va (proghdr s₀ ph).p_memsz - vaStart (proghdr s₀ ph).p_va) / PGSIZE,
      IsUserAddress (vaStart (proghdr s₀ ph).p_va + k * PGSIZE) := user_between hr.pages

/-- **A segment is loaded**, unless it has more bytes in the file than in memory. -/
theorem loadSegment_loads (h : Private s₀ s m use) (hb : FileBuffer s₀ binary size)
    (hr : SegmentInRange s₀ binary size ph) :
    Loads s₀ (InRange binary size) (loadSegment s₀.cr3 binary ph s)
      (if (proghdr s₀ ph).p_filesz > (proghdr s₀ ph).p_memsz then none
        else m.loadSegment NPTENTRIES PGSIZE (segment s₀ binary ph)) := by
  have halign : vaStart (proghdr s₀ ph).p_va % PGSIZE = 0 := by
    simp only [vaStart, roundDown, PGSIZE]
    omega
  have hmap : Loads s₀ (InRange binary size) (mapSegment s₀.cr3 (proghdr s₀ ph).p_va
      (proghdr s₀ ph).p_memsz (PTE_W ||| PTE_U) s)
      (m.mapAll NPTENTRIES (segment s₀ binary ph).pages) := by
    rw [mapSegment, segment]
    exact mapPages_loads h halign hr.user_pages
  obtain ⟨-, hva, -, hmemsz⟩ := hr.read hb h
  rw [loadSegment]
  refine Loads.read hva (Loads.read hmemsz ?_)
  by_cases hmore : (proghdr s₀ ph).p_filesz > (proghdr s₀ ph).p_memsz
  · rw [if_pos hmore, ← Option.bind_fun_none]
    refine hmap.bind fun m use s' h' => ?_
    obtain ⟨-, -, hfilesz, hmemsz⟩ := hr.read hb h'
    refine Loads.read hfilesz (Loads.read hmemsz ?_)
    exact (if_pos hmore).symm ▸ Loads.reject _
  · rw [if_neg hmore, PagedSpace.loadSegment]
    refine hmap.bind fun m use s' h' => ?_
    obtain ⟨-, -, hfilesz, hmemsz⟩ := hr.read hb h'
    refine Loads.read hfilesz (Loads.read hmemsz ?_)
    exact (if_neg hmore).symm ▸ fillSegment_loads h' hb hr

/-! ## Files -/

/-- A segment is loaded into a space of pages, unless it has more bytes in the file than in memory. -/
def loadHeader (s : State) (binary ph : Nat) (m : PagedSpace (BitVec 8)) :
    Option (PagedSpace (BitVec 8)) :=
  if (proghdr s ph).p_filesz > (proghdr s ph).p_memsz then none
  else m.loadSegment NPTENTRIES PGSIZE (segment s binary ph)

/-- Segments are loaded into a space of pages. -/
def loadHeaders (s : State) (binary : Nat) :
    Nat → Nat → PagedSpace (BitVec 8) → Option (PagedSpace (BitVec 8))
  | 0, _, m => some m
  | n + 1, ph, m => (loadHeader s binary ph m).bind (loadHeaders s binary n (ulongAdd ph sizeofProghdr))

/-- The address of the first program header. -/
def firstHeader (s : State) (binary : Nat) : Nat :=
  ulongAdd binary (valueAt s 4 (ulongAdd binary 28))

/-- The number of program headers that the loop of the loader comes by: none when the end of the table
has wrapped around. -/
def headerCount (s : State) (binary : Nat) : Nat :=
  (ulongAdd (firstHeader s binary) (valueAt s 2 (ulongAdd binary 44) * sizeofProghdr)
    - firstHeader s binary) / sizeofProghdr

/-- The address of a program header. -/
def headerAt (s : State) (binary n : Nat) : Nat := ulongAdd (firstHeader s binary) (n * sizeofProghdr)

/-- **A file whose fields are in range**: the fields of `struct Elf` up to `e_phnum` and all program
headers are in the file, and so are the bytes of the segments; the segments are in the user half. -/
structure FileInRange (s : State) (binary size : Nat) : Prop where
  header : 46 ≤ size
  segments : ∀ n < headerCount s binary, SegmentInRange s binary size (headerAt s binary n)

/-- What the loader accepts in `struct Elf`. -/
def acceptsHeader (s : State) (binary : Nat) : Bool :=
  decide (valueAt s 4 (ulongAdd binary 0) = ELF_MAGIC)
    && headerChecks.all fun check => check.accepts (valueAt s check.width (ulongAdd binary check.offset))

/-- **Segments are loaded** one after the other. -/
theorem loadSegments_loads (h : Private s₀ s m use) (hb : FileBuffer s₀ binary size)
    (hr : ∀ k < n, SegmentInRange s₀ binary size (ulongAdd ph (k * sizeofProghdr)))
    (hph : ph < ULONG_VALUES) :
    Loads s₀ (InRange binary size) (loadSegments s₀.cr3 binary n ph s)
      (loadHeaders s₀ binary n ph m) := by
  induction n generalizing ph s m use with
  | zero => exact Loads.pure h
  | succ n ih =>
    have hfirst := hr 0 (Nat.succ_pos n)
    rw [Nat.zero_mul, ulongAdd_of_lt (show ph + 0 < ULONG_VALUES from hph), Nat.add_zero] at hfirst
    refine (loadSegment_loads h hb hfirst).bind fun m use s' h' => ih h' (fun k hk => ?_) (ulongAdd_lt ..)
    have hnext := hr (k + 1) (by omega)
    rwa [ulongAdd_ulongAdd, Nat.add_comm, ← Nat.succ_mul]

/-- A field of `struct Elf` that has been read. -/
theorem header_field (offset width : Nat) (h : Private s₀ s m use) (hb : FileBuffer s₀ binary size)
    (hsize : 46 ≤ size) (hfield : offset + width ≤ 46) :
    (loadField binary offset width s).Returned (InRange binary size)
      (valueAt s₀ width (ulongAdd binary offset)) := by
  have hbinary : binary ≤ ULONG_VALUES := (Nat.le_add_right ..).trans hb.top
  refine loadField_file h hb fun k hk => ?_
  rw [inRange_read hbinary]
  exact (Nat.mod_le ..).trans_lt (by omega)

/-- The fields of `struct Elf` have been tested. -/
theorem acceptsFields_returned (h : Private s₀ s m use) (hb : FileBuffer s₀ binary size)
    (hsize : 46 ≤ size) (checks : List HeaderCheck)
    (hchecks : ∀ check ∈ checks, check.offset + check.width ≤ 46) :
    (acceptsFields binary s checks).Returned (InRange binary size) (checks.all fun check =>
      check.accepts (valueAt s₀ check.width (ulongAdd binary check.offset))) := by
  induction checks with
  | nil => exact Traced.returned_pure.mpr rfl
  | cons check checks ih =>
    obtain ⟨hfirst, hrest⟩ := List.forall_mem_cons.mp hchecks
    refine Traced.returned_bind.mpr ⟨_, header_field _ _ h hb hsize hfirst, ?_⟩
    rw [List.all_cons]
    cases haccepts : check.accepts (valueAt s₀ check.width (ulongAdd binary check.offset)) with
    | true => exact ih hrest
    | false => exact Traced.returned_pure.mpr rfl

/-- **The conditions on `struct Elf`.** -/
theorem checkHeader_spec (h : Private s₀ s m use) (hb : FileBuffer s₀ binary size)
    (hsize : 46 ≤ size) : (∀ b ∈ (checkHeader binary s).log, InRange binary size b)
      ∧ ((checkHeader binary s).result = .ok () ↔ acceptsHeader s₀ binary = true) := by
  have hmagic := header_field 0 4 h hb hsize (by decide)
  have hfields := acceptsFields_returned h hb hsize headerChecks (by decide)
  rw [checkHeader, acceptsHeader, Traced.bind_of_ok hmagic.1]
  by_cases hm : valueAt s₀ 4 (ulongAdd binary 0) = ELF_MAGIC
  · rw [if_neg (not_not.mpr hm), Traced.bind_of_ok hfields.1, decide_eq_true hm, Bool.true_and]
    cases headerChecks.all fun check =>
        check.accepts (valueAt s₀ check.width (ulongAdd binary check.offset)) with
    | true =>
      refine ⟨fun b hb => ?_, iff_of_true rfl rfl⟩
      rcases List.mem_append.mp hb with hb | hb
      · exact hmagic.2 b hb
      · exact (List.mem_append.mp hb).elim (hfields.2 b) fun hb => absurd hb List.not_mem_nil
    | false =>
      refine ⟨fun b hb => ?_, iff_of_false (fun hno => by cases hno) (by decide)⟩
      rcases List.mem_append.mp hb with hb | hb
      · exact hmagic.2 b hb
      · exact (List.mem_append.mp hb).elim (hfields.2 b) fun hb => absurd hb List.not_mem_nil
  · rw [if_pos hm, decide_eq_false hm, Bool.false_and]
    refine ⟨fun b hb => ?_, iff_of_false (fun hno => by cases hno) (by decide)⟩
    exact (List.mem_append.mp hb).elim (hmagic.2 b) fun hb => absurd hb List.not_mem_nil

/-- **The segments and the entry point**, of a file whose fields are in range. -/
theorem loadProgram_keeps (h : Private s₀ s m use) (hb : FileBuffer s₀ binary size)
    (hr : FileInRange s₀ binary size) :
    (loadProgram s₀.cr3 binary s).Keeps (InRange binary size) fun r =>
      r.1 = valueAt s₀ 4 (ulongAdd binary 24) ∧ ∃ m' use', Private s₀ r.2 m' use'
        ∧ loadHeaders s₀ binary (headerCount s₀ binary) (firstHeader s₀ binary) m = some m' := by
  have hphoff := header_field 28 4 h hb hr.header (by decide)
  have hphnum := header_field 44 2 h hb hr.header (by decide)
  have hload := loadSegments_loads h hb hr.segments (ulongAdd_lt ..)
  refine hphoff.keeps.bind ?_
  rintro _ rfl
  refine hphnum.keeps.bind ?_
  rintro _ rfl
  refine hload.keeps.bind ?_
  rintro s' ⟨m', use', ho, h'⟩
  refine (header_field 24 4 h' hb hr.header (by decide)).keeps.bind ?_
  rintro _ rfl
  exact Traced.Keeps.pure ⟨rfl, m', use', h', ho⟩

/-- The segments can be loaded. -/
theorem loadProgram_returns (h : Private s₀ s m use) (hb : FileBuffer s₀ binary size)
    (hr : FileInRange s₀ binary size)
    (hm : loadHeaders s₀ binary (headerCount s₀ binary) (firstHeader s₀ binary) m = some m') :
    ∃ s' use', (loadProgram s₀.cr3 binary s).result = .ok (valueAt s₀ 4 (ulongAdd binary 24), s')
      ∧ Private s₀ s' m' use' := by
  have hphoff := header_field 28 4 h hb hr.header (by decide)
  have hphnum := header_field 44 2 h hb hr.header (by decide)
  have hload := loadSegments_loads h hb hr.segments (ulongAdd_lt ..)
  rcases hload.result with ⟨m₁, use₁, s', ho, hrun, h'⟩ | ⟨ho, -⟩
  · obtain rfl := Option.some.inj (ho.symm.trans hm)
    have hentry := header_field 24 4 h' hb hr.header (by decide)
    refine ⟨s', use₁, ?_, h'⟩
    rw [loadProgram, Traced.bind_of_ok hphoff.1, Traced.bind_of_ok hphnum.1]
    refine (congrArg Traced.result (Traced.bind_of_ok hrun)).trans ?_
    exact congrArg Traced.result (Traced.bind_of_ok hentry.1)
  · have hno := ho.symm.trans hm
    cases hno

/-- **The loader, with a file whose fields are in range**: it keeps to the file and to the user half. -/
theorem elfBinaryLoader_keeps (h : Private s₀ s m use) (hb : FileBuffer s₀ binary size)
    (hr : FileInRange s₀ binary size) :
    (elfBinaryLoader s₀.cr3 binary size s).Keeps (InRange binary size) fun r =>
      acceptsHeader s₀ binary = true ∧ r.1 = valueAt s₀ 4 (ulongAdd binary 24)
        ∧ ∃ m' use', Private s₀ r.2 m' use'
          ∧ loadHeaders s₀ binary (headerCount s₀ binary) (firstHeader s₀ binary) m = some m' := by
  obtain ⟨hlog, hheader⟩ := checkHeader_spec h hb hr.header
  have hcheck : (checkHeader binary s).Keeps (InRange binary size) fun _ =>
      acceptsHeader s₀ binary = true := ⟨hlog, fun _ hc => hheader.mp hc⟩
  exact hcheck.bind fun _ haccepts => (loadProgram_keeps h hb hr).mono fun r hr => ⟨haccepts, hr⟩

/-- **The loader returns** when it accepts the header and the segments can be loaded. -/
theorem elfBinaryLoader_returns (h : Private s₀ s m use) (hb : FileBuffer s₀ binary size)
    (hr : FileInRange s₀ binary size) (haccepts : acceptsHeader s₀ binary = true)
    (hm : loadHeaders s₀ binary (headerCount s₀ binary) (firstHeader s₀ binary) m = some m') :
    ∃ s' use', (elfBinaryLoader s₀.cr3 binary size s).result
      = .ok (valueAt s₀ 4 (ulongAdd binary 24), s') ∧ Private s₀ s' m' use' := by
  obtain ⟨-, hheader⟩ := checkHeader_spec h hb hr.header
  obtain ⟨s', use', hrun, h'⟩ := loadProgram_returns h hb hr hm
  refine ⟨s', use', ?_, h'⟩
  rw [elfBinaryLoader, Traced.bind_of_ok (hheader.mpr haccepts)]
  exact hrun

end KaushOS.Loader
