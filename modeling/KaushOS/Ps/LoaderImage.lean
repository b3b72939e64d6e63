import KaushOS.Ps.LoaderSafety

/-! # The image of a program

What `ELFBinaryLoader` leaves in the pages of a new process, whatever the free frames have in them. A frame
is not cleared when it is allocated, and the loop that clears the rest of a segment counts from the
address `p_va + p_filesz` to the size `p_memsz`: it ends too early, and most often before it starts. A
page that two segments share is mapped again for the second one, and the bytes of the first one are lost.

* **`WellFormed`** — the files that the loader is for.
* **`LoadsImage`** — a file is loaded as its program headers say.
* **`elf_image_iff`** — that is so when every byte comes from the file and no segment maps a page of an
  earlier one, and only then. -/

namespace KaushOS.Loader

open Paging Transition

variable {L : Layout} {s s' : State} {ram : PhysicalMemory.Ram} {m m' : PagedSpace (BitVec 8)}
  {use : Nat → FrameUse} {a binary c i j k n ph size : Nat} {v w : Nat → BitVec 8} {as : List Nat}

/-! ## The same file -/

/-- **The file has the same bytes** in two states. -/
def SameFile (s s' : State) (binary size : Nat) : Prop :=
  ∀ i < size, byteAt s' (binary + i) = byteAt s (binary + i)

/-- The file is in frames that are in use, so that the contents of the free frames do not matter. -/
theorem FileBuffer.congr (hb : FileBuffer s binary size) (hroot : s.cr3 ∉ s.PfnFreeList)
    (hram : ∀ f, f ∉ s.PfnFreeList → ram f = s.ram f) :
    FileBuffer { s with ram } binary size ∧ SameFile s { s with ram } binary size := by
  have hentry : ∀ f j, f ∉ s.PfnFreeList → State.entry { s with ram } f j = s.entry f j := by
    intro f j hf
    exact congrArg Paging.MMPTE.mk (PhysicalMemory.word_congr (hram f hf) j)
  have hpde : ∀ c, State.pde { s with ram } c = s.pde c := fun c => hentry _ _ hroot
  have hpte : ∀ i < size, State.pte { s with ram } (binary + i) = s.pte (binary + i) := by
    intro i hi
    rw [State.pte, State.pte, hpde]
    exact hentry _ _ (hb.table i hi).1
  have hphysical : ∀ i < size, State.physical { s with ram } (binary + i) = s.physical (binary + i) := by
    intro i hi
    rw [State.physical, State.physical, hpte i hi]
  refine ⟨⟨hb.top, hb.half, fun i hi => ?_, fun i hi => ?_, fun i hi => ?_⟩, fun i hi => ?_⟩
  · rw [Present, hpde, hpte i hi]
    exact hb.present i hi
  · rw [hpde]
    exact hb.table i hi
  · rw [hphysical i hi]
    exact hb.page i hi
  · rw [byteAt, byteAt, hphysical i hi]
    exact congrFun (hram _ (hb.page i hi).1) _

/-- A byte of the file. -/
theorem SameFile.byteAt (h : SameFile s s' binary size) (hb : FileBuffer s binary size)
    (ha : a < ULONG_VALUES) (hin : InRange binary size (.read a)) :
    Loader.byteAt s' a = Loader.byteAt s a := by
  obtain ⟨i, hi, rfl⟩ := hb.index ha hin
  exact h i hi

/-- A number in the file. -/
theorem SameFile.valueAt (h : SameFile s s' binary size) (hb : FileBuffer s binary size)
    (ha : a < ULONG_VALUES) (hin : ∀ k < n, InRange binary size (.read (ulongAdd a k))) :
    Loader.valueAt s' n a = Loader.valueAt s n a := by
  induction n generalizing a with
  | zero => rfl
  | succ n ih =>
    obtain ⟨hfirst, hin⟩ := inRange_succ ha hin
    have hrest := ih (ulongAdd_lt a 1) hin
    rw [Loader.valueAt, Loader.valueAt, h.byteAt hb ha hfirst, hrest]

/-- A field of `struct Elf`. -/
theorem SameFile.header (h : SameFile s s' binary size) (hb : FileBuffer s binary size)
    (hsize : 46 ≤ size) {offset width : Nat} (hfield : offset + width ≤ 46) :
    Loader.valueAt s' width (ulongAdd binary offset) = Loader.valueAt s width (ulongAdd binary offset) := by
  have hbinary : binary ≤ ULONG_VALUES := (Nat.le_add_right ..).trans hb.top
  refine h.valueAt hb (ulongAdd_lt ..) fun k hk => ?_
  rw [ulongAdd_ulongAdd, inRange_read hbinary]
  exact (Nat.mod_le ..).trans_lt (by omega)

/-- A program header. -/
theorem SameFile.proghdr (h : SameFile s s' binary size) (hb : FileBuffer s binary size)
    (hr : SegmentInRange s binary size ph) : Loader.proghdr s' ph = Loader.proghdr s ph := by
  have hfield : ∀ offset, (4 ≤ offset ∧ offset ≤ 8) ∨ (16 ≤ offset ∧ offset ≤ 20) →
      Loader.valueAt s' 4 (ulongAdd ph offset) = Loader.valueAt s 4 (ulongAdd ph offset) := by
    intro offset hoffset
    refine h.valueAt hb (ulongAdd_lt ..) fun k hk => ?_
    rw [ulongAdd_ulongAdd]
    exact hr.fields _ (by omega)
  rw [Loader.proghdr, Loader.proghdr, hfield 4 (by omega), hfield 8 (by omega), hfield 16 (by omega),
    hfield 20 (by omega)]

/-- **The segment of a program header** has the same pages, and is filled with the same bytes. -/
theorem SameFile.segment (h : SameFile s s' binary size) (hb : FileBuffer s binary size)
    (hr : SegmentInRange s binary size ph) :
    (Loader.segment s' binary ph).pages = (Loader.segment s binary ph).pages
      ∧ (Loader.segment s' binary ph).addresses = (Loader.segment s binary ph).addresses
      ∧ ∀ c ∈ (Loader.segment s binary ph).addresses,
        (Loader.segment s' binary ph).value c = (Loader.segment s binary ph).value c := by
  have hsame := h.proghdr hb hr
  refine ⟨by rw [Loader.segment, Loader.segment, hsame], by rw [Loader.segment, Loader.segment, hsame],
    fun c hc => ?_⟩
  show (if c < (Loader.proghdr s' ph).p_va + (Loader.proghdr s' ph).p_filesz then _ else _) = _
  rw [hsame]
  show _ = if c < (Loader.proghdr s ph).p_va + (Loader.proghdr s ph).p_filesz then _ else _
  by_cases hlt : c < (Loader.proghdr s ph).p_va + (Loader.proghdr s ph).p_filesz
  · rw [if_pos hlt, if_pos hlt]
    refine h.byteAt hb (ulongAdd_lt ..) ?_
    have hsource := hr.source
    have hge : (Loader.proghdr s ph).p_va ≤ c := by
      rcases List.mem_append.mp hc with hc | hc
      · exact (List.mem_range'_1.mp hc).1
      · exact absurd (zeroed_user hr.zeros hc).2 (by omega)
    rw [ulongAdd_ulongAdd, inRange_read ((Nat.le_add_right ..).trans hb.top)]
    exact (Nat.mod_le ..).trans_lt (by omega)
  · rw [if_neg hlt, if_neg hlt]

/-- Bytes are stored: only the bytes at the addresses matter. -/
theorem storeAll_congr (h : ∀ c ∈ as, v c = w c) : m.storeAll n v as = m.storeAll n w as := by
  induction as generalizing m with
  | nil => rfl
  | cons a as ih =>
    obtain ⟨ha, has⟩ := List.forall_mem_cons.mp h
    rw [PagedSpace.storeAll, PagedSpace.storeAll, ha]
    congr 1
    funext m₁
    exact ih has

/-- **A segment is loaded in the same way.** -/
theorem SameFile.loadHeader (h : SameFile s s' binary size) (hb : FileBuffer s binary size)
    (hr : SegmentInRange s binary size ph) :
    Loader.loadHeader s' binary ph m = Loader.loadHeader s binary ph m := by
  obtain ⟨hpages, haddresses, hvalue⟩ := h.segment hb hr
  rw [Loader.loadHeader, Loader.loadHeader, h.proghdr hb hr, PagedSpace.loadSegment,
    PagedSpace.loadSegment, hpages, haddresses]
  congr 2
  funext m₁
  exact storeAll_congr hvalue

/-- **Segments are loaded in the same way.** -/
theorem SameFile.loadHeaders (h : SameFile s s' binary size) (hb : FileBuffer s binary size)
    (hr : ∀ k < n, SegmentInRange s binary size (ulongAdd ph (k * sizeofProghdr)))
    (hph : ph < ULONG_VALUES) :
    Loader.loadHeaders s' binary n ph m = Loader.loadHeaders s binary n ph m := by
  induction n generalizing ph m with
  | zero => rfl
  | succ n ih =>
    have hfirst := hr 0 (Nat.succ_pos n)
    rw [Nat.zero_mul, ulongAdd_of_lt (show ph + 0 < ULONG_VALUES from hph), Nat.add_zero] at hfirst
    rw [Loader.loadHeaders, Loader.loadHeaders, h.loadHeader hb hfirst]
    congr 1
    funext m₁
    refine ih (fun k hk => ?_) (ulongAdd_lt ..)
    have hnext := hr (k + 1) (by omega)
    rwa [ulongAdd_ulongAdd, Nat.add_comm, ← Nat.succ_mul]

/-- **The table of the program headers** is at the same place, and the header is accepted alike. -/
theorem SameFile.table (h : SameFile s s' binary size) (hb : FileBuffer s binary size)
    (hsize : 46 ≤ size) : firstHeader s' binary = firstHeader s binary
      ∧ headerCount s' binary = headerCount s binary
      ∧ (∀ n, headerAt s' binary n = headerAt s binary n)
      ∧ acceptsHeader s' binary = acceptsHeader s binary := by
  have hphoff := h.header hb hsize (show 28 + 4 ≤ 46 by decide)
  have hphnum := h.header hb hsize (show 44 + 2 ≤ 46 by decide)
  have hmagic := h.header hb hsize (show 0 + 4 ≤ 46 by decide)
  have hfirst : firstHeader s' binary = firstHeader s binary := by
    rw [firstHeader, firstHeader, hphoff]
  have hchecks : ∀ check ∈ headerChecks, check.offset + check.width ≤ 46 := by decide
  refine ⟨hfirst, by rw [headerCount, headerCount, hfirst, hphnum], fun n => ?_, ?_⟩
  · rw [headerAt, headerAt, hfirst]
  · rw [acceptsHeader, acceptsHeader, hmagic]
    congr 1
    rw [Bool.eq_iff_iff, List.all_eq_true, List.all_eq_true]
    refine forall₂_congr fun check hcheck => ?_
    rw [h.header hb hsize (hchecks check hcheck)]

/-- **The fields are in range alike.** -/
theorem SameFile.fileInRange (h : SameFile s s' binary size) (hb : FileBuffer s binary size)
    (hr : FileInRange s binary size) : FileInRange s' binary size := by
  obtain ⟨-, hcount, hat, -⟩ := h.table hb hr.header
  refine ⟨hr.header, fun n hn => ?_⟩
  have hold := hr.segments n (hcount ▸ hn)
  have hsame := h.proghdr hb hold
  rw [hat]
  exact ⟨hold.fields, hsame ▸ hold.pages, hsame ▸ hold.source, hsame ▸ hold.target, hsame ▸ hold.zeros⟩

/-! ## Well-formed files -/

/-- `ELF_PROG_LOAD`. -/
def ELF_PROG_LOAD : Nat := 1

/-- `sizeof(struct Elf)`. -/
def sizeofElf : Nat := 52

/-- `e_entry`. -/
def e_entry (s : State) (binary : Nat) : Nat := valueAt s 4 (ulongAdd binary 24)

/-- `e_phoff`. -/
def e_phoff (s : State) (binary : Nat) : Nat := valueAt s 4 (ulongAdd binary 28)

/-- `e_phnum`. -/
def e_phnum (s : State) (binary : Nat) : Nat := valueAt s 2 (ulongAdd binary 44)

/-- A program header of the file. -/
def programHeader (s : State) (binary n : Nat) : Proghdr := proghdr s (headerAt s binary n)

/-- The address of a byte is in the memory range of a program header. -/
def Proghdr.Contains (h : Proghdr) (a : Nat) : Prop := h.p_va ≤ a ∧ a < h.p_va + h.p_memsz

/-- The address is in a page that `MmMapSegment` maps for a program header. -/
def Proghdr.Maps (h : Proghdr) (a : Nat) : Prop :=
  vaStart h.p_va ≤ a ∧ a < vaEnd h.p_va h.p_memsz

/-- **A well-formed file**: the header is accepted; the table of the program headers is in the file; these
are all `PT_LOAD`, with their bytes in the file, and with different addresses in the user half. -/
structure WellFormed (s : State) (binary size : Nat) : Prop where
  accepted : acceptsHeader s binary = true
  header : sizeofElf ≤ size
  table : e_phoff s binary + e_phnum s binary * sizeofProghdr ≤ size
  load : ∀ n < e_phnum s binary, valueAt s 4 (headerAt s binary n) = ELF_PROG_LOAD
  sizes : ∀ n < e_phnum s binary,
    (programHeader s binary n).p_filesz ≤ (programHeader s binary n).p_memsz
  source : ∀ n < e_phnum s binary,
    (programHeader s binary n).p_offset + (programHeader s binary n).p_filesz ≤ size
  range : ∀ n < e_phnum s binary, PGSIZE ≤ (programHeader s binary n).p_va
    ∧ (programHeader s binary n).p_va + (programHeader s binary n).p_memsz ≤ USERTOP
  disjoint : ∀ i j, i < j → j < e_phnum s binary → ∀ a,
    (programHeader s binary i).Contains a → ¬ (programHeader s binary j).Contains a

/-- **The loop comes by all program headers**, which are in the file. -/
theorem WellFormed.headers (hwf : WellFormed s binary size) (hend : binary + size < ULONG_VALUES) :
    headerCount s binary = e_phnum s binary ∧ ∀ n < e_phnum s binary,
      headerAt s binary n = binary + (e_phoff s binary + n * sizeofProghdr) := by
  have htable := hwf.table
  have hfirst : firstHeader s binary = binary + e_phoff s binary :=
    ulongAdd_of_lt (show binary + e_phoff s binary < ULONG_VALUES by omega)
  have hwhole : ulongAdd (firstHeader s binary) (e_phnum s binary * sizeofProghdr)
      = firstHeader s binary + e_phnum s binary * sizeofProghdr := by
    refine ulongAdd_of_lt ?_
    rw [hfirst]
    omega
  refine ⟨?_, fun n hn => ?_⟩
  · show (ulongAdd (firstHeader s binary) (e_phnum s binary * sizeofProghdr)
      - firstHeader s binary) / sizeofProghdr = _
    rw [hwhole, Nat.add_sub_cancel_left]
    exact Nat.mul_div_cancel _ (by decide)
  · have hle : n * sizeofProghdr ≤ e_phnum s binary * sizeofProghdr :=
      Nat.mul_le_mul_right _ hn.le
    rw [headerAt, hfirst, ulongAdd_of_lt (by omega), Nat.add_assoc]

/-- **Its fields are in range.** -/
theorem WellFormed.fileInRange (hwf : WellFormed s binary size)
    (hend : binary + size < ULONG_VALUES) : FileInRange s binary size := by
  obtain ⟨hcount, hat⟩ := hwf.headers hend
  have hheader := hwf.header
  have htable := hwf.table
  refine ⟨?_, fun n hn => ?_⟩
  · simp only [sizeofElf] at hheader
    omega
  · rw [hcount] at hn
    obtain ⟨hlow, hhigh⟩ := hwf.range n hn
    have hsource := hwf.source n hn
    have hsizes := hwf.sizes n hn
    have hsucc : (n + 1) * sizeofProghdr ≤ e_phnum s binary * sizeofProghdr :=
      Nat.mul_le_mul_right _ hn
    rw [programHeader] at hlow hhigh hsource hsizes
    refine ⟨fun k hk => ?_, Or.inr ?_, Or.inr hsource, Or.inr (by omega), Or.inr ?_⟩
    · rw [hat n hn, ulongAdd_of_lt (by simp only [sizeofProghdr] at *; omega), Nat.add_assoc,
        ← ulongAdd_of_lt (by simp only [sizeofProghdr] at *; omega),
        inRange_read (by omega)]
      refine (Nat.mod_le ..).trans_lt ?_
      simp only [sizeofProghdr] at *
      omega
    · simp only [vaEnd, roundUp, ulongAdd, ulongSub, PGSIZE, USERTOP, ULONG_VALUES] at *
      omega
    · simp only [PGSIZE] at hlow
      omega

/-! ## Its segments -/

/-- **The segments of a file.** -/
def segments (s : State) (binary : Nat) : List (Segment (BitVec 8)) :=
  (List.range (e_phnum s binary)).map fun n => segment s binary (headerAt s binary n)

/-- A segment of the file. -/
theorem mem_segments {x : Segment (BitVec 8)} : x ∈ segments s binary ↔
    ∃ n < e_phnum s binary, segment s binary (headerAt s binary n) = x := by
  simp [segments]

/-- What holds of any two segments, the first one before the second. -/
theorem segments_pairwise {R : Segment (BitVec 8) → Segment (BitVec 8) → Prop} :
    (segments s binary).Pairwise R ↔ ∀ i j, i < j → j < e_phnum s binary →
      R (segment s binary (headerAt s binary i)) (segment s binary (headerAt s binary j)) := by
  rw [List.pairwise_iff_getElem]
  simp only [segments, List.length_map, List.length_range, List.getElem_map, List.getElem_range]
  constructor
  · intro h i j hij hj
    exact h i j (hij.trans hj) hj hij
  · intro h i j _ hj hij
    exact h i j hij hj

/-- Segments are loaded one after the other, if none has more bytes in the file than in memory. -/
theorem loadHeaders_eq_load (hph : ph < ULONG_VALUES)
    (h : ∀ k < n, (proghdr s (ulongAdd ph (k * sizeofProghdr))).p_filesz
      ≤ (proghdr s (ulongAdd ph (k * sizeofProghdr))).p_memsz) :
    loadHeaders s binary n ph m = m.load NPTENTRIES PGSIZE
      ((List.range n).map fun k => segment s binary (ulongAdd ph (k * sizeofProghdr))) := by
  induction n generalizing ph m with
  | zero => rfl
  | succ n ih =>
    have hzero : ulongAdd ph (0 * sizeofProghdr) = ph := by
      rw [Nat.zero_mul, ulongAdd_of_lt (show ph + 0 < ULONG_VALUES from hph), Nat.add_zero]
    have hsucc : ∀ k, ulongAdd (ulongAdd ph sizeofProghdr) (k * sizeofProghdr)
        = ulongAdd ph ((k + 1) * sizeofProghdr) := by
      intro k
      rw [ulongAdd_ulongAdd, Nat.add_comm, ← Nat.succ_mul]
    have hfirst := h 0 (Nat.succ_pos n)
    rw [hzero] at hfirst
    rw [loadHeaders, loadHeader, if_neg (Nat.not_lt.mpr hfirst), List.range_succ_eq_map, List.map_cons,
      List.map_map, PagedSpace.load, hzero]
    congr 1
    funext m₁
    refine (ih (ulongAdd_lt ..) fun k hk => ?_).trans ?_
    · rw [hsucc]
      exact h (k + 1) (by omega)
    · simp only [hsucc]
      rfl

/-- **A segment whose bytes all come from the file.** -/
theorem segment_addresses (h : (proghdr s ph).p_filesz = (proghdr s ph).p_memsz) :
    (segment s binary ph).addresses = List.range' (proghdr s ph).p_va (proghdr s ph).p_memsz := by
  show List.range' _ _ ++ zeroed _ _ = _
  rw [zeroed_nil (h ▸ Nat.le_add_left ..), List.append_nil, h]

/-- What is filled is in the range of the program header, and is not its last byte if that does not come
from the file. -/
theorem mem_addresses_segment (hlow : PGSIZE ≤ (proghdr s ph).p_va)
    (hsizes : (proghdr s ph).p_filesz ≤ (proghdr s ph).p_memsz)
    (ha : a ∈ (segment s binary ph).addresses) : (proghdr s ph).Contains a
      ∧ ((proghdr s ph).p_filesz < (proghdr s ph).p_memsz →
        a ≠ (proghdr s ph).p_va + (proghdr s ph).p_memsz - 1) := by
  simp only [PGSIZE] at hlow
  rw [Proghdr.Contains]
  rcases List.mem_append.mp ha with ha | ha
  · rw [List.mem_range'_1] at ha
    omega
  · obtain ⟨j, hj, haj⟩ := List.mem_flatMap.mp ha
    rw [List.mem_range'_1] at hj haj
    omega

/-- The pages of a segment. -/
theorem mem_pages_segment :
    a / PGSIZE ∈ (segment s binary ph).pages ↔ (proghdr s ph).Maps a := by
  show a / PGSIZE ∈ List.range' _ _ ↔ _
  rw [List.mem_range'_1, Proghdr.Maps]
  simp only [vaStart, vaEnd, roundDown, roundUp, ulongAdd, ulongSub, PGSIZE, ULONG_VALUES]
  omega

/-- A byte of a segment is in its pages. -/
theorem Proghdr.maps_of_contains {h : Proghdr} (htop : h.p_va + h.p_memsz ≤ USERTOP)
    (ha : h.Contains a) : h.Maps a := by
  obtain ⟨hle, hlt⟩ := ha
  simp only [Maps, vaStart, vaEnd, roundDown, roundUp, ulongAdd, ulongSub, PGSIZE, USERTOP,
    ULONG_VALUES] at htop ⊢
  omega

/-- **What is filled is in the pages of the segment.** -/
theorem WellFormed.fits (hwf : WellFormed s binary size) :
    ∀ x ∈ segments s binary, PagedSpace.Fits PGSIZE x := by
  intro x hx a ha
  obtain ⟨n, hn, rfl⟩ := mem_segments.mp hx
  obtain ⟨hlow, htop⟩ := hwf.range n hn
  rw [mem_pages_segment]
  exact Proghdr.maps_of_contains htop (mem_addresses_segment hlow (hwf.sizes n hn) ha).1

/-- **Different segments fill different addresses.** -/
theorem WellFormed.disjointed (hwf : WellFormed s binary size) :
    PagedSpace.Disjointed (segments s binary) := by
  refine segments_pairwise.mpr fun i j hij hj a ha ha' => ?_
  have hi := hij.trans hj
  exact hwf.disjoint i j hij hj a (mem_addresses_segment (hwf.range i hi).1 (hwf.sizes i hi) ha).1
    (mem_addresses_segment (hwf.range j hj).1 (hwf.sizes j hj) ha').1

/-- **The segments are loaded one after the other.** -/
theorem WellFormed.loadHeaders (hwf : WellFormed s binary size)
    (hend : binary + size < ULONG_VALUES) :
    Loader.loadHeaders s binary (headerCount s binary) (firstHeader s binary) m
      = m.load NPTENTRIES PGSIZE (segments s binary) := by
  rw [(hwf.headers hend).1]
  exact loadHeaders_eq_load (ulongAdd_lt ..) hwf.sizes

/-- **A segment whose bytes all come from the file fills its pages**, unless it is empty. -/
theorem WellFormed.full (hwf : WellFormed s binary size) (hn : n < e_phnum s binary)
    (hfile : (programHeader s binary n).p_filesz = (programHeader s binary n).p_memsz)
    (hpos : (programHeader s binary n).p_memsz ≠ 0) :
    PagedSpace.Full PGSIZE (segment s binary (headerAt s binary n)) := by
  obtain ⟨hlow, htop⟩ := hwf.range n hn
  have haddresses : (segment s binary (headerAt s binary n)).addresses
      = List.range' (programHeader s binary n).p_va (programHeader s binary n).p_memsz :=
    segment_addresses hfile
  refine ⟨hwf.fits _ (mem_segments.mpr ⟨n, hn, rfl⟩), List.nodup_range', ?_, fun p hp => ?_⟩
  · rw [haddresses]
    exact List.nodup_range'
  · have hmaps := (mem_pages_segment (a := p * PGSIZE)).mp (by
      rwa [Nat.mul_div_cancel _ (by decide : 0 < PGSIZE)])
    -- the first byte of the page, or of the segment
    refine ⟨max (p * PGSIZE) (programHeader s binary n).p_va, ?_, ?_⟩
    · rw [haddresses, List.mem_range'_1]
      simp only [Proghdr.Maps, programHeader, vaStart, vaEnd, roundDown, roundUp, ulongAdd, ulongSub,
        PGSIZE, USERTOP, ULONG_VALUES] at *
      omega
    · simp only [Proghdr.Maps, programHeader, vaStart, vaEnd, roundDown, roundUp, ulongAdd, ulongSub,
        PGSIZE, USERTOP, ULONG_VALUES] at *
      omega

/-! ## The image -/

/-- **The image of a file is in memory**: every byte of a segment is the byte of the file, or zero. -/
structure ImageLoaded (s s' : State) (binary entry : Nat) : Prop where
  entryPoint : entry = e_entry s binary
  bytes : ∀ n < e_phnum s binary, ∀ k < (programHeader s binary n).p_memsz,
    Present s' ((programHeader s binary n).p_va + k)
      ∧ byteAt s' ((programHeader s binary n).p_va + k)
        = if k < (programHeader s binary n).p_filesz
          then byteAt s (binary + ((programHeader s binary n).p_offset + k)) else 0

/-- **A file is loaded as its program headers say**, whatever the free frames have in them. -/
def LoadsImage (s : State) (binary size : Nat) : Prop :=
  ∀ ram, (∀ f, f ∉ s.PfnFreeList → ram f = s.ram f) →
    ∀ r, (elfBinaryLoader s.cr3 binary size { s with ram }).result = .ok r →
      ImageLoaded s r.2 binary r.1

/-- Every byte of the segments comes from the file. -/
def FromFile (s : State) (binary : Nat) : Prop :=
  ∀ n < e_phnum s binary, (programHeader s binary n).p_filesz = (programHeader s binary n).p_memsz

/-- **No segment maps a page with a byte of an earlier segment.** -/
def PagesApart (s : State) (binary : Nat) : Prop :=
  ∀ i j, i < j → j < e_phnum s binary → ∀ a,
    (programHeader s binary i).Contains a → ¬ (programHeader s binary j).Maps a

/-- **A well-formed file, before it is loaded** into a new process. -/
structure Loadable (s : State) (binary size : Nat) : Prop where
  unmapped : Unmapped s
  buffer : FileBuffer s binary size
  wellFormed : WellFormed s binary size
  below : binary + size < ULONG_VALUES

/-- **What a load that has returned has done.** -/
theorem Loadable.spec (h : Loadable s binary size) (hram : ∀ f, f ∉ s.PfnFreeList → ram f = s.ram f)
    {r : Nat × State} (hrun : (elfBinaryLoader s.cr3 binary size { s with ram }).result = .ok r) :
    r.1 = e_entry s binary ∧ ∃ m' use', Private { s with ram } r.2 m' use'
      ∧ (PagedSpace.empty s.PfnFreeList).load NPTENTRIES PGSIZE (segments s binary) = some m' := by
  obtain ⟨hb, hsame⟩ := h.buffer.congr h.unmapped.root hram
  have hr := h.wellFormed.fileInRange h.below
  obtain ⟨-, hkeeps⟩ := elfBinaryLoader_keeps (h.unmapped.congr hram).private hb
    (hsame.fileInRange h.buffer hr)
  obtain ⟨-, hentry, m', use', hprivate, hload⟩ := hkeeps r hrun
  obtain ⟨hfirst, hcount, -⟩ := hsame.table h.buffer hr.header
  refine ⟨?_, m', use', hprivate, ?_⟩
  · rw [hentry, hsame.header h.buffer hr.header (by decide : 24 + 4 ≤ 46), e_entry]
  · rw [hfirst, hcount, hsame.loadHeaders h.buffer hr.segments (ulongAdd_lt ..),
      h.wellFormed.loadHeaders h.below] at hload
    exact hload

/-- **A load returns** whatever the free frames have in them. -/
theorem Loadable.returns (h : Loadable s binary size)
    (hram : ∀ f, f ∉ s.PfnFreeList → ram f = s.ram f)
    (hload : (PagedSpace.empty s.PfnFreeList).load NPTENTRIES PGSIZE (segments s binary) = some m') :
    ∃ r use', (elfBinaryLoader s.cr3 binary size { s with ram }).result = .ok r
      ∧ Private { s with ram } r.2 m' use' := by
  obtain ⟨hb, hsame⟩ := h.buffer.congr h.unmapped.root hram
  have hr := h.wellFormed.fileInRange h.below
  obtain ⟨hfirst, hcount, -, haccepts⟩ := hsame.table h.buffer hr.header
  have hheaders : loadHeaders { s with ram } binary (headerCount { s with ram } binary)
      (firstHeader { s with ram } binary) (.empty s.PfnFreeList) = some m' := by
    rw [hfirst, hcount, hsame.loadHeaders h.buffer hr.segments (ulongAdd_lt ..),
      h.wellFormed.loadHeaders h.below]
    exact hload
  obtain ⟨s', use', hrun, hprivate⟩ := elfBinaryLoader_returns (h.unmapped.congr hram).private hb
    (hsame.fileInRange h.buffer hr) (haccepts.trans h.wellFormed.accepted) hheaders
  exact ⟨_, use', hrun, hprivate⟩

/-- The byte at a user address that has been mapped. -/
theorem byteAt_of_page {f : Nat} (h : Private s s' m use) (ha : IsUserAddress a)
    (hf : m.page (a / PGSIZE) = some f) : Present s' a
      ∧ byteAt s' a = (m.stored f (a % PGSIZE)).getD (s.ram f (a % PGSIZE)) := by
  obtain ⟨hphysical, hbytes⟩ := h.user_page ha hf
  refine ⟨(h.user_present ha).mpr (by simp [hf]), ?_⟩
  rw [byteAt, hphysical, hbytes]

/-- **A byte that is known** is in memory. -/
theorem byteAt_of_read {b : BitVec 8} (h : Private s s' m use) (ha : IsUserAddress a)
    (hread : m.read PGSIZE a = some b) : Present s' a ∧ byteAt s' a = b := by
  obtain ⟨f, hf, hstored⟩ := Option.bind_eq_some_iff.mp hread
  obtain ⟨hpresent, hbyte⟩ := byteAt_of_page h ha hf
  refine ⟨hpresent, ?_⟩
  rw [hbyte, hstored, Option.getD_some]

/-- **The image is loaded** when every byte comes from the file and no segment maps a page of an earlier
one. -/
theorem Loadable.loadsImage (h : Loadable s binary size) (hfile : FromFile s binary)
    (hpages : PagesApart s binary) : LoadsImage s binary size := by
  intro ram hram r hrun
  have hwf := h.wellFormed
  obtain ⟨hentry, m', use', hprivate, hload⟩ := h.spec hram hrun
  have hapart : (segments s binary).Pairwise fun x y => ∀ a ∈ x.addresses, a / PGSIZE ∉ y.pages := by
    refine segments_pairwise.mpr fun i j hij hj a ha => ?_
    have hi := hij.trans hj
    rw [mem_pages_segment]
    exact hpages i j hij hj a (mem_addresses_segment (hwf.range i hi).1 (hwf.sizes i hi) ha).1
  obtain ⟨hread, -⟩ := PagedSpace.load_intact h.unmapped.private.toSeparated hwf.fits hapart hload
  refine ⟨hentry, fun n hn k hk => ?_⟩
  obtain ⟨hlow, htop⟩ := hwf.range n hn
  have hknown := hread _ (mem_segments.mpr ⟨n, hn, rfl⟩) ((programHeader s binary n).p_va + k) (by
    rw [segment_addresses (hfile n hn), List.mem_range'_1]
    exact ⟨Nat.le_add_right .., Nat.add_lt_add_left hk _⟩)
  have huser : IsUserAddress ((programHeader s binary n).p_va + k) :=
    (Nat.add_lt_add_left hk _).trans_le htop
  obtain ⟨hpresent, hbyte⟩ := byteAt_of_read hprivate huser hknown
  refine ⟨hpresent, hbyte.trans ?_⟩
  have hsource := hwf.source n hn
  have hbelow := h.below
  rw [hfile n hn, if_pos hk]
  show (if (programHeader s binary n).p_va + k < (programHeader s binary n).p_va
      + (programHeader s binary n).p_filesz
    then byteAt s (ulongAdd (ulongAdd binary (programHeader s binary n).p_offset) _) else 0) = _
  rw [hfile n hn, if_pos (Nat.add_lt_add_left hk _), ulongAdd_ulongAdd]
  have hsum : (programHeader s binary n).p_va + k - (proghdr s (headerAt s binary n)).p_va = k :=
    Nat.add_sub_cancel_left ..
  rw [hsum, ulongAdd_of_lt (by rw [hfile n hn] at hsource; omega)]

/-! ## What a wrong image shows -/

/-- Nothing is known before the first segment is loaded. -/
theorem counted_empty (h : Unmapped s) :
    PagedSpace.Counted s.PfnFreeList.toFinset PGSIZE ∅ (.empty s.PfnFreeList : PagedSpace (BitVec 8)) where
  separated := ⟨_, h.private.toSeparated⟩
  free f hf := List.mem_toFinset.mpr hf
  page p f hf := by cases hf
  mapped a ha := absurd ha (Finset.notMem_empty a)
  card := by
    refine (Finset.card_eq_zero.mpr (Finset.eq_empty_of_forall_notMem fun x hx => ?_)).le
    obtain ⟨f, i⟩ := x
    have hsome := (PagedSpace.mem_known.mp hx).2
    cases hsome

/-- There is another byte. -/
theorem exists_other (x : BitVec 8) : ∃ b, b ≠ x := by
  by_cases hx : x = 0
  · exact ⟨1, by rw [hx]; decide⟩
  · exact ⟨0, Ne.symm hx⟩

/-- **When the image is loaded whatever the free frames have in them, every byte of it has been
stored.** -/
theorem LoadsImage.known (hi : LoadsImage s binary size) (h : Loadable s binary size)
    (hload : (PagedSpace.empty s.PfnFreeList).load NPTENTRIES PGSIZE (segments s binary) = some m')
    (hn : n < e_phnum s binary) (ha : (programHeader s binary n).Contains a) :
    (m'.read PGSIZE a).isSome = true := by
  have hwf := h.wellFormed
  have hS : ∀ x ∈ segments s binary, ∀ a ∈ x.addresses, a ∉ (∅ : Finset Nat) := fun _ _ _ _ =>
    Finset.notMem_empty _
  have hcounted := (counted_empty h.unmapped).load (by decide) hwf.disjointed hS hload
  have huser : IsUserAddress a := ha.2.trans_le (hwf.range n hn).2
  obtain ⟨k, hk, rfl⟩ : ∃ k < (programHeader s binary n).p_memsz,
      a = (programHeader s binary n).p_va + k :=
    ⟨a - (programHeader s binary n).p_va, by have := ha.2; have := ha.1; omega,
      (Nat.add_sub_cancel' ha.1).symm⟩
  obtain ⟨r, use', hrun, hprivate⟩ := h.returns (fun _ _ => rfl) hload
  have hpresent := ((hi s.ram (fun _ _ => rfl) r hrun).bytes n hn k hk).1
  obtain ⟨f, hf⟩ := Option.ne_none_iff_exists'.mp ((hprivate.user_present huser).mp hpresent)
  cases hstored : m'.stored f (((programHeader s binary n).p_va + k) % PGSIZE) with
  | some b =>
    rw [PagedSpace.read, hf, Option.bind_some, hstored]
    rfl
  | none =>
    -- another byte in the frame, and the image is not loaded
    have hfree : f ∈ s.PfnFreeList := List.mem_toFinset.mp (hcounted.page _ f hf)
    obtain ⟨b, hb⟩ := exists_other (if k < (programHeader s binary n).p_filesz
      then byteAt s (binary + ((programHeader s binary n).p_offset + k)) else 0)
    have hram : ∀ g, g ∉ s.PfnFreeList → Function.update s.ram f (fun _ => b) g = s.ram g := by
      intro g hg
      refine Function.update_of_ne ?_ ..
      rintro rfl
      exact hg hfree
    obtain ⟨r', use₁, hrun', hprivate'⟩ := h.returns hram hload
    have hbyte := ((hi _ hram r' hrun').bytes n hn k hk).2
    rw [(byteAt_of_page hprivate' huser hf).2, hstored] at hbyte
    refine absurd (Eq.trans ?_ hbyte) hb
    simp

/-- The addresses of the image. -/
def imageAddresses (s : State) (binary : Nat) : Finset Nat :=
  (Finset.range (e_phnum s binary)).biUnion fun n => Finset.Ico (programHeader s binary n).p_va
    ((programHeader s binary n).p_va + (programHeader s binary n).p_memsz)

theorem mem_imageAddresses : a ∈ imageAddresses s binary ↔
    ∃ n < e_phnum s binary, (programHeader s binary n).Contains a := by
  simp [imageAddresses, Proghdr.Contains]

/-- **What is filled is part of the image**, without the last byte of a segment that has more bytes in
memory than in the file. -/
theorem WellFormed.addresses_subset (hwf : WellFormed s binary size) (hn : n < e_phnum s binary)
    (hlt : (programHeader s binary n).p_filesz < (programHeader s binary n).p_memsz) :
    PagedSpace.addresses (segments s binary) ⊆ (imageAddresses s binary).erase
      ((programHeader s binary n).p_va + (programHeader s binary n).p_memsz - 1) := by
  intro a ha
  obtain ⟨x, hx, ha⟩ := PagedSpace.mem_addresses.mp ha
  obtain ⟨i, hi, rfl⟩ := mem_segments.mp hx
  obtain ⟨hin, hlast⟩ := mem_addresses_segment (hwf.range i hi).1 (hwf.sizes i hi) ha
  refine Finset.mem_erase.mpr ⟨?_, mem_imageAddresses.mpr ⟨i, hi, hin⟩⟩
  rintro rfl
  have hown : (programHeader s binary n).Contains
      ((programHeader s binary n).p_va + (programHeader s binary n).p_memsz - 1) := by
    simp only [Proghdr.Contains]
    omega
  rcases Nat.lt_trichotomy i n with hin' | rfl | hni
  · exact hwf.disjoint i n hin' hn _ hin hown
  · exact hlast hlt rfl
  · exact hwf.disjoint n i hni hi _ hown hin

/-- **When the image is loaded, every byte of it comes from the file**: a byte that does not is never
stored. -/
theorem LoadsImage.fromFile (hi : LoadsImage s binary size) (h : Loadable s binary size)
    (hload : (PagedSpace.empty s.PfnFreeList).load NPTENTRIES PGSIZE (segments s binary) = some m') :
    FromFile s binary := by
  intro n hn
  have hwf := h.wellFormed
  refine (hwf.sizes n hn).antisymm (Nat.not_lt.mp fun hlt => ?_)
  have hknown : ∀ a ∈ imageAddresses s binary, (m'.read PGSIZE a).isSome = true := by
    intro a ha
    obtain ⟨i, hi', hin⟩ := mem_imageAddresses.mp ha
    exact hi.known h hload hi' hin
  have hle := PagedSpace.card_le_of_load (counted_empty h.unmapped) (by decide) hwf.disjointed hload
    hknown
  have hlast : (programHeader s binary n).p_va + (programHeader s binary n).p_memsz - 1
      ∈ imageAddresses s binary := by
    refine mem_imageAddresses.mpr ⟨n, hn, ?_⟩
    simp only [Proghdr.Contains]
    omega
  have hfewer := Finset.card_le_card (hwf.addresses_subset hn hlt)
  have hcard := Finset.card_erase_lt_of_mem hlast
  omega

/-- **When the image is loaded, no segment maps a page of an earlier one**, if no segment is empty. -/
theorem LoadsImage.pagesApart (hi : LoadsImage s binary size) (h : Loadable s binary size)
    (hload : (PagedSpace.empty s.PfnFreeList).load NPTENTRIES PGSIZE (segments s binary) = some m')
    (hpos : ∀ n < e_phnum s binary, (programHeader s binary n).p_memsz ≠ 0) : PagesApart s binary := by
  have hwf := h.wellFormed
  have hfile := hi.fromFile h hload
  have hfilled : PagedSpace.Filled s.PfnFreeList.toFinset PGSIZE
      (.empty s.PfnFreeList : PagedSpace (BitVec 8)) := fun p f hf => by cases hf
  have hfull : ∀ x ∈ segments s binary, PagedSpace.Full PGSIZE x := by
    intro x hx
    obtain ⟨n, hn, rfl⟩ := mem_segments.mp hx
    exact hwf.full hn (hfile n hn) (hpos n hn)
  have hall : ∀ x ∈ segments s binary, ∀ a ∈ x.addresses, (m'.read PGSIZE a).isSome = true := by
    intro x hx a ha
    obtain ⟨n, hn, rfl⟩ := mem_segments.mp hx
    exact hi.known h hload hn (mem_addresses_segment (hwf.range n hn).1 (hwf.sizes n hn) ha).1
  have hdisjoint := PagedSpace.disjoint_of_load (counted_empty h.unmapped) (by decide) hfilled hfull
    hwf.disjointed hload hall
  intro i j hij hj a ha hmaps
  obtain ⟨hlow, htop⟩ := hwf.range i (hij.trans hj)
  exact segments_pairwise.mp hdisjoint i j hij hj
    (mem_pages_segment.mpr (Proghdr.maps_of_contains htop ha))
    (mem_pages_segment.mpr hmaps)

/-- **The image of a well-formed file is loaded** when every byte of it comes from the file and no segment
maps a page with a byte of an earlier one. When it is loaded, every byte comes from the file, and unless
a segment is empty, no segment maps such a page. -/
theorem elf_image_iff {t : List (PageEvent × PageMachine)} {m : PageMachine}
    (hrun : (pageSystem L).Run t m) (hcr : m.state.cr3 ∈ m.dirs)
    (hnew : ∀ i < userEntries, m.state.entry m.state.cr3 i = ⟨0⟩) (hfile : FileInPool m binary size)
    (hend : binary + size < ULONG_VALUES) (hwf : WellFormed m.state binary size)
    (hreturns : ∃ r, (elfBinaryLoader m.state.cr3 binary size m.state).result = .ok r) :
    (FromFile m.state binary ∧ PagesApart m.state binary → LoadsImage m.state binary size)
      ∧ (LoadsImage m.state binary size → FromFile m.state binary)
      ∧ ((∀ n < e_phnum m.state binary, (programHeader m.state binary n).p_memsz ≠ 0) →
        (LoadsImage m.state binary size ↔
          FromFile m.state binary ∧ PagesApart m.state binary)) := by
  have hinv := pageSystem_ledger hrun
  have hb := hfile.buffer hinv hcr
  obtain ⟨tables, hledger, -⟩ := hinv
  have h : Loadable m.state binary size := ⟨hledger.unmapped hcr hnew, hb, hwf, hend⟩
  obtain ⟨r, hok⟩ := hreturns
  obtain ⟨-, m', use', -, hload⟩ := h.spec (fun _ _ => rfl) hok
  refine ⟨fun hc => h.loadsImage hc.1 hc.2, fun hi => hi.fromFile h hload, fun hpos => ?_⟩
  exact ⟨fun hi => ⟨hi.fromFile h hload, hi.pagesApart h hload hpos⟩, fun hc => h.loadsImage hc.1 hc.2⟩

/-! ## Files with one segment -/

/-- A well-formed file with one segment can be told. -/
def oneSegment (s : State) (binary size : Nat) : Bool :=
  acceptsHeader s binary && decide (sizeofElf ≤ size)
    && decide (e_phoff s binary + e_phnum s binary * sizeofProghdr ≤ size)
    && decide (e_phnum s binary = 1)
    && decide (valueAt s 4 (headerAt s binary 0) = ELF_PROG_LOAD)
    && decide ((programHeader s binary 0).p_filesz ≤ (programHeader s binary 0).p_memsz)
    && decide ((programHeader s binary 0).p_offset + (programHeader s binary 0).p_filesz ≤ size)
    && decide (PGSIZE ≤ (programHeader s binary 0).p_va)
    && decide ((programHeader s binary 0).p_va + (programHeader s binary 0).p_memsz ≤ USERTOP)

/-- It is well-formed, and no segment maps a page of another one. -/
theorem oneSegment_wellFormed (h : oneSegment s binary size = true) :
    WellFormed s binary size ∧ PagesApart s binary ∧ e_phnum s binary = 1 := by
  simp only [oneSegment, Bool.and_eq_true, decide_eq_true_eq] at h
  obtain ⟨⟨⟨⟨⟨⟨⟨⟨haccepted, hheader⟩, htable⟩, hone⟩, hload⟩, hsizes⟩, hsource⟩, hlow⟩, htop⟩ := h
  have hzero : ∀ n < e_phnum s binary, n = 0 := by omega
  refine ⟨⟨haccepted, hheader, htable, ?_, ?_, ?_, ?_, fun i j hij hj => ?_⟩, fun i j hij hj => ?_, hone⟩
  · intro n hn
    rw [hzero n hn]
    exact hload
  · intro n hn
    rw [hzero n hn]
    exact hsizes
  · intro n hn
    rw [hzero n hn]
    exact hsource
  · intro n hn
    rw [hzero n hn]
    exact ⟨hlow, htop⟩
  · omega
  · omega

/-- The file with a segment of four bytes from the file is loaded as its header says. -/
theorem elf_image_loaded : ∃ m : PageMachine,
    (∃ r, (elfBinaryLoader m.state.cr3 0x80400000 84 m.state).result = .ok r)
      ∧ LoadsImage m.state 0x80400000 84 := by
  obtain ⟨t, m, hrun, hm⟩ := file_run [safeHeader] 0xAA (fun m => readyToLoad 84 m
    && oneSegment m.state 0x80400000 84
    && decide ((programHeader m.state 0x80400000 0).p_filesz = (programHeader m.state 0x80400000 0).p_memsz)
    && (elfBinaryLoader m.state.cr3 0x80400000 84 m.state).result.isOk) (by decide +kernel)
  simp only [Bool.and_eq_true, decide_eq_true_eq] at hm
  obtain ⟨⟨⟨hready, hone⟩, hfilesz⟩, hok⟩ := hm
  obtain ⟨hcr, hnew, hfile⟩ := readyToLoad_spec hready (by decide)
  obtain ⟨hwf, hpages, hphnum⟩ := oneSegment_wellFormed hone
  have hfrom : FromFile m.state 0x80400000 := by
    intro n hn
    obtain rfl : n = 0 := by omega
    exact hfilesz
  obtain ⟨hloads, -⟩ := elf_image_iff hrun hcr hnew hfile (by decide) hwf (isOk_result hok)
  exact ⟨m, isOk_result hok, hloads ⟨hfrom, hpages⟩⟩

/-- A segment with four bytes from the file, and four that are to be zero. -/
def bssHeader : Proghdr := ⟨0, 0x800000, 4, 8⟩

/-- **Not every well-formed file is loaded as its headers say**: the last four bytes of the segment are
what the frame had in them. -/
theorem elf_image_wrong : ¬ ∀ (L : Layout) (t : List (PageEvent × PageMachine)) (m : PageMachine)
    (binary size : Nat), (pageSystem L).Run t m → m.state.cr3 ∈ m.dirs →
    (∀ i < userEntries, m.state.entry m.state.cr3 i = ⟨0⟩) → FileInPool m binary size →
    binary + size < ULONG_VALUES → WellFormed m.state binary size →
    (∃ r, (elfBinaryLoader m.state.cr3 binary size m.state).result = .ok r) →
    LoadsImage m.state binary size := by
  intro hall
  obtain ⟨t, m, hrun, hm⟩ := file_run [bssHeader] 0xAA (fun m => readyToLoad 84 m
    && oneSegment m.state 0x80400000 84
    && decide (programHeader m.state 0x80400000 0 = bssHeader)
    && decide (((elfBinaryLoader m.state.cr3 0x80400000 84 m.state).result.toOption.map
      fun r => byteAt r.2 0x800007) = some 0xAA)) (by decide +kernel)
  simp only [Bool.and_eq_true, decide_eq_true_eq] at hm
  obtain ⟨⟨⟨hready, hone⟩, hheader⟩, hbyte⟩ := hm
  obtain ⟨hcr, hnew, hfile⟩ := readyToLoad_spec hready (by decide)
  obtain ⟨hwf, -, hphnum⟩ := oneSegment_wellFormed hone
  cases hrun' : (elfBinaryLoader m.state.cr3 0x80400000 84 m.state).result with
  | error e =>
    rw [hrun'] at hbyte
    cases hbyte
  | ok r =>
    have hloads := hall firstLayout t m 0x80400000 84 hrun hcr hnew hfile (by decide) hwf ⟨r, hrun'⟩
    have himage := ((hloads m.state.ram (fun _ _ => rfl) r hrun').bytes 0 (by omega) 7 (by
      rw [hheader]
      decide)).2
    rw [hheader, if_neg (by decide)] at himage
    rw [hrun'] at hbyte
    have hwrong : byteAt r.2 0x800007 = 0xAA := Option.some.inj hbyte
    exact absurd (hwrong.symm.trans himage) (by decide)

end KaushOS.Loader
