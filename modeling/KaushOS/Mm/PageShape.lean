import KaushOS.Library.Occurrences
import KaushOS.Mm.PageTables

/-! # The shape of page tables

What all page directories and page tables look like together, and which frames their entries hold.

* **`Layout`** — the frames after the boot.
* **`Shape`** — the page directories of all address spaces, their page tables, and the pages in them.
* **`Shape.storePage`, `Shape.addTable`, `Shape.removeTable`, `Shape.addDir`, `Shape.removeDir`** — what
  may be stored.
* **`refs`** — the number of valid entries that hold a frame, and how each store changes it. -/

namespace KaushOS.Paging

open Occurrences

/-! ## Directories and page tables -/

/-- **The frames after the boot**: `managed` are those that have been put on the free list, `kernel`
the page tables of the kernel half, but for the one of the first 4 MB. -/
structure Layout where
  globalPgdir : Nat
  kernel : Finset Nat
  managed : Finset Nat
  bound : ∀ f ∈ managed, 0 < f ∧ f < 1048576
  kernel_notMem : ∀ x ∈ kernel, x ∉ managed
  global_notMem : globalPgdir ∉ managed
  global_notKernel : globalPgdir ∉ kernel

/-- The frame that a valid entry holds. -/
def MMPTE.target (p : MMPTE) : Option Nat := if p.Valid then some p.PageFrameNumber else none

/-- The entries of all frames. -/
abbrev Entries := Nat → Nat → MMPTE

/-- A store to an entry. -/
def storeEntry (E : Entries) (x j : Nat) (p : MMPTE) : Entries :=
  fun y k => if y = x ∧ k = j then p else E y k

/-- The index of `KERNBASE` in a page directory. -/
def kernelEntry : Nat := PDX KERNBASE

/-- The index at which a page directory holds itself. -/
def selfEntry : Nat := PDX MMPAGETABLEAREA_START

/-- An index in the kernel half whose page table has been set up at boot and is managed since. -/
def KernelIndex (i : Nat) : Prop := kernelEntry < i ∧ i < NPTENTRIES ∧ i ≠ selfEntry

/-- The permissions of a user page, and of a user page table. -/
def userPerm : Nat := PTE_W ||| PTE_U

/-- **A page** that is mapped by an entry of the page table `x`. What a process may access is neither a
page table nor a directory. -/
structure Layout.Page (L : Layout) (dirs tables : Finset Nat) (x : Nat) (p : MMPTE) : Prop where
  valid : p.Valid = true
  managed : p.PageFrameNumber ∈ L.managed
  copyOnWrite : p.CopyOnWrite = true → p.Writable = false
  user : p.UserPriv = true → x ∈ tables ∧ p.PageFrameNumber ∉ tables
  notDir : x ∈ tables → p.PageFrameNumber ∉ dirs

/-- **The page directories** `dirs` of the address spaces, and the page tables `tables` of their user
halves. -/
structure Directories (L : Layout) (dirs tables : Finset Nat) (E : Entries) : Prop where
  dirs_managed : ∀ d ∈ dirs, d ∈ L.managed
  tables_managed : ∀ t ∈ tables, t ∈ L.managed
  apart : ∀ d ∈ dirs, d ∉ tables
  global : ∀ i < kernelEntry, E L.globalPgdir i = ⟨0⟩
  half : ∀ d ∈ dirs, ∀ i, KernelIndex i → E d i = E L.globalPgdir i
  self : ∀ d, d ∈ dirs ∨ d = L.globalPgdir → (E d selfEntry).Valid = true
    ∧ (E d selfEntry).PageFrameNumber = d
  kernel : ∀ i, KernelIndex i → (E L.globalPgdir i).Valid = true
    ∧ (E L.globalPgdir i).PageFrameNumber ∈ L.kernel
  table : ∀ d ∈ dirs, ∀ i < userEntries, E d i = ⟨0⟩
    ∨ (∃ t ∈ tables, (E d i).target = some t) ∧ (E d i).UserPriv = true ∧ (E d i).Writable = true
  top : ∀ d ∈ dirs, ∀ i, userEntries ≤ i → i < kernelEntry → E d i = ⟨0⟩
  owner : ∀ t ∈ tables, ∃ d ∈ dirs, ∃ i < userEntries, (E d i).target = some t
  unique : ∀ d ∈ dirs, ∀ i < userEntries, ∀ d' ∈ dirs, ∀ i' < userEntries, ∀ t ∈ tables,
    (E d i).target = some t → (E d' i').target = some t → d = d' ∧ i = i'

/-- **The shape of all entries**: the page directories, and the pages in the page tables. -/
structure Shape (L : Layout) (dirs tables : Finset Nat) (E : Entries) : Prop extends
    Directories L dirs tables E where
  page : ∀ x, x ∈ tables ∨ x ∈ L.kernel → ∀ j < NPTENTRIES, E x j = ⟨0⟩ ∨ L.Page dirs tables x (E x j)

/-! ## References -/

/-- The frames that the entries of one frame hold. Of a page directory only the user half counts. -/
def row (dirs : Finset Nat) (E : Entries) (x : Nat) (j : Fin NPTENTRIES) : Option Nat :=
  if x ∈ dirs ∧ userEntries ≤ j then none else (E x j).target

/-- **The number of valid entries that hold a frame**, over all page directories and page tables. -/
def refs (L : Layout) (dirs tables : Finset Nat) (E : Entries) (f : Nat) : Nat :=
  occurrences (dirs ∪ tables ∪ L.kernel) (row dirs E) (some f)

variable {L : Layout} {dirs tables : Finset Nat} {E E' : Entries} {s : State}
  {d t f x i j : Nat} {p : MMPTE}

/-! ## Stores -/

@[simp] theorem storeEntry_self : storeEntry E x j p x j = p := if_pos ⟨rfl, rfl⟩

theorem storeEntry_of_ne {y k : Nat} (h : y ≠ x ∨ k ≠ j) : storeEntry E x j p y k = E y k :=
  if_neg (not_and_or.mpr h)

/-- The entries after a store. -/
theorem entries_setEntry (s : State) (x j : Nat) (p : MMPTE) :
    (s.setEntry x j p).entry = storeEntry s.entry x j p := by
  funext y k
  exact entry_setEntry s x j y k p

/-- The empty entry holds nothing. -/
@[simp] theorem target_zero : (⟨0⟩ : MMPTE).target = none := by decide

/-- What a valid entry holds. -/
theorem target_of_valid (h : p.Valid = true) : p.target = some p.PageFrameNumber := if_pos h

/-- The user half of a page directory counts. -/
theorem userEntries_lt : userEntries < kernelEntry ∧ kernelEntry < NPTENTRIES := by decide

/-- An entry holds a frame when it is valid. -/
theorem target_eq_some {f : Nat} : p.target = some f ↔ p.Valid = true ∧ p.PageFrameNumber = f := by
  unfold MMPTE.target
  split
  · rename_i h
    rw [Option.some.injEq, h, eq_self_iff_true, true_and]
  · rename_i h
    simp [h]

/-- What an entry that is made holds. -/
theorem target_make {perm : Nat} (hf : f ∈ L.managed) (hperm : perm < 4096) :
    (MMPTE.make f perm).target = some f :=
  target_eq_some.mpr ⟨(MMPTE.make_fields f perm).1, MMPTE.make_frame (L.bound f hf).2 hperm⟩

/-- What the user half of a page directory holds is a page table. -/
theorem Directories.target_mem (h : Directories L dirs tables E) (hd : d ∈ dirs)
    (hi : i < userEntries) (ht : (E d i).target = some t) : t ∈ tables := by
  rcases h.table d hd i hi with hzero | ⟨⟨u, hu, he⟩, -⟩
  · rw [hzero, target_zero] at ht
    cases ht
  · rw [he] at ht
    exact Option.some.inj ht ▸ hu

/-- A page table is not a page directory, and none is one of the kernel's. -/
theorem Directories.table_apart (h : Directories L dirs tables E) (hx : x ∈ tables ∨ x ∈ L.kernel) :
    x ∉ dirs ∧ x ≠ L.globalPgdir := by
  rcases hx with hx | hx
  · refine ⟨fun hd => h.apart x hd hx, ?_⟩
    rintro rfl
    exact L.global_notMem (h.tables_managed _ hx)
  · refine ⟨fun hd => L.kernel_notMem x hx (h.dirs_managed x hd), ?_⟩
    rintro rfl
    exact L.global_notKernel hx

/-- Only the entries of the page directories matter. -/
theorem Directories.congr (h : Directories L dirs tables E)
    (heq : ∀ d, d ∈ dirs ∨ d = L.globalPgdir → E' d = E d) : Directories L dirs tables E' where
  dirs_managed := h.dirs_managed
  tables_managed := h.tables_managed
  apart := h.apart
  global i hi := by
    rw [heq _ (Or.inr rfl)]
    exact h.global i hi
  half d hd i hi := by
    rw [heq d (Or.inl hd), heq _ (Or.inr rfl)]
    exact h.half d hd i hi
  self d hd := by
    rw [heq d hd]
    exact h.self d hd
  kernel i hi := by
    rw [heq _ (Or.inr rfl)]
    exact h.kernel i hi
  table d hd i hi := by
    rw [heq d (Or.inl hd)]
    exact h.table d hd i hi
  top d hd i hlo hhi := by
    rw [heq d (Or.inl hd)]
    exact h.top d hd i hlo hhi
  owner t ht := by
    obtain ⟨d, hd, i, hi, he⟩ := h.owner t ht
    refine ⟨d, hd, i, hi, ?_⟩
    rw [heq d (Or.inl hd)]
    exact he
  unique d hd i hi d' hd' i' hi' t ht := by
    rw [heq d (Or.inl hd), heq d' (Or.inl hd')]
    exact h.unique d hd i hi d' hd' i' hi' t ht

/-- Only the frames with entries matter. -/
theorem Shape.congr (h : Shape L dirs tables E)
    (hdirs : ∀ d, d ∈ dirs ∨ d = L.globalPgdir → E' d = E d)
    (htables : ∀ x, x ∈ tables ∨ x ∈ L.kernel → E' x = E x) : Shape L dirs tables E' where
  toDirectories := h.toDirectories.congr hdirs
  page x hx j hj := by
    rw [htables x hx]
    exact h.page x hx j hj

/-- **An entry of a page table is stored.** -/
theorem Shape.storePage (h : Shape L dirs tables E) (hx : x ∈ tables ∨ x ∈ L.kernel)
    (hp : p = ⟨0⟩ ∨ L.Page dirs tables x p) : Shape L dirs tables (storeEntry E x j p) where
  toDirectories := h.toDirectories.congr fun d hd => by
    obtain ⟨hdir, hglobal⟩ := h.table_apart hx
    funext i
    refine storeEntry_of_ne (Or.inl ?_)
    rintro rfl
    exact hd.elim hdir hglobal
  page y hy k hk := by
    by_cases hyk : y = x ∧ k = j
    · obtain ⟨rfl, rfl⟩ := hyk
      rw [storeEntry_self]
      exact hp
    · rw [storeEntry_of_ne (not_and_or.mp hyk)]
      exact h.page y hy k hk

/-- A store to the user half of a page directory leaves the rest of the directories alone. -/
theorem Directories.of_store (h : Directories L dirs tables E) (hd : d ∈ dirs) (hi : i < userEntries) :
    storeEntry E d i p L.globalPgdir = E L.globalPgdir
      ∧ (∀ y k, userEntries ≤ k → storeEntry E d i p y k = E y k)
      ∧ ∀ x, x ∈ tables ∨ x ∈ L.kernel → storeEntry E d i p x = E x := by
  refine ⟨?_, fun y k hk => storeEntry_of_ne (Or.inr (by omega)), fun x hx => ?_⟩
  · funext k
    refine storeEntry_of_ne (Or.inl ?_)
    rintro hg
    exact L.global_notMem (hg ▸ h.dirs_managed d hd)
  · funext k
    refine storeEntry_of_ne (Or.inl ?_)
    rintro rfl
    exact (h.table_apart hx).1 hd

/-- **A page table is put into a page directory**: it is empty, and no entry holds it yet. -/
theorem Shape.addTable (h : Shape L dirs tables E) (hd : d ∈ dirs) (hi : i < userEntries)
    (hempty : E d i = ⟨0⟩) (ht : t ∈ L.managed) (hdir : t ∉ dirs) (hclear : ∀ j, E t j = ⟨0⟩)
    (hfresh : ∀ x, x ∈ tables ∨ x ∈ L.kernel → ∀ j < NPTENTRIES, (E x j).target ≠ some t)
    (hnew : t ∉ tables) :
    Shape L dirs (insert t tables) (storeEntry E d i (.make t userPerm)) := by
  obtain ⟨hglobal, hrest, htable⟩ := h.of_store (p := .make t userPerm) hd hi
  have htarget : (MMPTE.make t userPerm).target = some t := target_make ht (by decide)
  have hkernelHalf : ∀ k, KernelIndex k → userEntries ≤ k := fun k hk => by
    have hlt := hk.1
    have hle := userEntries_lt.1
    omega
  -- what holds the new page table is the new entry, and what holds another one is an old entry
  have hslot : ∀ d' ∈ dirs, ∀ k < userEntries, ∀ u,
      (storeEntry E d i (.make t userPerm) d' k).target = some u →
        (u = t ∧ d' = d ∧ k = i) ∨ (u ∈ tables ∧ (E d' k).target = some u) := by
    intro d' hd' k hk u hu
    by_cases hdk : d' = d ∧ k = i
    · obtain ⟨rfl, rfl⟩ := hdk
      rw [storeEntry_self, htarget] at hu
      exact Or.inl ⟨(Option.some.inj hu).symm, rfl, rfl⟩
    · rw [storeEntry_of_ne (not_and_or.mp hdk)] at hu
      exact Or.inr ⟨h.target_mem hd' hk hu, hu⟩
  have hold : ∀ d' ∈ dirs, ∀ k < userEntries, ∀ u ∈ tables, (E d' k).target = some u →
      (storeEntry E d i (.make t userPerm) d' k) = E d' k := by
    intro d' hd' k hk u hu he
    refine storeEntry_of_ne (not_and_or.mp ?_)
    rintro ⟨rfl, rfl⟩
    rw [hempty, target_zero] at he
    cases he
  refine ⟨⟨h.dirs_managed, ?_, ?_, ?_, ?_, ?_, ?_, ?_, ?_, ?_, ?_⟩, ?_⟩
  · exact Finset.forall_mem_insert .. |>.mpr ⟨ht, h.tables_managed⟩
  · intro d' hd' hmem
    rcases Finset.mem_insert.mp hmem with rfl | hmem
    · exact hdir hd'
    · exact h.apart d' hd' hmem
  · rw [hglobal]
    exact h.global
  · intro d' hd' k hk
    rw [hglobal, hrest d' k (hkernelHalf k hk)]
    exact h.half d' hd' k hk
  · intro d' hd'
    rw [hrest d' selfEntry (by decide)]
    exact h.self d' hd'
  · rw [hglobal]
    exact h.kernel
  · intro d' hd' k hk
    by_cases hdk : d' = d ∧ k = i
    · obtain ⟨rfl, rfl⟩ := hdk
      rw [storeEntry_self]
      refine Or.inr ⟨⟨t, Finset.mem_insert_self .., htarget⟩, ?_, ?_⟩
      · exact (MMPTE.make_fields t userPerm).2.2.1.trans (by decide)
      · exact (MMPTE.make_fields t userPerm).2.1.trans (by decide)
    · rw [storeEntry_of_ne (not_and_or.mp hdk)]
      refine (h.table d' hd' k hk).imp id (And.imp_left ?_)
      rintro ⟨u, hu, he⟩
      exact ⟨u, Finset.mem_insert_of_mem hu, he⟩
  · intro d' hd' k hlo hhi
    rw [hrest d' k hlo]
    exact h.top d' hd' k hlo hhi
  · intro u hu
    rcases Finset.mem_insert.mp hu with rfl | hu
    · exact ⟨d, hd, i, hi, by rw [storeEntry_self, htarget]⟩
    · obtain ⟨d', hd', k, hk, he⟩ := h.owner u hu
      exact ⟨d', hd', k, hk, by rw [hold d' hd' k hk u hu he, he]⟩
  · intro d₁ hd₁ i₁ hi₁ d₂ hd₂ i₂ hi₂ u _ h₁ h₂
    rcases hslot d₁ hd₁ i₁ hi₁ u h₁ with ⟨hu, rfl, rfl⟩ | ⟨hu, h₁⟩
    · rcases hslot d₂ hd₂ i₂ hi₂ u h₂ with ⟨-, rfl, rfl⟩ | ⟨hu', -⟩
      · exact ⟨rfl, rfl⟩
      · exact absurd (hu ▸ hu') hnew
    · rcases hslot d₂ hd₂ i₂ hi₂ u h₂ with ⟨hu', -⟩ | ⟨-, h₂⟩
      · exact absurd (hu' ▸ hu) hnew
      · exact h.unique d₁ hd₁ i₁ hi₁ d₂ hd₂ i₂ hi₂ u hu h₁ h₂
  · intro x hx j hj
    by_cases hxt : x = t
    · subst hxt
      rw [storeEntry_of_ne (Or.inl (by rintro rfl; exact hdir hd))]
      exact Or.inl (hclear j)
    · have hx' : x ∈ tables ∨ x ∈ L.kernel :=
        hx.imp (fun hm => (Finset.mem_insert.mp hm).resolve_left hxt) id
      rw [htable x hx']
      refine (h.page x hx' j hj).imp id fun hp => ?_
      refine ⟨hp.valid, hp.managed, hp.copyOnWrite, fun hu => ?_,
        fun hin => hp.notDir ((Finset.mem_insert.mp hin).resolve_left hxt)⟩
      obtain ⟨hmem, hnot⟩ := hp.user hu
      refine ⟨Finset.mem_insert_of_mem hmem, fun hin => ?_⟩
      rcases Finset.mem_insert.mp hin with heq | hin
      · exact hfresh x hx' j hj (target_eq_some.mpr ⟨hp.valid, heq⟩)
      · exact hnot hin

/-- **A page table is taken out of its page directory.** -/
theorem Shape.removeTable (h : Shape L dirs tables E) (hd : d ∈ dirs) (hi : i < userEntries)
    (ht : (E d i).target = some t) :
    Shape L dirs (tables.erase t) (storeEntry E d i ⟨0⟩) := by
  obtain ⟨hglobal, hrest, htable⟩ := h.of_store (p := ⟨0⟩) hd hi
  have hkernelHalf : ∀ k, KernelIndex k → userEntries ≤ k := fun k hk => by
    have hlt := hk.1
    have hle := userEntries_lt.1
    omega
  have hmem : t ∈ tables := h.target_mem hd hi ht
  -- the other entries hold other page tables
  have hslot : ∀ d' ∈ dirs, ∀ k < userEntries, ∀ u,
      (storeEntry E d i ⟨0⟩ d' k).target = some u → u ≠ t ∧ (E d' k).target = some u := by
    intro d' hd' k hk u hu
    by_cases hdk : d' = d ∧ k = i
    · obtain ⟨rfl, rfl⟩ := hdk
      rw [storeEntry_self, target_zero] at hu
      cases hu
    · rw [storeEntry_of_ne (not_and_or.mp hdk)] at hu
      refine ⟨?_, hu⟩
      rintro rfl
      exact hdk (h.unique d' hd' k hk d hd i hi u hmem hu ht)
  refine ⟨⟨h.dirs_managed, ?_, ?_, ?_, ?_, ?_, ?_, ?_, ?_, ?_, ?_⟩, ?_⟩
  · exact fun u hu => h.tables_managed u (Finset.mem_of_mem_erase hu)
  · exact fun d' hd' hin => h.apart d' hd' (Finset.mem_of_mem_erase hin)
  · rw [hglobal]
    exact h.global
  · intro d' hd' k hk
    rw [hglobal, hrest d' k (hkernelHalf k hk)]
    exact h.half d' hd' k hk
  · intro d' hd'
    rw [hrest d' selfEntry (by decide)]
    exact h.self d' hd'
  · rw [hglobal]
    exact h.kernel
  · intro d' hd' k hk
    by_cases hdk : d' = d ∧ k = i
    · obtain ⟨rfl, rfl⟩ := hdk
      exact Or.inl storeEntry_self
    · have hsame : storeEntry E d i ⟨0⟩ d' k = E d' k := storeEntry_of_ne (not_and_or.mp hdk)
      rw [hsame]
      refine (h.table d' hd' k hk).imp id (And.imp_left ?_)
      rintro ⟨u, hu, he⟩
      refine ⟨u, Finset.mem_erase.mpr ⟨(hslot d' hd' k hk u ?_).1, hu⟩, he⟩
      rw [hsame, he]
  · intro d' hd' k hlo hhi
    rw [hrest d' k hlo]
    exact h.top d' hd' k hlo hhi
  · intro u hu
    obtain ⟨hne, hu⟩ := Finset.mem_erase.mp hu
    obtain ⟨d', hd', k, hk, he⟩ := h.owner u hu
    refine ⟨d', hd', k, hk, ?_⟩
    rw [storeEntry_of_ne (not_and_or.mp ?_), he]
    rintro ⟨rfl, rfl⟩
    exact hne (Option.some.inj (he.symm.trans ht))
  · intro d₁ hd₁ i₁ hi₁ d₂ hd₂ i₂ hi₂ u hu h₁ h₂
    exact h.unique d₁ hd₁ i₁ hi₁ d₂ hd₂ i₂ hi₂ u (Finset.mem_of_mem_erase hu)
      (hslot d₁ hd₁ i₁ hi₁ u h₁).2 (hslot d₂ hd₂ i₂ hi₂ u h₂).2
  · intro x hx j hj
    have hx' : x ∈ tables ∨ x ∈ L.kernel := hx.imp Finset.mem_of_mem_erase id
    rw [htable x hx']
    refine (h.page x hx' j hj).imp id fun hp => ?_
    refine ⟨hp.valid, hp.managed, hp.copyOnWrite, fun hu => ?_,
      fun hin => hp.notDir (Finset.mem_of_mem_erase hin)⟩
    obtain ⟨hmem, hnot⟩ := hp.user hu
    refine ⟨?_, fun hin => hnot (Finset.mem_of_mem_erase hin)⟩
    rcases hx with hin | hin
    · exact hin
    · exact absurd (h.tables_managed x hmem) (L.kernel_notMem x hin)

/-- **A page directory is added**: its user half is empty, its kernel half is that of all directories,
and no page table of a process holds it. -/
theorem Shape.addDir (h : Shape L dirs tables E) (hd : d ∈ L.managed) (htables : d ∉ tables)
    (hempty : ∀ i < kernelEntry, E d i = ⟨0⟩)
    (hhalf : ∀ i, KernelIndex i → E d i = E L.globalPgdir i)
    (hself : (E d selfEntry).Valid = true ∧ (E d selfEntry).PageFrameNumber = d)
    (hfresh : ∀ x ∈ tables, ∀ j < NPTENTRIES, (E x j).target ≠ some d) :
    Shape L (insert d dirs) tables E where
  dirs_managed := Finset.forall_mem_insert .. |>.mpr ⟨hd, h.dirs_managed⟩
  tables_managed := h.tables_managed
  apart := Finset.forall_mem_insert .. |>.mpr ⟨htables, h.apart⟩
  global := h.global
  half := Finset.forall_mem_insert .. |>.mpr ⟨hhalf, h.half⟩
  self d' hd' := by
    rcases hd' with hin | rfl
    · rcases Finset.mem_insert.mp hin with rfl | hin
      · exact hself
      · exact h.self d' (Or.inl hin)
    · exact h.self _ (Or.inr rfl)
  kernel := h.kernel
  table d' hd' i hi := by
    rcases Finset.mem_insert.mp hd' with rfl | hd'
    · exact Or.inl (hempty i (Nat.lt_trans hi userEntries_lt.1))
    · exact h.table d' hd' i hi
  top d' hd' i hlo hhi := by
    rcases Finset.mem_insert.mp hd' with rfl | hd'
    · exact hempty i hhi
    · exact h.top d' hd' i hlo hhi
  owner t ht := by
    obtain ⟨d', hd', i, hi, he⟩ := h.owner t ht
    exact ⟨d', Finset.mem_insert_of_mem hd', i, hi, he⟩
  unique d₁ hd₁ i₁ hi₁ d₂ hd₂ i₂ hi₂ u hu h₁ h₂ := by
    have hnot : ∀ i < userEntries, (E d i).target ≠ some u := by
      intro i hi
      rw [hempty i (Nat.lt_trans hi userEntries_lt.1), target_zero]
      exact fun heq => by cases heq
    rcases Finset.mem_insert.mp hd₁ with rfl | hd₁
    · exact absurd h₁ (hnot i₁ hi₁)
    · rcases Finset.mem_insert.mp hd₂ with rfl | hd₂
      · exact absurd h₂ (hnot i₂ hi₂)
      · exact h.unique d₁ hd₁ i₁ hi₁ d₂ hd₂ i₂ hi₂ u hu h₁ h₂
  page x hx j hj := by
    refine (h.page x hx j hj).imp id fun hp => ?_
    refine ⟨hp.valid, hp.managed, hp.copyOnWrite, hp.user, fun hin hmem => ?_⟩
    rcases Finset.mem_insert.mp hmem with heq | hmem
    · exact hfresh x hin j hj (target_eq_some.mpr ⟨hp.valid, heq⟩)
    · exact hp.notDir hin hmem

/-- **A page directory is taken away** when its user half is empty. -/
theorem Shape.removeDir (h : Shape L dirs tables E)
    (hempty : ∀ i < userEntries, (E d i).target = none) : Shape L (dirs.erase d) tables E where
  dirs_managed d' hd' := h.dirs_managed d' (Finset.mem_of_mem_erase hd')
  tables_managed := h.tables_managed
  apart d' hd' := h.apart d' (Finset.mem_of_mem_erase hd')
  global := h.global
  half d' hd' := h.half d' (Finset.mem_of_mem_erase hd')
  self d' hd' := h.self d' (hd'.imp Finset.mem_of_mem_erase id)
  kernel := h.kernel
  table d' hd' := h.table d' (Finset.mem_of_mem_erase hd')
  top d' hd' := h.top d' (Finset.mem_of_mem_erase hd')
  owner t ht := by
    obtain ⟨d', hd', i, hi, he⟩ := h.owner t ht
    refine ⟨d', Finset.mem_erase.mpr ⟨?_, hd'⟩, i, hi, he⟩
    rintro rfl
    rw [hempty i hi] at he
    cases he
  unique d₁ hd₁ i₁ hi₁ d₂ hd₂ := h.unique d₁ (Finset.mem_of_mem_erase hd₁) i₁ hi₁ d₂
    (Finset.mem_of_mem_erase hd₂)
  page x hx j hj := by
    refine (h.page x hx j hj).imp id fun hp => ?_
    exact ⟨hp.valid, hp.managed, hp.copyOnWrite, hp.user,
      fun hin hmem => hp.notDir hin (Finset.mem_of_mem_erase hmem)⟩

/-! ## Counting -/

/-- A store to a page table, as a store to the rows. -/
theorem row_storePage (hx : x ∉ dirs) (hj : j < NPTENTRIES) :
    row dirs (storeEntry E x j p) = store (row dirs E) x ⟨j, hj⟩ p.target := by
  funext y k
  by_cases hy : y = x
  · subst hy
    have hrow : ∀ E' : Entries, row dirs E' y k = (E' y k).target := fun E' =>
      if_neg fun h => hx h.1
    rw [hrow, store, Function.update_self]
    by_cases hk : k = ⟨j, hj⟩
    · subst hk
      rw [Function.update_self, storeEntry_self]
    · rw [Function.update_of_ne hk, hrow, storeEntry_of_ne (Or.inr fun h => hk (Fin.ext h))]
  · rw [store, Function.update_of_ne hy]
    simp only [row, storeEntry_of_ne (Or.inl hy)]

/-- A store to the user half of a page directory, as a store to the rows. -/
theorem row_storeDir (hi : i < userEntries) :
    row dirs (storeEntry E d i p) = store (row dirs E) d
      ⟨i, Nat.lt_trans hi (Nat.lt_trans userEntries_lt.1 userEntries_lt.2)⟩ p.target := by
  funext y k
  by_cases hy : y = d
  · subst hy
    rw [store, Function.update_self]
    by_cases hk : (k : Nat) = i
    · obtain rfl : k = ⟨i, Nat.lt_trans hi (Nat.lt_trans userEntries_lt.1 userEntries_lt.2)⟩ :=
        Fin.ext hk
      rw [Function.update_self, row, storeEntry_self]
      exact if_neg fun h => absurd h.2 (Nat.not_le_of_lt hi)
    · rw [Function.update_of_ne fun h => hk (congrArg Fin.val h)]
      simp only [row, storeEntry_of_ne (Or.inr hk)]
  · rw [store, Function.update_of_ne hy]
    simp only [row, storeEntry_of_ne (Or.inl hy)]

/-- **A store to a page table** takes away one reference and adds one. -/
theorem refs_storePage (h : Directories L dirs tables E) (hx : x ∈ tables ∨ x ∈ L.kernel)
    (hj : j < NPTENTRIES) (f : Nat) :
    refs L dirs tables (storeEntry E x j p) f + (if (E x j).target = some f then 1 else 0)
      = refs L dirs tables E f + (if p.target = some f then 1 else 0) := by
  have hdir := (h.table_apart hx).1
  have hmem : x ∈ dirs ∪ tables ∪ L.kernel := by
    simp only [Finset.mem_union]
    exact hx.elim (fun hx => Or.inl (Or.inr hx)) Or.inr
  have hrow : row dirs E x ⟨j, hj⟩ = (E x j).target := if_neg fun h => hdir h.1
  unfold refs
  rw [row_storePage hdir hj, ← hrow]
  rw [occurrences_store (f := row dirs E) hmem ⟨j, hj⟩ (some f) p.target]

/-- A store to the user half of a page directory. -/
theorem refs_storeDir (L : Layout) (tables : Finset Nat) (E : Entries) (hd : d ∈ dirs)
    (hi : i < userEntries) (f : Nat) :
    refs L dirs tables (storeEntry E d i p) f + (if (E d i).target = some f then 1 else 0)
      = refs L dirs tables E f + (if p.target = some f then 1 else 0) := by
  have hmem : d ∈ dirs ∪ tables ∪ L.kernel := by
    simp only [Finset.mem_union]
    exact Or.inl (Or.inl hd)
  have hrow : row dirs E d ⟨i, Nat.lt_trans hi (Nat.lt_trans userEntries_lt.1 userEntries_lt.2)⟩
      = (E d i).target := if_neg fun h => absurd h.2 (Nat.not_le_of_lt hi)
  unfold refs
  rw [row_storeDir hi, ← hrow]
  rw [occurrences_store (f := row dirs E) hmem _ (some f) p.target]

/-- Only the frames with entries are counted. -/
theorem refs_congr (heq : ∀ y, y ∈ dirs ∨ y ∈ tables ∨ y ∈ L.kernel → E' y = E y) (f : Nat) :
    refs L dirs tables E' f = refs L dirs tables E f := by
  refine occurrences_congr fun y hy => ?_
  have hy' : y ∈ dirs ∨ y ∈ tables ∨ y ∈ L.kernel := by
    simp only [Finset.mem_union] at hy
    tauto
  funext k
  simp only [row, heq y hy']

/-- A valid entry of a page table is counted. -/
theorem refs_pos (h : Directories L dirs tables E) (hx : x ∈ tables ∨ x ∈ L.kernel)
    (hj : j < NPTENTRIES) (hf : (E x j).target = some f) : 0 < refs L dirs tables E f := by
  have hmem : x ∈ dirs ∪ tables ∪ L.kernel := by
    simp only [Finset.mem_union]
    exact hx.elim (fun hx => Or.inl (Or.inr hx)) Or.inr
  have hrow : row dirs E x ⟨j, hj⟩ = some f := by
    rw [row, if_neg fun h' => (h.table_apart hx).1 h'.1]
    exact hf
  exact occurrences_pos hmem hrow

/-- A valid entry of a page directory is counted. -/
theorem refs_pos_dir (L : Layout) (tables : Finset Nat) (hd : d ∈ dirs) (hi : i < userEntries)
    (hf : (E d i).target = some f) : 0 < refs L dirs tables E f := by
  have hmem : d ∈ dirs ∪ tables ∪ L.kernel := by
    simp only [Finset.mem_union]
    exact Or.inl (Or.inl hd)
  have hrow : row dirs E d ⟨i, Nat.lt_trans hi (Nat.lt_trans userEntries_lt.1 userEntries_lt.2)⟩
      = some f := by
    rw [row, if_neg fun h => absurd h.2 (Nat.not_le_of_lt hi)]
    exact hf
  exact occurrences_pos hmem hrow

/-- **A frame that is held once** is held by one entry only. -/
theorem refs_unique {y k : Nat} (h : Directories L dirs tables E)
    (hle : refs L dirs tables E f ≤ 1) (hx : x ∈ tables ∨ x ∈ L.kernel)
    (hy : y ∈ tables ∨ y ∈ L.kernel) (hj : j < NPTENTRIES) (hk : k < NPTENTRIES)
    (hxf : (E x j).target = some f) (hyf : (E y k).target = some f) : x = y ∧ j = k := by
  have hmem : ∀ z, z ∈ tables ∨ z ∈ L.kernel → z ∈ dirs ∪ tables ∪ L.kernel := by
    intro z hz
    simp only [Finset.mem_union]
    exact hz.elim (fun hz => Or.inl (Or.inr hz)) Or.inr
  have hrow : ∀ z l, z ∈ tables ∨ z ∈ L.kernel → (hl : l < NPTENTRIES) →
      (E z l).target = some f → row dirs E z ⟨l, hl⟩ = some f := by
    intro z l hz hl hf
    rw [row, if_neg fun h' => (h.table_apart hz).1 h'.1]
    exact hf
  unfold refs at hle
  obtain ⟨hxy, hjk⟩ := eq_of_occurrences_le_one hle (hmem x hx) (hmem y hy) (hrow x j hx hj hxf)
    (hrow y k hy hk hyf)
  exact ⟨hxy, congrArg Fin.val hjk⟩

/-- An empty page table holds nothing. -/
theorem refs_insertTable (ht : t ∉ dirs) (hnew : t ∉ tables) (hkernel : t ∉ L.kernel)
    (hclear : ∀ j < NPTENTRIES, (E t j).target = none) (f : Nat) :
    refs L dirs (insert t tables) E f = refs L dirs tables E f := by
  have hunion : dirs ∪ insert t tables ∪ L.kernel = insert t (dirs ∪ tables ∪ L.kernel) := by
    rw [Finset.union_insert, Finset.insert_union]
  rw [refs, hunion, occurrences_insert]
  · rfl
  · simp only [Finset.mem_union]
    tauto
  · intro k
    rw [row, if_neg fun h => ht h.1, hclear k k.isLt]
    exact fun h => by cases h

/-- A page directory with an empty user half holds nothing. -/
theorem refs_insertDir (hd : d ∉ dirs) (htables : d ∉ tables) (hkernel : d ∉ L.kernel)
    (hclear : ∀ i < userEntries, (E d i).target = none) (f : Nat) :
    refs L (insert d dirs) tables E f = refs L dirs tables E f := by
  have hunion : insert d dirs ∪ tables ∪ L.kernel = insert d (dirs ∪ tables ∪ L.kernel) := by
    rw [Finset.insert_union, Finset.insert_union]
  have hnot : d ∉ dirs ∪ tables ∪ L.kernel := by
    simp only [Finset.mem_union]
    tauto
  rw [refs, hunion, occurrences_insert hnot]
  · refine occurrences_congr fun y hy => ?_
    have hne : y ≠ d := fun h => hnot (h ▸ hy)
    funext k
    simp only [row, Finset.mem_insert, hne, false_or]
  · intro k hk
    rw [row] at hk
    split at hk
    · cases hk
    · rename_i hlt
      have hlt' : (k : Nat) < userEntries :=
        Nat.lt_of_not_le fun hle => hlt ⟨Finset.mem_insert_self .., hle⟩
      rw [hclear k hlt'] at hk
      cases hk

end KaushOS.Paging
