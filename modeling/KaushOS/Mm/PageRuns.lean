import KaushOS.Library.Transition
import KaushOS.Mm.AddressSpaces

/-! # The runs of the memory manager

Address spaces are created, loaded, forked and deleted, pages are allocated and freed, and processes
fault and store, in any order.

* **`PageEvent`** — what may happen, with what the callers see to; **`PageEvent.run`** — what it does.
* **`pageSystem`** — the runs, from the memory as the boot leaves it.
* **`pageSystem_ledger`** — the ledger is kept in every run. -/

namespace KaushOS.Paging

open Transition

/-! ## Events -/

/-- **The memory and the page directories of the live address spaces.** -/
structure PageMachine where
  state : State
  dirs : Finset Nat

/-- What may happen to the memory. -/
inductive PageEvent
  /-- A process is created; its directory is mapped at `page`. -/
  | create (page : Nat)
  /-- A page directory is loaded. -/
  | attach (d : Nat)
  /-- A segment of a program is mapped into the loaded address space. -/
  | load (address length : Nat)
  /-- `MmAllocateUserPtes`: pages of the user pool are allocated. -/
  | allocateUser (address pages : Nat)
  /-- `MmFreeUserPtes`. -/
  | freeUser (address pages : Nat)
  /-- `MmAllocateSystemPtes`, or more pages for the pool of the kernel. -/
  | allocateSystem (address size : Nat)
  /-- `MmFreeSystemPtes`. -/
  | freeSystem (address size : Nat)
  /-- The loaded process is forked into the address space `e`. -/
  | fork (e : Nat)
  /-- The loaded process faults. -/
  | fault (address : Nat)
  /-- A byte is stored to a user page of the loaded process. -/
  | store (address : Nat) (b : BitVec 8)
  /-- The address space whose directory is mapped at `page` is deleted. -/
  | delete (page : Nat)

/-- What the callers see to. -/
def PageEvent.Enabled (m : PageMachine) : PageEvent → Prop
  | .create page => kernelEntry < PDX page ∧ PDX page ≠ selfEntry ∧ (m.state.pte page).Valid = false
  | .attach d => d ∈ m.dirs
  | .load address _ => m.state.cr3 ∈ m.dirs ∧ IsUserAddress address
  | .allocateUser address pages => m.state.cr3 ∈ m.dirs ∧ address + pages * PGSIZE ≤ USERTOP
  | .freeUser address pages => m.state.cr3 ∈ m.dirs ∧ address + pages * PGSIZE ≤ USERTOP
  | .allocateSystem address size => address + roundUp size PGSIZE ≤ ULONG_VALUES
      ∧ ∀ k < roundUp size PGSIZE / PGSIZE, kernelEntry < PDX (address + k * PGSIZE)
        ∧ PDX (address + k * PGSIZE) ≠ selfEntry ∧ (m.state.pte (address + k * PGSIZE)).Valid = false
  | .freeSystem address size => address + roundUp size PGSIZE ≤ ULONG_VALUES
      ∧ ∀ k < roundUp size PGSIZE / PGSIZE, kernelEntry < PDX (address + k * PGSIZE)
        ∧ PDX (address + k * PGSIZE) ≠ selfEntry
        ∧ (m.state.pte (address + k * PGSIZE)).PageFrameNumber ∉ m.dirs
  | .fork e => m.state.cr3 ∈ m.dirs ∧ e ∈ m.dirs
  | .fault _ => m.state.cr3 ∈ m.dirs
  | .store address _ => m.state.cr3 ∈ m.dirs ∧ IsUserAddress address
      ∧ (m.state.pde address).Valid = true ∧ (m.state.pte address).Valid = true
      ∧ (m.state.pte address).UserPriv = true
  | .delete page => kernelEntry < PDX page ∧ PDX page ≠ selfEntry ∧ page + PGSIZE ≤ ULONG_VALUES
      ∧ m.state.physical page ∈ m.dirs

instance (m : PageMachine) (e : PageEvent) : Decidable (e.Enabled m) := by
  cases e <;> unfold PageEvent.Enabled <;> infer_instance

/-- A byte is stored through the page tables. -/
def State.storeByte (s : State) (address : Nat) (b : BitVec 8) : State :=
  { s with ram := PhysicalMemory.storeByte s.ram (s.physical address) (address % PGSIZE) b }

/-- What an event does; `globalPgdir` is the frame of `GlobalPgdir`. -/
def PageEvent.run (globalPgdir : Nat) (m : PageMachine) : PageEvent → Kernel PageMachine
  | .create page => do
    let s ← mmCreateProcessAddressSpace globalPgdir page m.state
    return ⟨s, insert (s.physical page) m.dirs⟩
  | .attach d => .ok { m with state := mmAttachToAddressSpace d m.state }
  | .load address length => do
    let s ← mmMapSegment m.state.cr3 address length (PTE_W ||| PTE_U) m.state
    return { m with state := s }
  | .allocateUser address pages => do
    let s ← mmVirtualAlloc address (pages * PGSIZE) (PTE_W ||| PTE_U) m.state
    return { m with state := s }
  | .freeUser address pages => do
    let s ← mmVirtualFree address (pages * PGSIZE) m.state
    return { m with state := s }
  | .allocateSystem address size => do
    let s ← mmVirtualAlloc address size PTE_W m.state
    return { m with state := s }
  | .freeSystem address size => do
    let s ← mmVirtualFree address size m.state
    return { m with state := s }
  | .fork e => do
    let (_, s) ← mmCloneProcessAddressSpace m.state.cr3 e m.state
    return { m with state := s }
  | .fault address => do
    let s ← mmPfHandler address m.state
    return { m with state := s }
  | .store address b => .ok { m with state := m.state.storeByte address b }
  | .delete page => do
    let s ← mmDeleteProcessAddressSpace page m.state
    return ⟨s, m.dirs.erase (m.state.physical page)⟩

/-- **The memory as `MiBootInitMemoryLayout` leaves it.** The frames hold anything, but for the
page directory and the page tables of the kernel half. -/
structure Booted (L : Layout) (s : State) : Prop where
  cr3 : s.cr3 = L.globalPgdir
  nodup : s.PfnFreeList.Nodup
  free : ∀ f, f ∈ s.PfnFreeList ↔ f ∈ L.managed
  count : ∀ f ∈ L.managed, s.RefCount f = 0
  user : ∀ i < kernelEntry, s.entry L.globalPgdir i = ⟨0⟩
  self : (s.entry L.globalPgdir selfEntry).Valid = true
    ∧ (s.entry L.globalPgdir selfEntry).PageFrameNumber = L.globalPgdir
  tables : ∀ i, KernelIndex i → (s.entry L.globalPgdir i).Valid = true
    ∧ (s.entry L.globalPgdir i).PageFrameNumber ∈ L.kernel
  empty : ∀ x ∈ L.kernel, ∀ j < NPTENTRIES, s.entry x j = ⟨0⟩

/-- The contents of the frames that are managed do not matter. -/
theorem Booted.congr {L : Layout} {s : State} (h : Booted L s) {ram : PhysicalMemory.Ram}
    (hram : ∀ f, f = L.globalPgdir ∨ f ∈ L.kernel → ram f = s.ram f) : Booted L { s with ram } := by
  have hentry : ∀ f, f = L.globalPgdir ∨ f ∈ L.kernel → ∀ i,
      ({ s with ram } : State).entry f i = s.entry f i := fun f hf i =>
    congrArg MMPTE.mk (PhysicalMemory.word_congr (hram f hf) i)
  refine ⟨h.cr3, h.nodup, h.free, h.count, fun i hi => ?_, ?_, fun i hi => ?_, fun x hx j hj => ?_⟩
  · rw [hentry _ (Or.inl rfl)]
    exact h.user i hi
  · rw [hentry _ (Or.inl rfl)]
    exact h.self
  · rw [hentry _ (Or.inl rfl)]
    exact h.tables i hi
  · rw [hentry x (Or.inr hx)]
    exact h.empty x hx j hj

/-- **The runs of the memory manager**; the label of a step is the event and the machine before it. What
does not return does not go on. -/
def pageSystem (L : Layout) : System (PageEvent × PageMachine) PageMachine where
  init m := Booted L m.state ∧ m.dirs = ∅
  step _ m l m' := l.2 = m ∧ l.1.Enabled m ∧ l.1.run L.globalPgdir m = .ok m'

variable {L : Layout} {dirs tables : Finset Nat} {held : Nat → Nat} {out : Finset Nat} {s s' : State}
  {m m' : PageMachine} {e : PageEvent} {t : List (PageEvent × PageMachine)} {a n : Nat} {b : BitVec 8}

/-- Events that are carried out one after another make a run. -/
theorem pageSystem_play (t : List (PageEvent × PageMachine)) (m : PageMachine) (e : PageEvent)
    (u : PageMachine) (hen : decide (e.Enabled m) = true) (hrun : e.run L.globalPgdir m = .ok u) :
    (pageSystem L).step t m (e, m) u := ⟨rfl, of_decide_eq_true hen, hrun⟩

/-! ## The boot -/

/-- After the boot nothing holds anything. -/
theorem Booted.refs (h : Booted L s) (f : Nat) : refs L ∅ ∅ s.entry f = 0 := by
  refine Finset.sum_eq_zero fun x hx => ?_
  have hx : x ∈ L.kernel := by simpa using hx
  rw [Finset.card_eq_zero]
  refine Finset.filter_eq_empty_iff.mpr fun j _ => ?_
  rw [row, if_neg fun hno => Finset.notMem_empty x hno.1, h.empty x hx j j.isLt, target_zero]
  exact fun heq => by cases heq

/-- **The ledger after the boot.** -/
theorem Booted.ledger (h : Booted L s) : Ledger L ∅ ∅ (fun _ => 0) ∅ s where
  shape :=
    { dirs_managed := fun d hd => absurd hd (Finset.notMem_empty d)
      tables_managed := fun t ht => absurd ht (Finset.notMem_empty t)
      apart := fun d hd => absurd hd (Finset.notMem_empty d)
      global := h.user
      half := fun d hd => absurd hd (Finset.notMem_empty d)
      self := fun d hd => by
        rcases hd with hd | rfl
        · exact absurd hd (Finset.notMem_empty d)
        · exact h.self
      kernel := h.tables
      table := fun d hd => absurd hd (Finset.notMem_empty d)
      top := fun d hd => absurd hd (Finset.notMem_empty d)
      owner := fun t ht => absurd ht (Finset.notMem_empty t)
      unique := fun d hd => absurd hd (Finset.notMem_empty d)
      page := fun x hx j hj => by
        rcases hx with hx | hx
        · exact absurd hx (Finset.notMem_empty x)
        · exact Or.inl (h.empty x hx j hj) }
  nodup := h.nodup
  free f hf := ⟨(h.free f).mp hf, h.count f ((h.free f).mp hf), Finset.notMem_empty f⟩
  unused f hf := absurd hf (Finset.notMem_empty f)
  idle f hf _ := Or.inl ((h.free f).mpr hf)
  count f hf := by rw [h.count f hf, h.refs f]
  exclusive t ht := absurd ht (Finset.notMem_empty t)
  alive d hd := absurd hd (Finset.notMem_empty d)

/-! ## The steps -/

/-- **A byte is stored to a user page.** -/
theorem Ledger.storeByte (h : Ledger L dirs tables held out s) (hcr : s.cr3 ∈ dirs)
    (ha : IsUserAddress a) (hpde : (s.pde a).Valid = true) (hpte : (s.pte a).Valid = true)
    (hu : (s.pte a).UserPriv = true) : Ledger L dirs tables held out (s.storeByte a b) := by
  obtain ⟨hdata, -⟩ := h.shape.isData hcr (PDX_user ha) (PTX_lt a) (leaf_of_pte_valid hpde hpte) hu
  exact h.writeData hdata (fun x hx => Function.update_of_ne hx ..) rfl rfl

/-- The pages of a range in the user half. -/
theorem user_range {k : Nat} (hend : a + n * PGSIZE ≤ USERTOP) (hk : k < n) :
    IsUserAddress (a + k * PGSIZE) := by
  have hpage := Nat.mul_le_mul_right PGSIZE (show k + 1 ≤ n from hk)
  have hpos : 0 < PGSIZE := by decide
  rw [Nat.add_mul] at hpage
  simp only [IsUserAddress]
  omega

/-- A number of pages. -/
theorem roundUp_pages (hend : a + n * PGSIZE ≤ USERTOP) :
    roundUp (n * PGSIZE) PGSIZE = n * PGSIZE ∧ roundUp (n * PGSIZE) PGSIZE / PGSIZE = n := by
  have hround : roundUp (n * PGSIZE) PGSIZE = n * PGSIZE := by
    refine roundUp_page (Nat.mul_mod_left ..) ?_
    have htop : USERTOP + PGSIZE ≤ ULONG_VALUES := by decide
    omega
  exact ⟨hround, by rw [hround, Nat.mul_div_cancel _ (by decide)]⟩

/-- An address of the kernel half that can be mapped. -/
theorem mappable_system (hcr : s.cr3 ∈ dirs ∨ s.cr3 = L.globalPgdir) (hlo : kernelEntry < PDX a)
    (hne : PDX a ≠ selfEntry) : Mappable L dirs s a :=
  Or.inr ⟨⟨hlo, Nat.mod_lt _ (by decide), hne⟩, hcr⟩

/-- Where nothing is mapped, no page directory is. -/
theorem noDirectory_of_invalid (h : (s.pte a).Valid = false) : NoDirectory dirs s a := by
  intro _ hvalid
  rw [h] at hvalid
  cases hvalid

/-- **The invariant of the runs.** -/
def PageMachine.Inv (L : Layout) (m : PageMachine) : Prop :=
  ∃ tables, Ledger L m.dirs tables (fun _ => 0) ∅ m.state
    ∧ (m.state.cr3 ∈ m.dirs ∨ m.state.cr3 = L.globalPgdir)

/-- **One step keeps the invariant**, and writes nothing but managed frames and page tables of the
kernel. -/
theorem PageMachine.Inv.step (h : m.Inv L) (hen : e.Enabled m)
    (hrun : e.run L.globalPgdir m = .ok m') : m'.Inv L ∧ Confined L m.state m'.state := by
  obtain ⟨tables, h, hcr⟩ := h
  cases e with
  | create page =>
    obtain ⟨hlo, hne, hpte⟩ := hen
    obtain ⟨s, hcreate, hreturn⟩ := kernel_bind_eq_ok.mp hrun
    cases hreturn
    obtain ⟨tables', d, hledger, hchange⟩ := h.mmCreateProcessAddressSpace hcr
      ⟨hlo, Nat.mod_lt _ (by decide), hne⟩ (noDirectory_of_invalid hpte) hcreate
    refine ⟨⟨tables', hchange.mapped.symm ▸ hledger, ?_⟩, hledger.shape.confined hchange.ram⟩
    rw [hchange.cr3]
    exact hcr.imp (fun hin => Finset.mem_insert_of_mem hin) id
  | attach d =>
    cases hrun
    exact ⟨⟨tables, h.congr rfl rfl (fun _ _ => rfl) (fun _ _ => rfl), Or.inl hen⟩, fun _ _ _ => rfl⟩
  | load address length =>
    obtain ⟨s, hload, hreturn⟩ := kernel_bind_eq_ok.mp hrun
    cases hreturn
    obtain ⟨tables', hledger, hchange⟩ := h.mmMapSegment hen.1 (by decide) (by decide) hen.2 hload
    exact ⟨⟨tables', hledger, hchange.cr3.symm ▸ hcr⟩, hledger.shape.confined hchange.ram⟩
  | allocateUser address pages =>
    obtain ⟨hin, hend⟩ := hen
    obtain ⟨s, halloc, hreturn⟩ := kernel_bind_eq_ok.mp hrun
    cases hreturn
    obtain ⟨hround, hpages⟩ := roundUp_pages hend
    have htop : USERTOP ≤ ULONG_VALUES := by decide
    obtain ⟨tables', hledger, hchange⟩ := h.mmVirtualAlloc (by decide) (by decide)
      (by rw [hround]; omega) (fun k hk => by
        have huser := user_range hend (hpages ▸ hk)
        exact ⟨Or.inl ⟨huser, hin⟩, h.noDirectory huser hin, fun _ => huser⟩) halloc
    exact ⟨⟨tables', hledger, hchange.cr3.symm ▸ hcr⟩, hledger.shape.confined hchange.ram⟩
  | freeUser address pages =>
    obtain ⟨hin, hend⟩ := hen
    obtain ⟨s, hfree, hreturn⟩ := kernel_bind_eq_ok.mp hrun
    cases hreturn
    obtain ⟨hround, hpages⟩ := roundUp_pages hend
    have htop : USERTOP ≤ ULONG_VALUES := by decide
    obtain ⟨hledger, hchange⟩ := h.mmVirtualFree (by rw [hround]; omega) (fun k hk => by
      have huser := user_range hend (hpages ▸ hk)
      exact ⟨Or.inl ⟨huser, hin⟩, h.noDirectory huser hin⟩) hfree
    exact ⟨⟨tables, hledger, hchange.cr3.symm ▸ hcr⟩, hledger.shape.confined hchange.ram⟩
  | allocateSystem address size =>
    obtain ⟨hend, hpages⟩ := hen
    obtain ⟨s, halloc, hreturn⟩ := kernel_bind_eq_ok.mp hrun
    cases hreturn
    obtain ⟨tables', hledger, hchange⟩ := h.mmVirtualAlloc (by decide) (by decide) hend
      (fun k hk => by
        obtain ⟨hlo, hne, hpte⟩ := hpages k hk
        exact ⟨mappable_system hcr hlo hne, noDirectory_of_invalid hpte,
          fun hu => absurd hu (by decide)⟩)
      halloc
    exact ⟨⟨tables', hledger, hchange.cr3.symm ▸ hcr⟩, hledger.shape.confined hchange.ram⟩
  | freeSystem address size =>
    obtain ⟨hend, hpages⟩ := hen
    obtain ⟨s, hfree, hreturn⟩ := kernel_bind_eq_ok.mp hrun
    cases hreturn
    obtain ⟨hledger, hchange⟩ := h.mmVirtualFree hend (fun k hk => by
      obtain ⟨hlo, hne, hdir⟩ := hpages k hk
      exact ⟨mappable_system hcr hlo hne, fun _ _ => hdir⟩) hfree
    exact ⟨⟨tables, hledger, hchange.cr3.symm ▸ hcr⟩, hledger.shape.confined hchange.ram⟩
  | fork e =>
    obtain ⟨⟨status, s⟩, hfork, hreturn⟩ := kernel_bind_eq_ok.mp hrun
    cases hreturn
    obtain ⟨-, -, tables', hledger, hcr', hsharing, -⟩ :=
      h.mmCloneProcessAddressSpace hen.1 hen.2 hfork
    exact ⟨⟨tables', hledger, hcr'.symm ▸ hcr⟩, hledger.shape.confined hsharing.ram⟩
  | fault address =>
    obtain ⟨s, hfault, hreturn⟩ := kernel_bind_eq_ok.mp hrun
    cases hreturn
    obtain ⟨tables', hledger, howned⟩ := h.mmPfHandler hen hfault
    exact ⟨⟨tables', hledger, howned.cr3.symm ▸ hcr⟩, howned.confined⟩
  | store address b =>
    cases hrun
    obtain ⟨hin, huser, hpde, hpte, hu⟩ := hen
    refine ⟨⟨tables, h.storeByte hin huser hpde hpte hu, hcr⟩, fun f hf _ => ?_⟩
    obtain ⟨-, hmem⟩ := h.shape.isData hin (PDX_user huser) (PTX_lt address)
      (leaf_of_pte_valid hpde hpte) hu
    refine Function.update_of_ne ?_ ..
    rintro rfl
    exact hf hmem
  | delete page =>
    obtain ⟨hlo, hne, hend, hin⟩ := hen
    obtain ⟨s, hdelete, hreturn⟩ := kernel_bind_eq_ok.mp hrun
    cases hreturn
    obtain ⟨hother, tables', hledger, hcr', -, hram⟩ := h.mmDeleteProcessAddressSpace hcr
      ⟨hlo, Nat.mod_lt _ (by decide), hne⟩ hend hin hdelete
    refine ⟨⟨tables', hledger, ?_⟩, h.shape.confined hram⟩
    rw [hcr']
    exact hcr.imp (fun hin => Finset.mem_erase.mpr ⟨hother.symm, hin⟩) id

/-- **The ledger is kept in every run.** -/
theorem pageSystem_ledger (h : (pageSystem L).Run t m) : m.Inv L := by
  refine System.Run.invariant (I := fun _ m => m.Inv L) h (fun m hm => ?_)
    fun t m l m' _ hinv hstep => (hinv.step hstep.2.1 hstep.2.2).1
  obtain ⟨hbooted, hdirs⟩ := hm
  refine ⟨∅, ?_, Or.inr hbooted.cr3⟩
  rw [hdirs]
  exact hbooted.ledger

end KaushOS.Paging
