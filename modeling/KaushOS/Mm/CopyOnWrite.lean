import KaushOS.Mm.Fork

/-! # Copy on write

A fork shares the pages of the parent with the child, and a page fault breaks the sharing of one page.
Here a family of processes that are forked from one another is compared with processes whose memory is
copied at each fork.

* **`Family`**, **`FamilyEvent`**, **`familySystem`** — the processes fork, read, write and go.
* **`eagerMemory`** — what they would find in their memory if each fork had copied every page.
* **`Family.Inv.step`** — every step does to the bytes behind the page tables what it does to that memory.
* **`read_eager`** — what a process reads is what it would find there. -/

namespace KaushOS.Paging

open Transition

/-! ## The family -/

/-- **The memory, and a family** among the live address spaces: processes that have been forked from one
another. -/
structure Family where
  machine : PageMachine
  members : Finset Nat

/-- The memory. -/
abbrev Family.state (m : Family) : State := m.machine.state

/-- **The loaded process is of the family and has a user page** at an address that is not in the
window. -/
structure Family.Maps (m : Family) (address : Nat) : Prop where
  member : m.state.cr3 ∈ m.members
  user : IsUserAddress address
  outside : address < USERTEMP ∨ USERTEMPEND ≤ address
  pde : (m.state.pde address).Valid = true
  pte : (m.state.pte address).Valid = true
  priv : (m.state.pte address).UserPriv = true

/-- The byte that the processor finds at an address. -/
def State.byteAt (s : State) (address : Nat) : BitVec 8 :=
  s.ram (s.physical address) (address % PGSIZE)

/-- What may happen. -/
inductive FamilyEvent
  /-- An address space is created; its directory is mapped at `page`. -/
  | create (page : Nat)
  /-- A page directory is loaded. -/
  | attach (d : Nat)
  /-- The loaded process is forked into the address space `e`. -/
  | fork (e : Nat)
  /-- The address space whose directory is mapped at `page` is deleted. -/
  | delete (page : Nat)
  /-- The loaded process reads the byte `b`. -/
  | read (address : Nat) (b : BitVec 8)
  /-- It writes a byte, to a page that is writable. -/
  | write (address : Nat) (b : BitVec 8)
  /-- It would write to a page that is not; the write is made again after the page fault. -/
  | fault (address : Nat)

/-- When it may happen. -/
def FamilyEvent.Enabled (m : Family) : FamilyEvent → Prop
  | .create page => (PageEvent.create page).Enabled m.machine
  | .attach d => (PageEvent.attach d).Enabled m.machine
  | .fork e => m.state.cr3 ∈ m.members ∧ e ∈ m.machine.dirs ∧ e ∉ m.members
  | .delete page => (PageEvent.delete page).Enabled m.machine
  | .read address b => m.Maps address ∧ m.state.byteAt address = b
  | .write address _ => m.Maps address ∧ (m.state.pte address).Writable = true
  | .fault address => m.Maps address ∧ (m.state.pte address).Writable = false

/-- What an event does. A child is of the family when the fork has succeeded. -/
def FamilyEvent.run (globalPgdir : Nat) (m : Family) : FamilyEvent → Kernel Family
  | .create page => do
    let machine ← (PageEvent.create page).run globalPgdir m.machine
    return { m with machine }
  | .attach d => do
    let machine ← (PageEvent.attach d).run globalPgdir m.machine
    return { m with machine }
  | .fork e => do
    let (status, s) ← mmCloneProcessAddressSpace m.state.cr3 e m.state
    return ⟨{ m.machine with state := s },
      if status = .STATUS_SUCCESS then insert e m.members else m.members⟩
  | .delete page => do
    let machine ← (PageEvent.delete page).run globalPgdir m.machine
    return ⟨machine, m.members.erase (m.state.physical page)⟩
  | .read _ _ => .ok m
  | .write address b => do
    let machine ← (PageEvent.store address b).run globalPgdir m.machine
    return { m with machine }
  | .fault address => do
    let machine ← (PageEvent.fault address).run globalPgdir m.machine
    return { m with machine }

/-- **The runs of a family**, from `m₀` on; the label of a step is the event and the family before it.
What does not return does not go on. -/
def familySystem (L : Layout) (m₀ : Family) : System (FamilyEvent × Family) Family where
  init m := m = m₀
  step _ m l m' := l.2 = m ∧ l.1.Enabled m ∧ l.1.run L.globalPgdir m = .ok m'

/-! ## Forks that copy -/

/-- The byte that the process `d` finds at a user address, through its page tables. -/
def State.userByte (s : State) (d address : Nat) : Option (BitVec 8) :=
  (s.contents d (PDX address) (PTX address)).map fun bytes => bytes (address % PGSIZE)

/-- **The memory of the processes if each fork copied every page**: a fork gives the child a copy of what
the parent has, and a write changes the memory of the process that writes. -/
def eagerMemory (m₀ : Family) : List (FamilyEvent × Family) → Nat → Nat → Option (BitVec 8)
  | [] => m₀.state.userByte
  | (.fork e, m) :: t =>
    Function.update (eagerMemory m₀ t) e (eagerMemory m₀ t m.state.cr3)
  | (.write address b, m) :: t =>
    Function.update (eagerMemory m₀ t) m.state.cr3
      (Function.update (eagerMemory m₀ t m.state.cr3) address (some b))
  | _ :: t => eagerMemory m₀ t

variable {L : Layout} {dirs tables : Finset Nat} {held : Nat → Nat} {out : Finset Nat} {s s' : State}
  {m m' m₀ : Family} {e : FamilyEvent} {t : List (FamilyEvent × Family)} {a d i j : Nat} {b : BitVec 8}
  {t₀ : List (PageEvent × PageMachine)}

/-- An address outside of the window. -/
theorem PDX_outside (ha : IsUserAddress a) (h : a < USERTEMP ∨ USERTEMPEND ≤ a) :
    PDX a ≠ windowEntry := by
  have hwindow : windowEntry = 1 := by decide
  simp only [PDX, IsUserAddress, USERTOP, USERTEMP, USERTEMPEND, PTSIZE, NPTENTRIES] at *
  omega

/-- An address is its page and an offset. -/
theorem address_ext {x y : Nat} (hx : IsUserAddress x) (hy : IsUserAddress y) (hpdx : PDX x = PDX y)
    (hptx : PTX x = PTX y) (hoffset : x % PGSIZE = y % PGSIZE) : x = y := by
  simp only [PDX, PTX, IsUserAddress, USERTOP, PTSIZE, PGSIZE, NPTENTRIES] at *
  omega

/-- **What the processor finds** is what the loaded process finds. -/
theorem Family.Maps.userByte (h : m.Maps a) :
    m.state.userByte m.state.cr3 a = some (m.state.byteAt a) := by
  rw [State.userByte, State.contents, leaf_of_pte_valid h.pde h.pte, Option.bind_some, if_pos h.priv]
  rfl

/-- **A byte that is stored** to a page that is writable is in the memory of one process only. -/
theorem Ledger.userByte_storeByte (h : Ledger L dirs tables held out s) (hcr : s.cr3 ∈ dirs)
    (ha : IsUserAddress a) (hpde : (s.pde a).Valid = true) (hpte : (s.pte a).Valid = true)
    (hu : (s.pte a).UserPriv = true) (hw : (s.pte a).Writable = true) (hd : d ∈ dirs) {x : Nat}
    (hx : IsUserAddress x) : (s.storeByte a b).userByte d x
      = if d = s.cr3 ∧ x = a then some b else s.userByte d x := by
  have hleaf := leaf_of_pte_valid hpde hpte
  obtain ⟨hdata, -⟩ := h.shape.isData hcr (PDX_user ha) (PTX_lt a) hleaf hu
  have hsame : leaf (s.storeByte a b).entry d (PDX x) (PTX x) = leaf s.entry d (PDX x) (PTX x) :=
    h.shape.leaf_writeData hdata (fun y hy => Function.update_of_ne hy ..) hd (PDX_user hx)
  rw [State.userByte, State.userByte, State.contents, State.contents, hsame]
  cases hpage : leaf s.entry d (PDX x) (PTX x) with
  | none =>
    rw [if_neg]
    · rfl
    · rintro ⟨rfl, rfl⟩
      rw [hleaf] at hpage
      cases hpage
  | some p =>
    rw [Option.bind_some, Option.bind_some]
    by_cases hframe : p.PageFrameNumber = (s.pte a).PageFrameNumber
    · -- the same page
      obtain ⟨rfl, hpdx, hptx⟩ := h.leaf_unique hcr (PDX_user ha) (PTX_lt a) hleaf hu hw hd (PDX_user hx)
        (PTX_lt x) hpage hframe
      rw [hpdx, hptx, hleaf] at hpage
      obtain rfl := Option.some.inj hpage
      have hstored : (s.storeByte a b).ram (s.pte a).PageFrameNumber
          = Function.update (s.ram (s.pte a).PageFrameNumber) (a % PGSIZE) b := Function.update_self ..
      rw [if_pos hu, if_pos hu, Option.map_some, Option.map_some, hstored]
      by_cases hxa : x = a
      · subst hxa
        rw [Function.update_self, if_pos ⟨rfl, rfl⟩]
      · rw [Function.update_of_ne fun hoffset => hxa (address_ext hx ha hpdx hptx hoffset),
          if_neg fun hno => hxa hno.2]
    · -- another page
      have hkept : (s.storeByte a b).ram p.PageFrameNumber = s.ram p.PageFrameNumber :=
        Function.update_of_ne hframe ..
      have hother : ¬ (d = s.cr3 ∧ x = a) := by
        rintro ⟨rfl, rfl⟩
        rw [hleaf] at hpage
        exact hframe (congrArg MMPTE.PageFrameNumber (Option.some.inj hpage)).symm
      rw [hkept, if_neg hother]

/-! ## The simulation -/

/-- **What a family's memory is like**: the bytes behind the page tables are those that the processes would
have if each fork copied every page. -/
structure Family.Inv (m : Family) (L : Layout) (m₀ : Family) (t : List (FamilyEvent × Family)) : Prop
    where
  ledger : m.machine.Inv L
  members : m.members ⊆ m.machine.dirs
  memory : ∀ d ∈ m.members, ∀ a, IsUserAddress a → PDX a ≠ windowEntry →
    m.state.userByte d a = eagerMemory m₀ t d a

/-- A page that keeps its contents keeps its bytes. -/
theorem userByte_congr {d' : Nat}
    (h : s'.contents d (PDX a) (PTX a) = s.contents d' (PDX a) (PTX a)) :
    s'.userByte d a = s.userByte d' a := by
  rw [State.userByte, State.userByte, h]

/-- **A step that keeps the contents of the members' pages** keeps the invariant. -/
theorem Family.Inv.keep (h : m.Inv L m₀ t) (hledger : m'.machine.Inv L)
    (hmembers : m'.members ⊆ m'.machine.dirs) (hkept : m'.members ⊆ m.members)
    (hcontents : ∀ d ∈ m'.members, ∀ i < userEntries, i ≠ windowEntry → ∀ j < NPTENTRIES,
      m'.state.contents d i j = m.state.contents d i j)
    (heager : eagerMemory m₀ ((e, m) :: t) = eagerMemory m₀ t) : m'.Inv L m₀ ((e, m) :: t) where
  ledger := hledger
  members := hmembers
  memory d hd a ha hout := by
    rw [heager, ← h.memory d (hkept hd) a ha hout]
    exact userByte_congr (hcontents d hd _ (PDX_user ha) hout _ (PTX_lt a))

/-- **A fork.** -/
theorem Family.Inv.fork (h : m.Inv L m₀ t) {e : Nat} (hen : (FamilyEvent.fork e).Enabled m)
    (hrun : (FamilyEvent.fork e).run L.globalPgdir m = .ok m') :
    m'.Inv L m₀ ((.fork e, m) :: t) := by
  obtain ⟨⟨status, s⟩, hclone, hreturn⟩ := kernel_bind_eq_ok.mp hrun
  cases hreturn
  obtain ⟨tables, hledger, hcr⟩ := h.ledger
  obtain ⟨hmember, he, hnew⟩ := hen
  have hin := h.members hmember
  obtain ⟨-, hne, tables', hledger', hcr', hsharing, hforked⟩ :=
    hledger.mmCloneProcessAddressSpace hin he hclone
  refine ⟨⟨tables', hledger', hcr'.symm ▸ hcr⟩, ?_, fun d hd a ha hout => ?_⟩
  · dsimp only
    split
    · exact Finset.insert_subset he h.members
    · exact h.members
  by_cases hde : d = e
  · -- the child has what the parent has
    subst hde
    have hstatus : status = .STATUS_SUCCESS := by
      by_contra hno
      exact hnew ((if_neg hno : (if _ then _ else _) = m.members) ▸ hd)
    have hcopied := (hforked hstatus).copied _ (PDX_user ha) (Nat.zero_le _) (Or.inl hout) _ (PTX_lt a)
    have hcontents := hledger'.shape.contents_shared rfl he (PDX_user ha) (PTX_lt a) hcopied
      (fun p hp => by
        obtain ⟨u, -, hpage⟩ := hledger.shape.leaf_page hin (PDX_user ha) (PTX_lt a) hp
        exact hpage.copyOnWrite) hsharing.ram
    have heager : eagerMemory m₀ ((.fork d, m) :: t) d = eagerMemory m₀ t m.state.cr3 :=
      Function.update_self ..
    rw [heager, ← h.memory _ hmember a ha hout]
    exact userByte_congr hcontents
  · have hold : d ∈ m.members := by
      dsimp only at hd
      split at hd
      · exact (Finset.mem_insert.mp hd).resolve_left hde
      · exact hd
    have heager : eagerMemory m₀ ((.fork e, m) :: t) d = eagerMemory m₀ t d :=
      Function.update_of_ne hde ..
    rw [heager, ← h.memory d hold a ha hout]
    exact userByte_congr (hsharing.contents d (h.members hold) hde _ (PDX_user ha) _ (PTX_lt a))

/-- **A write.** -/
theorem Family.Inv.write (h : m.Inv L m₀ t) (hen : (FamilyEvent.write a b).Enabled m)
    (hrun : (FamilyEvent.write a b).run L.globalPgdir m = .ok m') :
    m'.Inv L m₀ ((.write a b, m) :: t) := by
  obtain ⟨hmaps, hw⟩ := hen
  have hin := h.members hmaps.member
  obtain ⟨machine, hstore, hreturn⟩ := kernel_bind_eq_ok.mp hrun
  cases hreturn
  have hledger := (h.ledger.step (e := .store a b)
    ⟨hin, hmaps.user, hmaps.pde, hmaps.pte, hmaps.priv⟩ hstore).1
  obtain ⟨tables, hbefore, -⟩ := h.ledger
  cases hstore
  refine ⟨hledger, h.members, fun d hd x hx hout => ?_⟩
  have hbyte := hbefore.userByte_storeByte (b := b) hin hmaps.user hmaps.pde hmaps.pte hmaps.priv hw
    (h.members hd) hx
  refine hbyte.trans ?_
  rw [eagerMemory]
  by_cases hdc : d = m.state.cr3
  · subst hdc
    rw [Function.update_self]
    by_cases hxa : x = a
    · subst hxa
      rw [Function.update_self, if_pos ⟨rfl, rfl⟩]
    · rw [Function.update_of_ne hxa, if_neg fun hno => hxa hno.2]
      exact h.memory _ hd x hx hout
  · rw [Function.update_of_ne hdc, if_neg fun hno => hdc hno.1]
    exact h.memory d hd x hx hout

/-- **One step** does to the bytes behind the page tables what it does to the memory that is copied. -/
theorem Family.Inv.step (h : m.Inv L m₀ t) (hen : e.Enabled m) (hrun : e.run L.globalPgdir m = .ok m') :
    m'.Inv L m₀ ((e, m) :: t) := by
  cases e with
  | create page =>
    obtain ⟨machine, hstep, hreturn⟩ := kernel_bind_eq_ok.mp hrun
    cases hreturn
    have hledger := (h.ledger.step (e := .create page) hen hstep).1
    obtain ⟨tables, hbefore, hcr⟩ := h.ledger
    obtain ⟨s, hcreate, hreturn⟩ := kernel_bind_eq_ok.mp hstep
    cases hreturn
    obtain ⟨hlo, hne, hpte⟩ := hen
    obtain ⟨tables', d, hafter, hchange⟩ := hbefore.mmCreateProcessAddressSpace hcr
      ⟨hlo, Nat.mod_lt _ (by decide), hne⟩ (noDirectory_of_invalid hpte) hcreate
    refine h.keep hledger (h.members.trans (Finset.subset_insert ..)) (Finset.Subset.refl _)
      (fun d' hd' i hi _ j hj => ?_) rfl
    have hleaf := hchange.leaf d' (h.members hd') i hi j hj
    exact hafter.shape.contents_kept (Finset.mem_insert_of_mem (h.members hd')) hi hj hleaf hleaf
      hchange.ram
  | attach d =>
    obtain ⟨machine, hattach, hreturn⟩ := kernel_bind_eq_ok.mp hrun
    cases hreturn
    have hledger := (h.ledger.step (e := .attach d) hen hattach).1
    cases hattach
    exact h.keep hledger h.members (Finset.Subset.refl _) (fun _ _ _ _ _ _ _ => rfl) rfl
  | fork e => exact h.fork hen hrun
  | delete page =>
    obtain ⟨machine, hstep, hreturn⟩ := kernel_bind_eq_ok.mp hrun
    cases hreturn
    have hledger := (h.ledger.step (e := .delete page) hen hstep).1
    obtain ⟨tables, hbefore, hcr⟩ := h.ledger
    obtain ⟨s, hdelete, hreturn⟩ := kernel_bind_eq_ok.mp hstep
    cases hreturn
    obtain ⟨hlo, hne, hend, hin⟩ := hen
    obtain ⟨-, tables', -, -, hleaf, hram⟩ := hbefore.mmDeleteProcessAddressSpace hcr
      ⟨hlo, Nat.mod_lt _ (by decide), hne⟩ hend hin hdelete
    refine h.keep hledger (Finset.erase_subset_erase _ h.members) (Finset.erase_subset ..)
      (fun d hd i hi _ j hj => ?_) rfl
    obtain ⟨hother, hd⟩ := Finset.mem_erase.mp hd
    exact hbefore.shape.contents_kept (h.members hd) hi hj rfl
      (hleaf d (h.members hd) hother i hi j hj) hram
  | read address b =>
    cases hrun
    exact h.keep h.ledger h.members (Finset.Subset.refl _) (fun _ _ _ _ _ _ _ => rfl) rfl
  | write address b => exact h.write hen hrun
  | fault address =>
    obtain ⟨hmaps, -⟩ := hen
    have hin := h.members hmaps.member
    obtain ⟨machine, hstep, hreturn⟩ := kernel_bind_eq_ok.mp hrun
    cases hreturn
    have hledger := (h.ledger.step (e := .fault address) hin hstep).1
    obtain ⟨tables, hbefore, hcr⟩ := h.ledger
    obtain ⟨s, hfault, hreturn⟩ := kernel_bind_eq_ok.mp hstep
    cases hreturn
    obtain ⟨tables', -, howned⟩ := hbefore.mmPfHandler hin hfault
    exact h.keep hledger h.members (Finset.Subset.refl _) (fun d hd i hi _ j hj =>
      howned.contents (PDX_outside hmaps.user hmaps.outside) hmaps.priv d (h.members hd) i hi j hj) rfl

/-- **Every run keeps the invariant.** -/
theorem familySystem_inv (hrun₀ : (pageSystem L).Run t₀ m₀.machine) (hmembers : m₀.members ⊆ m₀.machine.dirs)
    (h : (familySystem L m₀).Run t m) : m.Inv L m₀ t := by
  refine System.Run.invariant (I := fun t m => m.Inv L m₀ t) h (fun m hm => ?_)
    fun t m l m' _ hinv hstep => ?_
  · cases hm
    exact ⟨pageSystem_ledger hrun₀, hmembers, fun _ _ _ _ _ => rfl⟩
  · obtain ⟨rfl, hen, hrun⟩ := hstep
    exact hinv.step hen hrun

/-- **What a process reads** is what it would find if each fork had copied every page: the byte that it
has written there last, or that its parent had there at the fork. -/
theorem read_eager (hrun₀ : (pageSystem L).Run t₀ m₀.machine) (hmembers : m₀.members ⊆ m₀.machine.dirs)
    (h : (familySystem L m₀).Run t m) (hread : (FamilyEvent.read a b).Enabled m) :
    eagerMemory m₀ t m.state.cr3 a = some b := by
  obtain ⟨hmaps, rfl⟩ := hread
  rw [← (familySystem_inv hrun₀ hmembers h).memory _ hmaps.member a hmaps.user
    (PDX_outside hmaps.user hmaps.outside)]
  exact hmaps.userByte

/-- **The write that is made again** after a page fault is made. -/
theorem fault_write (hrun₀ : (pageSystem L).Run t₀ m₀.machine) (hmembers : m₀.members ⊆ m₀.machine.dirs)
    (h : (familySystem L m₀).Run t m) (hen : (FamilyEvent.fault a).Enabled m)
    (hrun : (FamilyEvent.fault a).run L.globalPgdir m = .ok m') :
    (FamilyEvent.write a b).Enabled m' := by
  have hinv := familySystem_inv hrun₀ hmembers h
  obtain ⟨tables, hledger, -⟩ := hinv.ledger
  obtain ⟨hmaps, -⟩ := hen
  obtain ⟨machine, hstep, hreturn⟩ := kernel_bind_eq_ok.mp hrun
  cases hreturn
  obtain ⟨s, hfault, hreturn⟩ := kernel_bind_eq_ok.mp hstep
  cases hreturn
  obtain ⟨tables', -, howned⟩ := hledger.mmPfHandler (hinv.members hmaps.member) hfault
  obtain ⟨p, hleaf, hu, hw⟩ := howned.own (PDX_outside hmaps.user hmaps.outside) hmaps.priv
  obtain ⟨hpde, hpte, hvalid⟩ := pte_of_leaf (howned.cr3.symm ▸ hleaf)
  exact ⟨⟨howned.cr3.symm ▸ hmaps.member, hmaps.user, hmaps.outside, hpde, hpte.symm ▸ hvalid,
    hpte.symm ▸ hu⟩, hpte.symm ▸ hw⟩

/-! ## The first child -/

/-- A process is forked, and the child's page directory is loaded. -/
theorem familySystem_child {m₀ : PageMachine} {parent new : Nat} (hcr : m₀.state.cr3 = parent)
    (hnew : new ∈ m₀.dirs) (hne : new ≠ parent)
    (hclone : mmCloneProcessAddressSpace parent new m₀.state = .ok (.STATUS_SUCCESS, s')) :
    (familySystem L ⟨m₀, {parent}⟩).Run
      [(.attach new, ⟨⟨s', m₀.dirs⟩, insert new {parent}⟩), (.fork new, ⟨m₀, {parent}⟩)]
      ⟨⟨mmAttachToAddressSpace new s', m₀.dirs⟩, insert new {parent}⟩ := by
  subst hcr
  have hfork : (FamilyEvent.fork new).Enabled ⟨m₀, {m₀.state.cr3}⟩ :=
    ⟨Finset.mem_singleton_self _, hnew, Finset.notMem_singleton.mpr hne⟩
  have hattach : (FamilyEvent.attach new).Enabled ⟨⟨s', m₀.dirs⟩, insert new {m₀.state.cr3}⟩ := hnew
  have hrun : (FamilyEvent.fork new).run L.globalPgdir ⟨m₀, {m₀.state.cr3}⟩
      = .ok ⟨⟨s', m₀.dirs⟩, insert new {m₀.state.cr3}⟩ := by
    simp only [FamilyEvent.run]
    rw [hclone]
    rfl
  have hstart : (familySystem L ⟨m₀, {m₀.state.cr3}⟩).Run [] ⟨m₀, {m₀.state.cr3}⟩ := .start rfl
  exact (hstart.step ⟨rfl, hfork, hrun⟩).step ⟨rfl, hattach, rfl⟩

/-- **The child has the user pages** that the parent has outside of the window. -/
theorem Forked.maps_child {new : Nat} {members dirs' : Finset Nat} (h : Forked dirs new 0 s s')
    (hledger : Ledger L dirs tables held out s) (hcr : s.cr3 ∈ dirs) (ha : IsUserAddress a)
    (hout : a < USERTEMP ∨ USERTEMPEND ≤ a) (hpde : (s.pde a).Valid = true)
    (hpte : (s.pte a).Valid = true) (hu : (s.pte a).UserPriv = true) (hnew : new ∈ members) :
    Family.Maps ⟨⟨mmAttachToAddressSpace new s', dirs'⟩, members⟩ a := by
  have hleaf := leaf_of_pte_valid hpde hpte
  have hchild := h.copied _ (PDX_user ha) (Nat.zero_le _) (Or.inl (PDX_outside ha hout)) _ (PTX_lt a)
  rw [hleaf, Option.map_some] at hchild
  obtain ⟨u, -, hpage⟩ := hledger.shape.leaf_page hcr (PDX_user ha) (PTX_lt a) hleaf
  obtain ⟨-, -, huser, -⟩ := (s.pte a).shared_fields hpage.copyOnWrite
  obtain ⟨hpde', hpte', hvalid'⟩ := pte_of_leaf (s := mmAttachToAddressSpace new s') hchild
  exact ⟨hnew, ha, hout, hpde', hpte'.symm ▸ hvalid', hpte'.symm ▸ huser.trans hu⟩

/-- A process that is ready to be forked and has a page at `0x800000`. -/
def readyToShare (m : PageMachine) : Bool :=
  readyToFork false m && decide ((m.state.pde 0x800000).Valid = true ∧ (m.state.pte 0x800000).Valid = true
    ∧ (m.state.pte 0x800000).UserPriv = true)

/-- A child that reads in the page that it shares with its parent. -/
theorem read_eager_child : ∃ m₀ t m b, (familySystem firstLayout m₀).Run t m ∧ t.length = 2
    ∧ m₀.members = {16} ∧ m.state.cr3 = 19 ∧ (FamilyEvent.read 0x800000 b).Enabled m
    ∧ eagerMemory m₀ t m.state.cr3 0x800000 = some b := by
  have hplay : (play (fun e m => decide (PageEvent.Enabled m e)) (fun e m => e.run 1 m)
      (forkEvents 0x800000) ([], ⟨firstState, ∅⟩)).map (fun x => readyToShare x.2) = some true := by
    decide +kernel
  obtain ⟨t₀, m₀, hrun₀, hready⟩ := System.Run.play_observed _ _ pageSystem_play (forkEvents 0x800000)
    (fun _ m => readyToShare m) (.start (M := pageSystem firstLayout) ⟨firstState_booted, rfl⟩) hplay
  obtain ⟨hfork, hpage⟩ := Bool.and_eq_true_iff.mp hready
  obtain ⟨hcr, -⟩ := of_decide_eq_true hfork
  obtain ⟨hpde, hpte, hu⟩ := of_decide_eq_true hpage
  obtain ⟨hparent, hnew, -, -, s', hclone⟩ := readyToFork_returns hrun₀ hfork
  obtain ⟨tables, hledger, -⟩ := pageSystem_ledger hrun₀
  obtain ⟨-, -, -, -, -, -, hforked⟩ := hledger.mmCloneProcessAddressSpace hparent hnew hclone
  have hmaps : Family.Maps ⟨⟨mmAttachToAddressSpace 19 s', m₀.dirs⟩, insert 19 {16}⟩ 0x800000 :=
    (hforked rfl).maps_child hledger (hcr.symm ▸ hparent) (by decide) (by decide) hpde hpte hu
      (Finset.mem_insert_self ..)
  have hrun := familySystem_child (L := firstLayout) hcr hnew (by decide) hclone
  exact ⟨_, _, _, _, hrun, rfl, rfl, rfl, ⟨hmaps, rfl⟩,
    read_eager hrun₀ (Finset.singleton_subset_iff.mpr hparent) hrun ⟨hmaps, rfl⟩⟩

end KaushOS.Paging
