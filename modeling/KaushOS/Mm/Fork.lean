import Mathlib.Order.Interval.Finset.Nat
import KaushOS.Mm.ForkSuccess
import KaushOS.Mm.PageRuns

/-! # What a fork reproduces

A fork shares the pages of the parent with the child, page table by page table. It fills each page table
of the child in the window of the parent, and the page table of the window is one of those that it
copies: what is mapped in the window at that moment is taken for a page of the parent.

* **`Reproduces`** — the child maps what the parent mapped, and the parent still maps it.
* **`Forked.reproduces`, `Forked.not_reproduces`** — when it does, and when it does not.
* **`fork_reproduces_iff`** — a fork reproduces the mappings of a parent that uses no address below the
  end of the window, and of no other. -/

namespace KaushOS.Paging

open Transition PhysicalMemory

/-! ## Mappings -/

/-- **The entry of the page at an address** of the address space `d`, if it is valid. -/
def State.page (s : State) (d address : Nat) : Option MMPTE :=
  leaf s.entry d (PDX address) (PTX address)

/-- **A fork reproduces the mappings** of the parent: the user pages that are valid in the new address
space are those that were valid in the parent, with the same frames and rights, and the parent has
the user pages that it had. -/
structure Reproduces (s : State) (parent new : Nat) (s' : State) : Prop where
  pages : ∀ a, IsUserAddress a → ((s'.page new a).isSome = true ↔ (s.page parent a).isSome = true)
  same : ∀ a, IsUserAddress a → ∀ p q, s.page parent a = some p → s'.page new a = some q →
    q.PageFrameNumber = p.PageFrameNumber ∧ q.UserPriv = p.UserPriv
  parent : ∀ a, IsUserAddress a →
    ((s'.page parent a).isSome = true ↔ (s.page parent a).isSome = true)

variable {L : Layout} {dirs tables : Finset Nat} {held : Nat → Nat} {out : Finset Nat}
  {s s' : State} {m : PageMachine} {t : List (PageEvent × PageMachine)} {e parent new : Nat}

/-- **The page table of the window is copied** when the parent uses addresses below its end. -/
theorem windowCopied_iff : WindowCopied s 0
    ↔ ¬ ((s.entry s.cr3 (PDX 0)).Valid = false ∧ (s.entry s.cr3 (PDX USERTEMP)).Valid = false) := by
  have hwindow : windowEntry = 1 := by decide
  have hfirst : PDX 0 = 0 := by decide
  have hsecond : PDX USERTEMP = 1 := by decide
  rw [hfirst, hsecond, not_and_or, Bool.not_eq_false, Bool.not_eq_false, WindowCopied, hwindow]
  constructor
  · rintro ⟨i, -, hi, hvalid⟩
    rcases Nat.le_one_iff_eq_zero_or_eq_one.mp hi with rfl | rfl
    · exact Or.inl hvalid
    · exact Or.inr hvalid
  · rintro (hvalid | hvalid)
    · exact ⟨0, Nat.le_refl 0, Nat.zero_le 1, hvalid⟩
    · exact ⟨1, Nat.zero_le 1, Nat.le_refl 1, hvalid⟩

/-- **Without the window's page table, a fork reproduces the mappings.** -/
theorem Forked.reproduces (h : Forked dirs e 0 s s') (hledger : Ledger L dirs tables held out s)
    (hcr : s.cr3 ∈ dirs) (hne : e ≠ s.cr3) (hno : ¬ WindowCopied s 0) :
    Reproduces s s.cr3 e s' := by
  have hcopied : ∀ a, IsUserAddress a → s'.page e a = (s.page s.cr3 a).map MMPTE.shared :=
    fun a ha => h.copied _ (PDX_user ha) (Nat.zero_le _) (Or.inr hno) _ (PTX_lt a)
  have hkept : ∀ a, IsUserAddress a → s'.page s.cr3 a = (s.page s.cr3 a).map MMPTE.shared := by
    intro a ha
    have hkept := h.kept _ hcr hne.symm _ (PDX_user ha) _ (PTX_lt a)
    rw [if_pos ⟨rfl, Nat.zero_le _⟩] at hkept
    exact hkept
  refine ⟨fun a ha => ?_, fun a ha p q hp hq => ?_, fun a ha => ?_⟩
  · rw [hcopied a ha, Option.isSome_map]
  · rw [hcopied a ha, hp, Option.map_some] at hq
    cases hq
    obtain ⟨u, -, hpage⟩ := hledger.shape.leaf_page hcr (PDX_user ha) (PTX_lt a) hp
    obtain ⟨-, -, huser, hframe⟩ := p.shared_fields hpage.copyOnWrite
    exact ⟨hframe, huser⟩
  · rw [hkept a ha, Option.isSome_map]

/-- **With it, the child gets a page that the parent did not have.** -/
theorem Forked.not_reproduces (h : Forked dirs e 0 s s') (hw : WindowCopied s 0) :
    ¬ Reproduces s s.cr3 e s' := by
  intro hrep
  obtain ⟨k, hk, t, hnone, hall⟩ := h.window hw
  obtain ⟨huser, hpdx, hptx⟩ := pageAt_window hk
  have hchild : (s'.page e (pageAt windowEntry k)).isSome = true := by
    rw [State.page, hpdx, hptx, hall k hk, if_pos rfl]
    rfl
  have hparent := (hrep.pages _ huser).mp hchild
  rw [State.page, hpdx, hptx, hnone] at hparent
  cases hparent

/-- **A fork reproduces the mappings of its parent if and only if** the parent has no page table for
the addresses below the end of the window. -/
theorem fork_reproduces_iff (h : (pageSystem L).Run t m) (hparent : parent ∈ m.dirs)
    (hnew : new ∈ m.dirs)
    (hrun : mmCloneProcessAddressSpace parent new m.state = .ok (.STATUS_SUCCESS, s')) :
    Reproduces m.state parent new s' ↔ (m.state.entry parent (PDX 0)).Valid = false
      ∧ (m.state.entry parent (PDX USERTEMP)).Valid = false := by
  obtain ⟨tables, hledger, -⟩ := pageSystem_ledger h
  obtain ⟨rfl, hne, -, -, -, -, hforked⟩ := hledger.mmCloneProcessAddressSpace hparent hnew hrun
  have hforked := hforked rfl
  constructor
  · intro hrep
    by_contra hno
    exact hforked.not_reproduces (windowCopied_iff.mpr hno) hrep
  · intro hunused
    exact hforked.reproduces hledger hparent hne fun hw => windowCopied_iff.mp hw hunused

/-! ## The first two processes -/

/-- A machine with 2000 free frames; the page directory is in frame 1, and the kernel half has one
page table, in frame 2. -/
def firstLayout : Layout where
  globalPgdir := 1
  kernel := {2}
  managed := Finset.Ico 16 2016
  bound f hf := by
    rw [Finset.mem_Ico] at hf
    omega
  kernel_notMem x hx := by
    rw [Finset.mem_singleton] at hx
    rw [hx, Finset.mem_Ico]
    omega
  global_notMem := by
    rw [Finset.mem_Ico]
    omega
  global_notKernel := by decide

/-- The page directory after the boot. -/
def firstDirectory (i : Nat) : BitVec 32 :=
  if i = selfEntry then (MMPTE.make 1 PTE_W).Long
  else if kernelEntry < i then (MMPTE.make 2 PTE_W).Long
  else 0

/-- The memory after the boot. -/
def firstState : State where
  ram f := if f = 1 then bytes firstDirectory else fun _ => 0
  cr3 := 1
  PfnFreeList := List.range' 16 2000
  RefCount _ := 0

/-- The page directory, read from the memory. -/
theorem entry_firstState (i : Nat) : firstState.entry 1 i = ⟨firstDirectory i⟩ :=
  congrArg MMPTE.mk (word_bytes rfl i)

/-- **This is a memory as the boot leaves it.** -/
theorem firstState_booted : Booted firstLayout firstState where
  cr3 := rfl
  nodup := List.nodup_range'
  free f := by
    rw [firstLayout, Finset.mem_Ico, firstState, List.mem_range'_1]
  count _ _ := rfl
  user i hi := by
    have hself : i ≠ selfEntry := by
      have hlt : kernelEntry < selfEntry := by decide
      omega
    show firstState.entry 1 i = ⟨0⟩
    rw [entry_firstState, firstDirectory, if_neg hself, if_neg (by omega)]
  self := by
    show (firstState.entry 1 selfEntry).Valid = true ∧ (firstState.entry 1 selfEntry).PageFrameNumber = 1
    rw [entry_firstState]
    decide
  tables i hi := by
    show (firstState.entry 1 i).Valid = true ∧ (firstState.entry 1 i).PageFrameNumber ∈ {2}
    rw [entry_firstState, firstDirectory, if_neg hi.2.2, if_pos hi.1]
    decide
  empty x hx j _ := by
    obtain rfl : x = 2 := Finset.mem_singleton.mp hx
    have hzero : firstState.ram 2 = bytes fun _ => 0 := by
      funext o
      simp [firstState, bytes]
    exact congrArg MMPTE.mk (word_bytes hzero j)

/-- A process is created and loaded, with one segment of 16 bytes, and another one is created. -/
def forkEvents (address : Nat) : List PageEvent :=
  [.create 0x80400000, .attach 16, .load address 16, .create 0x80401000]

/-- The loaded process is ready to be forked. -/
def readyToFork (first : Bool) (m : PageMachine) : Bool :=
  decide (m.state.cr3 = 16 ∧ 16 ∈ m.dirs ∧ 19 ∈ m.dirs ∧ 1022 ≤ m.state.PfnFreeList.length
    ∧ (m.state.entry 16 (PDX 0)).Valid = first ∧ (m.state.entry 16 (PDX USERTEMP)).Valid = false
    ∧ ∀ i, i < userEntries → (m.state.entry 19 i).Long = 0)

/-- **A process that is ready to be forked is forked.** -/
theorem readyToFork_returns {first : Bool} (h : (pageSystem L).Run t m)
    (hready : readyToFork first m = true) : 16 ∈ m.dirs ∧ 19 ∈ m.dirs
      ∧ (m.state.entry 16 (PDX 0)).Valid = first ∧ (m.state.entry 16 (PDX USERTEMP)).Valid = false
      ∧ ∃ s', mmCloneProcessAddressSpace 16 19 m.state = .ok (.STATUS_SUCCESS, s') := by
  obtain ⟨hcr, hparent, hnew, hfree, hfirst, hwindow, hempty⟩ := of_decide_eq_true hready
  obtain ⟨tables, hledger, -⟩ := pageSystem_ledger h
  have hslot : leaf m.state.entry m.state.cr3 windowEntry 0 = none := by
    rw [hcr]
    exact leaf_of_invalid hwindow 0
  have hentries : 2 * userEntries = 1022 := by decide
  obtain ⟨s', hrun⟩ := hledger.fork_succeeds (hcr ▸ hparent) hnew (by rw [hcr]; decide)
    (fun i hi => MMPTE.ext (hempty i hi)) (by rw [hentries]; exact hfree) ⟨0, by decide, hslot⟩
  rw [hcr] at hrun
  exact ⟨hparent, hnew, hfirst, hwindow, s', hrun⟩

/-- A run that makes a process ready to be forked. -/
theorem forkEvents_ready (first : Bool) (address : Nat)
    (hplay : (play (fun e m => decide (PageEvent.Enabled m e)) (fun e m => e.run 1 m)
      (forkEvents address) ([], ⟨firstState, ∅⟩)).map (fun x => readyToFork first x.2) = some true) :
    ∃ t m, (pageSystem firstLayout).Run t m ∧ readyToFork first m = true :=
  System.Run.play_observed _ _ pageSystem_play (forkEvents address)
    (fun _ m => readyToFork first m) (.start ⟨firstState_booted, rfl⟩) hplay

/-- The mappings of a process whose program is above the window. -/
theorem fork_reproduces_iff_above : ∃ (m : PageMachine) (s' : State),
    mmCloneProcessAddressSpace 16 19 m.state = .ok (.STATUS_SUCCESS, s')
      ∧ Reproduces m.state 16 19 s' := by
  obtain ⟨t, m, hrun, hready⟩ := forkEvents_ready false 0x800000 (by decide +kernel)
  obtain ⟨hparent, hnew, hfirst, hwindow, s', hfork⟩ := readyToFork_returns hrun hready
  exact ⟨m, s', hfork, (fork_reproduces_iff hrun hparent hnew hfork).mpr ⟨hfirst, hwindow⟩⟩

/-- **A fork does not reproduce every parent's mappings**: a program whose first page is at `PGSIZE`
gets a page more. -/
theorem fork_not_reproduces : ¬ ∀ (L : Layout) (t : List (PageEvent × PageMachine)) (m : PageMachine)
    (parent new : Nat) (s' : State), (pageSystem L).Run t m → parent ∈ m.dirs → new ∈ m.dirs →
    mmCloneProcessAddressSpace parent new m.state = .ok (.STATUS_SUCCESS, s') →
    Reproduces m.state parent new s' := by
  intro hall
  obtain ⟨t, m, hrun, hready⟩ := forkEvents_ready true 0x1000 (by decide +kernel)
  obtain ⟨hparent, hnew, hfirst, -, s', hfork⟩ := readyToFork_returns hrun hready
  obtain ⟨tables, hledger, -⟩ := pageSystem_ledger hrun
  obtain ⟨hcr, -, -, -, -, -, hforked⟩ := hledger.mmCloneProcessAddressSpace hparent hnew hfork
  refine (hforked rfl).not_reproduces (windowCopied_iff.mpr fun hno => ?_)
    (hcr ▸ hall _ _ _ _ _ _ hrun hparent hnew hfork)
  rw [← hcr, hfirst] at hno
  cases hno.1

end KaushOS.Paging
