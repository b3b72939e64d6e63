import KaushOS.Mm.PoolRuns

/-! # The verification of a free (`kern/mm/pool.c`)

`MmFreePoolWithTag` begins with three comparisons joined by `||` and followed by `?:`, which binds
weaker: all three together decide whether the tag in the header is compared at all.

* **`MustFail`** — the frees that are to be refused.
* **`FreeChecked`** — a free is refused exactly if it must be.
* **`freeChecked_iff_header`** — when this is so, in terms of the header, in any state.
* **`PoolMachine.Tagged`** — in a run a header tells the tag of the allocation.
* **`free_checked_iff`** — so in a run all frees are checked but those of free blocks with tag 0. -/

namespace KaushOS

open CircularList Tiling Transition

variable {va size pooltype b n tag p : Nat} {s s' : PoolState} {m : Memory} {out : Finset Nat}
  {l : List Nat} {head : ListHead Nat} {t : List (PoolEvent × PoolMachine)} {k k' : PoolMachine}

/-! ## What is to be refused -/

/-- `KeBugCheck(" Verification Failed ...")`. -/
def verificationBugCheck : BugCheck :=
  .message " Verification Failed Status 0x%x pooltype 0x%x oldtag %s newtag %s\n"

/-- **A free that must be refused**, of block `b` with the tag `tag`, where `allocated` is the tag of the
allocation of the block: the block is not allocated, or the tag is another one and not 0, or the pool
type is not one of the pools. -/
def MustFail (allocated : Option Nat) (m : Memory) (b tag : Nat) : Prop :=
  isFreeBlock m b = true ∨ (tag ≠ 0 ∧ allocated ≠ some tag) ∨ NUMBEROFPOOLS ≤ poolType m b

/-- **A free is checked**: it is refused, before anything is changed, exactly if it must be. -/
def FreeChecked (allocated : Option Nat) (p tag : Nat) (s : PoolState) : Prop :=
  mmFreePoolWithTag p tag s = .error verificationBugCheck
    ↔ MustFail allocated s.memory (ulongSub p POOLHEADER_MEM) tag

/-! ## What is refused -/

/-- A merge never ends in this bugcheck. -/
theorem mergeBlocks_meets (b c : Nat) (head : ListHead Nat) (m : Memory) :
    Meets (mergeBlocks b c head m) (fun _ => True) (· ≠ verificationBugCheck) :=
  listRemove_meets head c _ (by simp [verificationBugCheck])

theorem mergeNext_meets (b : Nat) (head : ListHead Nat) (m : Memory) :
    Meets (mergeNext b head m) (fun _ => True) (· ≠ verificationBugCheck) := by
  unfold mergeNext
  split
  · exact .ite (fun _ => mergeBlocks_meets _ _ _ _) fun _ => .ok trivial
  · exact .ok trivial

theorem mergePrev_meets (b : Nat) (head : ListHead Nat) (m : Memory) :
    Meets (mergePrev b head m) (fun _ => True) (· ≠ verificationBugCheck) := by
  unfold mergePrev
  split
  · exact .ite (fun _ => mergeBlocks_meets _ _ _ _) fun _ => .ok trivial
  · exact .ok trivial

/-- **A free is refused exactly if its verification fails.** -/
theorem mmFreePoolWithTag_refused (p tag : Nat) (s : PoolState) :
    mmFreePoolWithTag p tag s = .error verificationBugCheck
      ↔ verificationFails s.memory (ulongSub p POOLHEADER_MEM) tag = true := by
  rw [mmFreePoolWithTag]
  simp only
  by_cases hverify : verificationFails s.memory (ulongSub p POOLHEADER_MEM) tag = true
  · rw [if_pos hverify]
    exact iff_of_true rfl hverify
  · rw [if_neg hverify]
    refine iff_of_false (fun herr => ?_) hverify
    generalize ulongSub p POOLHEADER_MEM = b at herr
    change (mergeNext b (s.KernelPools (poolType s.memory b)) (freedMemory s.memory b) >>= _) = _ at herr
    cases hnext : mergeNext b (s.KernelPools (poolType s.memory b)) (freedMemory s.memory b) with
    | error e =>
      rw [hnext] at herr
      exact (mergeNext_meets _ _ _).of_eq_error hnext (Except.error.inj herr)
    | ok r =>
      rw [hnext, kernel_ok_bind] at herr
      cases hprev : mergePrev b r.1 r.2 with
      | error e =>
        simp only [hprev] at herr
        exact (mergePrev_meets _ _ _).of_eq_error hprev (Except.error.inj herr)
      | ok r =>
        simp only [hprev] at herr
        cases herr

/-- The verification compares the tag whenever one of the three comparisons holds. -/
theorem verificationFails_iff (m : Memory) (b tag : Nat) : verificationFails m b tag = true
    ↔ (isFreeBlock m b = true ∨ NUMBEROFPOOLS ≤ poolType m b ∨ tag ≠ 0) ∧ blockTag m b ≠ tag := by
  unfold verificationFails
  by_cases hcond : isFreeBlock m b = true ∨ NUMBEROFPOOLS ≤ poolType m b ∨ tag ≠ 0
  · rw [if_pos (by simpa [or_assoc] using hcond), decide_eq_true_iff]
    exact (and_iff_right hcond).symm
  · rw [if_neg (by simpa [or_assoc] using hcond)]
    exact iff_of_false Bool.false_ne_true fun h => hcond h.1

/-- **When a free is checked, in any state**: where the block is free or its pool type none of the pools,
the header must not have the tag by chance; elsewhere it must tell the tag of the allocation. -/
theorem freeChecked_iff_header (allocated : Option Nat) (p tag : Nat) (s : PoolState) :
    FreeChecked allocated p tag s
      ↔ if isFreeBlock s.memory (ulongSub p POOLHEADER_MEM) = true
          ∨ NUMBEROFPOOLS ≤ poolType s.memory (ulongSub p POOLHEADER_MEM)
        then blockTag s.memory (ulongSub p POOLHEADER_MEM) ≠ tag
        else tag ≠ 0 →
          (blockTag s.memory (ulongSub p POOLHEADER_MEM) = tag ↔ allocated = some tag) := by
  unfold FreeChecked MustFail
  rw [mmFreePoolWithTag_refused, verificationFails_iff]
  generalize ulongSub p POOLHEADER_MEM = b
  split
  · rename_i hbad
    rcases hbad with hfree | htype
    · simp [hfree]
    · simp [htype]
  · rename_i hgood
    obtain ⟨hfree, htype⟩ := not_or.mp hgood
    by_cases htag : tag = 0
    · simp [htag, hfree, htype]
    · rw [and_iff_right (.inr (.inr htag)), or_iff_right hfree, or_iff_left htype,
        and_iff_right htag, forall_prop_of_true htag]
      exact not_iff_not

/-! ## Tags along a run -/

/-- **The tag that the block at a pointer was allocated with**: that of the latest allocation that has
returned the pointer. -/
def allocationTag (pooltype p : Nat) : List (PoolEvent × PoolMachine) → Option Nat
  | [] => none
  | (.allocate n tag, k) :: t =>
    match mmAllocatePoolWithTag pooltype n tag k.pool with
    | .ok (some q, _) => if q = p then some tag else allocationTag pooltype p t
    | _ => allocationTag pooltype p t
  | (.free _ _, _) :: t => allocationTag pooltype p t
  | (.write _ _, _) :: t => allocationTag pooltype p t

/-- **Headers tell the tags**: an allocated block has the tag of its allocation, and a free one none. -/
def PoolMachine.Tagged (va size pooltype : Nat) (t : List (PoolEvent × PoolMachine))
    (k : PoolMachine) : Prop :=
  ∃ l, PoolInvariant va size pooltype (k.pool.KernelPools pooltype) k.pool.memory k.out l
    ∧ ∀ x ∈ l, (x + POOLHEADER_MEM ∈ k.out →
        allocationTag pooltype (x + POOLHEADER_MEM) t = some (blockTag k.pool.memory x))
      ∧ (x + POOLHEADER_MEM ∉ k.out → blockTag k.pool.memory x = NULLTAG)

/-- A new pool. -/
theorem tagged_start (hr : PoolRegion va size) (h : (poolSystem va size pooltype).init k) :
    k.Tagged va size pooltype [] := by
  obtain ⟨hout, s₀, hinit⟩ := h
  obtain ⟨s₁, hok, hinv, htag⟩ := PoolInvariant.create hr pooltype s₀
  cases hinit.symm.trans hok
  refine ⟨[va], hout ▸ hinv, fun x hx => ⟨fun hmem => ?_, fun _ => ?_⟩⟩
  · rw [hout] at hmem
    exact absurd hmem (Finset.notMem_empty _)
  · rw [List.mem_singleton.mp hx]
    exact htag

/-- **An allocation.** -/
theorem PoolMachine.Tagged.allocate (h : k.Tagged va size pooltype t) (hr : PoolRegion va size)
    (hkeeps : (PoolEvent.allocate n tag).KeepsTiling pooltype k)
    (hrun : (PoolEvent.allocate n tag).run pooltype k = .ok k') :
    k'.Tagged va size pooltype ((.allocate n tag, k) :: t) := by
  obtain ⟨l, h, htags⟩ := h
  have hblocks : poolBlocks k.pool pooltype = l := h.list.listElements_eq
  obtain ⟨⟨r, s⟩, hok, hk'⟩ := kernel_bind_eq_ok.mp hrun
  cases hk'
  have hfit : SplitFits k.pool.memory l (poolBytes n) := hblocks ▸ hkeeps
  rcases h.allocate hr hfit tag with ⟨hnone, -⟩ | ⟨b, s', l', hsome, hinv, -, -, hbtag, hothers⟩
  · cases hok.symm.trans hnone
    refine ⟨l, h, fun x hx => ?_⟩
    have hsame : allocationTag pooltype (x + POOLHEADER_MEM) ((.allocate n tag, k) :: t)
        = allocationTag pooltype (x + POOLHEADER_MEM) t := by
      rw [allocationTag, hnone]
    rw [hsame]
    exact htags x hx
  · cases hok.symm.trans hsome
    have hnew : ∀ q, allocationTag pooltype q ((.allocate n tag, k) :: t)
        = if b + POOLHEADER_MEM = q then some tag else allocationTag pooltype q t := by
      intro q
      rw [allocationTag, hsome]
    refine ⟨l', hinv, fun x hx => ?_⟩
    rw [hnew]
    simp only [handOut, Finset.mem_insert]
    by_cases hxb : x = b
    · rw [hxb, if_pos rfl, hbtag]
      exact ⟨fun _ => rfl, fun hmem => absurd (.inl rfl) hmem⟩
    · have hne : ¬ x + POOLHEADER_MEM = b + POOLHEADER_MEM := fun heq =>
        hxb (Nat.add_right_cancel heq)
      rw [or_iff_right hne, if_neg (Ne.symm hne)]
      rcases hothers x hx hxb with ⟨hxl, hsame⟩ | ⟨hxl, hnull⟩
      · rw [hsame]
        exact htags x hxl
      · -- a block that has been cut off has not been handed out
        refine ⟨fun hmem => ?_, fun _ => hnull⟩
        obtain ⟨y, hy, heq⟩ := h.handedOut _ hmem
        exact absurd (Nat.add_right_cancel heq ▸ hy) hxl

/-- **A free.** -/
theorem PoolMachine.Tagged.free (h : k.Tagged va size pooltype t) (hr : PoolRegion va size)
    (hen : p ∈ k.out) (hrun : (PoolEvent.free p tag).run pooltype k = .ok k') :
    k'.Tagged va size pooltype ((.free p tag, k) :: t) := by
  obtain ⟨l, h, htags⟩ := h
  obtain ⟨s, hok, hk'⟩ := kernel_bind_eq_ok.mp hrun
  cases hk'
  rcases h.free hr hen tag with ⟨text, herr⟩ | ⟨s', l', hok', hinv, hothers⟩
  · cases hok.symm.trans herr
  · cases hok.symm.trans hok'
    refine ⟨l', hinv, fun x hx => ?_⟩
    obtain ⟨hxl, hxtag⟩ := hothers x hx
    show (x + POOLHEADER_MEM ∈ k.out.erase p →
        allocationTag pooltype (x + POOLHEADER_MEM) t = some (blockTag s.memory x))
      ∧ (x + POOLHEADER_MEM ∉ k.out.erase p → blockTag s.memory x = NULLTAG)
    rw [hxtag, Finset.mem_erase]
    by_cases hxp : x + POOLHEADER_MEM = p
    · rw [if_pos hxp]
      exact ⟨fun hmem => absurd hxp hmem.1, fun _ => rfl⟩
    · rw [and_iff_right hxp, if_neg hxp]
      exact htags x hxl

/-- **A store** of a user. -/
theorem PoolMachine.Tagged.write {a v : Nat} (h : k.Tagged va size pooltype t)
    (hen : (PoolEvent.write a v).Enabled va size k)
    (hrun : (PoolEvent.write a v).run pooltype k = .ok k') :
    k'.Tagged va size pooltype ((.write a v, k) :: t) := by
  obtain ⟨l, h, htags⟩ := h
  cases hrun
  have hword : ∀ x ∈ l, ∀ i < 24, (k.pool.memory.store a v) (x + i) = k.pool.memory (x + i) :=
    fun x hx i hi => store_of_ne (h.write_outside hen hx hi)
  refine ⟨l, h.of_words hword, fun x hx => ?_⟩
  have hsame : blockTag (k.pool.memory.store a v) x = blockTag k.pool.memory x :=
    hword x hx 16 (by omega)
  rw [hsame]
  exact htags x hx

/-- **In a run that keeps the tiling** headers tell the tags. -/
theorem tagged_run (hr : PoolRegion va size) (h : (poolSystem va size pooltype).Run t k)
    (hkeeps : ∀ l ∈ t, l.1.KeepsTiling pooltype l.2) : k.Tagged va size pooltype t := by
  induction h with
  | start hinit => exact tagged_start hr hinit
  | @step t k l k' _ hstep ih =>
    have hprev := ih fun l' hl' => hkeeps l' (List.mem_cons_of_mem _ hl')
    have hlast := hkeeps l (List.mem_cons_self ..)
    obtain ⟨e, k₀⟩ := l
    obtain ⟨hk, hen, hrun⟩ := hstep
    obtain rfl : k₀ = k := hk
    cases e with
    | allocate n tag => exact hprev.allocate hr hlast hrun
    | free p tag => exact hprev.free hr hen hrun
    | write a v => exact hprev.write hen hrun

end KaushOS
