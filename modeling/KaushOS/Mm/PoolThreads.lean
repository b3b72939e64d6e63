import KaushOS.Mm.PoolRuns

/-! # Threads that share a pool (`kern/mm/pool.c`)

`MmAllocatePoolWithTag` works on the list under `PoolLock`. `MmFreePoolWithTag` checks and marks the
block before it takes the lock: between the two the block looks free and its free is not finished.
Here the checks, the three stores and the locked section are steps of their own.

* **`FreeCall`**, **`PoolThreads`** — where the frees stand, and the pool that the threads share.
* **`PoolThreads.Safe`** — blocks have one owner, are linked, and stay linked until they are freed.
* **`PoolThreads.Inv`** — the tiling of the pool, with the blocks of the frees under way.
* **`MeetsPending`** — a locked section comes upon a block whose free is not finished. -/

namespace KaushOS

open CircularList Tiling Transition

/-! ## A free in steps -/

/-- The verification of `MmFreePoolWithTag`: the pool type that it has read. -/
def freeVerify (b tag : Nat) (s : PoolState) : Kernel Nat :=
  if verificationFails s.memory b tag then
    keBugCheck " Verification Failed Status 0x%x pooltype 0x%x oldtag %s newtag %s\n"
  else .ok (poolType s.memory b)

/-- `pPoolBlock->Tag = NULLTAG`. -/
def freeTag (b : Nat) (s : PoolState) : PoolState :=
  { s with memory := s.memory.store (b + 16) NULLTAG }

/-- `pPoolBlock->mem[0] = 0`. -/
def freeMem (b : Nat) (s : PoolState) : PoolState := { s with memory := clearMem s.memory b }

/-- `pPoolBlock->status = POOL_STATUS_FREE`. -/
def freeStatus (b : Nat) (s : PoolState) : PoolState :=
  { s with memory := s.memory.store (b + 20) POOL_STATUS_FREE }

/-- The section of `MmFreePoolWithTag` under `PoolLock`. -/
def freeLocked (b pooltype : Nat) (s : PoolState) : Kernel PoolState := do
  let (head, m) ← mergeNext b (s.KernelPools pooltype) s.memory
  let (head, m) ← mergePrev b head m
  return s.set pooltype head m

/-- **One step after another is `MmFreePoolWithTag`**, when no other thread comes in between. -/
theorem mmFreePoolWithTag_eq (p tag : Nat) (s : PoolState) :
    mmFreePoolWithTag p tag s = (freeVerify (ulongSub p POOLHEADER_MEM) tag s >>= fun pooltype =>
      freeLocked (ulongSub p POOLHEADER_MEM) pooltype (freeStatus (ulongSub p POOLHEADER_MEM)
        (freeMem (ulongSub p POOLHEADER_MEM) (freeTag (ulongSub p POOLHEADER_MEM) s)))) := by
  unfold mmFreePoolWithTag
  generalize ulongSub p POOLHEADER_MEM = b
  unfold freeVerify
  by_cases h : verificationFails s.memory b tag = true
  · rw [if_pos h, if_pos h]
    rfl
  · rw [if_neg h, if_neg h, kernel_ok_bind]
    rfl

/-! ## Threads -/

/-- **Where the free of a thread stands**: what it does next. `b` is the block, and `pooltype` what
has been read from its header. -/
inductive FreeCall
  | idle
  | verify (b tag : Nat)
  | storeTag (b pooltype : Nat)
  | storeMem (b pooltype : Nat)
  | storeStatus (b pooltype : Nat)
  | locked (b pooltype : Nat)
  deriving DecidableEq

/-- The block that is being freed. -/
def FreeCall.block : FreeCall → Option Nat
  | .idle => none
  | .verify b _ | .storeTag b _ | .storeMem b _ | .storeStatus b _ | .locked b _ => some b

/-- The block that is being freed and still marked as allocated. -/
def FreeCall.marked : FreeCall → Option Nat
  | .verify b _ | .storeTag b _ | .storeMem b _ | .storeStatus b _ => some b
  | .idle | .locked _ _ => none

/-- The pool type that has been read. -/
def FreeCall.pooltype : FreeCall → Option Nat
  | .storeTag _ n | .storeMem _ n | .storeStatus _ n | .locked _ n => some n
  | .idle | .verify _ _ => none

/-- **A pool and the threads that use it**; `out` lists the pointers that allocations have returned
and that have not been passed to a free. -/
structure PoolThreads (τ : Type) where
  pool : PoolState
  out : List Nat
  call : τ → FreeCall

/-- What a thread does next. -/
inductive PoolAction
  /-- It calls `MmAllocatePoolWithTag`. -/
  | allocate (numberOfBytes tag : Nat)
  /-- It calls `MmFreePoolWithTag`. -/
  | free (p tag : Nat)
  /-- It stores a word. -/
  | write (a v : Nat)
  /-- It goes on with its free. -/
  | go
  deriving DecidableEq

variable {τ : Type} [DecidableEq τ]

namespace PoolThreads

/-- The free of thread `t` stands at `c`. -/
def setCall (m : PoolThreads τ) (t : τ) (c : FreeCall) : PoolThreads τ :=
  { m with call := Function.update m.call t c }

/-- The pool is changed. -/
def setPool (m : PoolThreads τ) (s : PoolState) : PoolThreads τ := { m with pool := s }

/-- **A step of a free.** -/
def go (m : PoolThreads τ) (t : τ) : Kernel (PoolThreads τ) :=
  match m.call t with
  | .idle => .ok m
  | .verify b tag => do
    let pooltype ← freeVerify b tag m.pool
    return m.setCall t (.storeTag b pooltype)
  | .storeTag b pooltype => .ok ((m.setPool (freeTag b m.pool)).setCall t (.storeMem b pooltype))
  | .storeMem b pooltype => .ok ((m.setPool (freeMem b m.pool)).setCall t (.storeStatus b pooltype))
  | .storeStatus b pooltype =>
    .ok ((m.setPool (freeStatus b m.pool)).setCall t (.locked b pooltype))
  | .locked b pooltype => do
    let s ← freeLocked b pooltype m.pool
    return (m.setPool s).setCall t .idle

/-- **A step of a thread.** -/
def step (pooltype : Nat) (m : PoolThreads τ) (t : τ) : PoolAction → Kernel (PoolThreads τ)
  | .allocate n tag => do
    let (p, s) ← mmAllocatePoolWithTag pooltype n tag m.pool
    return { m.setPool s with out := p.toList ++ m.out }
  | .free p tag =>
    .ok ({ m with out := m.out.erase p }.setCall t (.verify (ulongSub p POOLHEADER_MEM) tag))
  | .write a v => .ok (m.setPool { m.pool with memory := m.pool.memory.store a v })
  | .go => m.go t

/-- **What the threads promise**: a pointer that has been handed out is freed once, and words are
stored in payloads that are handed out or outside the region. -/
def Enabled (va size : Nat) (m : PoolThreads τ) (t : τ) : PoolAction → Prop
  | .allocate _ _ => m.call t = .idle
  | .free p _ => m.call t = .idle ∧ p ∈ m.out
  | .write a _ => a ∉ Set.Ico va (va + size) ∨ ∃ p ∈ m.out, a ∈ payload m.pool.memory p
  | .go => m.call t ≠ .idle

/-- **Blocks have one owner.** A pointer is handed out once, to the block of a header that is linked
and marked; a block that is being freed is linked, is not handed out, and is freed by one thread
only. -/
structure Safe (pooltype : Nat) (m : PoolThreads τ) : Prop where
  once : m.out.Nodup
  linked : ∀ p ∈ m.out, ∃ b ∈ poolBlocks m.pool pooltype,
    p = b + POOLHEADER_MEM ∧ isFreeBlock m.pool.memory b = false
  finishes : ∀ t, ∀ b ∈ (m.call t).block,
    b ∈ poolBlocks m.pool pooltype ∧ b + POOLHEADER_MEM ∉ m.out
      ∧ ∀ u, b ∈ (m.call u).block → u = t

/-- The free of block `b` has marked it and not finished. -/
def Pending (m : PoolThreads τ) (b : Nat) : Prop := ∃ t pooltype, m.call t = .locked b pooltype

end PoolThreads

/-- A label: the thread, what it does, and the state before. -/
abbrev PoolLabel (τ : Type) := (τ × PoolAction) × PoolThreads τ

/-- **The pool and its threads as a transition system**, started by `MmInitializePool`. -/
def poolThreadSystem (va size pooltype : Nat) (τ : Type) [DecidableEq τ] :
    System (PoolLabel τ) (PoolThreads τ) where
  init m := m.out = [] ∧ (∀ t, m.call t = .idle)
    ∧ ∃ s, mmInitializePool va size pooltype true s = .ok m.pool
  step _ m l m' := l.2 = m ∧ m.Enabled va size l.1.1 l.1.2 ∧ m.step pooltype l.1.1 l.1.2 = .ok m'

/-- The block that an allocation finds fits the size it is cut to: see `SplitFits`. -/
def CutFits (pooltype : Nat) (l : PoolLabel τ) : Prop :=
  match l.1.2 with
  | .allocate n _ =>
    SplitFits l.2.pool.memory (poolBlocks l.2.pool pooltype) (poolBytes n)
  | _ => True

/-- **A locked section comes upon a block whose free is not finished**: an allocation finds it, or a
free finds it behind its own block. -/
def MeetsPending (pooltype : Nat) (l : PoolLabel τ) : Prop :=
  match l.1.2 with
  | .allocate n _ => ∃ b, (poolBlocks l.2.pool pooltype).find?
      (blockSuits l.2.pool.memory (poolBytes n)) = some b ∧ l.2.Pending b
  | .go =>
    match l.2.call l.1.1 with
    | .locked b _ => ∃ c, listNext poolLink l.2.pool.memory (l.2.pool.KernelPools pooltype) b = some c
        ∧ l.2.Pending c
    | _ => False
  | _ => False

/-! ## The invariant -/

/-- **The invariant.** `held` are the payloads of the blocks that are marked as allocated: those
handed out, and those of the frees that have not stored the status yet. -/
structure PoolThreads.Inv (va size pooltype : Nat) (m : PoolThreads τ) (held : Finset Nat)
    (l : List Nat) : Prop where
  pool : PoolInvariant va size pooltype (m.pool.KernelPools pooltype) m.pool.memory held l
  once : m.out.Nodup
  marks : ∀ b, b + POOLHEADER_MEM ∈ held ↔ b + POOLHEADER_MEM ∈ m.out ∨ ∃ t, b ∈ (m.call t).marked
  handed : ∀ p ∈ m.out, p ∈ held
  linked : ∀ t, ∀ b ∈ (m.call t).block, b ∈ l ∧ b + POOLHEADER_MEM ∉ m.out
  alone : ∀ t u b, b ∈ (m.call t).block → b ∈ (m.call u).block → u = t
  type : ∀ t, ∀ n ∈ (m.call t).pooltype, n = pooltype

variable {va size pooltype : Nat} {m m' : PoolThreads τ} {held : Finset Nat} {l : List Nat} {t : τ}
  {b n : Nat} {c : FreeCall}

/-- A free has not stored the status of its block yet, or has come to its locked section. -/
theorem FreeCall.marked_or_locked (h : b ∈ c.block) : b ∈ c.marked ∨ ∃ n, c = .locked b n := by
  cases c with
  | locked e n =>
    cases h
    exact .inr ⟨n, rfl⟩
  | _ => exact .inl h

/-- A block that is marked as allocated while it is freed is the block of the free. -/
theorem FreeCall.block_of_marked (h : b ∈ c.marked) : b ∈ c.block := by
  cases c <;> first | exact h | cases h

omit [DecidableEq τ] in
/-- **The invariant promises what is claimed.** -/
theorem PoolThreads.Inv.safe (h : m.Inv va size pooltype held l) : m.Safe pooltype := by
  have hblocks : poolBlocks m.pool pooltype = l := h.pool.list.listElements_eq
  refine ⟨h.once, fun p hp => ?_, fun t b hb => ?_⟩
  · obtain ⟨b, hb, rfl⟩ := h.pool.handedOut p (h.handed p hp)
    refine ⟨b, hblocks ▸ hb, rfl, Bool.eq_false_iff.mpr fun hfree => ?_⟩
    exact (h.pool.isFree hb).mp hfree (h.handed _ hp)
  · obtain ⟨hlinked, hout⟩ := h.linked t b hb
    exact ⟨hblocks ▸ hlinked, hout, fun u hu => h.alone t u b hb hu⟩

omit [DecidableEq τ] in
/-- The block of a pending free is not marked any more. -/
theorem PoolThreads.Inv.not_held (h : m.Inv va size pooltype held l) (hcall : m.call t = .locked b n) :
    b + POOLHEADER_MEM ∉ held := by
  have hb : b ∈ (m.call t).block := by
    rw [hcall]
    exact rfl
  intro hheld
  rcases (h.marks b).mp hheld with hout | ⟨u, hu⟩
  · exact (h.linked t b hb).2 hout
  · obtain rfl := h.alone t u b hb (FreeCall.block_of_marked hu)
    rw [hcall] at hu
    cases hu

/-! ## Steps -/

/-- The blocks that are marked, seen from thread `t`. -/
theorem marked_update_iff (call : τ → FreeCall) (t : τ) (c : FreeCall) (b : Nat) :
    (∃ u, b ∈ (Function.update call t c u).marked) ↔ b ∈ c.marked ∨ ∃ u ≠ t, b ∈ (call u).marked := by
  constructor
  · rintro ⟨u, hu⟩
    by_cases hut : u = t
    · subst hut
      rw [Function.update_self] at hu
      exact .inl hu
    · rw [Function.update_of_ne hut] at hu
      exact .inr ⟨u, hut, hu⟩
  · rintro (hc | ⟨u, hut, hu⟩)
    · exact ⟨t, by rwa [Function.update_self]⟩
    · exact ⟨u, by rwa [Function.update_of_ne hut]⟩

/-- **A free goes on**: thread `t` keeps its block or is done with it. -/
theorem PoolThreads.Inv.goOn (h : m.Inv va size pooltype held l) {s : PoolState}
    {held' : Finset Nat} {l' : List Nat}
    (hpool : PoolInvariant va size pooltype (s.KernelPools pooltype) s.memory held' l')
    (hblock : ∀ b ∈ c.block, b ∈ (m.call t).block) (htype : ∀ n ∈ c.pooltype, n = pooltype)
    (hmarks : ∀ b, b + POOLHEADER_MEM ∈ held' ↔
      b + POOLHEADER_MEM ∈ m.out ∨ b ∈ c.marked ∨ ∃ u ≠ t, b ∈ (m.call u).marked)
    (hlinked : ∀ b ∈ l, b ∈ l' ∨ ∀ u, b ∈ (Function.update m.call t c u).block → False) :
    ((m.setPool s).setCall t c).Inv va size pooltype held' l' := by
  have hold : ∀ u, ∀ b ∈ (Function.update m.call t c u).block, b ∈ (m.call u).block := by
    intro u b hb
    by_cases hut : u = t
    · subst hut
      rw [Function.update_self] at hb
      exact hblock b hb
    · rwa [Function.update_of_ne hut] at hb
  refine ⟨hpool, h.once, fun b => ?_, fun p hp => ?_, fun u b hb => ?_, fun u v b hu hv => ?_,
    fun u n hn => ?_⟩
  · rw [hmarks b, ← marked_update_iff]
    rfl
  · obtain ⟨b, -, rfl⟩ := h.pool.handedOut p (h.handed p hp)
    exact (hmarks b).mpr (.inl hp)
  · obtain ⟨hbl, hout⟩ := h.linked u b (hold u b hb)
    exact ⟨(hlinked b hbl).resolve_right fun hnone => hnone u hb, hout⟩
  · exact h.alone u v b (hold u b hu) (hold v b hv)
  · change n ∈ (Function.update m.call t c u).pooltype at hn
    by_cases hut : u = t
    · subst hut
      rw [Function.update_self] at hn
      exact htype n hn
    · rw [Function.update_of_ne hut] at hn
      exact h.type u n hn

omit [DecidableEq τ] in
/-- The marked blocks are those handed out, that of thread `t`, and those of the other threads. -/
theorem PoolThreads.Inv.marks_from (h : m.Inv va size pooltype held l) (t : τ) (b : Nat) :
    b + POOLHEADER_MEM ∈ held ↔ b + POOLHEADER_MEM ∈ m.out ∨ b ∈ (m.call t).marked
      ∨ ∃ u ≠ t, b ∈ (m.call u).marked := by
  rw [h.marks b]
  refine or_congr_right ⟨?_, ?_⟩
  · rintro ⟨u, hu⟩
    by_cases hut : u = t
    · exact .inl (hut ▸ hu)
    · exact .inr ⟨u, hut, hu⟩
  · rintro (hb | ⟨u, -, hu⟩)
    · exact ⟨t, hb⟩
    · exact ⟨u, hu⟩

/-- **A free stays in front of the store of the status**: of the words of headers, at most the tag of
its block changes. -/
theorem PoolThreads.Inv.stay (h : m.Inv va size pooltype held l) (hr : PoolRegion va size)
    {s : PoolState} (hb : b ∈ (m.call t).marked) (hmarked : b ∈ c.marked)
    (htype : ∀ n ∈ c.pooltype, n = pooltype) (hpools : s.KernelPools = m.pool.KernelPools)
    (hwords : ∀ w, w ≠ b + 16 → w ≠ b + 24 → s.memory w = m.pool.memory w) :
    ((m.setPool s).setCall t c).Inv va size pooltype held l := by
  have hbl := (h.linked t b (FreeCall.block_of_marked hb)).1
  have hstatus := h.pool.status b hbl
  refine h.goOn ?_ (fun d hd => ?_) htype (fun d => ?_) fun d hd => .inl hd
  · rw [hpools]
    refine h.pool.mark hr hbl (fun w h16 _ h24 => hwords w h16 h24) ?_ fun p _ => Iff.rfl
    rw [hwords (b + 20) (by omega) (by omega)]
    exact hstatus
  · have hdb : d = b := Option.some.inj (hd.symm.trans (FreeCall.block_of_marked hmarked))
    exact hdb ▸ FreeCall.block_of_marked hb
  · rw [h.marks_from t d, Option.mem_def.mp hb, Option.mem_def.mp hmarked]

/-- **The locked section of a free** takes the block behind it off the list if that is free, and
perhaps the block itself. -/
theorem PoolInvariant.locked {s : PoolState} {out : Finset Nat}
    (h : PoolInvariant va size pooltype (s.KernelPools pooltype) s.memory out l)
    (hr : PoolRegion va size) (hb : b ∈ l) (hout : b + POOLHEADER_MEM ∉ out) :
    ∃ s' l', freeLocked b pooltype s = .ok s'
      ∧ PoolInvariant va size pooltype (s'.KernelPools pooltype) s'.memory out l'
      ∧ (∀ d ∈ l, d ≠ b → (listNext poolLink s.memory (s.KernelPools pooltype) b = some d →
          isFreeBlock s.memory d = false) → d ∈ l')
      ∧ ∀ d, listNext poolLink s.memory (s.KernelPools pooltype) b = some d →
          isFreeBlock s.memory d = true → d ∈ l ∧ d ≠ b ∧ d ∉ l' := by
  obtain ⟨l₁, l₂, rfl⟩ := List.append_of_mem hb
  have hnodup := h.list.nodup
  obtain ⟨head₂, m₂, l₃, hnext, hinv₂, hmerged⟩ := h.mergeNext hr
  obtain ⟨head₃, m₃, l₄, hprev, hinv₃, hmerged'⟩ := hinv₂.mergePrev hr hout
  have hlist : l₄ = l₁ ++ b :: l₃ ∨ l₄ = l₁ ++ l₃ := by
    rcases hmerged' with ⟨l₀, a, rfl, -, hl, -⟩ | ⟨-, hl, -⟩
    · exact .inr (hl.trans (List.append_cons l₀ a l₃))
    · exact .inl hl
  have hnextIs : listNext poolLink s.memory (s.KernelPools pooltype) b = l₂.head? := h.list.listNext_eq
  have hhead : (s.set pooltype head₃ m₃).KernelPools pooltype = head₃ := Function.update_self ..
  refine ⟨s.set pooltype head₃ m₃, l₄, ?_, by rwa [hhead], fun d hd hdb hfree => ?_,
    fun d hd hfree => ?_⟩
  · rw [freeLocked, hnext, kernel_ok_bind]
    simp only
    rw [hprev]
    rfl
  · -- only the next block may have gone
    have hd₃ : d ∈ l₁ ∨ d ∈ l₃ := by
      rcases List.mem_append.mp hd with hd | hd
      · exact .inl hd
      · have hd₂ := (List.mem_cons.mp hd).resolve_left hdb
        rcases hmerged with ⟨c, rfl, hcfree, -⟩ | ⟨-, rfl, -⟩
        · refine .inr ((List.mem_cons.mp hd₂).resolve_left ?_)
          rintro rfl
          rw [hfree hnextIs] at hcfree
          cases hcfree
        · exact .inr hd₂
    rcases hlist with rfl | rfl
    · exact hd₃.elim (List.mem_append_left _)
        fun h => List.mem_append_right _ (List.mem_cons_of_mem _ h)
    · exact List.mem_append.mpr hd₃
  · rcases hmerged with ⟨c, rfl, -, -⟩ | ⟨hnone, -, -⟩
    · obtain rfl : c = d := Option.some.inj (hnextIs.symm.trans hd)
      have hcons := (List.nodup_append.mp hnodup).2.1
      have hcb : c ≠ b := by
        rintro rfl
        exact (List.nodup_cons.mp hcons).1 (List.mem_cons_self ..)
      have hc₁ : c ∉ l₁ := fun h =>
        (List.nodup_append.mp hnodup).2.2 c h c (by simp) rfl
      have hc₃ : c ∉ l₃ := (List.nodup_cons.mp (List.nodup_cons.mp hcons).2).1
      refine ⟨by simp, hcb, ?_⟩
      rcases hlist with rfl | rfl
      · simp [hc₁, hc₃, hcb]
      · simp [hc₁, hc₃]
    · rw [hnone d (hnextIs.symm.trans hd)] at hfree
      cases hfree

/-- **A step of a free** keeps the invariant, unless its locked section comes upon a pending block:
then that one is not linked any more. -/
theorem PoolThreads.Inv.go (h : m.Inv va size pooltype held l) (hr : PoolRegion va size)
    (hgo : m.go t = .ok m') :
    (¬ MeetsPending pooltype ((t, .go), m) → ∃ held' l', m'.Inv va size pooltype held' l')
      ∧ (MeetsPending pooltype ((t, .go), m) → ¬ m'.Safe pooltype) := by
  have hmeets : ∀ b n, m.call t = .locked b n → (MeetsPending pooltype ((t, .go), m) ↔
      ∃ c, listNext poolLink m.pool.memory (m.pool.KernelPools pooltype) b = some c
        ∧ m.Pending c) := by
    intro b n hcall
    simp only [MeetsPending, hcall]
  unfold PoolThreads.go at hgo
  cases hcall : m.call t with
  | idle =>
    simp only [hcall] at hgo
    cases hgo
    exact ⟨fun _ => ⟨held, l, h⟩, fun hp => absurd hp (by simp [MeetsPending, hcall])⟩
  | verify b tag =>
    simp only [hcall] at hgo
    obtain ⟨n, hn, hgo⟩ := kernel_bind_eq_ok.mp hgo
    cases hgo
    have hb : b ∈ (m.call t).marked := by
      rw [hcall]
      exact rfl
    have hbl := (h.linked t b (FreeCall.block_of_marked hb)).1
    have htype : n = pooltype := by
      unfold freeVerify at hn
      split at hn
      · cases hn
      · cases hn
        exact h.pool.type b hbl
    refine ⟨fun _ => ⟨held, l, ?_⟩, fun hp => absurd hp (by simp [MeetsPending, hcall])⟩
    exact h.stay hr (s := m.pool) hb rfl (by rintro k ⟨⟩; exact htype) rfl fun _ _ _ => rfl
  | storeTag b n =>
    simp only [hcall] at hgo
    cases hgo
    have hb : b ∈ (m.call t).marked := by
      rw [hcall]
      exact rfl
    have htype : n = pooltype := h.type t n (by rw [hcall]; rfl)
    refine ⟨fun _ => ⟨held, l, ?_⟩, fun hp => absurd hp (by simp [MeetsPending, hcall])⟩
    exact h.stay hr hb rfl (by rintro k ⟨⟩; exact htype) rfl fun w h16 _ => store_of_ne h16
  | storeMem b n =>
    simp only [hcall] at hgo
    cases hgo
    have hb : b ∈ (m.call t).marked := by
      rw [hcall]
      exact rfl
    have htype : n = pooltype := h.type t n (by rw [hcall]; rfl)
    refine ⟨fun _ => ⟨held, l, ?_⟩, fun hp => absurd hp (by simp [MeetsPending, hcall])⟩
    exact h.stay hr hb rfl (by rintro k ⟨⟩; exact htype) rfl fun w _ h24 => store_of_ne h24
  | storeStatus b n =>
    simp only [hcall] at hgo
    cases hgo
    have hb : b ∈ (m.call t).marked := by
      rw [hcall]
      exact rfl
    have hblock := FreeCall.block_of_marked hb
    obtain ⟨hbl, hout⟩ := h.linked t b hblock
    have htype : n = pooltype := h.type t n (by rw [hcall]; rfl)
    refine ⟨fun _ => ⟨held.erase (b + POOLHEADER_MEM), l, ?_⟩,
      fun hp => absurd hp (by simp [MeetsPending, hcall])⟩
    refine h.goOn ?_ (fun d hd => ?_) (by rintro k ⟨⟩; exact htype) (fun d => ?_) fun d hd => .inl hd
    · refine h.pool.mark hr hbl (fun w _ h20 _ => store_of_ne h20) ?_ fun p hp => ?_
      · rw [if_neg (Finset.notMem_erase (b + POOLHEADER_MEM) held)]
        exact store_self ..
      · rw [Finset.mem_erase]
        exact ⟨fun hmem => hmem.2, fun hmem => ⟨hp, hmem⟩⟩
    · cases hd
      exact hblock
    · rw [Finset.mem_erase, h.marks_from t d, hcall]
      constructor
      · rintro ⟨hne, hd | hd | hd⟩
        · exact .inl hd
        · cases hd
          exact absurd rfl hne
        · exact .inr (.inr hd)
      · rintro (hd | hd | ⟨u, hut, hu⟩)
        · exact ⟨fun heq => hout (heq ▸ hd), .inl hd⟩
        · cases hd
        · refine ⟨fun heq => hut ?_, .inr (.inr ⟨u, hut, hu⟩)⟩
          obtain rfl : d = b := Nat.add_right_cancel heq
          exact h.alone t u d hblock (FreeCall.block_of_marked hu)
  | locked b n =>
    simp only [hcall] at hgo
    have hb : b ∈ (m.call t).block := by
      rw [hcall]
      exact rfl
    obtain rfl : n = pooltype := h.type t n (by rw [hcall]; rfl)
    obtain ⟨s', l', hok, hpool, hkept, hgone⟩ :=
      h.pool.locked hr (h.linked t b hb).1 (h.not_held hcall)
    rw [hok] at hgo
    cases hgo
    rw [hmeets b n hcall]
    refine ⟨fun hclear => ⟨held, l', ?_⟩, ?_⟩
    · refine h.goOn hpool nofun nofun (fun d => ?_) fun d hd => ?_
      · rw [h.marks_from t d, hcall]
        exact Iff.rfl
      · by_cases hd' : d ∈ l'
        · exact .inl hd'
        refine .inr fun u hu => ?_
        by_cases hut : u = t
        · subst hut
          rw [Function.update_self] at hu
          cases hu
        rw [Function.update_of_ne hut] at hu
        -- the block that has gone is free and is the next one, so its free is pending
        have hdb : d ≠ b := fun heq => hut (h.alone t u b hb (heq ▸ hu))
        have hgone : listNext poolLink m.pool.memory (m.pool.KernelPools n) b = some d
            ∧ isFreeBlock m.pool.memory d = true := by
          by_contra hnot
          refine hd' (hkept d hd hdb fun hnext => ?_)
          exact Bool.eq_false_iff.mpr fun hfree => hnot ⟨hnext, hfree⟩
        refine hclear ⟨d, hgone.1, u, ?_⟩
        have hunmarked : d ∉ (m.call u).marked := fun hmarked =>
          (h.pool.isFree hd).mp hgone.2 ((h.marks d).mpr (.inr ⟨u, hmarked⟩))
        exact (FreeCall.marked_or_locked hu).resolve_left hunmarked
    · rintro ⟨d, hnext, u, k, hcallu⟩ hsafe
      have hblock : d ∈ (m.call u).block := by
        rw [hcallu]
        exact rfl
      have hd := (h.linked u d hblock).1
      obtain ⟨-, hdb, hnot⟩ := hgone d hnext ((h.pool.isFree hd).mpr (h.not_held hcallu))
      have hut : u ≠ t := by
        rintro rfl
        rw [hcall] at hcallu
        cases hcallu
        exact hdb rfl
      have hblocks : poolBlocks s' n = l' := hpool.list.listElements_eq
      refine hnot (hblocks ▸ (hsafe.finishes u d ?_).1)
      show d ∈ (Function.update m.call t .idle u).block
      rw [Function.update_of_ne hut]
      exact hblock

/-- **An allocation** keeps the invariant, unless it finds a pending block: then that one has two
owners. -/
theorem PoolThreads.Inv.allocate (h : m.Inv va size pooltype held l) (hr : PoolRegion va size)
    {tag : Nat} (hfit : CutFits pooltype ((t, .allocate n tag), m))
    (hrun : m.step pooltype t (.allocate n tag) = .ok m') :
    (¬ MeetsPending pooltype ((t, .allocate n tag), m) →
        ∃ held' l', m'.Inv va size pooltype held' l')
      ∧ (MeetsPending pooltype ((t, .allocate n tag), m) → ¬ m'.Safe pooltype) := by
  have hblocks : poolBlocks m.pool pooltype = l := h.pool.list.listElements_eq
  have hfit' : SplitFits m.pool.memory l (poolBytes n) := hblocks ▸ hfit
  have hmeets : MeetsPending pooltype ((t, .allocate n tag), m) ↔
      ∃ b, l.find? (blockSuits m.pool.memory (poolBytes n)) = some b ∧ m.Pending b := by
    rw [← hblocks]
    exact Iff.rfl
  obtain ⟨⟨p, s⟩, hok, hm'⟩ := kernel_bind_eq_ok.mp hrun
  rw [hmeets]
  rcases h.pool.allocate hr hfit' tag with ⟨hnone, hfind⟩ |
    ⟨b, s', l', hsome, hpool, hfind, hkept, -⟩
  · cases hok.symm.trans hnone
    cases hm'
    refine ⟨fun _ => ⟨held, l, h⟩, ?_⟩
    rintro ⟨b, hb, -⟩
    cases hfind.symm.trans hb
  · cases hok.symm.trans hsome
    cases hm'
    have hb : b ∈ l := List.mem_of_find?_eq_some hfind
    have hfree : isFreeBlock m.pool.memory b = true := by
      have hsuits := List.find?_some hfind
      unfold blockSuits at hsuits
      exact (Bool.and_eq_true_iff.mp hsuits).1
    have hnot : b + POOLHEADER_MEM ∉ held := (h.pool.isFree hb).mp hfree
    have hout : b + POOLHEADER_MEM ∉ m.out := fun hmem => hnot (h.handed _ hmem)
    refine ⟨fun hclear => ⟨insert (b + POOLHEADER_MEM) held, l', ?_⟩, ?_⟩
    · refine ⟨hpool, List.nodup_cons.mpr ⟨hout, h.once⟩, fun d => ?_, fun p hp => ?_,
        fun u d hd => ?_, h.alone, h.type⟩
      · show _ ↔ d + POOLHEADER_MEM ∈ (b + POOLHEADER_MEM) :: m.out ∨ _
        rw [Finset.mem_insert, List.mem_cons, h.marks d, or_assoc]
        rfl
      · rcases List.mem_cons.mp hp with rfl | hp
        · exact Finset.mem_insert_self ..
        · exact Finset.mem_insert_of_mem (h.handed p hp)
      · obtain ⟨hdl, hdout⟩ := h.linked u d hd
        refine ⟨hkept d hdl, fun hmem => ?_⟩
        rcases List.mem_cons.mp hmem with heq | hmem
        · obtain rfl : d = b := Nat.add_right_cancel heq
          rcases FreeCall.marked_or_locked hd with hmarked | ⟨k, hlocked⟩
          · exact hnot ((h.marks d).mpr (.inr ⟨u, hmarked⟩))
          · exact hclear ⟨d, hfind, u, k, hlocked⟩
        · exact hdout hmem
    · rintro ⟨d, hd, u, k, hcall⟩ hsafe
      obtain rfl : d = b := Option.some.inj (hd.symm.trans hfind)
      have hblock : d ∈ (m.call u).block := by
        rw [hcall]
        exact rfl
      exact (hsafe.finishes u d hblock).2.1 (List.mem_cons_self ..)

/-- **A pointer is passed to a free.** -/
theorem PoolThreads.Inv.free (h : m.Inv va size pooltype held l) (hr : PoolRegion va size)
    {p tag : Nat} (hidle : m.call t = .idle) (hp : p ∈ m.out) :
    ({ m with out := m.out.erase p }.setCall t (.verify (ulongSub p POOLHEADER_MEM) tag)).Inv
      va size pooltype held l := by
  obtain ⟨b, hb, rfl⟩ := h.pool.handedOut p (h.handed p hp)
  have hfits := hr.fits
  have hbounds := h.pool.bounds hb
  unfold ULONG_VALUES at hfits
  have hblock : ulongSub (b + POOLHEADER_MEM) POOLHEADER_MEM = b := by
    unfold ulongSub ULONG_VALUES POOLHEADER_MEM
    omega
  rw [hblock]
  have hfresh : ∀ u, b ∉ (m.call u).block := fun u hu => (h.linked u b hu).2 hp
  have hcases : ∀ u d, d ∈ (Function.update m.call t (.verify b tag) u).block →
      u = t ∧ d = b ∨ u ≠ t ∧ d ∈ (m.call u).block := by
    intro u d hd
    by_cases hut : u = t
    · subst hut
      rw [Function.update_self] at hd
      cases hd
      exact .inl ⟨rfl, rfl⟩
    · rw [Function.update_of_ne hut] at hd
      exact .inr ⟨hut, hd⟩
  refine ⟨h.pool, h.once.erase _, fun d => ?_, fun q hq => h.handed q (List.mem_of_mem_erase hq),
    fun u d hd => ?_, fun u v d hu hv => ?_, fun u k hk => ?_⟩
  · show _ ↔ d + POOLHEADER_MEM ∈ m.out.erase (b + POOLHEADER_MEM)
      ∨ ∃ u, d ∈ (Function.update m.call t (.verify b tag) u).marked
    rw [marked_update_iff, h.once.mem_erase_iff, h.marks_from t d, hidle]
    by_cases hdb : d = b
    · subst hdb
      exact iff_of_true (.inl hp) (.inr (.inl rfl))
    · have hne : d + POOLHEADER_MEM ≠ b + POOLHEADER_MEM := fun heq => hdb (Nat.add_right_cancel heq)
      have hother : d ∉ (FreeCall.verify b tag).marked := fun hd => hdb (Option.some.inj hd).symm
      simp only [hne, ne_eq, not_false_eq_true, true_and, hother, false_or]
      exact or_congr_right (or_iff_right nofun)
  · rcases hcases u d hd with ⟨-, rfl⟩ | ⟨-, hd⟩
    · exact ⟨hb, h.once.not_mem_erase⟩
    · obtain ⟨hdl, hdout⟩ := h.linked u d hd
      exact ⟨hdl, fun hmem => hdout (List.mem_of_mem_erase hmem)⟩
  · rcases hcases u d hu with ⟨hut, rfl⟩ | ⟨-, hu'⟩ <;> rcases hcases v d hv with ⟨hvt, hd⟩ | ⟨-, hv'⟩
    · exact hvt.trans hut.symm
    · exact absurd hv' (hfresh v)
    · exact absurd (hd ▸ hu') (hfresh u)
    · exact h.alone u v d hu' hv'
  · change k ∈ (Function.update m.call t (.verify b tag) u).pooltype at hk
    by_cases hut : u = t
    · subst hut
      rw [Function.update_self] at hk
      cases hk
    · rw [Function.update_of_ne hut] at hk
      exact h.type u k hk

omit [DecidableEq τ] in
/-- **A store of a user.** -/
theorem PoolThreads.Inv.write (h : m.Inv va size pooltype held l) {a v : Nat}
    (ha : a ∉ Set.Ico va (va + size) ∨ ∃ p ∈ m.out, a ∈ payload m.pool.memory p) :
    (m.setPool { m.pool with memory := m.pool.memory.store a v }).Inv va size pooltype held l := by
  refine ⟨?_, h.once, h.marks, h.handed, h.linked, h.alone, h.type⟩
  refine h.pool.of_words fun x hx k hk => store_of_ne ?_
  have hbounds := h.pool.bounds hx
  rcases ha with hout | ⟨p, hp, ha⟩
  · rw [Set.mem_Ico] at hout
    omega
  · obtain ⟨b, hb, rfl⟩ := h.pool.handedOut p (h.handed p hp)
    rw [payload_block, Set.mem_Ico] at ha
    have hapart := h.pool.apart hx hb
    omega

/-- **One step** keeps the invariant if no locked section comes upon a pending block, and breaks what
is claimed if one does. -/
theorem PoolThreads.Inv.step (h : m.Inv va size pooltype held l) (hr : PoolRegion va size)
    {a : PoolAction} (hen : m.Enabled va size t a) (hfit : CutFits pooltype ((t, a), m))
    (hrun : m.step pooltype t a = .ok m') :
    (¬ MeetsPending pooltype ((t, a), m) → ∃ held' l', m'.Inv va size pooltype held' l')
      ∧ (MeetsPending pooltype ((t, a), m) → ¬ m'.Safe pooltype) := by
  cases a with
  | allocate n tag => exact h.allocate hr hfit hrun
  | free p tag =>
    cases hrun
    exact ⟨fun _ => ⟨held, l, h.free hr hen.1 hen.2⟩, False.elim⟩
  | write a v =>
    cases hrun
    exact ⟨fun _ => ⟨held, l, h.write hen⟩, False.elim⟩
  | go => exact h.go hr hrun

/-! ## Runs -/

/-- **Blocks have one owner in every state of a run.** -/
structure BlocksOwned (pooltype : Nat) (t : List (PoolLabel τ)) (m : PoolThreads τ) : Prop where
  now : m.Safe pooltype
  before : ∀ l ∈ t, l.2.Safe pooltype

/-- **Along a run**: the invariant holds as long as no locked section has come upon a pending
block. -/
theorem poolThreads_along {t : List (PoolLabel τ)} (hr : PoolRegion va size)
    (h : (poolThreadSystem va size pooltype τ).Run t m) (hfit : ∀ l ∈ t, CutFits pooltype l) :
    (BlocksOwned pooltype t m ↔ ∀ l ∈ t, ¬ MeetsPending pooltype l)
      ∧ ((∀ l ∈ t, ¬ MeetsPending pooltype l) → ∃ held l, m.Inv va size pooltype held l) := by
  induction h with
  | @start m hinit =>
    obtain ⟨hout, hidle, s, hs⟩ := hinit
    obtain ⟨s', hok, hinv, -⟩ := PoolInvariant.create hr pooltype s
    cases hs.symm.trans hok
    have h₀ : m.Inv va size pooltype ∅ [va] := by
      refine ⟨hinv, hout ▸ List.nodup_nil, fun b => iff_of_false (Finset.notMem_empty _) ?_,
        fun p hp => ?_, fun t b hb => ?_, fun t u b hb => ?_, fun t n hn => ?_⟩
      · rintro (hp | ⟨t, hb⟩)
        · rw [hout] at hp
          cases hp
        · rw [hidle t] at hb
          cases hb
      · rw [hout] at hp
        cases hp
      · rw [hidle t] at hb
        cases hb
      · rw [hidle t] at hb
        cases hb
      · rw [hidle t] at hn
        cases hn
    exact ⟨iff_of_true ⟨h₀.safe, nofun⟩ nofun, fun _ => ⟨∅, [va], h₀⟩⟩
  | @step t m l m' _ hstep ih =>
    obtain ⟨⟨u, a⟩, m₀⟩ := l
    obtain ⟨hm₀, hen, hrun⟩ := hstep
    obtain rfl : m₀ = m := hm₀
    obtain ⟨ihiff, ihinv⟩ := ih fun l hl => hfit l (List.mem_cons_of_mem _ hl)
    have hone : (∀ l ∈ t, ¬ MeetsPending pooltype l) →
        (¬ MeetsPending pooltype ((u, a), m₀) → ∃ held l, m'.Inv va size pooltype held l)
          ∧ (MeetsPending pooltype ((u, a), m₀) → ¬ m'.Safe pooltype) := by
      intro hclear
      obtain ⟨held, l, hinv⟩ := ihinv hclear
      exact hinv.step hr hen (hfit _ (List.mem_cons_self ..)) hrun
    have hall : (∀ l ∈ ((u, a), m₀) :: t, ¬ MeetsPending pooltype l) →
        ∃ held l, m'.Inv va size pooltype held l := by
      intro hclear
      obtain ⟨hlast, hrest⟩ := List.forall_mem_cons.mp hclear
      exact (hone hrest).1 hlast
    refine ⟨⟨fun howned => ?_, fun hclear => ?_⟩, hall⟩
    · obtain ⟨hsafe, hbefore⟩ := List.forall_mem_cons.mp howned.before
      have hrest := ihiff.mp ⟨hsafe, hbefore⟩
      exact List.forall_mem_cons.mpr ⟨fun hmeets => (hone hrest).2 hmeets howned.now, hrest⟩
    · have hold := ihiff.mpr (List.forall_mem_cons.mp hclear).2
      obtain ⟨held, l, hinv⟩ := hall hclear
      exact ⟨hinv.safe, List.forall_mem_cons.mpr ⟨hold.now, hold.before⟩⟩

instance poolThreadsEnabledDecidable (va size : Nat) (m : PoolThreads τ) (t : τ) (a : PoolAction) :
    Decidable (m.Enabled va size t a) := by
  cases a with
  | allocate => exact inferInstanceAs (Decidable (m.call t = .idle))
  | free p => exact inferInstanceAs (Decidable (m.call t = .idle ∧ p ∈ m.out))
  | write a =>
    exact inferInstanceAs (Decidable (¬ (va ≤ a ∧ a < va + size) ∨ ∃ p ∈ m.out, p ≤ a ∧
      a < p - POOLHEADER_MEM + POOLHEADER_SIZE + blockSize m.pool.memory (p - POOLHEADER_MEM)))
  | go => exact inferInstanceAs (Decidable (m.call t ≠ .idle))

/-- Steps of two threads that share a page. -/
def sharedPage (events : List (Bool × PoolAction)) :
    Option (List (PoolLabel Bool) × PoolThreads Bool) :=
  match mmInitializePool 4096 4096 0 true ⟨fun _ => 0, fun _ => listInit⟩ with
  | .error _ => none
  | .ok s => play (fun e m => decide (m.Enabled 4096 4096 e.1 e.2)) (fun e m => m.step 0 e.1 e.2)
      events ([], ⟨s, [], fun _ => .idle⟩)

/-- The first thread frees a small block and begins to free the bigger one behind it; the second
gets this one, and the first comes to its locked section. -/
def freeAgainstAllocate : List (Bool × PoolAction) :=
  [(false, .allocate 100 1), (false, .allocate 600 1),
    (false, .free 4120 1), (false, .go), (false, .go), (false, .go), (false, .go), (false, .go),
    (false, .free 4304 1), (false, .go), (false, .go), (false, .go), (false, .go),
    (true, .allocate 500 1), (false, .go)]

end KaushOS
