import KaushOS.Library.Transition
import KaushOS.Ob.Object
import Mathlib.Data.Fintype.Card

/-! # Threads drop references at the same time (`kern/ob/ob.c`)

`ObCloseObject` counts down with an interlocked operation and then reads `RefCount` once more to see
whether it was the last reference. Here every access of a thread to the header is a step of its own,
and threads `θ` that each hold one reference drop it in any interleaving.

* **`DropStep`**, **`DropMachine.step`** — the accesses of `ObDereferenceObject`, `ObCloseObject` and
  `ObRemoveObject` in their order.
* **`DestroyedOnce`** — one call of `ObRemoveObject`, after all counts, and no access behind the free.
* **`dereference_destroys_once`** — a run does that exactly if the thread that counts down to zero is
  the last one that has not yet returned. -/

namespace KaushOS

open Transition

/-! ## Steps -/

/-- How a thread drops its reference. -/
inductive DropCall
  /-- `ObDereferenceObject(Object)`. -/
  | dereference
  /-- `ObCloseObject(Object, 1)`. -/
  | close
  deriving DecidableEq, Repr

/-- **The accesses to the header**, one by one. -/
inductive DropStep
  /-- `ObDereferenceObject`: `ASSERT(ObIsValidObject(Object))`. -/
  | validate
  /-- `ObCloseObject`: `ASSERT1(ObjectHeader->RefCount >= 1, ...)`. -/
  | checkCount
  /-- `ObCloseObject`: `ObjectHeader->Attributes & OBJ_PERMANENT`. -/
  | checkAttributes
  /-- `ObCloseObject`: `InterlockedExchangeAdd(&ObjectHeader->OpenHandleCount, -HandleCount)`. -/
  | closeHandle
  /-- `ObCloseObject`: the interlocked operation on `RefCount`. -/
  | decrement
  /-- `ObCloseObject`: `ObjectHeader->RefCount > 0`. -/
  | reread
  /-- `ObRemoveObject` is called: `ASSERT(ObjectHeader->RefCount == 0)`. -/
  | remove
  /-- `ObRemoveObject`: `ASSERT(ObjectHeader->OpenHandleCount == 0)`. -/
  | checkHandles
  /-- `ObRemoveObject`: `ASSERT((ObjectHeader->Attributes & OBJ_PERMANENT) == 0)`. -/
  | checkPermanent
  /-- `ObRemoveObject`: `ObjectType` is read and its `CloseProcedure` called. -/
  | closeProcedure
  /-- `ObRemoveObject`: the removal from the list of the type, with its lock held. -/
  | unlink
  /-- `ObRemoveObject`: `MmFreePoolWithTag(ObjectHeader, PoolTag)`. -/
  | free
  /-- The call has returned. -/
  | returned
  deriving DecidableEq, Repr

/-- The thread still holds its reference. -/
def DropStep.Holds : DropStep → Bool
  | .validate | .checkCount | .checkAttributes | .closeHandle | .decrement => true
  | _ => false

/-- The thread is inside `ObRemoveObject`. -/
def DropStep.Removes : DropStep → Bool
  | .remove | .checkHandles | .checkPermanent | .closeProcedure | .unlink | .free => true
  | _ => false

/-- The first access of a call. -/
def DropCall.first : DropCall → DropStep
  | .dereference => .validate
  | .close => .checkCount

/-- **One object and the threads that drop references to it.** -/
structure DropMachine (θ : Type) where
  header : OBJECT_HEADER
  freed : Bool
  pc : θ → DropStep

variable {θ : Type} [DecidableEq θ]

/-- Thread `u` goes on with another step, and the header changes. -/
def DropMachine.goto (m : DropMachine θ) (u : θ) (step : DropStep) (header : OBJECT_HEADER) :
    DropMachine θ :=
  { m with header := header, pc := Function.update m.pc u step }

/-- **Thread `u` does its next access.** -/
def DropMachine.step (call : θ → DropCall) (u : θ) (m : DropMachine θ) : Kernel (DropMachine θ) :=
  let h := m.header
  match m.pc u with
  | .validate => do
    assert (h.Magic = OBJECT_HEADER_MAGIC) "ObIsValidObject(Object)"
    return m.goto u .checkCount h
  | .checkCount => do
    assert (h.RefCount ≥ 1) "ObjectHeader->RefCount >= 1"
    return m.goto u .checkAttributes h
  | .checkAttributes =>
    if h.Attributes &&& OBJ_PERMANENT ≠ 0 then do
      assert (h.ObjectName.Buffer ≠ none) "ObjectHeader->ObjectName.Buffer != NULL"
      return m.goto u .returned h
    else return m.goto u (if call u = .close then .closeHandle else .decrement) h
  | .closeHandle => .ok (m.goto u .decrement { h with OpenHandleCount := h.OpenHandleCount - 1 })
  | .decrement => .ok (m.goto u .reread { h with RefCount := h.RefCount - 1 })
  | .reread =>
    if h.RefCount > 0 then return m.goto u .returned h
    else return m.goto u .remove h
  | .remove => do
    assert (h.RefCount = 0) "ObjectHeader->RefCount == 0"
    return m.goto u .checkHandles h
  | .checkHandles => do
    assert (h.OpenHandleCount = 0) "ObjectHeader->OpenHandleCount == 0"
    return m.goto u .checkPermanent h
  | .checkPermanent => do
    assert (h.Attributes &&& OBJ_PERMANENT = 0) "(ObjectHeader->Attributes & OBJ_PERMANENT) == 0"
    return m.goto u .closeProcedure h
  | .closeProcedure => .ok (m.goto u .unlink h)
  | .unlink => .ok (m.goto u .free h)
  | .free => .ok { m.goto u .returned h with freed := true }
  | .returned => .ok m

/-! ## Runs -/

/-- **What happens.** -/
inductive DropEvent (θ : Type)
  /-- A thread does its next access. -/
  | step (u : θ)
  /-- The memory of a freed object gets other contents. -/
  | reuse (header : OBJECT_HEADER)

/-- A thread goes on until its call returns; memory is used again when it is free. -/
def DropEvent.Enabled (m : DropMachine θ) : DropEvent θ → Prop
  | .step u => m.pc u ≠ .returned
  | .reuse _ => m.freed = true

/-- What an event does. -/
def DropEvent.run (call : θ → DropCall) (m : DropMachine θ) : DropEvent θ → Kernel (DropMachine θ)
  | .step u => m.step call u
  | .reuse header => .ok { m with header := header }

variable [Fintype θ]

/-- **The start**: a valid object that is not permanent, with one reference for each thread, of
which those that are closed as a handle are counted as open handles. -/
structure DropMachine.Start (call : θ → DropCall) (m : DropMachine θ) : Prop where
  magic : m.header.Magic = OBJECT_HEADER_MAGIC
  refCount : m.header.RefCount = Fintype.card θ
  openHandleCount : m.header.OpenHandleCount = (Finset.univ.filter fun u => call u = .close).card
  attributes : m.header.Attributes &&& OBJ_PERMANENT = 0
  freed : m.freed = false
  pc : ∀ u, m.pc u = (call u).first

/-- **The threads and the object as a transition system**; a label is an event and the state it
happens in. -/
def dropSystem (call : θ → DropCall) : System (DropEvent θ × DropMachine θ) (DropMachine θ) where
  init m := m.Start call
  step _ m l m' := l.2 = m ∧ l.1.Enabled m ∧ l.1.run call m = .ok m'

/-- A call of `ObRemoveObject`. -/
def IsRemoval (l : DropEvent θ × DropMachine θ) : Bool :=
  match l.1 with
  | .step u => l.2.pc u = .remove
  | .reuse _ => false

/-- How often `ObRemoveObject` was called. -/
def removalCalls (t : List (DropEvent θ × DropMachine θ)) : Nat := t.countP IsRemoval

/-- **What the condition says.** When a thread counts down to zero, all other threads have
returned. -/
def LastOneCounts (l : DropEvent θ × DropMachine θ) : Prop :=
  ∀ u, l.1 = .step u → l.2.pc u = .decrement → l.2.header.RefCount = 1 →
    ∀ v, v ≠ u → l.2.pc v = .returned

/-- **The object is destroyed once**: `ObRemoveObject` is not called twice, it is called only after
all threads have counted down, and no thread accesses the header of the freed object. -/
structure DestroyedOnce (t : List (DropEvent θ × DropMachine θ)) : Prop where
  once : removalCalls t ≤ 1
  after : ∀ l ∈ t, IsRemoval l = true → ∀ u, (l.2.pc u).Holds = false
  access : ∀ l ∈ t, ∀ u, l.1 = .step u → l.2.freed = false

/-! ## The counters along a run -/

/-- The threads that hold their reference. -/
def DropMachine.holders (m : DropMachine θ) : Finset θ :=
  Finset.univ.filter fun u => (m.pc u).Holds = true

/-- Thread `u` at step `p` is counted as an open handle. -/
def CountedAsHandle (call : θ → DropCall) (u : θ) (p : DropStep) : Bool :=
  call u = .close && p.Holds && p ≠ .decrement

/-- The threads that are counted as open handles. -/
def DropMachine.handles (call : θ → DropCall) (m : DropMachine θ) : Finset θ :=
  Finset.univ.filter fun u => CountedAsHandle call u (m.pc u) = true

/-- **The counters**: until the object is freed, they count the threads in front of their
operations, and once a thread removes the object, no reference is left. -/
structure DropMachine.Counted (call : θ → DropCall) (m : DropMachine θ) : Prop where
  removed : ∀ u, (m.pc u).Removes = true → m.holders = ∅
  freed : m.freed = true → m.holders = ∅
  magic : m.freed = false → m.header.Magic = OBJECT_HEADER_MAGIC
  attributes : m.freed = false → m.header.Attributes &&& OBJ_PERMANENT = 0
  refCount : m.freed = false → m.header.RefCount = m.holders.card
  openHandleCount : m.freed = false → m.header.OpenHandleCount = (m.handles call).card
  closes : ∀ u, m.pc u = .closeHandle → call u = .close

variable {call : θ → DropCall} {m m' : DropMachine θ} {u v : θ} {p q : DropStep}
  {header : OBJECT_HEADER}

omit [Fintype θ] in
@[simp] theorem DropMachine.goto_pc_self : (m.goto u p header).pc u = p := Function.update_self ..

omit [Fintype θ] in
theorem DropMachine.goto_pc_of_ne (h : v ≠ u) : (m.goto u p header).pc v = m.pc v :=
  Function.update_of_ne h ..

omit [DecidableEq θ] in
theorem DropMachine.mem_holders : u ∈ m.holders ↔ (m.pc u).Holds = true := by
  simp [DropMachine.holders]

omit [DecidableEq θ] in
theorem DropMachine.mem_handles : u ∈ m.handles call ↔ CountedAsHandle call u (m.pc u) = true := by
  simp [DropMachine.handles]

/-- A thread that goes on without counting down stays among the holders, or among the others. -/
theorem DropMachine.holders_goto (h : p.Holds = (m.pc u).Holds) :
    (m.goto u p header).holders = m.holders := by
  ext v
  rw [DropMachine.mem_holders, DropMachine.mem_holders]
  by_cases hv : v = u
  · rw [hv, DropMachine.goto_pc_self, h]
  · rw [DropMachine.goto_pc_of_ne hv]

theorem DropMachine.handles_goto
    (h : CountedAsHandle call u p = CountedAsHandle call u (m.pc u)) :
    (m.goto u p header).handles call = m.handles call := by
  ext v
  rw [DropMachine.mem_handles, DropMachine.mem_handles]
  by_cases hv : v = u
  · rw [hv, DropMachine.goto_pc_self, h]
  · rw [DropMachine.goto_pc_of_ne hv]

/-- A thread that has counted down is no longer a holder. -/
theorem DropMachine.holders_goto_erase (h : p.Holds = false) :
    (m.goto u p header).holders = m.holders.erase u := by
  ext v
  rw [Finset.mem_erase, DropMachine.mem_holders, DropMachine.mem_holders]
  by_cases hv : v = u
  · rw [hv, DropMachine.goto_pc_self, h]
    simp
  · rw [DropMachine.goto_pc_of_ne hv]
    simp [hv]

theorem DropMachine.handles_goto_erase (h : CountedAsHandle call u p = false) :
    (m.goto u p header).handles call = (m.handles call).erase u := by
  ext v
  rw [Finset.mem_erase, DropMachine.mem_handles, DropMachine.mem_handles]
  by_cases hv : v = u
  · rw [hv, DropMachine.goto_pc_self, h]
    simp
  · rw [DropMachine.goto_pc_of_ne hv]
    simp [hv]

/-- **A step that counts nothing** keeps the counters right. -/
theorem DropMachine.Counted.plain (h : m.Counted call) (hp : p.Holds = (m.pc u).Holds)
    (hhandle : CountedAsHandle call u p = CountedAsHandle call u (m.pc u))
    (hremoves : p.Removes = true → m.holders = ∅) (hcloses : p = .closeHandle → call u = .close) :
    (m.goto u p m.header).Counted call := by
  have hholders : (m.goto u p m.header).holders = m.holders := DropMachine.holders_goto hp
  have hhandles : (m.goto u p m.header).handles call = m.handles call :=
    DropMachine.handles_goto hhandle
  refine ⟨fun v hv => ?_, fun hf => ?_, h.magic, h.attributes, fun hf => ?_, fun hf => ?_,
    fun v hv => ?_⟩
  · rw [hholders]
    by_cases hvu : v = u
    · rw [hvu, DropMachine.goto_pc_self] at hv
      exact hremoves hv
    · rw [DropMachine.goto_pc_of_ne hvu] at hv
      exact h.removed v hv
  · rw [hholders]
    exact h.freed hf
  · rw [hholders]
    exact h.refCount hf
  · rw [hhandles]
    exact h.openHandleCount hf
  · by_cases hvu : v = u
    · rw [hvu, DropMachine.goto_pc_self] at hv
      exact hvu ▸ hcloses hv
    · rw [DropMachine.goto_pc_of_ne hvu] at hv
      exact h.closes v hv

/-- **A thread closes its handle.** -/
theorem DropMachine.Counted.closeHandle (h : m.Counted call) (hu : m.pc u = .closeHandle) :
    (m.goto u .decrement { m.header with
      OpenHandleCount := m.header.OpenHandleCount - 1 }).Counted call := by
  have hmem : u ∈ m.handles call := by
    rw [DropMachine.mem_handles, hu]
    simp [CountedAsHandle, h.closes u hu, DropStep.Holds]
  have hholders : ∀ header, (m.goto u .decrement header).holders = m.holders :=
    fun _ => DropMachine.holders_goto (by rw [hu]; rfl)
  have hhandles : ∀ header, (m.goto u .decrement header).handles call = (m.handles call).erase u :=
    fun _ => DropMachine.handles_goto_erase (by simp [CountedAsHandle])
  have hother : ∀ v, v ≠ u → ∀ header, (m.goto u .decrement header).pc v = m.pc v :=
    fun v hv _ => DropMachine.goto_pc_of_ne hv
  refine ⟨fun v hv => ?_, fun hf => ?_, h.magic, h.attributes, fun hf => ?_, fun hf => ?_,
    fun v hv => ?_⟩
  · rw [hholders]
    by_cases hvu : v = u
    · rw [hvu, DropMachine.goto_pc_self] at hv
      cases hv
    · rw [hother v hvu] at hv
      exact h.removed v hv
  · rw [hholders]
    exact h.freed hf
  · rw [hholders]
    exact h.refCount hf
  · have hcount := h.openHandleCount hf
    have hpos := Finset.card_pos.mpr ⟨u, hmem⟩
    rw [hhandles, Finset.card_erase_of_mem hmem]
    show m.header.OpenHandleCount - 1 = _
    omega
  · by_cases hvu : v = u
    · rw [hvu, DropMachine.goto_pc_self] at hv
      cases hv
    · rw [hother v hvu] at hv
      exact h.closes v hv

/-- **A thread counts down.** -/
theorem DropMachine.Counted.decrement (h : m.Counted call) (hu : m.pc u = .decrement) :
    (m.goto u .reread { m.header with RefCount := m.header.RefCount - 1 }).Counted call := by
  have hmem : u ∈ m.holders := by
    rw [DropMachine.mem_holders, hu]
    rfl
  have hne : m.holders ≠ ∅ := Finset.ne_empty_of_mem hmem
  have hholders : ∀ header, (m.goto u .reread header).holders = m.holders.erase u :=
    fun _ => DropMachine.holders_goto_erase rfl
  have hhandles : ∀ header, (m.goto u .reread header).handles call = m.handles call :=
    fun _ => DropMachine.handles_goto (by rw [hu]; simp [CountedAsHandle, DropStep.Holds])
  refine ⟨fun v hv => ?_, fun hf => absurd (h.freed hf) hne, h.magic, h.attributes, fun hf => ?_,
    fun hf => ?_, fun v hv => ?_⟩
  · by_cases hvu : v = u
    · rw [hvu, DropMachine.goto_pc_self] at hv
      cases hv
    · rw [DropMachine.goto_pc_of_ne hvu] at hv
      exact absurd (h.removed v hv) hne
  · have hcount := h.refCount hf
    have hpos := Finset.card_pos.mpr ⟨u, hmem⟩
    rw [hholders, Finset.card_erase_of_mem hmem]
    show m.header.RefCount - 1 = _
    omega
  · rw [hhandles]
    exact h.openHandleCount hf
  · by_cases hvu : v = u
    · rw [hvu, DropMachine.goto_pc_self] at hv
      cases hv
    · rw [DropMachine.goto_pc_of_ne hvu] at hv
      exact h.closes v hv

omit [DecidableEq θ] in
/-- The last reference is gone when `RefCount` reads zero. -/
theorem DropMachine.Counted.holders_empty (h : m.Counted call) (hcount : ¬ m.header.RefCount > 0) :
    m.holders = ∅ := by
  cases hf : m.freed with
  | true => exact h.freed hf
  | false =>
    have hcard := h.refCount hf
    rw [← Finset.card_eq_zero]
    omega

/-- **A thread frees the object.** -/
theorem DropMachine.Counted.free (h : m.Counted call) (hu : m.pc u = .free) :
    ({ m.goto u .returned m.header with freed := true } : DropMachine θ).Counted call := by
  have hempty : m.holders = ∅ := h.removed u (by rw [hu]; rfl)
  have hgo : (m.goto u .returned m.header).Counted call := by
    refine h.plain ?_ ?_ (fun _ => hempty) (fun hp => by cases hp)
    · rw [hu]
      rfl
    · rw [hu]
      simp [CountedAsHandle, DropStep.Holds]
  have hholders : (m.goto u .returned m.header).holders = ∅ := by
    rw [DropMachine.holders_goto (by rw [hu]; rfl), hempty]
  exact ⟨hgo.removed, fun _ => hholders, nofun, nofun, nofun, nofun, hgo.closes⟩

/-- **Which step follows which**, while the counters are right. -/
inductive DropStep.Next (call : θ → DropCall) (m : DropMachine θ) (u : θ) : DropStep → DropStep → Prop
  | validate : Next call m u .validate .checkCount
  | checkCount : Next call m u .checkCount .checkAttributes
  | checkAttributes :
    Next call m u .checkAttributes (if call u = .close then .closeHandle else .decrement)
  | closeHandle : Next call m u .closeHandle .decrement
  | decrement : Next call m u .decrement .reread
  | stays (h : m.header.RefCount > 0) : Next call m u .reread .returned
  | last (h : ¬ m.header.RefCount > 0) : Next call m u .reread .remove
  | remove : Next call m u .remove .checkHandles
  | checkHandles : Next call m u .checkHandles .checkPermanent
  | checkPermanent : Next call m u .checkPermanent .closeProcedure
  | closeProcedure : Next call m u .closeProcedure .unlink
  | unlink : Next call m u .unlink .free
  | free : Next call m u .free .returned

/-- **One step of a thread**: where the thread is afterwards, and that the counters stay right. -/
theorem DropMachine.Counted.step (h : m.Counted call) (hu : m.pc u ≠ .returned)
    (hstep : m.step call u = .ok m') : m'.Counted call ∧ ∃ q, DropStep.Next call m u (m.pc u) q
      ∧ m'.pc = Function.update m.pc u q ∧ m'.freed = (m.freed || decide (m.pc u = .free)) := by
  have hplain : ∀ q, q.Holds = (m.pc u).Holds →
      CountedAsHandle call u q = CountedAsHandle call u (m.pc u) →
      (q.Removes = true → m.holders = ∅) → (q = .closeHandle → call u = .close) →
      m' = m.goto u q m.header → DropStep.Next call m u (m.pc u) q → m.pc u ≠ .free →
      m'.Counted call ∧ ∃ q, DropStep.Next call m u (m.pc u) q
        ∧ m'.pc = Function.update m.pc u q ∧ m'.freed = (m.freed || decide (m.pc u = .free)) := by
    rintro q hholds hhandle hremoves hcloses rfl hnext hfree
    refine ⟨h.plain hholds hhandle hremoves hcloses, q, hnext, rfl, ?_⟩
    rw [decide_eq_false hfree, Bool.or_false]
    rfl
  have hremoving : (m.pc u).Removes = true → m.holders = ∅ := h.removed u
  unfold DropMachine.step at hstep
  cases hpc : m.pc u with
  | validate =>
    rw [hpc] at hplain hstep
    obtain ⟨_, -, hstep⟩ := kernel_bind_eq_ok.mp hstep
    cases hstep
    exact hplain .checkCount rfl rfl nofun nofun rfl .validate nofun
  | checkCount =>
    rw [hpc] at hplain hstep
    obtain ⟨_, -, hstep⟩ := kernel_bind_eq_ok.mp hstep
    cases hstep
    exact hplain .checkAttributes rfl rfl nofun nofun rfl .checkCount nofun
  | checkAttributes =>
    rw [hpc] at hplain hstep
    have hmem : u ∈ m.holders := by
      rw [DropMachine.mem_holders, hpc]
      rfl
    have hf : m.freed = false := by
      by_contra hf
      exact Finset.ne_empty_of_mem hmem (h.freed (by simpa using hf))
    simp only [ne_eq, h.attributes hf, not_true_eq_false, if_false] at hstep
    cases hstep
    by_cases hcall : call u = .close
    · refine hplain _ ?_ ?_ ?_ (fun _ => hcall) rfl .checkAttributes nofun
      · rw [if_pos hcall]
        rfl
      · rw [if_pos hcall]
        rfl
      · rw [if_pos hcall]
        exact nofun
    · refine hplain _ ?_ ?_ ?_ ?_ rfl .checkAttributes nofun
      · rw [if_neg hcall]
        rfl
      · rw [if_neg hcall]
        simp [CountedAsHandle, hcall]
      · rw [if_neg hcall]
        exact nofun
      · rw [if_neg hcall]
        exact nofun
  | closeHandle =>
    rw [hpc] at hstep
    cases hstep
    refine ⟨h.closeHandle hpc, .decrement, .closeHandle, rfl, ?_⟩
    simp [DropMachine.goto]
  | decrement =>
    rw [hpc] at hstep
    cases hstep
    refine ⟨h.decrement hpc, .reread, .decrement, rfl, ?_⟩
    simp [DropMachine.goto]
  | reread =>
    rw [hpc] at hplain hstep
    by_cases hcount : m.header.RefCount > 0
    · simp only [hcount, if_true] at hstep
      cases hstep
      exact hplain .returned rfl rfl nofun nofun rfl (.stays hcount) nofun
    · simp only [hcount, if_false] at hstep
      cases hstep
      exact hplain .remove rfl rfl (fun _ => h.holders_empty hcount) nofun rfl (.last hcount) nofun
  | remove =>
    rw [hpc] at hplain hstep hremoving
    obtain ⟨_, -, hstep⟩ := kernel_bind_eq_ok.mp hstep
    cases hstep
    exact hplain .checkHandles rfl rfl (fun _ => hremoving rfl) nofun rfl .remove nofun
  | checkHandles =>
    rw [hpc] at hplain hstep hremoving
    obtain ⟨_, -, hstep⟩ := kernel_bind_eq_ok.mp hstep
    cases hstep
    exact hplain .checkPermanent rfl rfl (fun _ => hremoving rfl) nofun rfl .checkHandles nofun
  | checkPermanent =>
    rw [hpc] at hplain hstep hremoving
    obtain ⟨_, -, hstep⟩ := kernel_bind_eq_ok.mp hstep
    cases hstep
    exact hplain .closeProcedure rfl rfl (fun _ => hremoving rfl) nofun rfl .checkPermanent nofun
  | closeProcedure =>
    rw [hpc] at hplain hstep hremoving
    cases hstep
    exact hplain .unlink rfl rfl (fun _ => hremoving rfl) nofun rfl .closeProcedure nofun
  | unlink =>
    rw [hpc] at hplain hstep hremoving
    cases hstep
    exact hplain .free rfl rfl (fun _ => hremoving rfl) nofun rfl .unlink nofun
  | free =>
    rw [hpc] at hstep
    cases hstep
    refine ⟨h.free hpc, .returned, .free, rfl, ?_⟩
    simp
  | returned => exact absurd hpc hu

/-- **The counters are right in every state reached.** -/
theorem counted_of_run {t : List (DropEvent θ × DropMachine θ)} (h : (dropSystem call).Run t m) :
    m.Counted call := by
  refine h.invariant (I := fun _ m => m.Counted call) (fun m hm => ?_) ?_
  · -- all threads are in front of their first access
    have hholds : ∀ u, (m.pc u).Holds = true := by
      intro u
      rw [hm.pc u]
      cases call u <;> rfl
    have hholders : m.holders = Finset.univ :=
      Finset.filter_true_of_mem fun u _ => hholds u
    have hhandles : m.handles call = Finset.univ.filter fun u => call u = .close := by
      refine Finset.filter_congr fun u _ => ?_
      rw [hm.pc u]
      cases hcall : call u
      · simp [CountedAsHandle, hcall]
      · simp [CountedAsHandle, hcall, DropCall.first, DropStep.Holds]
    refine ⟨fun u hu => ?_, fun hf => ?_, fun _ => hm.magic, fun _ => hm.attributes, fun _ => ?_,
      fun _ => ?_, fun u hu => ?_⟩
    · rw [hm.pc u] at hu
      cases hcall : call u <;> (rw [hcall] at hu; cases hu)
    · rw [hm.freed] at hf
      cases hf
    · rw [hm.refCount, hholders]
      rfl
    · rw [hm.openHandleCount, hhandles]
    · rw [hm.pc u] at hu
      cases hcall : call u with
      | close => rfl
      | dereference =>
        rw [hcall] at hu
        cases hu
  · intro t m l m' _ hm hs
    obtain ⟨e, k⟩ := l
    obtain ⟨hk, hen, hrun⟩ := hs
    cases hk
    cases e with
    | step u => exact (hm.step hen hrun).1
    | reuse header =>
      cases hrun
      have hf : k.freed = true := hen
      have hnot : k.freed = false → False := fun hff => by rw [hf] at hff; cases hff
      exact ⟨hm.removed, hm.freed, fun hff => (hnot hff).elim, fun hff => (hnot hff).elim,
        fun hff => (hnot hff).elim, fun hff => (hnot hff).elim, hm.closes⟩

/-! ## The last one counts -/

omit [DecidableEq θ] [Fintype θ] in
theorem removalCalls_step (t : List (DropEvent θ × DropMachine θ)) (u : θ) :
    removalCalls ((.step u, m) :: t) = removalCalls t + if m.pc u = .remove then 1 else 0 := by
  rw [removalCalls, List.countP_cons]
  simp [IsRemoval, removalCalls]

/-- **Where a run stands whose last count is alone**: the object is there while references are held;
then one thread is left, and it calls `ObRemoveObject` and frees the object. -/
structure DropMachine.Alone (t : List (DropEvent θ × DropMachine θ)) (m : DropMachine θ) : Prop where
  held : m.holders ≠ ∅ → removalCalls t = 0 ∧ m.freed = false
  last : m.holders = ∅ → ∃ a, (∀ b, b ≠ a → m.pc b = .returned)
    ∧ ((m.pc a = .reread ∨ m.pc a = .remove) ∧ removalCalls t = 0 ∧ m.freed = false
      ∨ ((m.pc a).Removes = true ∧ m.pc a ≠ .remove) ∧ removalCalls t = 1 ∧ m.freed = false
      ∨ m.pc a = .returned ∧ removalCalls t = 1 ∧ m.freed = true)

/-- The holders are read off the places of the threads. -/
theorem DropMachine.holders_of_pc (hpc : m'.pc = Function.update m.pc u q) :
    m'.holders = if q.Holds = true then insert u m.holders else m.holders.erase u := by
  ext v
  rw [DropMachine.mem_holders, hpc]
  by_cases hv : v = u
  · subst hv
    rw [Function.update_self]
    cases hq : q.Holds
    · simp
    · simp
  · rw [Function.update_of_ne hv, ← DropMachine.mem_holders]
    split <;> simp [hv]

/-- **A step in such a run.** -/
theorem DropMachine.Alone.step {t : List (DropEvent θ × DropMachine θ)} (hm : m.Counted call)
    (h : m.Alone t) (hu : m.pc u ≠ .returned) (hlast : LastOneCounts (DropEvent.step u, m))
    (hstep : m.step call u = .ok m') :
    m'.Alone ((.step u, m) :: t) ∧ m.freed = false
      ∧ (m.pc u = .remove → m.holders = ∅ ∧ removalCalls t = 0) := by
  obtain ⟨-, q, hnext, hpc', hfreed'⟩ := hm.step hu hstep
  have hholders := DropMachine.holders_of_pc hpc'
  have hself : m'.pc u = q := by rw [hpc', Function.update_self]
  have hother : ∀ v, v ≠ u → m'.pc v = m.pc v := fun v hv => by rw [hpc', Function.update_of_ne hv]
  have hcalls := removalCalls_step (m := m) t u
  by_cases hempty : m.holders = ∅
  · -- one thread is left, and it is the one that goes on
    obtain ⟨a, hreturned, hstage⟩ := h.last hempty
    have hua : u = a := by
      by_contra hne
      exact hu (hreturned u hne)
    subst hua
    have hreturned' : ∀ b, b ≠ u → m'.pc b = .returned :=
      fun b hb => (hother b hb).trans (hreturned b hb)
    have hcont : q.Holds = false →
        ((m'.pc u = .reread ∨ m'.pc u = .remove)
            ∧ removalCalls ((.step u, m) :: t) = 0 ∧ m'.freed = false
          ∨ ((m'.pc u).Removes = true ∧ m'.pc u ≠ .remove)
            ∧ removalCalls ((.step u, m) :: t) = 1 ∧ m'.freed = false
          ∨ m'.pc u = .returned ∧ removalCalls ((.step u, m) :: t) = 1 ∧ m'.freed = true) →
        m'.Alone ((.step u, m) :: t) := by
      intro hq hnow
      refine ⟨fun hne => absurd ?_ hne, fun _ => ⟨u, hreturned', hnow⟩⟩
      rw [hholders, hq, hempty]
      rfl
    rw [hself, hcalls, hfreed'] at hcont
    rcases hstage with ⟨hplace, hnone, hf⟩ | ⟨⟨hremoves, hbehind⟩, hone, hf⟩ | ⟨hreturned, -⟩
    · refine ⟨?_, hf, fun _ => ⟨hempty, hnone⟩⟩
      rw [hnone, hf] at hcont
      rcases hplace with hplace | hplace
      · -- the last count is re-read as zero
        rw [hplace] at hnext hcont
        cases hnext with
        | stays hcount =>
          rw [hm.refCount hf, hempty] at hcount
          cases hcount
        | last _ => exact hcont rfl (Or.inl ⟨Or.inr rfl, rfl, rfl⟩)
      · rw [hplace] at hnext hcont
        cases hnext with
        | remove => exact hcont rfl (Or.inr (Or.inl ⟨⟨rfl, nofun⟩, rfl, rfl⟩))
    · refine ⟨?_, hf, fun hr => absurd hr hbehind⟩
      rw [hone, hf, if_neg hbehind] at hcont
      generalize m.pc u = p at hnext hcont hremoves hbehind
      cases hnext with
      | checkHandles => exact hcont rfl (Or.inr (Or.inl ⟨⟨rfl, nofun⟩, rfl, rfl⟩))
      | checkPermanent => exact hcont rfl (Or.inr (Or.inl ⟨⟨rfl, nofun⟩, rfl, rfl⟩))
      | closeProcedure => exact hcont rfl (Or.inr (Or.inl ⟨⟨rfl, nofun⟩, rfl, rfl⟩))
      | unlink => exact hcont rfl (Or.inr (Or.inl ⟨⟨rfl, nofun⟩, rfl, rfl⟩))
      | free => exact hcont rfl (Or.inr (Or.inr ⟨rfl, rfl, rfl⟩))
      | remove => exact absurd rfl hbehind
      | _ => cases hremoves
    · exact absurd hreturned hu
  · obtain ⟨hnone, hf⟩ := h.held hempty
    have hremoves : m.pc u ≠ .remove := by
      intro hr
      exact hempty (hm.removed u (by rw [hr]; rfl))
    have hcalls' : removalCalls ((.step u, m) :: t) = 0 := by
      rw [hcalls, hnone, if_neg hremoves]
    have hf' : m'.freed = false := by
      rw [hfreed', hf, decide_eq_false]
      · rfl
      · intro hr
        exact hempty (hm.removed u (by rw [hr]; rfl))
    refine ⟨⟨fun _ => ⟨hcalls', hf'⟩, fun hnow => ?_⟩, hf, fun hr => absurd hr hremoves⟩
    -- the last reference goes: only a count can do that
    have hq : q.Holds = false := by
      by_contra hq
      rw [hholders, if_pos (by simpa using hq)] at hnow
      exact Finset.insert_ne_empty _ _ hnow
    have herase : m.holders.erase u = ∅ := by
      rw [hholders, hq] at hnow
      exact hnow
    have hone : m.holders = {u} := by
      obtain ⟨v, hv⟩ := Finset.nonempty_iff_ne_empty.mpr hempty
      rcases Finset.erase_eq_empty_iff m.holders u |>.mp herase with hnil | hone
      · exact absurd hnil hempty
      · exact hone
    have hholds : (m.pc u).Holds = true := by
      rw [← DropMachine.mem_holders, hone]
      exact Finset.mem_singleton_self u
    have hcount : m.pc u = .decrement ∧ q = .reread := by
      generalize m.pc u = p at hnext hholds
      cases hnext with
      | checkAttributes =>
        by_cases hcall : call u = .close
        · rw [if_pos hcall] at hq
          cases hq
        · rw [if_neg hcall] at hq
          cases hq
      | decrement => exact ⟨rfl, rfl⟩
      | _ => first | exact absurd hholds (by decide) | exact absurd hq (by decide)
    have hrefs : m.header.RefCount = 1 := by
      rw [hm.refCount hf, hone]
      rfl
    refine ⟨u, fun b hb => ?_, Or.inl ⟨Or.inl (hself.trans hcount.2), hcalls', hf'⟩⟩
    rw [hother b hb]
    exact hlast u rfl hcount.1 hrefs b hb

/-- **A run whose last count is alone** destroys the object once. -/
theorem alone_of_run [Nonempty θ] {t : List (DropEvent θ × DropMachine θ)}
    (h : (dropSystem call).Run t m) (hlast : ∀ l ∈ t, LastOneCounts l) :
    m.Alone t ∧ DestroyedOnce t := by
  revert hlast
  refine h.invariant (I := fun t m => (∀ l ∈ t, LastOneCounts l) → m.Alone t ∧ DestroyedOnce t) ?_ ?_
  · intro m hm _
    have hholders : m.holders ≠ ∅ := by
      obtain ⟨u⟩ := ‹Nonempty θ›
      refine Finset.ne_empty_of_mem (a := u) (DropMachine.mem_holders.mpr ?_)
      rw [hm.pc u]
      cases call u <;> rfl
    refine ⟨⟨fun _ => ⟨rfl, hm.freed⟩, fun hempty => absurd hempty hholders⟩, ⟨?_, ?_, ?_⟩⟩
    · exact Nat.zero_le 1
    · exact fun l hl => absurd hl List.not_mem_nil
    · exact fun l hl => absurd hl List.not_mem_nil
  · intro t m l m' hrun hm hs hall
    obtain ⟨e, k⟩ := l
    obtain ⟨hk, hen, hstep⟩ := hs
    cases hk
    have hcounted := counted_of_run hrun
    obtain ⟨halone, hdestroyed⟩ := hm fun l hl => hall l (List.mem_cons_of_mem _ hl)
    cases e with
    | reuse header =>
      cases hstep
      have hf : k.freed = true := hen
      have hcalls : removalCalls ((.reuse header, k) :: t) = removalCalls t := by
        simp [removalCalls, IsRemoval]
      refine ⟨⟨fun hne => ?_, fun hempty => ?_⟩, ⟨?_, ?_, ?_⟩⟩
      · rw [hcalls]
        exact halone.held hne
      · rw [hcalls]
        exact halone.last hempty
      · rw [hcalls]
        exact hdestroyed.once
      · exact List.forall_mem_cons.mpr ⟨nofun, hdestroyed.after⟩
      · exact List.forall_mem_cons.mpr ⟨nofun, hdestroyed.access⟩
    | step u =>
      obtain ⟨halone', hf, hremove⟩ := halone.step hcounted hen (hall _ List.mem_cons_self) hstep
      refine ⟨halone', ⟨?_, ?_, ?_⟩⟩
      · rw [removalCalls_step]
        by_cases hr : k.pc u = .remove
        · rw [if_pos hr, (hremove hr).2]
        · rw [if_neg hr]
          exact hdestroyed.once
      · refine List.forall_mem_cons.mpr ⟨fun hr v => ?_, hdestroyed.after⟩
        have hplace : k.pc u = .remove := of_decide_eq_true hr
        by_contra hv
        have hmem := DropMachine.mem_holders.mpr (by simpa using hv)
        rw [(hremove hplace).1] at hmem
        exact Finset.notMem_empty v hmem
      · exact List.forall_mem_cons.mpr ⟨fun _ _ => hf, hdestroyed.access⟩

/-- **No assertion stops a thread** in such a run. -/
theorem DropMachine.Alone.step_returns {t : List (DropEvent θ × DropMachine θ)}
    (hm : m.Counted call) (h : m.Alone t) (hu : m.pc u ≠ .returned) :
    ∃ m', m.step call u = .ok m' := by
  -- the object is there: after the free all threads have returned
  have hf : m.freed = false := by
    by_contra hf
    have hempty := hm.freed (by simpa using hf)
    obtain ⟨a, hreturned, hstage⟩ := h.last hempty
    have hua : u = a := by
      by_contra hne
      exact hu (hreturned u hne)
    subst hua
    rcases hstage with ⟨-, -, hff⟩ | ⟨-, -, hff⟩ | ⟨hr, -⟩
    · exact hf hff
    · exact hf hff
    · exact hu hr
  have hholds : (m.pc u).Holds = true → m.header.RefCount ≥ 1 := by
    intro hholds
    have hpos := Finset.card_pos.mpr ⟨u, DropMachine.mem_holders.mpr hholds⟩
    have hcount := hm.refCount hf
    omega
  have hremoves : (m.pc u).Removes = true → m.header.RefCount = 0 ∧ m.header.OpenHandleCount = 0 := by
    intro hremoves
    have hempty := hm.removed u hremoves
    have hhandles : m.handles call = ∅ := by
      refine Finset.eq_empty_of_forall_notMem fun v hv => ?_
      have hv' := DropMachine.mem_handles.mp hv
      have hmem : v ∈ m.holders := by
        rw [DropMachine.mem_holders]
        simp only [CountedAsHandle, Bool.and_eq_true] at hv'
        exact hv'.1.2
      rw [hempty] at hmem
      exact Finset.notMem_empty v hmem
    have hcount := hm.refCount hf
    have hopen := hm.openHandleCount hf
    rw [hempty] at hcount
    rw [hhandles] at hopen
    exact ⟨hcount, hopen⟩
  have hattributes := hm.attributes hf
  unfold DropMachine.step
  cases hpc : m.pc u with
  | validate => exact ⟨_, kernel_bind_eq_ok.mpr ⟨(), assert_of_true (hm.magic hf) _, rfl⟩⟩
  | checkCount =>
    rw [hpc] at hholds
    exact ⟨_, kernel_bind_eq_ok.mpr ⟨(), assert_of_true (hholds rfl) _, rfl⟩⟩
  | checkAttributes =>
    simp only [ne_eq, hattributes, not_true_eq_false, if_false]
    exact ⟨_, rfl⟩
  | closeHandle => exact ⟨_, rfl⟩
  | decrement => exact ⟨_, rfl⟩
  | reread =>
    simp only
    split
    · exact ⟨_, rfl⟩
    · exact ⟨_, rfl⟩
  | remove =>
    rw [hpc] at hremoves
    exact ⟨_, kernel_bind_eq_ok.mpr ⟨(), assert_of_true (hremoves rfl).1 _, rfl⟩⟩
  | checkHandles =>
    rw [hpc] at hremoves
    exact ⟨_, kernel_bind_eq_ok.mpr ⟨(), assert_of_true (hremoves rfl).2 _, rfl⟩⟩
  | checkPermanent => exact ⟨_, kernel_bind_eq_ok.mpr ⟨(), assert_of_true hattributes _, rfl⟩⟩
  | closeProcedure => exact ⟨_, rfl⟩
  | unlink => exact ⟨_, rfl⟩
  | free => exact ⟨_, rfl⟩
  | returned => exact absurd hpc hu

/-! ## Two threads behind the last count -/

/-- Thread `u` has not called `ObRemoveObject` yet, but will. -/
def DropStep.WillRemove : DropStep → Bool
  | .reread | .remove => true
  | _ => false

/-- **What two threads that stand behind their counts when the last one is made lead to**: a call
of `ObRemoveObject` by each, unless one of them finds the object freed. -/
def TwoRemove (t : List (DropEvent θ × DropMachine θ)) (m : DropMachine θ) : Prop :=
  (∃ l ∈ t, ∃ u, l.1 = .step u ∧ l.2.freed = true)
  ∨ ∃ a b, a ≠ b ∧ m.holders = ∅ ∧ 2 ≤ removalCalls t
    + (if (m.pc a).WillRemove then 1 else 0) + (if (m.pc b).WillRemove then 1 else 0)

omit [DecidableEq θ] [Fintype θ] in
/-- A thread that has not called `ObRemoveObject` yet either calls it or still will, as long as the
count reads zero. -/
theorem DropStep.Next.willRemove (h : DropStep.Next call m u p q) (hcount : m.header.RefCount ≤ 0) :
    (if p.WillRemove then 1 else 0) ≤ (if p = .remove then 1 else 0) + (if q.WillRemove then 1 else 0) := by
  cases h with
  | stays hpos => omega
  | last _ => exact le_rfl
  | remove => exact le_rfl
  | _ => exact Nat.zero_le _

/-- A thread that neither holds its reference nor removes the object nor has returned is about to
read the count again. -/
theorem DropStep.eq_reread (hholds : p.Holds = false) (hremoves : p.Removes = false)
    (hreturned : p ≠ .returned) : p = .reread := by
  cases p with
  | reread => rfl
  | returned => exact absurd rfl hreturned
  | remove | checkHandles | checkPermanent | closeProcedure | unlink | free => cases hremoves
  | _ => cases hholds

/-- The last count comes while another thread stands behind its own. -/
theorem twoRemove_of_count {t : List (DropEvent θ × DropMachine θ)} (hm : m.Counted call)
    (hstep : m.step call u = .ok m') (hnot : ¬ LastOneCounts (DropEvent.step u, m)) :
    TwoRemove t m' := by
  obtain ⟨w, hw, hplace, hrefs, v, hv, hreturned⟩ : ∃ w, DropEvent.step u = .step w
      ∧ m.pc w = .decrement ∧ m.header.RefCount = 1 ∧ ∃ v, v ≠ w ∧ m.pc v ≠ .returned := by
    simpa [LastOneCounts] using hnot
  cases hw
  have hu : m.pc u ≠ .returned := by
    rw [hplace]
    exact nofun
  obtain ⟨-, q, hnext, hpc', -⟩ := hm.step hu hstep
  have hq : q = .reread := by
    rw [hplace] at hnext
    cases hnext
    rfl
  have hmem : u ∈ m.holders := by
    rw [DropMachine.mem_holders, hplace]
    rfl
  have hf : m.freed = false := by
    by_contra hf
    exact Finset.ne_empty_of_mem hmem (hm.freed (by simpa using hf))
  have hone : m.holders = {u} := by
    have hcard : m.holders.card = 1 := by
      have hcount := hm.refCount hf
      omega
    obtain ⟨w, hw⟩ := Finset.card_eq_one.mp hcard
    rw [hw, Finset.mem_singleton] at hmem
    rw [hw, hmem]
  -- the other thread is neither a holder nor removing, and has not returned
  have hvplace : m.pc v = .reread := by
    have hnotHolds : (m.pc v).Holds = false := by
      by_contra hholds
      have hmem := DropMachine.mem_holders.mpr (by simpa using hholds)
      rw [hone, Finset.mem_singleton] at hmem
      exact hv hmem
    have hnotRemoves : (m.pc v).Removes = false := by
      by_contra hremoves
      exact Finset.ne_empty_of_mem hmem (hm.removed v (by simpa using hremoves))
    exact DropStep.eq_reread hnotHolds hnotRemoves hreturned
  refine Or.inr ⟨u, v, hv.symm, ?_, ?_⟩
  · rw [DropMachine.holders_of_pc hpc', hq, hone]
    simp [DropStep.Holds]
  · rw [hpc', Function.update_self, Function.update_of_ne hv, hq, hvplace]
    exact Nat.le_add_left _ _

/-- **A step behind the last count.** -/
theorem TwoRemove.step {t : List (DropEvent θ × DropMachine θ)} (hm : m.Counted call)
    (h : TwoRemove t m) (hu : m.pc u ≠ .returned) (hstep : m.step call u = .ok m') :
    TwoRemove ((.step u, m) :: t) m' := by
  rcases h with ⟨l, hl, w, hw⟩ | ⟨a, b, hab, hempty, hcalls⟩
  · exact Or.inl ⟨l, List.mem_cons_of_mem _ hl, w, hw⟩
  cases hf : m.freed with
  | true => exact Or.inl ⟨_, List.mem_cons_self, u, rfl, hf⟩
  | false =>
    obtain ⟨-, q, hnext, hpc', -⟩ := hm.step hu hstep
    have hcount : m.header.RefCount ≤ 0 := by
      have hrefs := hm.refCount hf
      rw [hempty] at hrefs
      exact hrefs.le
    have hnotHolds : (m.pc u).Holds = false := by
      by_contra hholds
      have hmem := DropMachine.mem_holders.mpr (by simpa using hholds)
      rw [hempty] at hmem
      exact Finset.notMem_empty u hmem
    have hq : q.Holds = false := by
      generalize m.pc u = p at hnext hnotHolds
      cases hnext <;> first | rfl | cases hnotHolds
    have hwill := hnext.willRemove hcount
    refine Or.inr ⟨a, b, hab, ?_, ?_⟩
    · rw [DropMachine.holders_of_pc hpc', hq, hempty]
      rfl
    · rw [removalCalls_step, hpc']
      by_cases hua : a = u
      · have hub : b ≠ u := fun hb => hab (hua.trans hb.symm)
        subst hua
        rw [Function.update_self, Function.update_of_ne hub]
        omega
      · rw [Function.update_of_ne hua]
        by_cases hub : b = u
        · subst hub
          rw [Function.update_self]
          omega
        · rw [Function.update_of_ne hub]
          omega

/-- **A run whose last count is not alone** does not destroy the object once. -/
theorem twoRemove_of_run {t : List (DropEvent θ × DropMachine θ)} (h : (dropSystem call).Run t m) :
    (∀ l ∈ t, LastOneCounts l) ∨ TwoRemove t m := by
  refine h.invariant (I := fun t m => (∀ l ∈ t, LastOneCounts l) ∨ TwoRemove t m) ?_ ?_
  · exact fun m _ => Or.inl fun l hl => absurd hl List.not_mem_nil
  · intro t m l m' hrun hm hs
    obtain ⟨e, k⟩ := l
    obtain ⟨hk, hen, hstep⟩ := hs
    cases hk
    have hcounted := counted_of_run hrun
    cases e with
    | reuse header =>
      cases hstep
      have hcalls : removalCalls ((.reuse header, k) :: t) = removalCalls t := by
        simp [removalCalls, IsRemoval]
      rcases hm with hall | ⟨l, hl, hfreed⟩ | ⟨a, b, hab, hempty, htwo⟩
      · exact Or.inl (List.forall_mem_cons.mpr ⟨nofun, hall⟩)
      · exact Or.inr (Or.inl ⟨l, List.mem_cons_of_mem _ hl, hfreed⟩)
      · exact Or.inr (Or.inr ⟨a, b, hab, hempty, hcalls ▸ htwo⟩)
    | step u =>
      rcases hm with hall | htwo
      · by_cases hlast : LastOneCounts (DropEvent.step u, k)
        · exact Or.inl (List.forall_mem_cons.mpr ⟨hlast, hall⟩)
        · exact Or.inr (twoRemove_of_count hcounted hstep hlast)
      · exact Or.inr (htwo.step hcounted hen hstep)

/-! ## Exactly once -/

/-- Two threads that call `ObDereferenceObject` hold the two references to an object. -/
def twoReferences : DropMachine Bool where
  header :=
    { Magic := OBJECT_HEADER_MAGIC
      DirEntryLinked := false
      ObjectType := some .OBJECT_TYPE_EVENT
      OpenHandleCount := 0
      RefCount := 2
      ObjectName := ⟨0, 0, none⟩
      Attributes := 0 }
  freed := false
  pc _ := .validate

theorem twoReferences_run : (dropSystem fun _ : Bool => .dereference).Run [] twoReferences :=
  .start ⟨rfl, rfl, rfl, rfl, rfl, fun _ => rfl⟩

/-- Both threads count down before one of them reads the count again. -/
def bothCount : List (DropEvent Bool) :=
  List.replicate 4 (.step false) ++ List.replicate 4 (.step true)
    ++ [.step false, .step true, .step false, .step true]

instance DropEvent.decidableEnabled (e : DropEvent θ) (m : DropMachine θ) : Decidable (e.Enabled m) :=
  match e with
  | .step u => inferInstanceAs (Decidable (m.pc u ≠ .returned))
  | .reuse _ => inferInstanceAs (Decidable (m.freed = true))

end KaushOS
