import KaushOS.Inc.Assert
import Mathlib.Algebra.Group.Nat.Defs
import Mathlib.Tactic.Common

/-! # IRQLs and the interrupt mask (`kern/hal/halx86.c`, `kern/hal/pic.c`, `kern/ke/interrupt.c`)

The processor's IRQL is a number in the PRCB. Which device lines may interrupt at an IRQL is kept
in a table of masks; changing the IRQL also programs the mask of the two interrupt controllers.

* **`kiCreateInterruptObject`** — a vector is registered: its line is unmasked at every IRQL below
  its own.
* **`Processor`** — the IRQL, the copy of the mask, and the mask registers of the controllers.
* **`keRaiseIrql`** — the IRQL goes up, with interrupts disabled.
* **`table_unmasked`** — which lines the mask of an IRQL leaves open. -/

namespace KaushOS

/-! ## Levels and vectors -/

/-- `PASSIVE_LEVEL`. -/
def PASSIVE_LEVEL : Nat := 0

/-- `APC_LEVEL`. -/
def APC_LEVEL : Nat := 1

/-- `DISPATCH_LEVEL`. -/
def DISPATCH_LEVEL : Nat := 2

/-- `CLOCK1_LEVEL`. -/
def CLOCK1_LEVEL : Nat := 28

/-- `HIGH_LEVEL`. -/
def HIGH_LEVEL : Nat := 31

/-- `MAX_IRQL_LEVEL`. -/
def MAX_IRQL_LEVEL : Nat := HIGH_LEVEL

/-- `IRQ_START`, the vector of line 0. -/
def IRQ_START : Nat := 0x20

/-- `IRQ_END`. -/
def IRQ_END : Nat := 0x3f

/-- `IRQ_SLAVE`, the line at which the second controller is connected to the first. -/
def IRQ_SLAVE : Nat := 2

/-- `SYSCALL_INTR`. -/
def SYSCALL_INTR : Nat := 0x40

/-- `IsDeviceInterrupt(vector)`. -/
def isDeviceInterrupt (vector : Nat) : Bool := IRQ_START ≤ vector && vector ≤ IRQ_END

/-- `IsSystemCallIntr(vector)`. -/
def isSystemCallIntr (vector : Nat) : Bool := vector = SYSCALL_INTR

/-- `DEFAULT_PIC_MASK`. -/
def DEFAULT_PIC_MASK : BitVec 16 := 0xFFFB

/-- `KiGetIrqlForVector(Vector)`, in `ULONG` arithmetic. -/
def kiGetIrqlForVector (vector : Nat) : Nat :=
  (CLOCK1_LEVEL + 2 ^ 32 - (vector - IRQ_START)) % 2 ^ 32

/-! ## Registering vectors -/

/-- `KiInterruptObjects`, the IRQL of each vector with a routine, and `Hal8259MaskTable`. -/
structure Interrupts where
  Irql : Nat → Option Nat
  Hal8259MaskTable : Nat → BitVec 16

/-- `Halinit()` and `KiTrapInitialize()`: no vector has a routine, and all lines are masked. -/
def halinit : Interrupts where
  Irql _ := none
  Hal8259MaskTable _ := DEFAULT_PIC_MASK

/-- `HalRegisterVectortoIrql(Irql, Vector)`: what it does to the table. -/
def halRegisterVectortoIrql (irql vector : Nat) (table : Nat → BitVec 16) :
    Kernel (Nat → BitVec 16) := do
  assert (irql ≤ MAX_IRQL_LEVEL) "Irql <= MAX_IRQL_LEVEL"
  let mask : BitVec 16 := ~~~(1#16 <<< (vector - IRQ_START))
  return fun level => if level < irql then table level &&& mask else table level

/-- `KiCreateInterruptObject(Vector, ...)`: the IRQL and the mask table. -/
def kiCreateInterruptObject (vector : Nat) (i : Interrupts) : Kernel Interrupts := do
  assert (isDeviceInterrupt vector = true ∨ isSystemCallIntr vector = true)
    "IsDeviceInterrupt(Vector) || IsSystemCallIntr(Vector)"
  assert (i.Irql vector = none) "KiInterruptObjects[Vector].KISRRoutine == NULL"
  let irql := if isDeviceInterrupt vector then kiGetIrqlForVector vector else PASSIVE_LEVEL
  let objects := Function.update i.Irql vector (some irql)
  if irql ≠ PASSIVE_LEVEL then
    let table ← halRegisterVectortoIrql irql vector i.Hal8259MaskTable
    return ⟨objects, table⟩
  else return ⟨objects, i.Hal8259MaskTable⟩

/-- The vectors are registered one after another. -/
def registerVectors (vectors : List Nat) : Kernel Interrupts :=
  vectors.foldlM (fun i vector => kiCreateInterruptObject vector i) halinit

/-! ## The processor and the controllers -/

/-- **The IRQL and the mask.** `Pic8259Mask` is the copy that the kernel keeps of the mask,
`PIC0_DATA` and `PIC1_DATA` are the mask registers of the two controllers. -/
structure Processor where
  CurrentIrql : Nat
  Pic8259Mask : BitVec 16
  PIC0_DATA : BitVec 8
  PIC1_DATA : BitVec 8
  deriving DecidableEq, Repr

/-- The three stores of `Pic8259SetMask`: the copy, and one to each controller. -/
inductive MaskStore
  | copy
  | master
  | slave
  deriving DecidableEq, Repr

/-- One of the stores of `Pic8259SetMask(mask)`. -/
def Processor.storeMask (store : MaskStore) (mask : BitVec 16) (p : Processor) : Processor :=
  match store with
  | .copy => { p with Pic8259Mask := mask }
  | .master => { p with PIC0_DATA := mask.setWidth 8 }
  | .slave => { p with PIC1_DATA := (mask >>> 8).setWidth 8 }

/-- `Pic8259SetMask(mask)`. -/
def pic8259SetMask (mask : BitVec 16) (p : Processor) : Processor :=
  ((p.storeMask .copy mask).storeMask .master mask).storeMask .slave mask

/-- `KiSetCurrentIrql(NewIrql)`. -/
def kiSetCurrentIrql (irql : Nat) (p : Processor) : Processor := { p with CurrentIrql := irql }

/-- The first assertion of `HalRaiseIrql` and `HalLowerIrql`; where it is not to stop the machine,
`checked` is false. -/
def halCheckMask (checked : Bool) (table : Nat → BitVec 16) (irql : Nat) (p : Processor) :
    Kernel Unit :=
  if checked then assert (table irql = p.Pic8259Mask) "Hal8259MaskTable[CurrentIrql] == Pic8259GetMask()"
  else .ok ()

/-- The comparison succeeds where the table has the mask that is stored. -/
theorem halCheckMask_ok (checked : Bool) {table : Nat → BitVec 16} {irql : Nat} {p : Processor}
    (h : p.Pic8259Mask = table irql) : halCheckMask checked table irql p = .ok () := by
  unfold halCheckMask
  split
  · exact assert_of_true h.symm _
  · rfl

/-- `KeRaiseIrql(NewIrql, OldIrql)` without interruption; the first component is the old IRQL. -/
def keRaiseIrql (checked : Bool) (table : Nat → BitVec 16) (irql : Nat) (p : Processor) :
    Kernel (Nat × Processor) := do
  assert (irql ≥ p.CurrentIrql) "NewIrql >= CurrentIrql"
  assert (irql ≠ 3) "NewIrql != 3"
  if irql ≠ p.CurrentIrql then
    halCheckMask checked table p.CurrentIrql p
    return (p.CurrentIrql, kiSetCurrentIrql irql (pic8259SetMask (table irql) p))
  else return (p.CurrentIrql, p)

/-- The bit of a line in the mask registers. -/
def lineMasked (p : Processor) (line : Nat) : Bool :=
  if line < 8 then p.PIC0_DATA.getLsbD line else p.PIC1_DATA.getLsbD (line - 8)

/-- **A device line can interrupt**: it is not masked, and a line of the second controller goes
through line `IRQ_SLAVE` of the first one, where no device is connected. -/
def lineOpen (p : Processor) (line : Nat) : Prop :=
  line < 16 ∧ line ≠ IRQ_SLAVE ∧ lineMasked p line = false
    ∧ (8 ≤ line → lineMasked p IRQ_SLAVE = false)

instance (p : Processor) (line : Nat) : Decidable (lineOpen p line) :=
  inferInstanceAs (Decidable (_ ∧ _))

/-! ## What the masks leave open -/

/-- The line has a vector with an IRQL above `level`. -/
def Interrupts.Above (i : Interrupts) (level line : Nat) : Prop :=
  ∃ irql, i.Irql (IRQ_START + line) = some irql ∧ level < irql

/-- A table that goes with the registered vectors. -/
structure Interrupts.Valid (i : Interrupts) : Prop where
  table : ∀ level line, line < 16 → ((i.Hal8259MaskTable level).getLsbD line = false
    ↔ line = IRQ_SLAVE ∨ i.Above level line)
  irql : ∀ line irql, line < 16 → i.Irql (IRQ_START + line) = some irql → irql = 28 - line

theorem halinit_valid : halinit.Valid := by
  refine ⟨fun level line hline => ?_, fun line irql _ h => by cases h⟩
  have hbit : ∀ k < 16, (DEFAULT_PIC_MASK.getLsbD k = false ↔ k = IRQ_SLAVE) := by decide
  rw [show halinit.Hal8259MaskTable level = DEFAULT_PIC_MASK from rfl, hbit line hline]
  exact ⟨Or.inl, fun h => h.resolve_right fun ⟨_, hirql, _⟩ => by cases hirql⟩

/-- The IRQL of a vector with a line of the controllers. -/
theorem kiGetIrqlForVector_line {line : Nat} (h : line < 16) :
    kiGetIrqlForVector (IRQ_START + line) = 28 - line := by
  unfold kiGetIrqlForVector CLOCK1_LEVEL IRQ_START
  omega

/-- Registering a vector opens its line below its IRQL, and no other line. -/
theorem getLsbD_registered (m : BitVec 16) {k line : Nat} (hline : line < 16) :
    (m &&& ~~~(1#16 <<< k)).getLsbD line = false ↔ m.getLsbD line = false ∨ line = k := by
  have hbit : (~~~(1#16 <<< k)).getLsbD line = !decide (line = k) := by
    rw [BitVec.getLsbD_not, BitVec.getLsbD_shiftLeft, BitVec.getLsbD_one]
    by_cases hk : line = k
    · subst hk
      simp [hline]
    · by_cases hlt : line < k
      · simp [hline, hk, hlt]
      · have hne : ¬ line - k = 0 := by omega
        simp [hline, hk, hlt, hne]
  rw [BitVec.getLsbD_and, hbit, Bool.and_eq_false_iff]
  simp

/-- What a registration changes. -/
theorem kiCreateInterruptObject_spec {i i' : Interrupts} {vector : Nat}
    (h : kiCreateInterruptObject vector i = .ok i') :
    IRQ_START ≤ vector ∧ i.Irql vector = none ∧ ∃ irql,
      (vector ≤ IRQ_END → irql = kiGetIrqlForVector vector)
      ∧ i'.Irql = Function.update i.Irql vector (some irql)
      ∧ ∀ level, i'.Hal8259MaskTable level = if level < irql
        then i.Hal8259MaskTable level &&& ~~~(1#16 <<< (vector - IRQ_START))
        else i.Hal8259MaskTable level := by
  obtain ⟨_, hvector, h⟩ := kernel_bind_eq_ok.mp h
  obtain ⟨_, hnone, h⟩ := kernel_bind_eq_ok.mp h
  rw [assert_eq_ok] at hvector hnone
  have hdevice : isDeviceInterrupt vector = true ↔ IRQ_START ≤ vector ∧ vector ≤ IRQ_END := by
    simp [isDeviceInterrupt]
  have hstart : IRQ_START ≤ vector := by
    rcases hvector with hdev | hsys
    · exact (hdevice.mp hdev).1
    · rw [of_decide_eq_true hsys]
      decide
  let irql := if isDeviceInterrupt vector then kiGetIrqlForVector vector else PASSIVE_LEVEL
  refine ⟨hstart, hnone, irql, fun hend => if_pos (hdevice.mpr ⟨hstart, hend⟩), ?_⟩
  by_cases hpassive : irql ≠ PASSIVE_LEVEL
  · have h' : (halRegisterVectortoIrql irql vector i.Hal8259MaskTable >>= fun table =>
        .ok ⟨Function.update i.Irql vector (some irql), table⟩) = .ok i' :=
      (if_pos hpassive).symm.trans h
    obtain ⟨table, htable, hi'⟩ := kernel_bind_eq_ok.mp h'
    obtain ⟨_, -, htable⟩ := kernel_bind_eq_ok.mp htable
    cases hi'
    cases htable
    exact ⟨rfl, fun level => rfl⟩
  · have h' : (.ok ⟨Function.update i.Irql vector (some irql), i.Hal8259MaskTable⟩ : Kernel _)
        = .ok i' := (if_neg hpassive).symm.trans h
    cases h'
    refine ⟨rfl, fun level => ?_⟩
    have hzero : irql = 0 := not_not.mp hpassive
    rw [if_neg (by omega)]

/-- **A registration keeps the table in step with the vectors.** -/
theorem Interrupts.Valid.create {i i' : Interrupts} {vector : Nat} (h : i.Valid)
    (hcreate : kiCreateInterruptObject vector i = .ok i') : i'.Valid := by
  obtain ⟨hstart, hnone, irql, hirql, hobjects, htable⟩ := kiCreateInterruptObject_spec hcreate
  have hself : i'.Irql vector = some irql := by rw [hobjects, Function.update_self]
  have hother : ∀ v, v ≠ vector → i'.Irql v = i.Irql v := by
    intro v hv
    rw [hobjects, Function.update_of_ne hv]
  refine ⟨fun level line hline => ?_, fun line q hline hq => ?_⟩
  · have hold := h.table level line hline
    rw [htable level]
    by_cases hv : IRQ_START + line = vector
    · have hk : line = vector - IRQ_START := by omega
      have habove : i'.Above level line ↔ level < irql := by
        rw [Interrupts.Above, hv, hself]
        simp
      have hnot : ¬ i.Above level line := by
        rintro ⟨q, hq, -⟩
        rw [hv, hnone] at hq
        cases hq
      by_cases hlt : level < irql
      · rw [if_pos hlt, getLsbD_registered _ hline, habove]
        simp [hk, hlt]
      · rw [if_neg hlt, hold, habove]
        simp [hnot, hlt]
    · have hk : line ≠ vector - IRQ_START := by omega
      have habove : i'.Above level line ↔ i.Above level line := by
        rw [Interrupts.Above, Interrupts.Above, hother _ hv]
      rw [habove, ← hold]
      split
      · rw [getLsbD_registered _ hline]
        simp [hk]
      · exact Iff.rfl
  · by_cases hv : IRQ_START + line = vector
    · have hend : vector ≤ IRQ_END := by
        unfold IRQ_END
        unfold IRQ_START at hv
        omega
      rw [hv, hself, hirql hend, ← hv, kiGetIrqlForVector_line hline] at hq
      exact (Option.some.inj hq).symm
    · exact h.irql line q hline ((hother _ hv).symm.trans hq)

/-- **The masks of registered vectors.** -/
theorem table_unmasked {vectors : List Nat} {i : Interrupts}
    (h : registerVectors vectors = .ok i) : i.Valid := by
  have hfold : ∀ (vectors : List Nat) (i₀ : Interrupts), i₀.Valid →
      vectors.foldlM (fun i vector => kiCreateInterruptObject vector i) i₀ = .ok i → i.Valid := by
    intro vectors
    induction vectors with
    | nil =>
      intro i₀ h₀ hok
      cases hok
      exact h₀
    | cons vector vectors ih =>
      intro i₀ h₀ hok
      rw [List.foldlM_cons] at hok
      obtain ⟨i₁, h₁, hok⟩ := kernel_bind_eq_ok.mp hok
      exact ih i₁ (h₀.create h₁) hok
  exact hfold vectors halinit halinit_valid h

end KaushOS
