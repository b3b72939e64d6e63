import KaushOS.Ke.InterruptLevels

/-! # Interrupts nest by IRQL

The masks of the two controllers and the IRQL are stored one after another, and an interrupt that
comes in between sets the masks on its way out to the IRQL it came in at. What stays true is an
inequality: a line that is open has an IRQL above the current one.

* **`MasterAbove`**, **`SlaveAbove`** — the inequality, for each controller.
* **`Ready`**, **`Resumable`** — what a raise needs to go on, and when an interrupt leaves it so.
* **`activeIsrs`** — the interrupt routines that have been entered and not left.
* **`interrupt_nesting`** — deliveries go up strictly as long as none comes between the stores to
  the two controllers in a raise. -/

namespace KaushOS

open Transition

variable {θ δ : Type} {i : Interrupts}

/-! ## Open lines -/

/-- Every open line of the first controller has an IRQL above `level`. -/
def MasterAbove (i : Interrupts) (level : Nat) (p : Processor) : Prop :=
  ∀ line < 8, line ≠ IRQ_SLAVE → p.PIC0_DATA.getLsbD line = false → i.Above level line

/-- Every open line of the second controller has an IRQL above `level`. -/
def SlaveAbove (i : Interrupts) (level : Nat) (p : Processor) : Prop :=
  ∀ line, 8 ≤ line → line < 16 → p.PIC1_DATA.getLsbD (line - 8) = false → i.Above level line

theorem Interrupts.Above.mono {level level' line : Nat} (h : i.Above level line)
    (hle : level' ≤ level) : i.Above level' line := by
  obtain ⟨irql, hirql, hlt⟩ := h
  exact ⟨irql, hirql, hle.trans_lt hlt⟩

theorem MasterAbove.mono {level level' : Nat} {p : Processor} (h : MasterAbove i level p)
    (hle : level' ≤ level) : MasterAbove i level' p :=
  fun line hline hslave hopen => (h line hline hslave hopen).mono hle

theorem SlaveAbove.mono {level level' : Nat} {p : Processor} (h : SlaveAbove i level p)
    (hle : level' ≤ level) : SlaveAbove i level' p :=
  fun line hlow hline hopen => (h line hlow hline hopen).mono hle

/-- The first controller gets the mask of an IRQL. -/
theorem Interrupts.Valid.master (hi : i.Valid) (level : Nat) (p : Processor) :
    MasterAbove i level (p.storeMask .master (i.Hal8259MaskTable level)) := by
  intro line hline hslave hopen
  have hbit : (i.Hal8259MaskTable level).getLsbD line = false := by
    have hstored : ((i.Hal8259MaskTable level).setWidth 8).getLsbD line = false := hopen
    rw [BitVec.getLsbD_setWidth, decide_eq_true hline, Bool.true_and] at hstored
    exact hstored
  exact ((hi.table level line (by omega)).mp hbit).resolve_left hslave

/-- The second controller gets the mask of an IRQL. -/
theorem Interrupts.Valid.slave (hi : i.Valid) (level : Nat) (p : Processor) :
    SlaveAbove i level (p.storeMask .slave (i.Hal8259MaskTable level)) := by
  intro line hlow hline hopen
  have hbit : (i.Hal8259MaskTable level).getLsbD line = false := by
    have hstored : ((i.Hal8259MaskTable level >>> 8).setWidth 8).getLsbD (line - 8) = false := hopen
    have hwidth : line - 8 < 8 := by omega
    rw [BitVec.getLsbD_setWidth, decide_eq_true hwidth, Bool.true_and, BitVec.getLsbD_ushiftRight,
      Nat.add_sub_cancel' hlow] at hstored
    exact hstored
  have hslave : line ≠ IRQ_SLAVE := by
    unfold IRQ_SLAVE
    omega
  exact ((hi.table level line hline).mp hbit).resolve_left hslave

/-- An open line has an IRQL above the level of the masks. -/
theorem lineOpen_above {level line : Nat} {p : Processor} (hmaster : MasterAbove i level p)
    (hslave : SlaveAbove i level p) (hopen : lineOpen p line) : i.Above level line := by
  obtain ⟨hline, hcascade, hmasked, -⟩ := hopen
  unfold lineMasked at hmasked
  by_cases hlow : line < 8
  · rw [if_pos hlow] at hmasked
    exact hmaster line hlow hcascade hmasked
  · rw [if_neg hlow] at hmasked
    exact hslave line (by omega) hline hmasked

/-! ## Raises that have been interrupted -/

/-- What the next step of a raise needs of the masks. -/
def Ready (i : Interrupts) (p : Processor) : List (IrqOp δ) → Prop
  | .raiseMask .slave _ target :: _ => MasterAbove i target.level p
  | .raiseStore _ target :: _ => MasterAbove i target.level p ∧ SlaveAbove i target.level p
  | _ => True

/-- An interrupt in front of the next step leaves what the step needs. -/
def Resumable (i : Interrupts) : List (IrqOp δ) → Prop
  | .raiseMask .slave c target :: _ => ∀ line < 8, i.Above c line → i.Above target.level line
  | .raiseStore c target :: _ => ∀ line < 16, i.Above c line → i.Above target.level line
  | _ => True

/-- The interrupt routine that a frame is in. -/
def isrOf : List (IrqOp δ) → Option Nat
  | .isr v :: _ => some v
  | .releaseIsr v :: _ => some v
  | _ => none

/-- **The interrupt routines that have been entered and whose spin lock has not been released**, the
latest first. -/
def activeIsrs (stack : List (IrqFrame δ)) : List Nat := stack.filterMap fun f => isrOf f.code

/-- All frames can be gone on with. -/
def StackResumable (i : Interrupts) (stack : List (IrqFrame δ)) : Prop :=
  ∀ f ∈ stack, Resumable i f.code

/-- Each interrupt routine was entered at an IRQL below its own. -/
def StackClimbs : Nat → List (IrqFrame δ) → Prop
  | _, [] => True
  | irql, f :: rest => (isrOf f.code ≠ none → f.entry < irql) ∧ StackClimbs f.entry rest

/-- **What the condition says.** No vector is delivered between the stores to the two controllers in
a raise from `c`, unless the first controller has no line with an IRQL above `c` and not above the
new IRQL. -/
def DeliveredOutsideRaise (i : Interrupts) (l : IrqEvent θ δ × IrqMachine θ δ) : Prop :=
  ∀ v c target, l.1 = .deliver v → l.2.nextOp = some (.raiseMask .slave c target) →
    ∀ line < 8, i.Above c line → i.Above target.level line

/-- **The masks are above the IRQL**, for the running thread and for all that goes on later. -/
structure IrqMachine.Nested (i : Interrupts) (m : IrqMachine θ δ) : Prop where
  master : MasterAbove i m.processor.CurrentIrql m.processor
  slave : SlaveAbove i m.processor.CurrentIrql m.processor
  ready : ∀ f rest, m.stack = f :: rest → Ready i m.processor f.code
  resumable : ∀ f rest, m.stack = f :: rest → StackResumable i rest
  climbs : StackClimbs m.processor.CurrentIrql m.stack
  suspended : ∀ t, StackResumable i (m.suspended t) ∧ StackClimbs DISPATCH_LEVEL (m.suspended t)
  locks : ∀ v, m.ISR_Spinlock v ≠ none → v ∈ activeIsrs m.stack

section Codes

variable {op : IrqOp δ} {code : List (IrqOp δ)} {processor : Processor}

/-- What does not stand behind the first stores of a raise needs nothing. -/
theorem IrqOp.Leads.ready (h : op.Leads code)
    (hop : ∀ store c target, op = .raiseMask store c target → store = .copy) :
    Ready i processor code := by
  unfold Ready
  split
  · exact absurd (hop _ _ _ h) (by simp)
  · exact absurd (hop _ _ _ h) (by simp)
  · trivial

theorem IrqOp.Leads.resumable (h : op.Leads code)
    (hop : ∀ store c target, op = .raiseMask store c target → store = .copy) :
    Resumable i code := by
  unfold Resumable
  split
  · exact absurd (hop _ _ _ h) (by simp)
  · exact absurd (hop _ _ _ h) (by simp)
  · trivial

/-- An interrupt routine stands only at the beginning of a frame. -/
theorem IrqOp.Leads.isrOf_none (h : op.Leads code) (hop : op.serves = none) :
    isrOf code = none := by
  unfold isrOf
  split
  · exact h.elim
  · have hisr : op = .isr _ := h
    rw [hisr] at hop
    cases hop
  · rfl

/-- It goes on to the release of its spin lock. -/
theorem IrqOp.Leads.isrOf_isr {v : Nat} (h : (IrqOp.isr v : IrqOp δ).Leads code) :
    isrOf code = some v := by
  cases code with
  | nil => cases h
  | cons op' code =>
    cases op' with
    | isr w => exact h.elim
    | releaseIsr w =>
      have hisr : (IrqOp.isr v : IrqOp δ) = .isr w := h
      cases hisr
      rfl
    | raiseMask store c target =>
      cases store with
      | slave =>
        have hisr : (IrqOp.isr v : IrqOp δ) = .raiseMask .master c target := h
        cases hisr
      | _ => cases h
    | raiseStore c target =>
      have hisr : (IrqOp.isr v : IrqOp δ) = .raiseMask .slave c target := h
      cases hisr
    | _ => cases h

theorem isrOf_raiseCode {c : Nat} {target : RaiseTo} (h : isrOf code = none) :
    isrOf (raiseCode c target ++ code) = none := by
  unfold raiseCode
  split
  · rfl
  · exact h

theorem isrOf_lowerCode {c old : Nat} (h : isrOf code = none) :
    isrOf (lowerCode c old ++ code) = none := by
  unfold lowerCode lowerTail
  split
  · rfl
  · split
    · rfl
    · exact h

theorem ready_raiseCode {c : Nat} {target : RaiseTo} (h : Ready i processor code) :
    Ready i processor (raiseCode c target ++ code) := by
  unfold raiseCode
  split
  · exact trivial
  · exact h

theorem ready_lowerCode {c old : Nat} (h : Ready i processor code) :
    Ready i processor (lowerCode c old ++ code) := by
  unfold lowerCode lowerTail
  split
  · exact trivial
  · split
    · exact trivial
    · exact h

/-- A raise that an interrupt has left may go on. -/
theorem Resumable.ready {f : IrqFrame δ} {p : IrqPoint} (h : Resumable i f.code)
    (hf : FrameAt i p f) (hmaster : MasterAbove i p.irql processor)
    (hslave : SlaveAbove i p.irql processor) : Ready i processor f.code := by
  have hlevels := hf.levels
  cases hcode : f.code with
  | nil => exact trivial
  | cons op code =>
    rw [hcode] at h hlevels
    cases op with
    | raiseMask store c target =>
      cases store with
      | slave =>
        have hirql : p.irql = c := hlevels.1.2.1
        intro line hline hcascade hopen
        exact h line hline (hirql ▸ hmaster line hline hcascade hopen)
      | _ => exact trivial
    | raiseStore c target =>
      have hirql : p.irql = c := hlevels.1.2.1
      refine ⟨fun line hline hcascade hopen => ?_, fun line hlow hline hopen => ?_⟩
      · exact h line (by omega) (hirql ▸ hmaster line hline hcascade hopen)
      · exact h line hline (hirql ▸ hslave line hlow hline hopen)
    | _ => exact trivial

end Codes

/-! ## Active routines -/

theorem activeIsrs_cons (f : IrqFrame δ) (rest : List (IrqFrame δ)) :
    activeIsrs (f :: rest) = (isrOf f.code).toList ++ activeIsrs rest := by
  cases hisr : isrOf f.code <;> simp [activeIsrs, hisr]

/-- An interrupt routine runs at its own IRQL. -/
theorem FrameAt.isrOf_irql {f : IrqFrame δ} {p : IrqPoint} (h : FrameAt i p f) {v : Nat}
    (hv : isrOf f.code = some v) : i.Irql v = some p.irql ∧ DISPATCH_LEVEL < p.irql := by
  have hlevels := h.levels
  cases hcode : f.code with
  | nil =>
    rw [hcode] at hv
    cases hv
  | cons op code =>
    rw [hcode] at hv hlevels
    cases op with
    | isr w =>
      cases hv
      exact hlevels.1.2
    | releaseIsr w =>
      cases hv
      exact hlevels.1.2
    | _ => cases hv

/-- The vectors of active routines have IRQLs up to the current one. -/
theorem activeIsrs_le {irql : Nat} {stack : List (IrqFrame δ)} (h : StackAt i irql stack) {v : Nat}
    (hv : v ∈ activeIsrs stack) : ∃ q, i.Irql v = some q ∧ DISPATCH_LEVEL < q ∧ q ≤ irql := by
  induction stack generalizing irql with
  | nil => cases hv
  | cons f rest ih =>
    obtain ⟨⟨p, hp, hframe⟩, hrest⟩ := h
    have hentry := hframe.entry
    rw [activeIsrs_cons, List.mem_append, Option.mem_toList] at hv
    rcases hv with hv | hv
    · obtain ⟨hirql, hdevice⟩ := hframe.isrOf_irql hv
      exact ⟨p.irql, hirql, hdevice, hp.le⟩
    · obtain ⟨q, hq, hlow, hle⟩ := ih hrest hv
      exact ⟨q, hq, hlow, by omega⟩

/-- **The IRQLs of active routines increase strictly** from the oldest to the latest. -/
theorem activeIsrs_pairwise {irql : Nat} {stack : List (IrqFrame δ)} (h : StackAt i irql stack)
    (hclimbs : StackClimbs irql stack) : (activeIsrs stack).Pairwise fun v w =>
      ∃ a b, i.Irql v = some a ∧ i.Irql w = some b ∧ b < a := by
  induction stack generalizing irql with
  | nil => exact List.Pairwise.nil
  | cons f rest ih =>
    obtain ⟨⟨p, hp, hframe⟩, hrest⟩ := h
    have htail := ih hrest hclimbs.2
    rw [activeIsrs_cons]
    cases hisr : isrOf f.code with
    | none => exact htail
    | some v =>
      have hlt : f.entry < irql := hclimbs.1 (by simp [hisr])
      refine List.pairwise_cons.mpr ⟨fun w hw => ?_, htail⟩
      obtain ⟨b, hb, -, hle⟩ := activeIsrs_le hrest hw
      exact ⟨p.irql, b, (hframe.isrOf_irql hisr).1, hb, by omega⟩

/-- No interrupt routine is active at `DISPATCH_LEVEL`. -/
theorem activeIsrs_dispatch {stack : List (IrqFrame δ)} (h : StackAt i DISPATCH_LEVEL stack)
    (v : Nat) : v ∉ activeIsrs stack := by
  intro hv
  obtain ⟨q, -, hlow, hle⟩ := activeIsrs_le h hv
  omega

/-! ## What keeps the masks above the IRQL -/

variable {m m' : IrqMachine θ δ} {f : IrqFrame δ} {rest : List (IrqFrame δ)} {op : IrqOp δ}
  {code : List (IrqOp δ)} {checked : Bool}

/-- **Frame rule.** The top frame goes on with other steps. -/
theorem IrqMachine.Nested.go (h : m.Nested i) (hstack : m.stack = f :: rest)
    {processor : Processor} (old : Nat) (hmaster : MasterAbove i processor.CurrentIrql processor)
    (hslave : SlaveAbove i processor.CurrentIrql processor) (hready : Ready i processor code)
    (hisr : isrOf code ≠ none → processor.CurrentIrql = m.processor.CurrentIrql)
    (hsame : isrOf code = isrOf f.code) :
    (m.next { f with OldIrql := old } code rest processor).Nested i := by
  have hclimbs := h.climbs
  have hlocks := h.locks
  rw [hstack] at hclimbs hlocks
  refine ⟨hmaster, hslave, ?_, ?_, ⟨fun hactive => ?_, hclimbs.2⟩, h.suspended, fun v hv => ?_⟩
  · intro g rest' hcons
    cases hcons
    exact hready
  · intro g rest' hcons
    cases hcons
    exact h.resumable f rest hstack
  · have hlt : f.entry < m.processor.CurrentIrql := hclimbs.1 (hsame ▸ hactive)
    show f.entry < processor.CurrentIrql
    rw [hisr hactive]
    exact hlt
  · have hmem := hlocks v hv
    rw [activeIsrs_cons] at hmem
    show v ∈ activeIsrs _
    rw [IrqMachine.next, activeIsrs_cons]
    show v ∈ (isrOf code).toList ++ _
    rw [hsame]
    exact hmem

variable [DecidableEq θ] [DecidableEq δ]

/-- **A step of the running routine keeps the masks above the IRQL.** -/
theorem IrqMachine.Nested.step (hi : i.Valid) {choice : IrqChoice θ δ} (hm : m.Ordered i)
    (h : m.Nested i) (hstep : m.step checked i choice = .ok m') : m'.Nested i := by
  have hm' := hm.step hstep
  obtain rfl | ⟨f, rest, op, code, hstack, hcode, hdid⟩ := IrqMachine.step_cases hstep
  · exact h
  obtain ⟨p, hp, hold, hentry, hfits, hleads, hlevels⟩ := hm.next_op hstack hcode
  have hbelow := (hm.top hstack).2
  have hready := h.ready f rest hstack
  have hclimbs := h.climbs
  have hlocks := h.locks
  have hresumable := h.resumable f rest hstack
  rw [hstack] at hclimbs hlocks
  rw [hcode] at hready
  -- the frame goes on with no interrupt routine in it
  have hgo : ∀ (processor : Processor) (old : Nat) (code' : List (IrqOp δ)),
      MasterAbove i processor.CurrentIrql processor → SlaveAbove i processor.CurrentIrql processor →
      Ready i processor code' → isrOf code' = none → isrOf f.code = none →
      (m.next { f with OldIrql := old } code' rest processor).Nested i :=
    fun processor old code' hmaster hslave hready' hnone hnone' =>
      h.go hstack old hmaster hslave hready' (fun hne => absurd hnone hne) (hnone.trans hnone'.symm)
  -- where the step is not part of a raise or of an interrupt routine, the masks stay as they are
  have hplain : op.serves = none → isrOf (op :: code) = none →
      (∀ store c target, op = .raiseMask store c target → store = .copy) →
      (m.next f code rest m.processor).Nested i :=
    fun hserves hnone hop => hgo _ _ _ h.master h.slave (hleads.ready hop)
      (hleads.isrOf_none hserves) (hcode ▸ hnone)
  cases hdid with
  | skip hskips =>
    cases op with
    | isr v =>
      refine h.go hstack _ h.master h.slave (hleads.ready fun _ _ _ hop => by cases hop)
        (fun _ => rfl) ?_
      rw [hleads.isrOf_isr, hcode]
      rfl
    | raiseMask store c target => exact hskips.elim
    | releaseIsr v => exact hskips.elim
    | _ => exact hplain rfl rfl fun _ _ _ hop => by cases hop
  | @call _ routine hop hcheck =>
    have hnone : isrOf routine.code = none := by cases routine <;> rfl
    refine ⟨h.master, h.slave, ?_, ?_, ⟨fun hne => absurd hnone hne, h.climbs⟩, h.suspended, ?_⟩
    · intro g rest' hcons
      cases hcons
      cases routine <;> exact trivial
    · intro g rest' hcons
      cases hcons
      rw [hstack]
      refine List.forall_mem_cons.mpr ⟨?_, hresumable⟩
      rw [hcode]
      rcases hop with rfl | ⟨v, d, arg1, arg2, rfl, -⟩
      · exact trivial
      · exact trivial
    · intro v hv
      show v ∈ activeIsrs (_ :: m.stack)
      rw [activeIsrs_cons]
      exact List.mem_append_right _ (h.locks v hv)
  | release v =>
    have hnone : isrOf code = none := hleads.isrOf_none rfl
    refine ⟨h.master, h.slave, ?_, ?_, ⟨fun hne => absurd hnone hne, hclimbs.2⟩, h.suspended, ?_⟩
    · intro g rest' hcons
      cases hcons
      exact hleads.ready fun _ _ _ hop => by cases hop
    · intro g rest' hcons
      cases hcons
      exact hresumable
    · intro w hw
      have hne : w ≠ v := by
        rintro rfl
        exact hw (Function.update_self ..)
      have hold : m.ISR_Spinlock w ≠ none := by
        rw [← Function.update_of_ne hne none m.ISR_Spinlock]
        exact hw
      have hmem := hlocks w hold
      rw [activeIsrs_cons, hcode] at hmem
      show w ∈ activeIsrs (_ :: rest)
      rw [activeIsrs_cons]
      rcases List.mem_append.mp hmem with hself | hrest
      · exact absurd (List.mem_singleton.mp hself) hne
      · exact List.mem_append_right _ hrest
  | leave hop =>
    have hirql : p.irql = f.entry ∧ isrOf f.code = none := by
      rcases hop with rfl | rfl
      · exact ⟨hfits.2, by rw [hcode]; rfl⟩
      · exact ⟨hfits.2, by rw [hcode]; rfl⟩
    have hcur : m.processor.CurrentIrql = f.entry := hp.symm.trans hirql.1
    refine ⟨h.master, h.slave, ?_, ?_, ?_, h.suspended, ?_⟩
    · intro g rest' hcons
      have hrest : rest = g :: rest' := hcons
      rw [hrest] at hbelow hresumable
      obtain ⟨⟨q, hq, hframe⟩, -⟩ := hbelow
      have hsame : m.processor.CurrentIrql = q.irql := hcur.trans hq.symm
      exact Resumable.ready (hresumable g List.mem_cons_self) hframe (hsame ▸ h.master)
        (hsame ▸ h.slave)
    · intro g rest' hcons
      have hrest : rest = g :: rest' := hcons
      rw [hrest] at hresumable
      exact fun f' hf' => hresumable f' (List.mem_cons_of_mem _ hf')
    · show StackClimbs m.processor.CurrentIrql rest
      rw [hcur]
      exact hclimbs.2
    · intro w hw
      have hmem := hlocks w hw
      rw [activeIsrs_cons, hirql.2] at hmem
      exact hmem
  | @raise target hle =>
    have hnone := hleads.isrOf_none rfl
    exact hgo _ _ _ h.master h.slave
      (ready_raiseCode (hleads.ready fun _ _ _ hop => by cases hop)) (isrOf_raiseCode hnone)
      (hcode ▸ rfl)
  | raiseMask store c target =>
    obtain ⟨hirql, hlt⟩ : p.irql = c ∧ c < target.level := by
      cases store <;> exact hfits.2
    have hcur : m.processor.CurrentIrql ≤ target.level := by omega
    have hnone := hleads.isrOf_none rfl
    cases store with
    | copy =>
      refine hgo _ _ _ h.master h.slave (hleads.ready ?_) hnone (hcode ▸ rfl)
      rintro store c' target' hop
      cases hop
      rfl
    | master =>
      refine hgo _ _ _ ((hi.master _ _).mono hcur) h.slave ?_ hnone (hcode ▸ rfl)
      unfold Ready
      split
      · have hop : (IrqOp.raiseMask .master c target : IrqOp δ) = .raiseMask .master _ _ := hleads
        cases hop
        exact hi.master _ _
      · cases hleads
      · trivial
    | slave =>
      refine hgo _ _ _ h.master ((hi.slave _ _).mono hcur) ?_ hnone (hcode ▸ rfl)
      unfold Ready
      split
      · cases hleads
      · have hop : (IrqOp.raiseMask .slave c target : IrqOp δ) = .raiseMask .slave _ _ := hleads
        cases hop
        exact ⟨hready, hi.slave _ _⟩
      · trivial
  | raiseStore c target =>
    exact hgo _ _ _ hready.1 hready.2 (hleads.ready fun _ _ _ hop => by cases hop)
      (hleads.isrOf_none rfl) (hcode ▸ rfl)
  | lower hle =>
    have hnone := hleads.isrOf_none rfl
    exact hgo _ _ _ h.master h.slave
      (ready_lowerCode (hleads.ready fun _ _ _ hop => by cases hop)) (isrOf_lowerCode hnone)
      (hcode ▸ rfl)
  | lowerStore c old =>
    obtain ⟨-, hirql, hle, -⟩ := hfits
    have hcur : old ≤ m.processor.CurrentIrql := by omega
    exact hgo _ _ _ (h.master.mono hcur) (h.slave.mono hcur)
      (hleads.ready fun _ _ _ hop => by cases hop) (hleads.isrOf_none rfl) (hcode ▸ rfl)
  | lowerMask store c old =>
    have hirql : p.irql = old := by
      cases store <;> exact hfits.2
    have hcur : m.processor.CurrentIrql ≤ old := by omega
    have hready' : ∀ processor, Ready i processor code :=
      fun _ => hleads.ready fun _ _ _ hop => by cases hop
    have hnone := hleads.isrOf_none rfl
    cases store with
    | copy => exact hgo _ _ _ h.master h.slave (hready' _) hnone (hcode ▸ rfl)
    | master => exact hgo _ _ _ ((hi.master _ _).mono hcur) h.slave (hready' _) hnone (hcode ▸ rfl)
    | slave => exact hgo _ _ _ h.master ((hi.slave _ _).mono hcur) (hready' _) hnone (hcode ▸ rfl)
  | drained _ => exact hplain rfl rfl fun _ _ _ hop => by cases hop
  | pending _ =>
    refine ⟨h.master, h.slave, ?_, ?_, ⟨fun hne => absurd rfl hne, fun hne => absurd rfl hne, ?_⟩,
      h.suspended, ?_⟩
    · intro g rest' hcons
      cases hcons
      exact trivial
    · intro g rest' hcons
      cases hcons
      exact List.forall_mem_cons.mpr ⟨trivial, hresumable⟩
    · exact hclimbs.2
    · intro w hw
      have hmem := hlocks w hw
      rw [activeIsrs_cons, hcode] at hmem
      show w ∈ activeIsrs (_ :: _ :: rest)
      rw [activeIsrs_cons, activeIsrs_cons]
      exact hmem
  | take hop _ =>
    have hnext : (m.next f code rest m.processor).Nested i := by
      rcases hop with rfl | ⟨d, rfl⟩
      · exact hplain rfl rfl fun _ _ _ hop => by cases hop
      · exact hplain rfl rfl fun _ _ _ hop => by cases hop
    exact ⟨hnext.master, hnext.slave, hnext.ready, hnext.resumable, hnext.climbs, hnext.suspended,
      hnext.locks⟩
  | insert d arg1 arg2 dpcs =>
    have hnext := hplain rfl rfl fun _ _ _ hop => by cases hop
    exact ⟨hnext.master, hnext.slave, hnext.ready, hnext.resumable, hnext.climbs, hnext.suspended,
      hnext.locks⟩
  | switchTo t =>
    obtain ⟨-, hirql⟩ := hfits
    have hcur : m.processor.CurrentIrql = DISPATCH_LEVEL := hp.symm.trans hirql
    have hnone : isrOf code = none := hleads.isrOf_none rfl
    have hself : StackResumable i ({ f with code := code } :: rest)
        ∧ StackClimbs DISPATCH_LEVEL ({ f with code := code } :: rest) := by
      have hcode' : Resumable i code := hleads.resumable fun _ _ _ hop => by cases hop
      exact ⟨List.forall_mem_cons.mpr ⟨hcode', hresumable⟩, fun hne => absurd hnone hne, hclimbs.2⟩
    have hall : ∀ u, StackResumable i
          (Function.update m.suspended m.current ({ f with code := code } :: rest) u)
        ∧ StackClimbs DISPATCH_LEVEL
          (Function.update m.suspended m.current ({ f with code := code } :: rest) u) :=
      (Function.forall_update_iff _ fun _ stack => StackResumable i stack ∧ StackClimbs DISPATCH_LEVEL stack).mpr
        ⟨hself, fun u _ => h.suspended u⟩
    -- no routine is active where threads are switched, so no spin lock is held
    have hfree : ∀ v, m.ISR_Spinlock v = none := by
      intro v
      by_contra hv
      have hat := hm.stack
      rw [hcur] at hat
      exact activeIsrs_dispatch hat v (h.locks v hv)
    refine ⟨h.master, h.slave, ?_, ?_, ?_, hall, fun v hv => absurd (hfree v) hv⟩
    · intro g rest' hcons
      obtain ⟨⟨q, hq, hframe⟩, -⟩ := hm'.top hcons
      have hmem := (hall t).1
      rw [show Function.update m.suspended m.current ({ f with code := code } :: rest) t
        = g :: rest' from hcons] at hmem
      have hsame : m.processor.CurrentIrql = q.irql := hq.symm
      exact Resumable.ready (hmem g List.mem_cons_self) hframe (hsame ▸ h.master) (hsame ▸ h.slave)
    · intro g rest' hcons
      have hmem := (hall t).1
      rw [show Function.update m.suspended m.current ({ f with code := code } :: rest) t
        = g :: rest' from hcons] at hmem
      exact fun f' hf' => hmem f' (List.mem_cons_of_mem _ hf')
    · show StackClimbs m.processor.CurrentIrql _
      rw [hcur]
      exact (hall t).2

omit [DecidableEq δ] in
/-- **A delivery keeps the masks above the IRQL** when it does not come between the stores to the
controllers in a raise. -/
theorem IrqMachine.Nested.deliver (hi : i.Valid) (h : m.Nested i) {v : Nat} (hv : IRQ_START ≤ v)
    (hopen : lineOpen m.processor (v - IRQ_START))
    (hkeeps : DeliveredOutsideRaise i (IrqEvent.deliver v, m))
    (hdeliver : m.deliver checked i v = .ok m') : m'.Nested i := by
  obtain ⟨irql, hirql, -, -, -, rfl⟩ := IrqMachine.deliver_spec hdeliver
  have hvector : IRQ_START + (v - IRQ_START) = v := by omega
  have habove := lineOpen_above h.master h.slave hopen
  have hlt : m.processor.CurrentIrql < irql := by
    obtain ⟨q, hq, hlt⟩ := habove
    rw [hvector, hirql] at hq
    cases hq
    exact hlt
  rw [if_pos hlt.ne']
  let processor := kiSetCurrentIrql irql (pic8259SetMask (i.Hal8259MaskTable irql) m.processor)
  have hmaster : MasterAbove i irql processor := hi.master irql m.processor
  have hslave : SlaveAbove i irql processor := hi.slave irql m.processor
  refine ⟨hmaster, hslave, ?_, ?_, ⟨fun _ => hlt, h.climbs⟩, h.suspended, ?_⟩
  · intro g rest hcons
    cases hcons
    exact trivial
  · intro g rest hcons
    cases hcons
    cases hstack : m.stack with
    | nil => exact fun f hf => absurd hf List.not_mem_nil
    | cons f rest =>
      refine List.forall_mem_cons.mpr ⟨?_, h.resumable f rest hstack⟩
      have hready := h.ready f rest hstack
      unfold Resumable
      split
      · rename_i c target code hcode
        exact hkeeps v c target rfl (by rw [IrqMachine.nextOp, hstack]; simp [hcode])
      · rename_i c target code hcode
        -- the masks of `HIGH_LEVEL` leave no line open, those of `DISPATCH_LEVEL` leave all
        rw [hcode] at hready
        obtain ⟨q, hq, hlevel⟩ := lineOpen_above hready.1 hready.2 hopen
        have hqv : q = 28 - (v - IRQ_START) := hi.irql _ _ hopen.1 hq
        have htarget : target.level = DISPATCH_LEVEL := by
          cases target with
          | dispatch => rfl
          | high =>
            have hhigh : HIGH_LEVEL < q := hlevel
            unfold HIGH_LEVEL at hhigh
            omega
        intro line hline hline'
        obtain ⟨r, hr, -⟩ := hline'
        refine ⟨r, hr, ?_⟩
        have hr28 := hi.irql line r hline hr
        rw [htarget]
        unfold DISPATCH_LEVEL
        omega
      · trivial
  · intro w hw
    show w ∈ activeIsrs (_ :: m.stack)
    rw [activeIsrs_cons]
    by_cases hwv : w = v
    · subst hwv
      exact List.mem_append_left _ (List.mem_singleton.mpr rfl)
    · refine List.mem_append_right _ (h.locks w ?_)
      rw [← Function.update_of_ne hwv (some m.current) m.ISR_Spinlock]
      exact hw

omit [DecidableEq θ] [DecidableEq δ] in
/-- The start. -/
theorem IrqMachine.Start.nested (hi : i.Valid) (h : m.Start i) : m.Nested i := by
  obtain ⟨p, hp⟩ := h.processor
  refine ⟨?_, ?_, ?_, ?_, ?_, fun t => ?_, fun v hv => absurd (h.locks v) hv⟩
  · rw [hp]
    exact hi.master PASSIVE_LEVEL p
  · rw [hp]
    exact hi.slave PASSIVE_LEVEL p
  · intro f rest hcons
    rw [h.stack] at hcons
    cases hcons
    exact trivial
  · intro f rest hcons
    rw [h.stack] at hcons
    cases hcons
    exact fun g hg => absurd hg List.not_mem_nil
  · rw [h.stack]
    exact ⟨fun hne => absurd rfl hne, trivial⟩
  · rw [h.suspended t]
    exact ⟨List.forall_mem_cons.mpr ⟨trivial, fun g hg => absurd hg List.not_mem_nil⟩,
      fun hne => absurd rfl hne, trivial⟩

/-- **Along a run whose deliveries meet the condition the masks stay above the IRQL.** -/
theorem IrqMachine.nested_of_run (hi : i.Valid) {t : List (IrqEvent θ δ × IrqMachine θ δ)}
    (h : (irqSystem θ δ checked i).Run t m) (hkeeps : ∀ l ∈ t, DeliveredOutsideRaise i l) :
    m.Nested i := by
  revert hkeeps
  refine h.invariant (I := fun t m => (∀ l ∈ t, DeliveredOutsideRaise i l) → m.Nested i)
    (fun m hm _ => hm.nested hi) ?_
  rintro t m ⟨e, _⟩ m' hrun hm ⟨rfl, hen, hstep⟩ hall
  have hinv := hm fun l hl => hall l (List.mem_cons_of_mem _ hl)
  cases e with
  | deliver v => exact hinv.deliver hi hen.1 hen.2 (hall _ List.mem_cons_self) hstep
  | step choice => exact hinv.step hi (IrqMachine.ordered_of_run hi hrun) hstep

/-! ## Nesting -/

/-- The timer and a line of the second controller. -/
def timerAndDisk : Interrupts :=
  match registerVectors [0x20, 0x2e] with
  | .ok i => i
  | .error _ => halinit

theorem registerVectors_timerAndDisk : registerVectors [0x20, 0x2e] = .ok timerAndDisk := rfl

/-- A raise to `HIGH_LEVEL` is interrupted between the stores to the two controllers; the disk sets
both masks back to those of `PASSIVE_LEVEL`, and the raise masks the second controller only. -/
def diskInRaise : List (IrqEvent Unit Unit) :=
  [.step (.call (.raised .high)), .step .go, .step .go, .step .go, .step .go, .deliver 0x2e]
    ++ List.replicate 18 (.step .go)

end KaushOS
