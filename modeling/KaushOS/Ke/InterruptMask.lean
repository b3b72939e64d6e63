import KaushOS.Ke.InterruptLevels

/-! # The mask and the IRQL

`HalRaiseIrql` and `HalLowerIrql` begin with the assertion that the kernel's copy of the mask is
the one of the current IRQL. The IRQL is stored behind the mask when it is raised and in front of
it when it is lowered.

* **`IrqMachine.maskLevel`** — the IRQL whose mask the running routine has stored last.
* **`IrqMachine.InStep`** — the copy is the mask of that IRQL, and of the IRQL of every frame that
  something else has been put on.
* **`irql_mask_in_step`** — the assertion holds as long as no vector is delivered between the two
  stores. -/

namespace KaushOS

open Transition CircularList

/-! ## The assertion -/

/-- The assertion about the mask. -/
def maskAssertion : BugCheck := .assertion "Hal8259MaskTable[CurrentIrql] == Pic8259GetMask()"

section Outcomes

variable {ι : Type} [DecidableEq ι] (d : ι) (s : DpcState ι)

/-- The scan of the DPC list does not fail the assertion about the mask. -/
theorem dpcScan_meets (n : UInt16) : Meets (dpcScan d n s) (fun _ => True) (· ≠ maskAssertion) := by
  unfold dpcScan
  split
  · exact (listForeach_meets _ _ _ (by decide) _ _).bind fun _ _ => trivial
  · exact trivial

theorem keInsertQueueDpc_meets (arg1 arg2 : UInt32) :
    Meets (keInsertQueueDpc d arg1 arg2 s) (fun _ => True) (· ≠ maskAssertion) := by
  refine (Meets.assert (by decide)).bind fun _ _ => ?_
  refine (dpcScan_meets d _ _).bind fun found _ => ?_
  cases found with
  | true => exact trivial
  | false =>
    refine Meets.bind (P := fun _ => True) ?_ fun _ _ => trivial
    split
    · exact listInsertHead_meets _ _ _ (by decide) (by decide)
    · exact listInsertTail_meets _ _ _ (by decide) (by decide)

theorem keRemoveQueueDpc_meets :
    Meets (keRemoveQueueDpc d s) (fun _ => True) (· ≠ maskAssertion) := by
  refine (Meets.assert (by decide)).bind fun _ _ => ?_
  refine (dpcScan_meets d _ _).bind fun found _ => ?_
  cases found with
  | true => exact (listRemove_meets _ _ _ (by decide)).bind fun _ _ => trivial
  | false => exact trivial

theorem kiDequeueDpc_meets :
    Meets (kiDequeueDpc s) (fun _ => True) (· ≠ maskAssertion) := by
  refine Meets.bind (P := fun _ => True) ?_ fun _ _ => trivial
  unfold listRemoveHead
  split
  · exact trivial
  · exact (listRemove_meets _ _ _ (by decide)).bind fun _ _ => trivial

end Outcomes

/-! ## The IRQL whose mask is stored -/

variable {θ δ : Type}

/-- The IRQL whose mask is in `Pic8259Mask` when these steps go on at `irql`, if no vector has been
delivered between the stores of the mask and of the IRQL. -/
def codeMaskLevel (irql : Nat) : List (IrqOp δ) → Nat
  | .raiseMask .master _ target :: _ => target.level
  | .raiseMask .slave _ target :: _ => target.level
  | .raiseStore _ target :: _ => target.level
  | .lowerCheck c _ :: _ => c
  | .lowerMask .copy c _ :: _ => c
  | _ => irql

/-- The same for the top one of some frames. -/
def stackMaskLevel (irql : Nat) : List (IrqFrame δ) → Nat
  | [] => irql
  | f :: _ => codeMaskLevel irql f.code

/-- The same for the machine. -/
def IrqMachine.maskLevel (m : IrqMachine θ δ) : Nat :=
  stackMaskLevel m.processor.CurrentIrql m.stack

/-- **What the condition says.** When a vector is delivered, the mask that the running routine has
stored last is the one of the current IRQL. -/
def DeliveredInStep (i : Interrupts) (l : IrqEvent θ δ × IrqMachine θ δ) : Prop :=
  ∀ v, l.1 = .deliver v →
    i.Hal8259MaskTable l.2.maskLevel = i.Hal8259MaskTable l.2.processor.CurrentIrql

/-- Every frame has been left where mask and IRQL agree. -/
def StackInStep (i : Interrupts) : Nat → List (IrqFrame δ) → Prop
  | _, [] => True
  | irql, f :: rest =>
    i.Hal8259MaskTable (stackMaskLevel irql (f :: rest)) = i.Hal8259MaskTable irql
      ∧ StackInStep i f.entry rest

/-- **The mask is in step**: the copy is the mask of `maskLevel`, and below the top frame and in
all other threads mask and IRQL agree. -/
structure IrqMachine.InStep (i : Interrupts) (m : IrqMachine θ δ) : Prop where
  copy : m.processor.Pic8259Mask = i.Hal8259MaskTable m.maskLevel
  below : ∀ f rest, m.stack = f :: rest → StackInStep i f.entry rest
  suspended : ∀ t, StackInStep i DISPATCH_LEVEL (m.suspended t)

variable {i : Interrupts} {f : IrqFrame δ} {rest : List (IrqFrame δ)} {irql : Nat}

theorem StackInStep.top {stack : List (IrqFrame δ)} (h : StackInStep i irql stack) :
    i.Hal8259MaskTable (stackMaskLevel irql stack) = i.Hal8259MaskTable irql := by
  cases stack with
  | nil => rfl
  | cons f rest => exact h.1

/-- The point of a frame says whose mask is stored. -/
theorem Levels.mask_eq {entry : Nat} {p : IrqPoint} {code : List (IrqOp δ)}
    (h : Levels i entry p code) : p.mask = codeMaskLevel p.irql code := by
  cases code with
  | nil => exact h
  | cons op code =>
    have hfits := h.1
    cases op with
    | raiseMask store c target =>
      cases store with
      | copy => exact hfits.1
      | master => exact hfits.1
      | slave => exact hfits.1
    | lowerMask store c old =>
      cases store with
      | copy => exact hfits.1
      | master => exact hfits.1
      | slave => exact hfits.1
    | work => exact hfits
    | _ => exact hfits.1

/-! ## What keeps the mask in step -/

variable {m m' : IrqMachine θ δ} {op : IrqOp δ} {code : List (IrqOp δ)} {checked : Bool}

/-- **Frame rule.** The top frame goes on with other steps from a point whose mask is stored. -/
theorem IrqMachine.InStep.go (h : m.InStep i) (hstack : m.stack = f :: rest)
    {processor : Processor} {old : Nat} {q : IrqPoint} (hq : q.irql = processor.CurrentIrql)
    (hlevels : Levels i f.entry q code)
    (hcopy : processor.Pic8259Mask = i.Hal8259MaskTable q.mask) :
    (m.next { f with OldIrql := old } code rest processor).InStep i := by
  refine ⟨?_, ?_, h.suspended⟩
  · show processor.Pic8259Mask = i.Hal8259MaskTable (codeMaskLevel processor.CurrentIrql code)
    rw [hcopy, hlevels.mask_eq, hq]
  · intro f' rest' hcons
    cases hcons
    exact h.below f rest hstack

/-- The frames with the top one are in step where mask and IRQL agree. -/
theorem IrqMachine.InStep.all (h : m.InStep i) (hlevel : i.Hal8259MaskTable m.maskLevel
    = i.Hal8259MaskTable m.processor.CurrentIrql) :
    StackInStep i m.processor.CurrentIrql m.stack := by
  cases hstack : m.stack with
  | nil => exact trivial
  | cons f rest =>
    refine ⟨?_, h.below f rest hstack⟩
    rw [← hstack]
    exact hlevel

variable [DecidableEq θ] [DecidableEq δ]

/-- **A step of the running routine keeps the mask in step.** -/
theorem IrqMachine.InStep.step {choice : IrqChoice θ δ} (hm : m.Ordered i) (h : m.InStep i)
    (hstep : m.step checked i choice = .ok m') : m'.InStep i := by
  obtain rfl | ⟨f, rest, op, code, hstack, hcode, hdid⟩ := IrqMachine.step_cases hstep
  · exact h
  obtain ⟨p, hp, hold, hentry, hfits, hleads, hlevels⟩ := hm.next_op hstack hcode
  -- the mask that is stored now, as the point says
  have hcopy : m.processor.Pic8259Mask = i.Hal8259MaskTable p.mask := by
    have hall : Levels i f.entry p (op :: code) := ⟨hfits, hleads, hlevels⟩
    rw [h.copy, hall.mask_eq, IrqMachine.maskLevel, hstack, stackMaskLevel, hcode, hp]
  cases hdid with
  | skip hskips =>
    refine h.go hstack (q := ⟨p.irql, p.mask, false⟩) hp ?_ hcopy
    cases op <;> first | exact hlevels | exact hskips.elim
  | @call _ routine hop hcheck =>
    have hmask : p.mask = p.irql := by
      rcases hop with rfl | ⟨v, d, arg1, arg2, rfl, -⟩
      · exact hfits
      · exact hfits.1
    have hlevel : codeMaskLevel m.processor.CurrentIrql routine.code
        = m.processor.CurrentIrql := by
      cases routine <;> rfl
    refine ⟨?_, ?_, h.suspended⟩
    · show m.processor.Pic8259Mask = i.Hal8259MaskTable (codeMaskLevel _ routine.code)
      rw [hlevel, hcopy, hmask, hp]
    · intro f' rest' hcons
      cases hcons
      refine h.all ?_
      rw [← h.copy, hcopy, hmask, hp]
  | release v =>
    have hgo : (m.next f code rest m.processor).InStep i :=
      h.go hstack (q := ⟨p.irql, p.mask, false⟩) hp hlevels hcopy
    exact ⟨hgo.copy, hgo.below, hgo.suspended⟩
  | leave hop =>
    have hfit : p.mask = p.irql ∧ p.irql = f.entry := by
      rcases hop with rfl | rfl
      · exact hfits
      · exact hfits
    have hbelow := h.below f rest hstack
    have hcur : m.processor.CurrentIrql = f.entry := hp.symm.trans hfit.2
    refine ⟨?_, ?_, h.suspended⟩
    · show m.processor.Pic8259Mask
        = i.Hal8259MaskTable (stackMaskLevel m.processor.CurrentIrql rest)
      rw [hcur, hbelow.top, hcopy, hfit.1, hfit.2]
    · intro g rest' hcons
      have hrest : rest = g :: rest' := hcons
      rw [hrest] at hbelow
      exact hbelow.2
  | @raise target hle =>
    obtain ⟨hmask, -, -⟩ := hfits
    refine h.go hstack (q := .at m.processor.CurrentIrql) rfl
      (levels_raiseCode hle hleads hlevels) ?_
    rw [hcopy, hmask, hp]
    rfl
  | raiseMask store c target =>
    cases store with
    | copy => exact h.go hstack (q := ⟨p.irql, target.level, false⟩) hp hlevels rfl
    | master => exact h.go hstack (q := ⟨p.irql, p.mask, false⟩) hp hlevels hcopy
    | slave => exact h.go hstack (q := ⟨p.irql, p.mask, false⟩) hp hlevels hcopy
  | raiseStore c target =>
    obtain ⟨hmask, -, -⟩ := hfits
    refine h.go hstack (q := .at target.level) rfl hlevels ?_
    rw [← hmask] at *
    exact hcopy
  | lower hle =>
    have hmask := hfits.1
    refine h.go hstack (q := .at m.processor.CurrentIrql) rfl ?_ ?_
    · rw [hold]
      exact levels_lowerCode (hp ▸ hentry) hleads hlevels
    · rw [hcopy, hmask, hp]
      rfl
  | lowerStore c old =>
    obtain ⟨hmask, hirql, -⟩ := hfits
    refine h.go hstack (q := ⟨old, c, false⟩) rfl hlevels ?_
    rw [← hirql, ← hmask]
    exact hcopy
  | lowerMask store c old =>
    cases store with
    | copy =>
      obtain ⟨-, rfl⟩ := hfits
      exact h.go hstack (q := .at p.irql) hp hlevels rfl
    | master => exact h.go hstack (q := ⟨p.irql, p.mask, false⟩) hp hlevels hcopy
    | slave => exact h.go hstack (q := ⟨p.irql, p.mask, false⟩) hp hlevels hcopy
  | drained _ => exact h.go hstack (q := ⟨p.irql, p.mask, true⟩) hp hlevels hcopy
  | pending _ =>
    obtain ⟨hmask, hirql, -⟩ := hfits
    refine ⟨?_, ?_, h.suspended⟩
    · show m.processor.Pic8259Mask = i.Hal8259MaskTable m.processor.CurrentIrql
      rw [hcopy, hmask, hp]
    · intro g rest' hcons
      cases hcons
      exact ⟨rfl, h.below f rest hstack⟩
  | take hop _ =>
    have hgo : (m.next f code rest m.processor).InStep i := by
      refine h.go hstack (q := ⟨p.irql, p.mask, false⟩) hp ?_ hcopy
      rcases hop with rfl | ⟨d, rfl⟩
      · exact hlevels
      · exact hlevels
    exact ⟨hgo.copy, hgo.below, hgo.suspended⟩
  | insert d arg1 arg2 dpcs =>
    have hgo : (m.next f code rest m.processor).InStep i :=
      h.go hstack (q := ⟨p.irql, p.mask, false⟩) hp hlevels hcopy
    exact ⟨hgo.copy, hgo.below, hgo.suspended⟩
  | switchTo t =>
    obtain ⟨hmask, hirql⟩ := hfits
    have hcur : m.processor.CurrentIrql = DISPATCH_LEVEL := hp.symm.trans hirql
    have hself : StackInStep i DISPATCH_LEVEL ({ f with code := code } :: rest) := by
      refine ⟨?_, h.below f rest hstack⟩
      have hlevel := hlevels.mask_eq
      show i.Hal8259MaskTable (codeMaskLevel DISPATCH_LEVEL code) = _
      rw [← hirql]
      exact congrArg _ (hlevel.symm.trans hmask)
    have hall : ∀ u, StackInStep i DISPATCH_LEVEL
        (Function.update m.suspended m.current ({ f with code := code } :: rest) u) :=
      (Function.forall_update_iff _ fun _ => StackInStep i DISPATCH_LEVEL).mpr ⟨hself, fun u _ => h.suspended u⟩
    refine ⟨?_, ?_, hall⟩
    · show m.processor.Pic8259Mask = i.Hal8259MaskTable (stackMaskLevel m.processor.CurrentIrql _)
      rw [hcur, (hall t).top, hcopy, hmask, hirql]
    · intro g rest' hcons
      have ht := hall t
      rw [show Function.update m.suspended m.current ({ f with code := code } :: rest) t
        = g :: rest' from hcons] at ht
      exact ht.2

omit [DecidableEq δ] in
/-- **A delivery keeps the mask in step** if it comes where mask and IRQL agree. -/
theorem IrqMachine.InStep.deliver {v : Nat} (h : m.InStep i)
    (hlevel : i.Hal8259MaskTable m.maskLevel = i.Hal8259MaskTable m.processor.CurrentIrql)
    (hdeliver : m.deliver checked i v = .ok m') : m'.InStep i := by
  obtain ⟨irql, -, -, -, -, rfl⟩ := IrqMachine.deliver_spec hdeliver
  refine ⟨?_, ?_, h.suspended⟩
  · show Processor.Pic8259Mask _ = i.Hal8259MaskTable (Processor.CurrentIrql _)
    by_cases hne : irql ≠ m.processor.CurrentIrql
    · rw [if_pos hne]
      rfl
    · rw [if_neg hne, h.copy, hlevel]
  · intro g rest hcons
    cases hcons
    exact h.all hlevel

omit [DecidableEq θ] [DecidableEq δ] in
/-- The start is in step. -/
theorem IrqMachine.Start.inStep (h : m.Start i) : m.InStep i := by
  obtain ⟨p, hp⟩ := h.processor
  refine ⟨?_, ?_, fun t => ?_⟩
  · rw [IrqMachine.maskLevel, h.stack, hp]
    rfl
  · intro g rest hcons
    rw [h.stack] at hcons
    cases hcons
    exact trivial
  · rw [h.suspended t]
    exact ⟨rfl, trivial⟩

/-- **In every state reached by deliveries where mask and IRQL agree, the mask is in step.** -/
theorem IrqMachine.inStep_of_run (hi : i.Valid) {t : List (IrqEvent θ δ × IrqMachine θ δ)}
    (h : (irqSystem θ δ checked i).Run t m) (hkeeps : ∀ l ∈ t, DeliveredInStep i l) :
    m.InStep i := by
  revert hkeeps
  refine h.invariant (I := fun t m => (∀ l ∈ t, DeliveredInStep i l) → m.InStep i)
    (fun m hm _ => hm.inStep) ?_
  rintro t m ⟨e, _⟩ m' hrun hm ⟨rfl, hen, hstep⟩ hall
  have hinv := hm fun l hl => hall l (List.mem_cons_of_mem _ hl)
  have hlast := hall _ List.mem_cons_self
  cases e with
  | deliver v => exact hinv.deliver (hlast v rfl) hstep
  | step choice => exact hinv.step (IrqMachine.ordered_of_run hi hrun) hstep

/-! ## The assertion holds -/

/-- **A step of the running routine does not fail the assertion.** -/
theorem IrqMachine.InStep.step_meets (hm : m.Ordered i) (h : m.InStep i)
    (choice : IrqChoice θ δ) :
    Meets (m.step checked i choice) (fun _ => True) (· ≠ maskAssertion) := by
  unfold IrqMachine.step
  cases hstack : m.stack with
  | nil => exact trivial
  | cons f rest =>
    cases hcode : f.code with
    | nil =>
      simp only [hcode]
      exact trivial
    | cons op code =>
      simp only [hcode]
      obtain ⟨p, hp, -, -, hfits, hleads, hlevels⟩ := hm.next_op hstack hcode
      have hcopy : m.processor.Pic8259Mask = i.Hal8259MaskTable p.mask := by
        have hall : Levels i f.entry p (op :: code) := ⟨hfits, hleads, hlevels⟩
        rw [h.copy, hall.mask_eq, IrqMachine.maskLevel, hstack, stackMaskLevel, hcode, hp]
      cases op with
      | work =>
        cases choice with
        | call routine =>
          refine Meets.bind (P := fun _ => True) ?_ fun _ _ => trivial
          cases routine with
          | raised target => cases target <;> exact (Meets.assert (by decide)).mono fun _ _ => trivial
          | _ => exact (Meets.assert (by decide)).mono fun _ _ => trivial
        | _ => exact trivial
      | isr v =>
        cases choice with
        | call routine =>
          cases routine with
          | insertQueueDpc d arg1 arg2 =>
            exact (Meets.assert (by decide)).bind fun _ _ => trivial
          | _ => exact trivial
        | _ => exact trivial
      | releaseIsr v =>
        refine (Meets.assert (by decide)).bind fun _ _ => ?_
        exact (Meets.assert (by decide)).bind fun _ _ => trivial
      | raise target => exact (Meets.assert (by decide)).bind fun _ _ => trivial
      | raiseCheck c target =>
        obtain ⟨hmask, hirql, -⟩ := hfits
        have hok : halCheckMask checked i.Hal8259MaskTable c m.processor = .ok () :=
          halCheckMask_ok checked (by rw [hcopy, hmask, hirql])
        show Meets (halCheckMask checked i.Hal8259MaskTable c m.processor >>= _) _ _
        rw [hok]
        exact trivial
      | lower => exact (Meets.assert (by decide)).bind fun _ _ => trivial
      | lowerCheck c old =>
        obtain ⟨hmask, -⟩ := hfits
        have hok : halCheckMask checked i.Hal8259MaskTable c m.processor = .ok () :=
          halCheckMask_ok checked (by rw [hcopy, hmask])
        show Meets (halCheckMask checked i.Hal8259MaskTable c m.processor >>= _) _ _
        rw [hok]
        exact trivial
      | checkDispatch => exact (Meets.assert (by decide)).bind fun _ _ => trivial
      | testDpcQueue => exact Meets.ite (fun _ => trivial) fun _ => trivial
      | dequeueDpc =>
        refine (Meets.assert (by decide)).bind fun _ _ => ?_
        exact (kiDequeueDpc_meets _).bind fun _ _ => trivial
      | insertDpc d arg1 arg2 => exact (keInsertQueueDpc_meets _ _ _ _).bind fun _ _ => trivial
      | removeDpc d => exact (keRemoveQueueDpc_meets _ _).bind fun _ _ => trivial
      | swap => cases choice <;> exact trivial
      | _ => exact trivial

omit [DecidableEq δ] in
/-- A delivery where mask and IRQL agree does not fail the assertion. -/
theorem IrqMachine.InStep.deliver_meets (h : m.InStep i) (v : Nat)
    (hlevel : i.Hal8259MaskTable m.maskLevel = i.Hal8259MaskTable m.processor.CurrentIrql) :
    Meets (m.deliver checked i v) (fun _ => True) (· ≠ maskAssertion) := by
  have hok : halCheckMask checked i.Hal8259MaskTable m.processor.CurrentIrql m.processor = .ok () :=
    halCheckMask_ok checked (h.copy.trans hlevel)
  refine (Meets.deref (by decide)).bind fun irql _ => ?_
  refine Meets.bind (P := fun _ => True) ?_ fun _ _ => ?_
  · refine (Meets.assert (by decide)).bind fun _ _ => ?_
    refine (Meets.assert (by decide)).bind fun _ _ => ?_
    refine Meets.ite (fun _ => ?_) fun _ => trivial
    rw [hok]
    exact trivial
  · refine (Meets.assert (by decide)).bind fun _ _ => ?_
    exact (Meets.assert (by decide)).bind fun _ _ => trivial

omit [DecidableEq δ] in
/-- A delivery between the stores fails it. -/
theorem IrqMachine.InStep.deliver_error (hi : i.Valid) (h : m.InStep i) {v irql : Nat}
    (hv : IRQ_START ≤ v) (hline : v - IRQ_START < 16) (hirql : i.Irql v = some irql)
    (habove : m.processor.CurrentIrql < irql)
    (hlevel : i.Hal8259MaskTable m.maskLevel ≠ i.Hal8259MaskTable m.processor.CurrentIrql) :
    m.deliver true i v = .error maskAssertion := by
  have hvector : IRQ_START + (v - IRQ_START) = v := by omega
  have hlevel28 : irql = 28 - (v - IRQ_START) := hi.irql _ _ hline (hvector.symm ▸ hirql)
  have hthree : irql ≠ 3 := by omega
  have hne : ¬ i.Hal8259MaskTable m.processor.CurrentIrql = m.processor.Pic8259Mask := by
    rw [h.copy]
    exact Ne.symm hlevel
  have hraise : keRaiseIrql true i.Hal8259MaskTable irql m.processor = .error maskAssertion := by
    rw [keRaiseIrql, assert_of_true habove.le, kernel_ok_bind, assert_of_true hthree,
      kernel_ok_bind, if_pos habove.ne', halCheckMask, if_pos rfl, assert_of_not hne]
    rfl
  rw [IrqMachine.deliver, hirql, deref_some, kernel_ok_bind, hraise]
  rfl

/-- The keyboard interrupts a thread, and its lowering comes to the point where `DISPATCH_LEVEL`
is stored and the mask is not. -/
def keyboardLowers : List (IrqEvent Unit Unit) :=
  [.deliver 0x21, .step .go, .step .go, .step .go, .step .go]

end KaushOS
