import KaushOS.Ke.InterruptRuns

/-! # The IRQL at every step of every frame

The IRQL at which a step of a frame is done can be read off the frame: a raise goes up to its
target, a lowering comes back to the IRQL at which the routine was entered, and whatever is put on
top of a frame leaves with the IRQL it was entered with.

* **`IrqPoint`**, **`Levels`** — the IRQL in front of each step of a frame, and the IRQL whose mask
  the kernel has stored last.
* **`IrqStep`** — what one step of the running routine does, by the kind of the step.
* **`IrqMachine.Ordered`** — the frames of every thread fit together; every event keeps this. -/

namespace KaushOS

open Transition

variable {θ δ : Type}

/-! ## Points of a routine -/

/-- **A point of a routine**: the IRQL, the IRQL whose mask is in `Pic8259Mask` if no vector has
been delivered in between, and whether the DPC list has just been found empty. -/
structure IrqPoint where
  irql : Nat
  mask : Nat
  tested : Bool

/-- A point at which IRQL and mask agree. -/
def IrqPoint.at (irql : Nat) : IrqPoint := ⟨irql, irql, false⟩

/-- The vector whose routine the step runs. -/
def IrqOp.serves : IrqOp δ → Option Nat
  | .isr v => some v
  | _ => none

/-- Which steps may stand directly behind `op`. -/
def IrqOp.Leads (op : IrqOp δ) : List (IrqOp δ) → Prop
  | .isr _ :: _ => False
  | .releaseIsr v :: _ => op = .isr v
  | .raiseMask .slave c target :: _ => op = .raiseMask .master c target
  | .raiseStore c target :: _ => op = .raiseMask .slave c target
  | _ => op.serves = none

/-- Where a step may stand. -/
def IrqOp.Fits (i : Interrupts) (entry : Nat) (p : IrqPoint) : IrqOp δ → Prop
  | .work => p.mask = p.irql
  | .isr v => p.mask = p.irql ∧ i.Irql v = some p.irql ∧ DISPATCH_LEVEL < p.irql
  | .releaseIsr v => p.mask = p.irql ∧ i.Irql v = some p.irql ∧ DISPATCH_LEVEL < p.irql
  | .iret => p.mask = p.irql ∧ p.irql = entry
  | .ret => p.mask = p.irql ∧ p.irql = entry
  | .raise target => p.mask = p.irql ∧ p.irql = entry ∧ p.irql ≤ target.level
  | .raiseCheck c target => p.mask = p.irql ∧ p.irql = c ∧ c < target.level
  | .raiseMask .copy c target => p.mask = p.irql ∧ p.irql = c ∧ c < target.level
  | .raiseMask _ c target => p.mask = target.level ∧ p.irql = c ∧ c < target.level
  | .raiseStore c target => p.mask = target.level ∧ p.irql = c ∧ c < target.level
  | .lower => p.mask = p.irql ∧ entry ≤ p.irql
  | .lowerStore c old => p.mask = p.irql ∧ p.irql = c ∧ old ≤ c ∧ entry ≤ old
      ∧ (old < DISPATCH_LEVEL → DISPATCH_LEVEL ≤ c → p.tested = true)
  | .lowerCheck c old => p.mask = c ∧ p.irql = old
  | .lowerMask .copy c old => p.mask = c ∧ p.irql = old
  | .lowerMask _ _ old => p.mask = p.irql ∧ p.irql = old
  | .checkDispatch => p.mask = p.irql ∧ p.irql = DISPATCH_LEVEL
  | .testDpcQueue => p.mask = p.irql ∧ p.irql = DISPATCH_LEVEL ∧ entry < DISPATCH_LEVEL
  | .dequeueDpc => p.mask = p.irql ∧ p.irql = HIGH_LEVEL
  | .insertDpc .. => p.mask = p.irql ∧ p.irql = HIGH_LEVEL
  | .removeDpc _ => p.mask = p.irql ∧ p.irql = HIGH_LEVEL
  | .swap => p.mask = p.irql ∧ p.irql = DISPATCH_LEVEL

/-- The point behind a step, and behind all that it leads to. -/
def IrqOp.after (entry : Nat) (p : IrqPoint) : IrqOp δ → IrqPoint
  | .raise target => .at target.level
  | .raiseMask .copy _ target => ⟨p.irql, target.level, false⟩
  | .raiseStore _ target => .at target.level
  | .lower => .at entry
  | .lowerStore c old => ⟨old, c, false⟩
  | .lowerMask .copy _ old => .at old
  | .testDpcQueue => ⟨p.irql, p.mask, true⟩
  | _ => ⟨p.irql, p.mask, false⟩

/-- **The steps of a frame stand where they may**, from the point `p` on. -/
def Levels (i : Interrupts) (entry : Nat) : IrqPoint → List (IrqOp δ) → Prop
  | p, [] => p.mask = p.irql
  | p, op :: code => op.Fits i entry p ∧ op.Leads code ∧ Levels i entry (op.after entry p) code

/-- A frame at a point. -/
structure FrameAt (i : Interrupts) (p : IrqPoint) (f : IrqFrame δ) : Prop where
  old : f.OldIrql = f.entry
  entry : f.entry ≤ p.irql
  levels : Levels i f.entry p f.code

/-- **The frames fit on top of each other**: each one has been entered at the IRQL at which the one
below goes on. -/
def StackAt (i : Interrupts) : Nat → List (IrqFrame δ) → Prop
  | _, [] => True
  | irql, f :: rest => (∃ p, p.irql = irql ∧ FrameAt i p f) ∧ StackAt i f.entry rest

/-- **The frames of all threads fit.** -/
structure IrqMachine.Ordered (i : Interrupts) (m : IrqMachine θ δ) : Prop where
  irql : m.processor.CurrentIrql ≤ HIGH_LEVEL
  stack : StackAt i m.processor.CurrentIrql m.stack
  suspended : ∀ t, StackAt i DISPATCH_LEVEL (m.suspended t)

theorem RaiseTo.level_le (target : RaiseTo) : target.level ≤ HIGH_LEVEL := by
  cases target <;> decide

/-! ## The longer routines -/

section Codes

variable {i : Interrupts} {entry c : Nat} {p : IrqPoint} {code : List (IrqOp δ)}

/-- What may stand behind a step that is not part of a longer sequence may stand behind others. -/
theorem IrqOp.Leads.of_raise_or_lower {op op' : IrqOp δ} (h : op.Leads code)
    (hop : op = .lower ∨ ∃ target, op = .raise target) (hop' : op'.serves = none) :
    op'.Leads code := by
  have hisr : ∀ v, op ≠ .isr v := by
    rintro v rfl
    rcases hop with hop | ⟨_, hop⟩ <;> cases hop
  have hmask : ∀ store c target, op ≠ .raiseMask store c target := by
    rintro store c target rfl
    rcases hop with hop | ⟨_, hop⟩ <;> cases hop
  unfold IrqOp.Leads at h ⊢
  split at h
  · exact h
  · exact absurd h (hisr _)
  · exact absurd h (hmask _ _ _)
  · exact absurd h (hmask _ _ _)
  · exact hop'

/-- The steps of a raise lead to its target. -/
theorem levels_raiseCode {target : RaiseTo} (hc : c ≤ target.level)
    (hcode : (IrqOp.raise target).Leads code) (h : Levels i entry (.at target.level) code) :
    Levels i entry (.at c) (raiseCode c target ++ code) := by
  unfold raiseCode
  split
  · rename_i hne
    have hlt : c < target.level := by omega
    have hlast : (IrqOp.raiseStore c target).Leads code :=
      hcode.of_raise_or_lower (Or.inr ⟨target, rfl⟩) rfl
    exact ⟨⟨rfl, rfl, hlt⟩, rfl, ⟨rfl, rfl, hlt⟩, rfl, ⟨rfl, rfl, hlt⟩, rfl, ⟨rfl, rfl, hlt⟩, rfl,
      ⟨rfl, rfl, hlt⟩, hlast, h⟩
  · rename_i heq
    rw [← not_not.mp heq]
    exact h

/-- The last part of a lowering, where it needs no test of the DPC list in front. -/
theorem levels_lowerTail {tested : Bool} {old : Nat} (hold : old ≤ c) (hentry : entry ≤ old)
    (htested : old < DISPATCH_LEVEL → DISPATCH_LEVEL ≤ c → tested = true)
    (hsame : old = c → tested = false) (hcode : (IrqOp.lower : IrqOp δ).Leads code)
    (h : Levels i entry (.at old) code) :
    Levels i entry ⟨c, c, tested⟩ (lowerTail c old ++ code) := by
  unfold lowerTail
  split
  · have hlast : (IrqOp.lowerMask .slave c old : IrqOp δ).Leads code :=
      hcode.of_raise_or_lower (Or.inl rfl) rfl
    exact ⟨⟨rfl, rfl, hold, hentry, htested⟩, rfl, ⟨rfl, rfl⟩, rfl, ⟨rfl, rfl⟩, rfl, ⟨rfl, rfl⟩,
      rfl, ⟨rfl, rfl⟩, hlast, h⟩
  · rename_i heq
    have hold' : old = c := not_not.mp heq
    subst hold'
    rw [hsame rfl]
    exact h

/-- The steps of a lowering lead back to the IRQL at the entry. -/
theorem levels_lowerCode (hc : entry ≤ c) (hcode : (IrqOp.lower : IrqOp δ).Leads code)
    (h : Levels i entry (.at entry) code) :
    Levels i entry (.at c) (lowerCode c entry ++ code) := by
  unfold lowerCode
  split
  · rename_i hdrain
    obtain ⟨hlow, hhigh⟩ := hdrain
    have hnot : DISPATCH_LEVEL < DISPATCH_LEVEL → DISPATCH_LEVEL ≤ c → false = true :=
      fun hlt => absurd hlt (lt_irrefl _)
    have htail : lowerTail DISPATCH_LEVEL entry ++ code
        = .lowerStore DISPATCH_LEVEL entry :: ((lowerTail DISPATCH_LEVEL entry).tail ++ code) := by
      rw [lowerTail, if_pos hlow.ne]
      rfl
    refine ⟨⟨rfl, rfl, hhigh, hlow.le, hnot⟩, rfl, ⟨rfl, rfl⟩, rfl, ⟨rfl, rfl⟩, rfl, ⟨rfl, rfl⟩, rfl,
      ⟨rfl, rfl⟩, rfl, ⟨rfl, rfl⟩, rfl, ⟨rfl, rfl, hlow⟩, ?_, ?_⟩
    · show IrqOp.Leads _ (lowerTail DISPATCH_LEVEL entry ++ code)
      rw [htail]
      rfl
    · exact levels_lowerTail hlow.le le_rfl (fun _ _ => rfl) (fun heq => absurd heq hlow.ne) hcode h
  · rename_i hdrain
    exact levels_lowerTail hc le_rfl (fun hlow hhigh => absurd ⟨hlow, hhigh⟩ hdrain)
      (fun _ => rfl) hcode h

/-- Every routine begins and ends at the IRQL of its caller. -/
theorem levels_call {routine : IrqCall δ} {irql : Nat} (hirql : irql ≤ HIGH_LEVEL)
    (hcheck : routine.check irql = .ok ()) : Levels i irql (.at irql) routine.code := by
  have hwork : ∀ target : RaiseTo, irql ≤ target.level →
      Levels i irql (.at irql) ([.raise target, .work, .lower, .ret] : List (IrqOp δ)) :=
    fun target hle => ⟨⟨rfl, rfl, hle⟩, rfl, rfl, rfl, ⟨rfl, hle⟩, rfl, ⟨rfl, rfl⟩, rfl, rfl⟩
  cases routine with
  | raised target =>
    cases target with
    | dispatch => exact hwork .dispatch (assert_eq_ok.mp hcheck)
    | high => exact hwork .high hirql
  | insertQueueDpc d arg1 arg2 =>
    exact ⟨⟨rfl, rfl, hirql⟩, rfl, ⟨rfl, rfl⟩, rfl, ⟨rfl, hirql⟩, rfl, ⟨rfl, rfl⟩, rfl, rfl⟩
  | removeQueueDpc d =>
    exact ⟨⟨rfl, rfl, hirql⟩, rfl, ⟨rfl, rfl⟩, rfl, ⟨rfl, hirql⟩, rfl, ⟨rfl, rfl⟩, rfl, rfl⟩
  | schedule =>
    have hle : irql ≤ DISPATCH_LEVEL := assert_eq_ok.mp hcheck
    exact ⟨⟨rfl, rfl, hle⟩, rfl, ⟨rfl, rfl⟩, rfl, ⟨rfl, hle⟩, rfl, ⟨rfl, rfl⟩, rfl, rfl⟩

end Codes

/-! ## What one step does -/

variable [DecidableEq θ] [DecidableEq δ]

/-- Steps after which the routine just goes on. -/
def IrqOp.Skips : IrqOp δ → Prop
  | .work | .isr _ | .raiseCheck .. | .lowerCheck .. | .checkDispatch | .swap => True
  | _ => False

/-- **What a step does** when frame `f` is on top of `rest`, `code` being the steps behind it. -/
inductive IrqStep (i : Interrupts) (m : IrqMachine θ δ) (f : IrqFrame δ) (rest : List (IrqFrame δ))
    (code : List (IrqOp δ)) : IrqOp δ → IrqMachine θ δ → Prop
  | skip {op : IrqOp δ} (h : op.Skips) : IrqStep i m f rest code op (m.next f code rest m.processor)
  | call {op : IrqOp δ} {routine : IrqCall δ}
      (h : op = .work ∨ ∃ v d arg1 arg2, op = .isr v ∧ routine = .insertQueueDpc d arg1 arg2)
      (hcheck : routine.check m.processor.CurrentIrql = .ok ()) :
      IrqStep i m f rest code op { m with
        stack := ⟨routine.code, m.processor.CurrentIrql, m.processor.CurrentIrql⟩ :: m.stack }
  | release (v : Nat) : IrqStep i m f rest code (.releaseIsr v)
      { m.next f code rest m.processor with
        ISR_Spinlock := Function.update m.ISR_Spinlock v none }
  | leave {op : IrqOp δ} (h : op = .iret ∨ op = .ret) :
      IrqStep i m f rest code op { m with stack := rest }
  | raise {target : RaiseTo} (h : m.processor.CurrentIrql ≤ target.level) :
      IrqStep i m f rest code (.raise target)
        (m.next { f with OldIrql := m.processor.CurrentIrql }
          (raiseCode m.processor.CurrentIrql target ++ code) rest m.processor)
  | raiseMask (store : MaskStore) (c : Nat) (target : RaiseTo) :
      IrqStep i m f rest code (.raiseMask store c target)
        (m.next f code rest (m.processor.storeMask store (i.Hal8259MaskTable target.level)))
  | raiseStore (c : Nat) (target : RaiseTo) : IrqStep i m f rest code (.raiseStore c target)
      (m.next f code rest (kiSetCurrentIrql target.level m.processor))
  | lower (h : f.OldIrql ≤ m.processor.CurrentIrql) : IrqStep i m f rest code .lower
      (m.next f (lowerCode m.processor.CurrentIrql f.OldIrql ++ code) rest m.processor)
  | lowerStore (c old : Nat) : IrqStep i m f rest code (.lowerStore c old)
      (m.next f code rest (kiSetCurrentIrql old m.processor))
  | lowerMask (store : MaskStore) (c old : Nat) : IrqStep i m f rest code (.lowerMask store c old)
      (m.next f code rest (m.processor.storeMask store (i.Hal8259MaskTable old)))
  | drained (h : m.noDpc = true) : IrqStep i m f rest code .testDpcQueue
      (m.next f code rest m.processor)
  | pending (h : m.noDpc = false) : IrqStep i m f rest code .testDpcQueue { m with
      stack := ⟨[.raise .high, .dequeueDpc, .lower, .ret], m.processor.CurrentIrql,
          m.processor.CurrentIrql⟩
        :: { f with code := .checkDispatch :: .work :: .testDpcQueue :: code } :: rest }
  | take {op : IrqOp δ} {dpcs : DpcState δ} (hop : op = .dequeueDpc ∨ ∃ d, op = .removeDpc d)
      (h : m.noDpc = true → listEmpty (dpcs.DpcListHead keGetCurrentProcessorNumber) = true) :
      IrqStep i m f rest code op { m.next f code rest m.processor with dpcs := dpcs }
  | insert (d : δ) (arg1 arg2 : UInt32) (dpcs : DpcState δ) :
      IrqStep i m f rest code (.insertDpc d arg1 arg2)
        { m.next f code rest m.processor with dpcs := dpcs }
  | switchTo (t : θ) : IrqStep i m f rest code .swap { m with
      current := t
      stack := Function.update m.suspended m.current ({ f with code := code } :: rest) t
      suspended := Function.update m.suspended m.current ({ f with code := code } :: rest) }

/-- **Every step is one of these.** -/
theorem IrqMachine.step_cases {checked : Bool} {i : Interrupts} {choice : IrqChoice θ δ}
    {m m' : IrqMachine θ δ} (h : m.step checked i choice = .ok m') :
    m' = m ∨ ∃ f rest op code, m.stack = f :: rest ∧ f.code = op :: code
      ∧ IrqStep i m f rest code op m' := by
  cases hstack : m.stack with
  | nil =>
    rw [IrqMachine.step, hstack] at h
    cases h
    exact Or.inl rfl
  | cons f rest =>
    cases hcode : f.code with
    | nil =>
      simp only [IrqMachine.step, hstack, hcode] at h
      cases h
      exact Or.inl rfl
    | cons op code =>
      simp only [IrqMachine.step, hstack, hcode] at h
      refine Or.inr ⟨f, rest, op, code, rfl, hcode, ?_⟩
      cases op with
      | work =>
        cases choice with
        | call routine =>
          obtain ⟨_, hcheck, h⟩ := kernel_bind_eq_ok.mp h
          cases h
          exact .call (Or.inl rfl) hcheck
        | go => cases h; exact .skip trivial
        | switchTo t => cases h; exact .skip trivial
      | isr v =>
        cases choice with
        | call routine =>
          cases routine with
          | insertQueueDpc d arg1 arg2 =>
            obtain ⟨_, hcheck, h⟩ := kernel_bind_eq_ok.mp h
            cases h
            exact .call (Or.inr ⟨v, d, arg1, arg2, rfl, rfl⟩) hcheck
          | raised target => cases h; exact .skip trivial
          | removeQueueDpc d => cases h; exact .skip trivial
          | schedule => cases h; exact .skip trivial
        | go => cases h; exact .skip trivial
        | switchTo t => cases h; exact .skip trivial
      | releaseIsr v =>
        obtain ⟨_, -, h⟩ := kernel_bind_eq_ok.mp h
        obtain ⟨_, -, h⟩ := kernel_bind_eq_ok.mp h
        cases h
        exact .release v
      | iret => cases h; exact .leave (Or.inl rfl)
      | ret => cases h; exact .leave (Or.inr rfl)
      | raise target =>
        obtain ⟨_, hle, h⟩ := kernel_bind_eq_ok.mp h
        cases h
        exact .raise (assert_eq_ok.mp hle)
      | raiseCheck c target =>
        obtain ⟨_, -, h⟩ := kernel_bind_eq_ok.mp h
        cases h
        exact .skip trivial
      | raiseMask store c target => cases h; exact .raiseMask store c target
      | raiseStore c target => cases h; exact .raiseStore c target
      | lower =>
        obtain ⟨_, hle, h⟩ := kernel_bind_eq_ok.mp h
        cases h
        exact .lower (assert_eq_ok.mp hle)
      | lowerStore c old => cases h; exact .lowerStore c old
      | lowerCheck c old =>
        obtain ⟨_, -, h⟩ := kernel_bind_eq_ok.mp h
        cases h
        exact .skip trivial
      | lowerMask store c old => cases h; exact .lowerMask store c old
      | checkDispatch =>
        obtain ⟨_, -, h⟩ := kernel_bind_eq_ok.mp h
        cases h
        exact .skip trivial
      | testDpcQueue =>
        cases hempty : m.noDpc with
        | true =>
          rw [IrqMachine.exec, if_pos hempty] at h
          cases h
          exact .drained hempty
        | false =>
          have hnot : ¬ m.noDpc = true := by simp [hempty]
          rw [IrqMachine.exec, if_neg hnot] at h
          cases h
          exact .pending hempty
      | dequeueDpc =>
        obtain ⟨_, -, h⟩ := kernel_bind_eq_ok.mp h
        obtain ⟨⟨r, dpcs⟩, hdpc, h⟩ := kernel_bind_eq_ok.mp h
        cases h
        exact .take (Or.inl rfl) (kiDequeueDpc_empty hdpc)
      | insertDpc d arg1 arg2 =>
        obtain ⟨⟨r, dpcs⟩, -, h⟩ := kernel_bind_eq_ok.mp h
        cases h
        exact .insert d arg1 arg2 dpcs
      | removeDpc d =>
        obtain ⟨⟨r, dpcs⟩, hdpc, h⟩ := kernel_bind_eq_ok.mp h
        cases h
        exact .take (Or.inr ⟨d, rfl⟩) (keRemoveQueueDpc_empty hdpc)
      | swap =>
        cases choice with
        | switchTo t => cases h; exact .switchTo t
        | go => cases h; exact .skip trivial
        | call routine => cases h; exact .skip trivial

/-! ## Every event keeps the order -/

variable {checked : Bool} {i : Interrupts} {m m' : IrqMachine θ δ} {f : IrqFrame δ}
  {rest : List (IrqFrame δ)} {op : IrqOp δ} {code : List (IrqOp δ)}

omit [DecidableEq θ] [DecidableEq δ] in
/-- A frame is at a point with the processor's IRQL. -/
theorem IrqMachine.Ordered.top (h : m.Ordered i) (hstack : m.stack = f :: rest) :
    (∃ p, p.irql = m.processor.CurrentIrql ∧ FrameAt i p f) ∧ StackAt i f.entry rest := by
  have hs := h.stack
  rw [hstack] at hs
  exact hs

omit [DecidableEq θ] [DecidableEq δ] in
/-- The next step of the top frame stands where it may. -/
theorem IrqMachine.Ordered.next_op (h : m.Ordered i) (hstack : m.stack = f :: rest)
    (hcode : f.code = op :: code) : ∃ p, p.irql = m.processor.CurrentIrql ∧ f.OldIrql = f.entry
      ∧ f.entry ≤ p.irql ∧ op.Fits i f.entry p ∧ op.Leads code
      ∧ Levels i f.entry (op.after f.entry p) code := by
  obtain ⟨⟨p, hp, hframe⟩, -⟩ := h.top hstack
  have hlevels := hframe.levels
  rw [hcode] at hlevels
  exact ⟨p, hp, hframe.old, hframe.entry, hlevels⟩

omit [DecidableEq θ] [DecidableEq δ] in
/-- **Frame rule.** The top frame goes on with other steps, the rest stays. -/
theorem IrqMachine.Ordered.go (h : m.Ordered i) (hstack : m.stack = f :: rest)
    {processor : Processor} {old : Nat} {q : IrqPoint} (hirql : processor.CurrentIrql ≤ HIGH_LEVEL)
    (hq : q.irql = processor.CurrentIrql) (hold : old = f.entry) (hentry : f.entry ≤ q.irql)
    (hlevels : Levels i f.entry q code) :
    (m.next { f with OldIrql := old } code rest processor).Ordered i :=
  ⟨hirql, ⟨⟨q, hq, hold, hentry, hlevels⟩, (h.top hstack).2⟩, h.suspended⟩

omit [DecidableEq θ] [DecidableEq δ] in
/-- A call keeps the order. -/
theorem IrqMachine.Ordered.call (h : m.Ordered i) {routine : IrqCall δ}
    (hcheck : routine.check m.processor.CurrentIrql = .ok ()) :
    ({ m with stack := ⟨routine.code, m.processor.CurrentIrql, m.processor.CurrentIrql⟩
      :: m.stack } : IrqMachine θ δ).Ordered i :=
  ⟨h.irql, ⟨⟨_, rfl, rfl, le_rfl, levels_call h.irql hcheck⟩, h.stack⟩, h.suspended⟩

/-- **A step of the running routine keeps the order.** -/
theorem IrqMachine.Ordered.step {choice : IrqChoice θ δ} (h : m.Ordered i)
    (hstep : m.step checked i choice = .ok m') : m'.Ordered i := by
  obtain rfl | ⟨f, rest, op, code, hstack, hcode, hdid⟩ := IrqMachine.step_cases hstep
  · exact h
  obtain ⟨p, hp, hold, hentry, hfits, hleads, hlevels⟩ := h.next_op hstack hcode
  have hbelow := (h.top hstack).2
  cases hdid with
  | skip hskips =>
    refine h.go hstack h.irql (q := ⟨p.irql, p.mask, false⟩) hp hold hentry ?_
    cases op <;> first | exact hlevels | exact hskips.elim
  | call _ hcheck => exact h.call hcheck
  | release v =>
    have hgo := h.go hstack h.irql (q := ⟨p.irql, p.mask, false⟩) hp hold hentry hlevels
    exact ⟨hgo.irql, hgo.stack, hgo.suspended⟩
  | leave hop =>
    have hirql : p.irql = f.entry := by
      rcases hop with rfl | rfl
      · exact hfits.2
      · exact hfits.2
    refine ⟨h.irql, ?_, h.suspended⟩
    rw [← hp, hirql]
    exact hbelow
  | @raise target hle =>
    obtain ⟨-, hsame, -⟩ := hfits
    refine h.go hstack h.irql (q := .at m.processor.CurrentIrql) rfl (hp.symm.trans hsame)
      (hp ▸ hentry) (levels_raiseCode hle hleads hlevels)
  | raiseMask store c target =>
    cases store with
    | copy =>
      exact h.go hstack h.irql (q := ⟨p.irql, target.level, false⟩) hp hold hentry hlevels
    | master => exact h.go hstack h.irql (q := ⟨p.irql, p.mask, false⟩) hp hold hentry hlevels
    | slave => exact h.go hstack h.irql (q := ⟨p.irql, p.mask, false⟩) hp hold hentry hlevels
  | raiseStore c target =>
    obtain ⟨-, rfl, hlt⟩ := hfits
    exact h.go hstack target.level_le (q := .at target.level) rfl hold (hentry.trans hlt.le) hlevels
  | lower hle =>
    refine h.go hstack h.irql (q := .at m.processor.CurrentIrql) rfl hold (hp ▸ hentry) ?_
    rw [hold]
    exact levels_lowerCode (hp ▸ hentry) hleads hlevels
  | lowerStore c old =>
    obtain ⟨-, rfl, hle, hlow, -⟩ := hfits
    refine h.go hstack (hle.trans (hp ▸ h.irql)) (q := ⟨old, p.irql, false⟩) rfl hold hlow hlevels
  | lowerMask store c old =>
    cases store with
    | copy =>
      obtain ⟨-, rfl⟩ := hfits
      exact h.go hstack h.irql (q := .at p.irql) hp hold hentry hlevels
    | master => exact h.go hstack h.irql (q := ⟨p.irql, p.mask, false⟩) hp hold hentry hlevels
    | slave => exact h.go hstack h.irql (q := ⟨p.irql, p.mask, false⟩) hp hold hentry hlevels
  | drained _ => exact h.go hstack h.irql (q := ⟨p.irql, p.mask, true⟩) hp hold hentry hlevels
  | pending _ =>
    -- one round is put in front of the test
    obtain ⟨hmask, hirql, hlow⟩ := hfits
    have hcur : m.processor.CurrentIrql = DISPATCH_LEVEL := hp.symm.trans hirql
    have hhigh : DISPATCH_LEVEL ≤ HIGH_LEVEL := by decide
    have hround : Levels i DISPATCH_LEVEL (.at DISPATCH_LEVEL)
        ([.raise .high, .dequeueDpc, .lower, .ret] : List (IrqOp δ)) :=
      ⟨⟨rfl, rfl, hhigh⟩, rfl, ⟨rfl, rfl⟩, rfl, ⟨rfl, hhigh⟩, rfl, ⟨rfl, rfl⟩, rfl, rfl⟩
    have hagain : Levels i f.entry (.at DISPATCH_LEVEL)
        (.checkDispatch :: .work :: .testDpcQueue :: code) := by
      refine ⟨⟨rfl, rfl⟩, rfl, rfl, rfl, ⟨rfl, rfl, hlow⟩, hleads, ?_⟩
      have hpoint : (⟨p.irql, p.mask, true⟩ : IrqPoint) = ⟨DISPATCH_LEVEL, DISPATCH_LEVEL, true⟩ := by
        rw [hmask, hirql]
      have hlevels' : Levels i f.entry ⟨p.irql, p.mask, true⟩ code := hlevels
      rw [hpoint] at hlevels'
      exact hlevels'
    refine ⟨h.irql, ⟨⟨.at DISPATCH_LEVEL, hcur.symm, rfl, hcur.le, ?_⟩, ?_⟩, h.suspended⟩
    · rw [hcur]
      exact hround
    · exact ⟨⟨.at DISPATCH_LEVEL, hcur.symm, hold, hlow.le, hagain⟩, hbelow⟩
  | take hop _ =>
    have hgo : (m.next f code rest m.processor).Ordered i := by
      refine h.go hstack h.irql (q := ⟨p.irql, p.mask, false⟩) hp hold hentry ?_
      rcases hop with rfl | ⟨d, rfl⟩
      · exact hlevels
      · exact hlevels
    exact ⟨hgo.irql, hgo.stack, hgo.suspended⟩
  | insert d arg1 arg2 dpcs =>
    have hgo := h.go hstack h.irql (q := ⟨p.irql, p.mask, false⟩) hp hold hentry hlevels
    exact ⟨hgo.irql, hgo.stack, hgo.suspended⟩
  | switchTo t =>
    obtain ⟨-, hirql⟩ := hfits
    have hcur : m.processor.CurrentIrql = DISPATCH_LEVEL := hp.symm.trans hirql
    have hself : StackAt i DISPATCH_LEVEL ({ f with code := code } :: rest) :=
      ⟨⟨⟨p.irql, p.mask, false⟩, hirql, hold, hentry, hlevels⟩, hbelow⟩
    have hall : ∀ u, StackAt i DISPATCH_LEVEL
        (Function.update m.suspended m.current ({ f with code := code } :: rest) u) :=
      (Function.forall_update_iff _ fun _ => StackAt i DISPATCH_LEVEL).mpr ⟨hself, fun u _ => h.suspended u⟩
    refine ⟨h.irql, ?_, hall⟩
    rw [hcur]
    exact hall t

omit [DecidableEq δ] in
/-- What a delivery does: the IRQL goes up to that of the vector. -/
theorem IrqMachine.deliver_spec {v : Nat} (h : m.deliver checked i v = .ok m') :
    ∃ irql, i.Irql v = some irql ∧ m.processor.CurrentIrql ≤ irql
      ∧ (m.processor.CurrentIrql ≠ irql →
          halCheckMask checked i.Hal8259MaskTable m.processor.CurrentIrql m.processor = .ok ())
      ∧ m.ISR_Spinlock v ≠ some m.current
      ∧ m' = { m with
          processor := if irql ≠ m.processor.CurrentIrql then
            kiSetCurrentIrql irql (pic8259SetMask (i.Hal8259MaskTable irql) m.processor)
            else m.processor
          ISR_Spinlock := Function.update m.ISR_Spinlock v (some m.current)
          stack := ⟨[.isr v, .releaseIsr v, .lower, .iret], m.processor.CurrentIrql,
            m.processor.CurrentIrql⟩ :: m.stack } := by
  obtain ⟨irql, hirql, h⟩ := kernel_bind_eq_ok.mp h
  obtain ⟨⟨old, processor⟩, hraise, h⟩ := kernel_bind_eq_ok.mp h
  obtain ⟨_, -, h⟩ := kernel_bind_eq_ok.mp h
  obtain ⟨_, hlock, h⟩ := kernel_bind_eq_ok.mp h
  obtain ⟨_, hge, hraise⟩ := kernel_bind_eq_ok.mp hraise
  obtain ⟨_, -, hraise⟩ := kernel_bind_eq_ok.mp hraise
  have hsome : i.Irql v = some irql := by
    cases hv : i.Irql v with
    | none =>
      rw [hv] at hirql
      cases hirql
    | some q =>
      rw [hv] at hirql
      cases hirql
      rfl
  refine ⟨irql, hsome, assert_eq_ok.mp hge, ?_, assert_eq_ok.mp hlock, ?_⟩
  · intro hne
    rw [if_pos (Ne.symm hne)] at hraise
    obtain ⟨_, hmask, -⟩ := kernel_bind_eq_ok.mp hraise
    exact hmask
  · cases h
    by_cases hne : irql ≠ m.processor.CurrentIrql
    · rw [if_pos hne] at hraise
      obtain ⟨_, -, hraise⟩ := kernel_bind_eq_ok.mp hraise
      cases hraise
      rw [if_pos hne]
    · rw [if_neg hne] at hraise
      cases hraise
      rw [if_neg hne]

omit [DecidableEq δ] in
/-- **A delivery keeps the order.** -/
theorem IrqMachine.Ordered.deliver (hi : i.Valid) {v : Nat} (hline : IRQ_START ≤ v)
    (hopen : v - IRQ_START < 16) (h : m.Ordered i) (hdeliver : m.deliver checked i v = .ok m') :
    m'.Ordered i := by
  obtain ⟨irql, hirql, hge, -, -, rfl⟩ := IrqMachine.deliver_spec hdeliver
  have hvector : IRQ_START + (v - IRQ_START) = v := by omega
  have hlevel : irql = 28 - (v - IRQ_START) := hi.irql _ _ hopen (hvector.symm ▸ hirql)
  have hcur : (if irql ≠ m.processor.CurrentIrql then
      kiSetCurrentIrql irql (pic8259SetMask (i.Hal8259MaskTable irql) m.processor)
      else m.processor).CurrentIrql = irql := by
    split
    · rfl
    · rename_i heq
      exact (not_not.mp heq).symm
  refine ⟨?_, ⟨⟨.at irql, hcur.symm, rfl, hge, ?_⟩, h.stack⟩, h.suspended⟩
  · show Processor.CurrentIrql _ ≤ HIGH_LEVEL
    rw [hcur, hlevel]
    unfold HIGH_LEVEL
    omega
  · have hdevice : DISPATCH_LEVEL < irql := by
      unfold DISPATCH_LEVEL
      omega
    exact ⟨⟨rfl, hirql, hdevice⟩, rfl, ⟨rfl, hirql, hdevice⟩, rfl, ⟨rfl, hge⟩, rfl, ⟨rfl, rfl⟩, rfl,
      rfl⟩

omit [DecidableEq θ] [DecidableEq δ] in
/-- The start is ordered. -/
theorem IrqMachine.Start.ordered (h : m.Start i) : m.Ordered i := by
  obtain ⟨p, hp⟩ := h.processor
  have hcur : m.processor.CurrentIrql = PASSIVE_LEVEL := by rw [hp]; rfl
  refine ⟨?_, ?_, fun t => ?_⟩
  · rw [hcur]
    decide
  · rw [h.stack, hcur]
    exact ⟨⟨.at PASSIVE_LEVEL, rfl, rfl, le_rfl, rfl, rfl, rfl⟩, trivial⟩
  · have hlow : PASSIVE_LEVEL ≤ DISPATCH_LEVEL := by decide
    rw [h.suspended t]
    exact ⟨⟨.at DISPATCH_LEVEL, rfl, rfl, hlow, ⟨rfl, hlow⟩, rfl, rfl, rfl, rfl⟩, trivial⟩

/-- **Every event keeps the order.** -/
theorem IrqMachine.Ordered.run (hi : i.Valid) {e : IrqEvent θ δ} (h : m.Ordered i)
    (hen : e.Enabled m) (hrun : e.run checked i m = .ok m') : m'.Ordered i := by
  cases e with
  | deliver v => exact h.deliver hi hen.1 hen.2.1 hrun
  | step choice => exact h.step hrun

/-- **In every state a run reaches the frames of all threads fit.** -/
theorem IrqMachine.ordered_of_run (hi : i.Valid) {t : List (IrqEvent θ δ × IrqMachine θ δ)}
    (h : (irqSystem θ δ checked i).Run t m) : m.Ordered i := by
  refine h.invariant (I := fun _ m => m.Ordered i) (fun m hm => hm.ordered) ?_
  rintro t m l m' _ hm ⟨-, hen, hrun⟩
  exact hm.run hi hen hrun

end KaushOS
