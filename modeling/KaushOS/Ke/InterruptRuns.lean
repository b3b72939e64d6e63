import KaushOS.Hal.Irql
import KaushOS.Ke.Dpc

/-! # Interrupts between any two steps (`kern/ke/irql.c`, `kern/ke/interrupt.c`, `kern/ke/dpc.c`)

`KeRaiseIrql`, `KeLowerIrql` and `KiProcessDpcQueue` run with interrupts enabled, so they are cut
into their single loads and stores here, and an interrupt may come in front of each of them. A
routine that is on its way is a *frame*: the steps it still has to do and its `OldIrql`. A call or
an interrupt puts a frame on top of the stack.

* **`IrqOp`, `IrqFrame`, `IrqMachine`** — steps, frames, and the machine with its threads.
* **`IrqMachine.deliver`, `IrqMachine.step`** — an interrupt comes in, and the running routine
  does its next step.
* **`irqSystem`** — the runs.

The first part of `KiInterruptDispatch` runs with interrupts disabled and is one step. -/

namespace KaushOS

open Transition

/-! ## Steps and frames -/

/-- The IRQLs to which the kernel raises with interrupts enabled. -/
inductive RaiseTo
  | dispatch
  | high
  deriving DecidableEq, Repr

/-- The level. -/
def RaiseTo.level : RaiseTo → Nat
  | .dispatch => DISPATCH_LEVEL
  | .high => HIGH_LEVEL

/-- **The single steps.** In a raise or a lowering `c` is the local variable `CurrentIrql`. -/
inductive IrqOp (δ : Type)
  /-- Kernel code that may call the routines below. -/
  | work
  /-- `KISRRoutine(Trapframe)`. -/
  | isr (vector : Nat)
  /-- `KeReleaseSpinLockFromDpcLevel(&KiInterruptObjects[Vector].ISR_Spinlock)`. -/
  | releaseIsr (vector : Nat)
  /-- The end of an interrupt. -/
  | iret
  /-- The end of a call. -/
  | ret
  /-- `KeRaiseIrql`: `CurrentIrql` is read and compared. -/
  | raise (target : RaiseTo)
  /-- `HalRaiseIrql`: the mask is compared. -/
  | raiseCheck (c : Nat) (target : RaiseTo)
  /-- `HalRaiseIrql`: a store of `Pic8259SetMask`. -/
  | raiseMask (store : MaskStore) (c : Nat) (target : RaiseTo)
  /-- `KeRaiseIrql`: `KiSetCurrentIrql(NewIrql)`. -/
  | raiseStore (c : Nat) (target : RaiseTo)
  /-- `KeLowerIrql`: `CurrentIrql` is read and compared. -/
  | lower
  /-- `KeLowerIrql`: `KiSetCurrentIrql`. -/
  | lowerStore (c old : Nat)
  /-- `HalLowerIrql`: the mask is compared. -/
  | lowerCheck (c old : Nat)
  /-- `HalLowerIrql`: a store of `Pic8259SetMask`. -/
  | lowerMask (store : MaskStore) (c old : Nat)
  /-- `KiProcessDpcQueue`: `ASSERT1(DIrql == DISPATCH_LEVEL, DIrql)`. -/
  | checkDispatch
  /-- `KiProcessDpcQueue`: `while (!LIST_EMPTY(DpcList))`. -/
  | testDpcQueue
  /-- `KiProcessDpcQueue`: the removal with the processor locked. -/
  | dequeueDpc
  /-- `KeInsertQueueDpc`: the stores to the object and the insertion with the processor locked. -/
  | insertDpc (d : δ) (arg1 arg2 : UInt32)
  /-- `KeRemoveQueueDpc`: the removal with the processor locked. -/
  | removeDpc (d : δ)
  /-- `Schedule`: `KiSwapContext`. -/
  | swap
  deriving DecidableEq

/-- **A routine on its way**: what it still has to do, its local variable `OldIrql`, and the IRQL
at which it was entered. -/
structure IrqFrame (δ : Type) where
  code : List (IrqOp δ)
  OldIrql : Nat
  entry : Nat
  deriving DecidableEq

/-- The routines that kernel code calls. -/
inductive IrqCall (δ : Type)
  /-- A stretch at a raised IRQL, such as one that holds a spin lock. -/
  | raised (target : RaiseTo)
  /-- `KeInsertQueueDpc(Dpc, SystemArgument1, SystemArgument2)`. -/
  | insertQueueDpc (d : δ) (arg1 arg2 : UInt32)
  /-- `KeRemoveQueueDpc(Dpc)`. -/
  | removeQueueDpc (d : δ)
  /-- `Schedule()`. -/
  | schedule

variable {δ : Type}

/-- The steps of a routine. -/
def IrqCall.code : IrqCall δ → List (IrqOp δ)
  | .raised target => [.raise target, .work, .lower, .ret]
  | .insertQueueDpc d arg1 arg2 => [.raise .high, .insertDpc d arg1 arg2, .lower, .ret]
  | .removeQueueDpc d => [.raise .high, .removeDpc d, .lower, .ret]
  | .schedule => [.raise .dispatch, .swap, .lower, .ret]

/-- The assertion about the IRQL with which a routine begins. -/
def IrqCall.check (irql : Nat) : IrqCall δ → Kernel Unit
  | .raised .dispatch => assert (irql ≤ DISPATCH_LEVEL) "KeGetCurrentIrql() <= DISPATCH_LEVEL"
  | .raised .high => assert (irql ≤ MAX_IRQL_LEVEL) "Prcb->CurrentIrql <= MAX_IRQL_LEVEL"
  | .insertQueueDpc .. => assert (irql > DISPATCH_LEVEL) "DCurrentIrql > DISPATCH_LEVEL"
  | .removeQueueDpc _ => assert (irql = DISPATCH_LEVEL) "DCurrentIrql == DISPATCH_LEVEL"
  | .schedule => assert (irql ≤ DISPATCH_LEVEL) "KeGetCurrentIrql() <= DISPATCH_LEVEL"

/-- The last part of a lowering, from `c` to `old`. -/
def lowerTail (c old : Nat) : List (IrqOp δ) :=
  if old ≠ c then
    [.lowerStore c old, .lowerCheck c old, .lowerMask .copy c old, .lowerMask .master c old,
      .lowerMask .slave c old]
  else []

/-- The steps of `KeLowerIrql(OldIrql)` behind its first one. -/
def lowerCode (c old : Nat) : List (IrqOp δ) :=
  if old < DISPATCH_LEVEL ∧ c ≥ DISPATCH_LEVEL then
    [.lowerStore c DISPATCH_LEVEL, .lowerCheck c DISPATCH_LEVEL, .lowerMask .copy c DISPATCH_LEVEL,
      .lowerMask .master c DISPATCH_LEVEL, .lowerMask .slave c DISPATCH_LEVEL, .checkDispatch,
      .testDpcQueue] ++ lowerTail DISPATCH_LEVEL old
  else lowerTail c old

/-- The steps of `KeRaiseIrql(NewIrql, &OldIrql)` behind its first one. -/
def raiseCode (c : Nat) (target : RaiseTo) : List (IrqOp δ) :=
  if target.level ≠ c then
    [.raiseCheck c target, .raiseMask .copy c target, .raiseMask .master c target,
      .raiseMask .slave c target, .raiseStore c target]
  else []

/-! ## The machine -/

/-- **The machine**: one processor, the DPC objects, the spin locks of the vectors, the frames of
the running thread with the top one first, and those of the threads that are not running. -/
structure IrqMachine (θ δ : Type) where
  processor : Processor
  dpcs : DpcState δ
  ISR_Spinlock : Nat → Option θ
  current : θ
  stack : List (IrqFrame δ)
  suspended : θ → List (IrqFrame δ)

variable {θ : Type} [DecidableEq θ] [DecidableEq δ]

/-- What the running routine does where it has a choice. -/
inductive IrqChoice (θ δ : Type)
  /-- It goes on. -/
  | go
  /-- It calls a routine. -/
  | call (routine : IrqCall δ)
  /-- It switches to a thread. -/
  | switchTo (t : θ)

/-- **A vector is delivered**: `KiInterruptDispatch` up to the point where it enables interrupts.
`checked` says whether the mask is compared in `HalRaiseIrql`. -/
def IrqMachine.deliver (checked : Bool) (i : Interrupts) (vector : Nat) (m : IrqMachine θ δ) :
    Kernel (IrqMachine θ δ) := do
  let irql ← deref (i.Irql vector)
  let (old, processor) ← keRaiseIrql checked i.Hal8259MaskTable irql m.processor
  assert (processor.CurrentIrql ≥ DISPATCH_LEVEL) "DIrql >= DISPATCH_LEVEL"
  assert (m.ISR_Spinlock vector ≠ some m.current) "SpinLock->Thread != DThread"
  return { m with
    processor := processor
    ISR_Spinlock := Function.update m.ISR_Spinlock vector (some m.current)
    stack := ⟨[.isr vector, .releaseIsr vector, .lower, .iret], old, old⟩ :: m.stack }

/-- A call puts a frame on the stack. -/
def IrqMachine.push (routine : IrqCall δ) (m : IrqMachine θ δ) : Kernel (IrqMachine θ δ) := do
  let irql := m.processor.CurrentIrql
  routine.check irql
  return { m with stack := ⟨routine.code, irql, irql⟩ :: m.stack }

/-- The DPC list of the processor is empty. -/
def IrqMachine.noDpc (m : IrqMachine θ δ) : Bool :=
  listEmpty (m.dpcs.DpcListHead keGetCurrentProcessorNumber)

/-- The machine after a step of the running routine, with what it still has to do. -/
def IrqMachine.next (m : IrqMachine θ δ) (f : IrqFrame δ) (code : List (IrqOp δ))
    (rest : List (IrqFrame δ)) (processor : Processor) : IrqMachine θ δ :=
  { m with processor := processor, stack := { f with code := code } :: rest }

/-- **One step** of the routine with frame `f`, whose next step is `op`; `code` are the steps behind
it and `rest` the frames below. -/
def IrqMachine.exec (checked : Bool) (i : Interrupts) (choice : IrqChoice θ δ) (op : IrqOp δ)
    (code : List (IrqOp δ)) (f : IrqFrame δ) (rest : List (IrqFrame δ)) (m : IrqMachine θ δ) :
    Kernel (IrqMachine θ δ) :=
  let p := m.processor
  match op with
  | .work =>
    match choice with
    | .call routine => m.push routine
    | _ => .ok (m.next f code rest p)
  | .isr _ =>
    match choice with
    | .call (.insertQueueDpc d arg1 arg2) => m.push (.insertQueueDpc d arg1 arg2)
    | _ => .ok (m.next f code rest p)
  | .releaseIsr vector => do
    assert (p.CurrentIrql ≥ DISPATCH_LEVEL) "DIrql >= DISPATCH_LEVEL"
    assert (m.ISR_Spinlock vector = some m.current) "SpinLock->Thread == DThread"
    return { m.next f code rest p with
      ISR_Spinlock := Function.update m.ISR_Spinlock vector none }
  | .iret => .ok { m with stack := rest }
  | .ret => .ok { m with stack := rest }
  | .raise target => do
    assert (target.level ≥ p.CurrentIrql) "NewIrql >= CurrentIrql"
    return m.next { f with OldIrql := p.CurrentIrql } (raiseCode p.CurrentIrql target ++ code) rest p
  | .raiseCheck c _ => do
    halCheckMask checked i.Hal8259MaskTable c p
    return m.next f code rest p
  | .raiseMask store _ target =>
    .ok (m.next f code rest (p.storeMask store (i.Hal8259MaskTable target.level)))
  | .raiseStore _ target => .ok (m.next f code rest (kiSetCurrentIrql target.level p))
  | .lower => do
    assert (f.OldIrql ≤ p.CurrentIrql) "OldIrql <= CurrentIrql"
    return m.next f (lowerCode p.CurrentIrql f.OldIrql ++ code) rest p
  | .lowerStore _ old => .ok (m.next f code rest (kiSetCurrentIrql old p))
  | .lowerCheck c _ => do
    halCheckMask checked i.Hal8259MaskTable c p
    return m.next f code rest p
  | .lowerMask store _ old =>
    .ok (m.next f code rest (p.storeMask store (i.Hal8259MaskTable old)))
  | .checkDispatch => do
    assert (p.CurrentIrql = DISPATCH_LEVEL) "DIrql == DISPATCH_LEVEL"
    return m.next f code rest p
  | .testDpcQueue =>
    if m.noDpc then
      .ok (m.next f code rest p)
    else
      -- one round: the removal, the DPC routine, and the test again
      let code' := [.raise .high, .dequeueDpc, .lower, .ret]
      let frame : IrqFrame δ := ⟨code', p.CurrentIrql, p.CurrentIrql⟩
      let f := { f with code := .checkDispatch :: .work :: .testDpcQueue :: code }
      .ok { m with stack := frame :: f :: rest }
  | .dequeueDpc => do
    assert (p.CurrentIrql = HIGH_LEVEL) "DIrql == HIGH_LEVEL"
    let (_, dpcs) ← kiDequeueDpc m.dpcs
    return { m.next f code rest p with dpcs := dpcs }
  | .insertDpc d arg1 arg2 => do
    let (_, dpcs) ← keInsertQueueDpc d arg1 arg2 m.dpcs
    return { m.next f code rest p with dpcs := dpcs }
  | .removeDpc d => do
    let (_, dpcs) ← keRemoveQueueDpc d m.dpcs
    return { m.next f code rest p with dpcs := dpcs }
  | .swap =>
    match choice with
    | .switchTo t =>
      let suspended := Function.update m.suspended m.current ({ f with code := code } :: rest)
      .ok { m with current := t, stack := suspended t, suspended := suspended }
    | _ => .ok (m.next f code rest p)

/-- **The running routine does its next step.** -/
def IrqMachine.step (checked : Bool) (i : Interrupts) (choice : IrqChoice θ δ)
    (m : IrqMachine θ δ) : Kernel (IrqMachine θ δ) :=
  match m.stack with
  | [] => .ok m
  | f :: rest =>
    match f.code with
    | [] => .ok m
    | op :: code => m.exec checked i choice op code f rest

/-- The next step of the running routine. -/
def IrqMachine.nextOp (m : IrqMachine θ δ) : Option (IrqOp δ) :=
  m.stack.head?.bind fun f => f.code.head?

/-! ## Runs -/

/-- **What happens**: a vector is delivered, or the running routine goes on. -/
inductive IrqEvent (θ δ : Type)
  | deliver (vector : Nat)
  | step (choice : IrqChoice θ δ)

/-- A vector is delivered only when its line is open. -/
def IrqEvent.Enabled (m : IrqMachine θ δ) : IrqEvent θ δ → Prop
  | .deliver vector => IRQ_START ≤ vector ∧ lineOpen m.processor (vector - IRQ_START)
  | .step _ => True

/-- What an event does. -/
def IrqEvent.run (checked : Bool) (i : Interrupts) (m : IrqMachine θ δ) :
    IrqEvent θ δ → Kernel (IrqMachine θ δ)
  | .deliver vector => m.deliver checked i vector
  | .step choice => m.step checked i choice

/-- A thread that runs kernel code at `PASSIVE_LEVEL`. -/
def runningThread : List (IrqFrame δ) := [⟨[.work], PASSIVE_LEVEL, PASSIVE_LEVEL⟩]

/-- A thread that has not run yet: `KiStartThread` releases the lock that `Schedule` has acquired,
and goes to `PASSIVE_LEVEL`. -/
def startingThread : List (IrqFrame δ) := [⟨[.lower, .work], PASSIVE_LEVEL, PASSIVE_LEVEL⟩]

/-- **The start.** One thread runs at `PASSIVE_LEVEL`, all others are new, no DPC is pending and no
vector's spin lock is held. -/
structure IrqMachine.Start (i : Interrupts) (m : IrqMachine θ δ) : Prop where
  processor : ∃ p, m.processor
    = kiSetCurrentIrql PASSIVE_LEVEL (pic8259SetMask (i.Hal8259MaskTable PASSIVE_LEVEL) p)
  dpcs : listEmpty (m.dpcs.DpcListHead keGetCurrentProcessorNumber) = true
  locks : ∀ vector, m.ISR_Spinlock vector = none
  stack : m.stack = runningThread
  suspended : ∀ t, m.suspended t = startingThread

/-- **The machine as a transition system**; a label is an event and the state it happens in. -/
def irqSystem (θ δ : Type) [DecidableEq θ] [DecidableEq δ] (checked : Bool) (i : Interrupts) :
    System (IrqEvent θ δ × IrqMachine θ δ) (IrqMachine θ δ) where
  init m := m.Start i
  step _ m l m' := l.2 = m ∧ l.1.Enabled m ∧ l.1.run checked i m = .ok m'

instance (m : IrqMachine θ δ) (e : IrqEvent θ δ) : Decidable (e.Enabled m) :=
  match e with
  | .deliver _ => inferInstanceAs (Decidable (_ ∧ _))
  | .step _ => inferInstanceAs (Decidable True)

/-- The machine after some events, of which the first comes first. -/
def IrqMachine.play (checked : Bool) (i : Interrupts) :
    List (IrqEvent θ δ) → IrqMachine θ δ → Kernel (IrqMachine θ δ)
  | [], m => .ok m
  | e :: events, m =>
    if e.Enabled m then e.run checked i m >>= fun m => m.play checked i events
    else .error .nullPointer

/-- What is played is a run. -/
theorem IrqMachine.play_run {checked : Bool} {i : Interrupts} {events : List (IrqEvent θ δ)}
    {t : List (IrqEvent θ δ × IrqMachine θ δ)} {m m' : IrqMachine θ δ}
    (h : (irqSystem θ δ checked i).Run t m) (hplay : m.play checked i events = .ok m') :
    ∃ t', (irqSystem θ δ checked i).Run t' m' := by
  induction events generalizing t m with
  | nil =>
    cases hplay
    exact ⟨t, h⟩
  | cons e events ih =>
    rw [IrqMachine.play] at hplay
    by_cases hen : e.Enabled m
    · rw [if_pos hen] at hplay
      obtain ⟨m₁, hrun, hplay⟩ := kernel_bind_eq_ok.mp hplay
      exact ih (h.step (e := (e, m)) ⟨rfl, hen, hrun⟩) hplay
    · rw [if_neg hen] at hplay
      cases hplay

/-- The events are played, and the machine looks as observed. -/
theorem IrqMachine.play_reaches {checked : Bool} {i : Interrupts} (events : List (IrqEvent θ δ))
    {t : List (IrqEvent θ δ × IrqMachine θ δ)} {m : IrqMachine θ δ} {β : Type}
    (observe : IrqMachine θ δ → β) {b : β} (h : (irqSystem θ δ checked i).Run t m)
    (hobserved : (m.play checked i events).map observe = .ok b) :
    ∃ t m, (irqSystem θ δ checked i).Run t m ∧ observe m = b := by
  cases hplay : m.play checked i events with
  | error b' =>
    rw [hplay] at hobserved
    cases hobserved
  | ok m' =>
    rw [hplay] at hobserved
    obtain ⟨t', hrun⟩ := IrqMachine.play_run h hplay
    exact ⟨t', m', hrun, Except.ok.inj hobserved⟩

/-- The events are played, and one more stops the machine. -/
theorem IrqMachine.play_stops {checked : Bool} {i : Interrupts} (events : List (IrqEvent θ δ))
    {t : List (IrqEvent θ δ × IrqMachine θ δ)} {m : IrqMachine θ δ} {e : IrqEvent θ δ}
    {b : BugCheck} (h : (irqSystem θ δ checked i).Run t m)
    (hstops : ((m.play checked i events).map fun m =>
      (decide (e.Enabled m), (e.run checked i m).map fun _ => ())) = .ok (true, .error b)) :
    ∃ t m, (irqSystem θ δ checked i).Run t m ∧ e.Enabled m ∧ e.run checked i m = .error b := by
  obtain ⟨t', m', hrun, hpair⟩ := IrqMachine.play_reaches events _ h hstops
  refine ⟨t', m', hrun, of_decide_eq_true (congrArg Prod.fst hpair), ?_⟩
  have hstop := congrArg Prod.snd hpair
  cases hlast : e.run checked i m' with
  | error b' =>
    simp only [hlast] at hstop
    cases hstop
    rfl
  | ok m₂ =>
    simp only [hlast] at hstop
    cases hstop

/-! ## A machine with a timer and a keyboard -/

/-- The timer and the keyboard are registered. -/
def timerAndKeyboard : Interrupts :=
  match registerVectors [0x20, 0x21] with
  | .ok i => i
  | .error _ => halinit

theorem registerVectors_timerAndKeyboard :
    registerVectors [0x20, 0x21] = .ok timerAndKeyboard := rfl

/-- A machine at its start. -/
def startedMachine (i : Interrupts) : IrqMachine Unit Unit where
  processor := kiSetCurrentIrql PASSIVE_LEVEL
    (pic8259SetMask (i.Hal8259MaskTable PASSIVE_LEVEL) ⟨0, 0, 0, 0⟩)
  dpcs := ⟨fun _ => ⟨dpcObject, 0, 0, ⟨none, none⟩, 0, 0, 0, 0⟩, fun _ => listInit⟩
  ISR_Spinlock _ := none
  current := ()
  stack := runningThread
  suspended _ := startingThread

theorem startedMachine_run (checked : Bool) (i : Interrupts) :
    (irqSystem Unit Unit checked i).Run [] (startedMachine i) :=
  .start ⟨⟨_, rfl⟩, rfl, fun _ => rfl, rfl, fun _ => rfl⟩

end KaushOS
