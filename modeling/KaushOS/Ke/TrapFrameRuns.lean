import KaushOS.Ke.TrapFrame

/-! # What is on the kernel stacks

A thread that is in the kernel has its trap frame at the top of its stack, and below it the frames of the
interrupts that came later, each with the stack of its own. A thread that does not run has a context below
that to which the scheduler can switch.

* **`UserContext`**, **`TrapEvent.contexts`** — what the steps mean for the user programs: each thread has
  the registers that it left user mode with; a clone has those of its parent.
* **`Holds`** — a trap frame holds the registers of a context; **`Holds.restore`** pops them.
* **`Chained`, `Ready`** — the stack of a thread that runs, and of one that does not.
* **`Inv.step`** — the invariant, step by step. -/

namespace KaushOS.Trap

open Paging WordStack

/-! ## Contexts -/

/-- **What a thread has left user mode with**: its registers, the number of the trap, and the result of its
system call when that is known. A thread that has not `entered` the kernel from user mode is yet to start with
these registers. -/
structure UserContext where
  registers : Registers
  trapno : Nat
  RetStatus : Option Nat
  entered : Bool

/-- The registers that a new user thread starts with. -/
def startRegisters (StartRoutine UserStack : Nat) : Registers where
  edi := 0
  esi := 0
  ebp := 0
  ebx := 0
  edx := 0
  ecx := 0
  eax := 0
  es := GD_UD ||| 3
  ds := GD_UD ||| 3
  fs := 0
  gs := 0
  eip := StartRoutine
  cs := GD_UT ||| 3
  eflags := FL_MBS ||| FL_IF
  esp := UserStack + THREAD_USER_STACK_SIZE * PGSIZE
  ss := GD_UD ||| 3

/-- The context of a clone: the system call of the other thread returns 0. -/
def UserContext.clone (c : UserContext) : UserContext :=
  { c with registers := { c.registers with eax := 0 }, RetStatus := none, entered := false }

variable {τ : Type} [DecidableEq τ]

/-- **What a step means for the user programs.** -/
def TrapEvent.contexts (m : Machine τ) (c : τ → UserContext) : TrapEvent τ → τ → UserContext
  | .trap trapno _ =>
    if m.cpu.UserMode then Function.update c m.CurrentThread ⟨m.cpu, trapno, none, true⟩ else c
  | .create child _ UserStack StartRoutine _ =>
    Function.update c child ⟨startRegisters StartRoutine UserStack, 0, none, false⟩
  | .fork child _ pid =>
    Function.update (Function.update c child (c m.CurrentThread).clone) m.CurrentThread
      { c m.CurrentThread with RetStatus := some pid }
  | _ => c

/-! ## Frames -/

/-- **The words of a `KTRAPFRAME`.** -/
def frameWords (r : Registers) (oesp trapno err : Nat) : List Nat :=
  [r.edi, r.esi, r.ebp, oesp, r.ebx, r.edx, r.ecx, r.eax, r.es, r.ds, trapno, err, r.eip, r.cs,
    r.eflags, r.esp, r.ss]

/-- **A trap frame holds the registers of a context.** -/
structure Holds (mem : StackMemory) (frame : Nat) (c : UserContext) : Prop where
  user : c.registers.User
  frame : ∃ oesp err, words mem frame 17 = frameWords c.registers oesp c.trapno err

variable {code : Code} {m m' : Machine τ} {mem mem' : StackMemory} {c : UserContext}
  {contexts : τ → UserContext} {calls rest : List Activation} {x : Activation} {tcb CloneTcb : Tcb}
  {r : Registers} {frame top base esp trapno err StackPtr StartRoutine StartContext UserStack Eflags : Nat} {clone : Option Tcb}
  {status : Option Nat} {e : TrapEvent τ} {t : τ}

/-- A frame that has not changed. -/
theorem Holds.congr (h : Holds mem frame c)
    (hmem : ∀ y, frame ≤ y → y < frame + 68 → mem' y = mem y) : Holds mem' frame c := by
  obtain ⟨huser, oesp, err, hwords⟩ := h
  exact ⟨huser, oesp, err, (words_congr hmem).trans hwords⟩

/-- The number of the trap is in the frame. -/
theorem Holds.trapno_eq (h : Holds mem frame c) : mem (frame + 40) = c.trapno := by
  obtain ⟨-, oesp, err, hwords⟩ := h
  simp only [words, frameWords, List.cons.injEq, Nat.add_assoc] at hwords
  exact hwords.2.2.2.2.2.2.2.2.2.2.1

/-- **The registers are popped** from the frame that holds them. -/
theorem Holds.restore (h : Holds mem frame c) (r : Registers) : restore mem frame r
    = { c.registers with fs := userSelector r.fs, gs := userSelector r.gs } := by
  obtain ⟨⟨hmode, hselectors⟩, oesp, err, hwords⟩ := h
  simp only [words, frameWords, List.cons.injEq, Nat.add_assoc] at hwords
  obtain ⟨hedi, hesi, hebp, -, hebx, hedx, hecx, heax, hes, hds, -, -, heip, hcs, heflags, hesp, hss, -⟩ :=
    hwords
  have hes' := hselectors c.registers.es (by simp)
  have hds' := hselectors c.registers.ds (by simp)
  have hpopped : (popFrame mem frame r).UserMode := by
    rw [Registers.UserMode, popFrame, hcs]
    exact hmode
  rw [Trap.restore, iret, if_pos hpopped]
  simp only [popFrame, hedi, hesi, hebp, hebx, hedx, hecx, heax, hes, hds, heip, hcs, heflags, hesp, hss, hes',
    hds']

/-- The result is stored to the frame. -/
theorem Holds.store_eax (h : Holds mem frame c) (w : Nat) :
    Holds (store mem (frame + 28) w) frame { c with registers := { c.registers with eax := w } } := by
  obtain ⟨huser, oesp, err, hwords⟩ := h
  refine ⟨huser, oesp, err, ?_⟩
  rw [show frame + 28 = frame + 4 * 7 from rfl, words_store (by decide), hwords]
  rfl

/-- **A user program has entered the kernel.** -/
theorem holds_trap (hr : r.User) (htop : frame + 68 = top) :
    Holds (pushAll (trapWords r top trapno err) top mem) frame ⟨r, trapno, none, true⟩ := by
  have hlength : (trapWords r top trapno err).length = 17 := by
    rw [trapWords, if_pos hr.1]
    rfl
  refine ⟨hr, top - 36, err, ?_⟩
  have hsize : frame + 4 * (trapWords r top trapno err).length = top := by
    rw [hlength]
    exact htop
  have hwords := words_pushAll (trapWords r top trapno err) mem hsize
  rw [hlength] at hwords
  rw [hwords, trapWords, if_pos hr.1]
  rfl

/-- The text segment in the frame of an interrupt of the kernel. -/
theorem trapWords_kernel_cs (hr : ¬ r.UserMode) (hframe : frame + 60 = base) :
    pushAll (trapWords r base trapno err) base mem (frame + 52) = r.cs := by
  have hwords : trapWords r base trapno err = [r.eflags, r.cs, r.eip, err, trapno, r.ds, r.es]
      ++ pushad r (base - 28) := by
    rw [trapWords, if_neg hr]
    rfl
  have hword := pushAll_word (k := 13) ([r.eflags, r.cs, r.eip, err, trapno, r.ds, r.es]
    ++ pushad r (base - 28)) mem hframe (show 13 < 15 by decide)
  rw [hwords]
  exact (Option.some.inj hword).symm

/-! ## Stacks -/

/-- **The stack of a thread that runs**, up to its top: at the top is its trap frame, or the frame that it is
to start with; below it are the frames of interrupts, which return to the kernel. -/
inductive Chained (code : Code) (mem : StackMemory) (top : Nat) (c : UserContext) : List Activation → Prop
  | user {frame : Nat} (htop : frame + 68 = top) (hentered : c.entered = true) (h : Holds mem frame c) :
      Chained code mem top c [.trap frame c.RetStatus]
  | start {esp StartRoutine StartContext : Nat} (htop : esp + 12 ≤ top)
      (h : StartRoutine = code.KiRunUserThread →
        StartContext + 68 = top ∧ esp + 12 ≤ StartContext ∧ c.entered = false ∧ Holds mem StartContext c) :
      Chained code mem top c [.start esp StartRoutine StartContext]
  | nested {frame : Nat} {status : Option Nat} {x : Activation} {rest : List Activation}
      (hbelow : frame + 60 ≤ x.base) (hcs : mem (frame + 52) % 4 ≠ 3)
      (h : Chained code mem top c (x :: rest)) :
      Chained code mem top c (.trap frame status :: x :: rest)

/-- **A thread with one trap frame** has entered the kernel from user mode. -/
theorem Chained.single (h : Chained code mem top c [.trap frame status]) :
    frame + 68 = top ∧ status = c.RetStatus ∧ c.entered = true ∧ Holds mem frame c := by
  generalize hcalls : [Activation.trap frame status] = calls at h
  cases h with
  | user htop hentered hholds =>
    obtain ⟨rfl, rfl⟩ := Activation.trap.inj (List.cons.inj hcalls).1
    exact ⟨htop, rfl, hentered, hholds⟩
  | start => cases hcalls
  | nested => cases hcalls

/-- **A trap frame above others** is that of an interrupt of the kernel. -/
theorem Chained.tail (h : Chained code mem top c (.trap frame status :: x :: rest)) :
    frame + 60 ≤ x.base ∧ mem (frame + 52) % 4 ≠ 3 ∧ Chained code mem top c (x :: rest) := by
  cases h with
  | nested hbelow hcs h => exact ⟨hbelow, hcs, h⟩

/-- The routines of a thread that runs are below the top of its stack. -/
theorem Chained.base_le (h : Chained code mem top c (x :: rest)) : x.base ≤ top := by
  generalize hcalls : x :: rest = calls at h
  induction h generalizing x rest with
  | user htop hentered h =>
    obtain ⟨rfl, rfl⟩ := List.cons.inj hcalls
    exact (Nat.le_add_right ..).trans_eq htop
  | start htop h =>
    obtain ⟨rfl, rfl⟩ := List.cons.inj hcalls
    exact (Nat.le_add_right ..).trans htop
  | nested hbelow hcs h ih =>
    obtain ⟨rfl, rfl⟩ := List.cons.inj hcalls
    have hrest := ih rfl
    simp only [Activation.base]
    omega

/-- **A stack of which only a part that is not in use has changed.** -/
theorem Chained.congr (h : Chained code mem top c (x :: rest))
    (hmem : ∀ y, x.base ≤ y → y < top → mem' y = mem y) : Chained code mem' top c (x :: rest) := by
  generalize hcalls : x :: rest = calls at h
  induction h generalizing x rest with
  | user htop hentered h =>
    obtain ⟨rfl, rfl⟩ := List.cons.inj hcalls
    exact .user htop hentered (h.congr fun y hlo hhi => hmem y hlo (by omega))
  | start htop h =>
    obtain ⟨rfl, rfl⟩ := List.cons.inj hcalls
    refine .start htop fun hroutine => ?_
    obtain ⟨hcontext, hbelow, hnew, hholds⟩ := h hroutine
    refine ⟨hcontext, hbelow, hnew, hholds.congr fun y hlo hhi => hmem y ?_ (by omega)⟩
    simp only [Activation.base]
    omega
  | nested hbelow hcs h ih =>
    obtain ⟨rfl, rfl⟩ := List.cons.inj hcalls
    have hbase := h.base_le
    simp only [Activation.base] at hmem
    refine .nested hbelow ?_ (ih (fun y hlo hhi => hmem y (by omega) hhi) rfl)
    rw [hmem _ (by omega) (by omega)]
    exact hcs

/-- **The stack of a thread that does not run**: what the context switch pops leads into `KiStartThread`, or
back into `KiSwapThread`. -/
structure Ready (code : Code) (mem : StackMemory) (tcb : Tcb) (c : UserContext) (calls : List Activation) :
    Prop where
  low : tcb.KernelStack ≤ tcb.StackPointer
  context : (calls = [] ∧ mem (eipOf tcb.StackPointer) = code.KiStartThread
      ∧ Chained code mem tcb.stackTop c [.start (tcb.StackPointer + 40) (mem (tcb.StackPointer + 44))
        (mem (tcb.StackPointer + 48))])
    ∨ (mem (eipOf tcb.StackPointer) = code.KiSwapThread ∧ Chained code mem tcb.stackTop c calls
      ∧ tcb.StackPointer + 40 ≤ stackLimit tcb calls)

/-- The routines of a thread are below the top of its stack. -/
theorem Chained.limit_le (h : Chained code mem tcb.stackTop c calls) :
    ∃ x rest, calls = x :: rest ∧ stackLimit tcb calls = x.base ∧ x.base ≤ tcb.stackTop := by
  cases calls with
  | nil => cases h
  | cons x rest => exact ⟨x, rest, rfl, rfl, h.base_le⟩

/-- **A stack that has not changed.** -/
theorem Ready.congr (h : Ready code mem tcb c calls)
    (hmem : ∀ y, tcb.KernelStack ≤ y → y < tcb.stackTop → mem' y = mem y) :
    Ready code mem' tcb c calls := by
  have hlow := h.low
  refine ⟨hlow, ?_⟩
  rcases h.context with ⟨hcalls, heip, hchain⟩ | ⟨heip, hchain, hlimit⟩
  · have htop : tcb.StackPointer + 52 ≤ tcb.stackTop := by
      cases hchain with
      | start htop h => exact htop
    simp only [eipOf] at heip ⊢
    rw [hmem _ (by omega) (by omega), hmem _ (by omega) (by omega), hmem _ (by omega) (by omega)]
    refine Or.inl ⟨hcalls, heip, hchain.congr fun y hlo hhi => hmem y ?_ hhi⟩
    simp only [Activation.base] at hlo
    omega
  · obtain ⟨x, rest, rfl, hbase, hle⟩ := hchain.limit_le
    simp only [eipOf] at heip ⊢
    rw [hmem _ (by omega) (by omega)]
    exact Or.inr ⟨heip, hchain.congr fun y hlo hhi => hmem y (by omega) hhi, hlimit⟩

/-! ## New threads -/

/-- The members of a `SCHEDULER_TRAPFRAME`. -/
theorem fillSchedulerFrame_spec (StackPtr Eflags Eip StartRoutine StartContext : Nat) (mem : StackMemory) :
    Within StackPtr (StackPtr + 52) mem
        (fillSchedulerFrame StackPtr Eflags Eip StartRoutine StartContext mem)
      ∧ fillSchedulerFrame StackPtr Eflags Eip StartRoutine StartContext mem (eipOf StackPtr) = Eip
      ∧ fillSchedulerFrame StackPtr Eflags Eip StartRoutine StartContext mem (StackPtr + 44)
        = StartRoutine
      ∧ fillSchedulerFrame StackPtr Eflags Eip StartRoutine StartContext mem (StackPtr + 48)
        = StartContext := by
  simp only [fillSchedulerFrame, eipOf]
  refine ⟨?_, ?_, ?_, store_same⟩
  · refine ((within_store ?_ ?_).trans (within_store ?_ ?_)).trans ((within_store ?_ ?_).trans
      (within_store ?_ ?_)) <;> omega
  · rw [store_other (by omega), store_other (by omega), store_same]
  · rw [store_other (by omega), store_same]

/-- The trap frame of a new user thread. -/
theorem fillTrapFrame_spec (h : words mem frame 17 = List.replicate 17 0) :
    Within frame (frame + 68) mem (fillTrapFrame frame StartRoutine UserStack mem)
      ∧ Holds (fillTrapFrame frame StartRoutine UserStack mem) frame
        ⟨startRegisters StartRoutine UserStack, 0, none, false⟩ := by
  have hmode : (startRegisters StartRoutine UserStack).UserMode :=
    show (GD_UT ||| 3) % 4 = 3 by decide
  refine ⟨?_, ⟨hmode, by simp [startRegisters, userSelector, GD_UD, GD_KT, GD_KD]⟩, 0, 0, ?_⟩
  · simp only [fillTrapFrame]
    refine Within.trans (within_store ?_ ?_) (Within.trans (within_store ?_ ?_)
      (Within.trans (within_store ?_ ?_) (Within.trans (within_store ?_ ?_)
      (Within.trans (within_store ?_ ?_) ((within_store ?_ ?_).trans (within_store ?_ ?_))))))
      <;> omega
  · simp only [fillTrapFrame]
    rw [show frame + 60 = frame + 4 * 15 from rfl, words_store (by decide),
      show frame + 48 = frame + 4 * 12 from rfl, words_store (by decide),
      show frame + 56 = frame + 4 * 14 from rfl, words_store (by decide),
      show frame + 64 = frame + 4 * 16 from rfl, words_store (by decide),
      show frame + 32 = frame + 4 * 8 from rfl, words_store (by decide),
      show frame + 36 = frame + 4 * 9 from rfl, words_store (by decide),
      show frame + 52 = frame + 4 * 13 from rfl, words_store (by decide), h]
    rfl

/-- The trap frame of a clone. -/
theorem copyTrapFrame_spec (h : Holds mem (cloneTrapFrame CloneTcb) c)
    (hapart : cloneTrapFrame CloneTcb + 68 ≤ frame ∨ frame + 68 ≤ cloneTrapFrame CloneTcb) :
    Within frame (frame + 68) mem (copyTrapFrame frame CloneTcb mem)
      ∧ Holds (copyTrapFrame frame CloneTcb mem) frame c.clone := by
  have hcopy : Within frame (frame + 68) mem
      (copy trapFrameWords (cloneTrapFrame CloneTcb) frame mem) := within_copy (n := 17)
  refine ⟨hcopy.trans (within_store (by omega) (by omega)), ?_⟩
  have hholds : Holds (copy trapFrameWords (cloneTrapFrame CloneTcb) frame mem) frame c := by
    obtain ⟨huser, oesp, err, hwords⟩ := h
    exact ⟨huser, oesp, err, (words_copy hapart).trans hwords⟩
  obtain ⟨huser, oesp, err, hwords⟩ := hholds.store_eax 0
  exact ⟨huser, oesp, err, hwords⟩

/-- The size of a stack. -/
theorem stackTop_eq (tcb : Tcb) : tcb.stackTop = tcb.KernelStack + 12288 := rfl

/-- A stack that leads into `KiStartThread`. -/
theorem ready_new (hmem : mem' = fillSchedulerFrame StackPtr Eflags code.KiStartThread StartRoutine
      StartContext mem)
    (hlow : tcb.KernelStack ≤ StackPtr) (htop : StackPtr + 52 ≤ tcb.stackTop)
    (h : StartRoutine = code.KiRunUserThread → StartContext + 68 = tcb.stackTop
      ∧ StackPtr + 52 ≤ StartContext ∧ c.entered = false ∧ Holds mem StartContext c) :
    Ready code mem' ⟨tcb.KernelStack, StackPtr⟩ c [] := by
  subst hmem
  obtain ⟨hwithin, heip, hroutine, hcontext⟩ :=
    fillSchedulerFrame_spec StackPtr Eflags code.KiStartThread StartRoutine StartContext mem
  refine ⟨hlow, Or.inl ⟨rfl, heip, ?_⟩⟩
  simp only [hroutine, hcontext]
  refine .start htop fun hrun => ?_
  obtain ⟨hframe, hbelow, hnew, hholds⟩ := h hrun
  exact ⟨hframe, hbelow, hnew, hholds.congr fun y hlo hhi => hwithin y (by omega)⟩

/-- The trap frame of a user thread, in memory that has been cleared. -/
theorem userTrapFrame_spec (hrun : userTrapFrame frame UserStack clone StartRoutine mem = .ok mem')
    (hclear : words mem frame 17 = List.replicate 17 0)
    (hnew : clone = none → c = ⟨startRegisters StartRoutine UserStack, 0, none, false⟩)
    (hclone : ∀ T, clone = some T → ∃ parent, c = parent.clone ∧ Holds mem (cloneTrapFrame T) parent
      ∧ (cloneTrapFrame T + 68 ≤ frame ∨ frame + 68 ≤ cloneTrapFrame T)) :
    Within frame (frame + 68) mem mem' ∧ Holds mem' frame c := by
  unfold userTrapFrame at hrun
  cases clone with
  | some T =>
    obtain ⟨u, -, hrun⟩ := kernel_bind_eq_ok.mp hrun
    obtain rfl := Except.ok.inj hrun
    obtain ⟨parent, rfl, hholds, hapart⟩ := hclone T rfl
    exact copyTrapFrame_spec hholds hapart
  | none =>
    obtain ⟨u, -, hrun⟩ := kernel_bind_eq_ok.mp hrun
    obtain rfl := Except.ok.inj hrun
    obtain rfl := hnew rfl
    exact fillTrapFrame_spec hclear

/-- **`KiCreateThreadContext`** makes the stack of a thread that does not run: of a new one, or of a clone
whose parent has its trap frame where it is looked for. -/
theorem kiCreateThreadContext_spec
    (hrun : kiCreateThreadContext code tcb UserStack clone StartRoutine StartContext mem
      = .ok (mem', StackPtr))
    (hkernel : clone = none → StartRoutine ≠ code.KiRunUserThread)
    (hnew : clone = none → c = ⟨startRegisters StartRoutine UserStack, 0, none, false⟩)
    (hclone : ∀ T, clone = some T → ∃ parent, c = parent.clone ∧ Holds mem (cloneTrapFrame T) parent
      ∧ (cloneTrapFrame T + 68 ≤ tcb.KernelStack ∨ tcb.stackTop ≤ cloneTrapFrame T)) :
    Within tcb.KernelStack tcb.stackTop mem mem'
      ∧ Ready code mem' ⟨tcb.KernelStack, StackPtr⟩ c [] := by
  have htop := stackTop_eq tcb
  obtain ⟨u, -, hrun⟩ := kernel_bind_eq_ok.mp hrun
  dsimp only at hrun
  split at hrun
  -- a kernel thread
  · obtain ⟨u, hnone, hrun⟩ := kernel_bind_eq_ok.mp hrun
    obtain ⟨u, -, hrun⟩ := kernel_bind_eq_ok.mp hrun
    obtain ⟨rfl, rfl⟩ := Prod.mk.inj (Except.ok.inj hrun)
    have hne := hkernel (assert_eq_ok.mp hnone)
    refine ⟨?_, ready_new rfl (by simp only [schedulerFrameWords]; omega)
      (by simp only [schedulerFrameWords]; omega) fun hroutine => absurd hroutine hne⟩
    obtain ⟨hwithin, -⟩ := fillSchedulerFrame_spec (tcb.stackTop - 4 * schedulerFrameWords)
      (FL_MBS ||| FL_IF) code.KiStartThread StartRoutine StartContext
      (clear schedulerFrameWords (tcb.stackTop - 4 * schedulerFrameWords) mem)
    simp only [schedulerFrameWords] at *
    exact (within_clear.mono (by omega) (by omega)).trans (hwithin.mono (by omega) (by omega))
  · split at hrun
    -- a user thread
    · obtain ⟨mem₁, hframe, hrun⟩ := kernel_bind_eq_ok.mp hrun
      obtain ⟨rfl, rfl⟩ := Prod.mk.inj (Except.ok.inj hrun)
      simp only [schedulerFrameWords, trapFrameWords] at hframe ⊢
      have hlower : Within tcb.KernelStack tcb.stackTop mem
          (clear 13 (tcb.stackTop - 4 * 17 - 4 * 13) (clear 17 (tcb.stackTop - 4 * 17) mem)) :=
        (within_clear.mono (by omega) (by omega)).trans (within_clear.mono (by omega) (by omega))
      have hclear : words (clear 13 (tcb.stackTop - 4 * 17 - 4 * 13)
          (clear 17 (tcb.stackTop - 4 * 17) mem)) (tcb.stackTop - 4 * 17) 17 = List.replicate 17 0 := by
        rw [within_clear.words (Or.inr (by omega)), words_clear]
      have hfirst : c.entered = false := by
        cases clone with
        | none => rw [hnew rfl]
        | some T =>
          obtain ⟨parent, rfl, -⟩ := hclone T rfl
          rfl
      obtain ⟨hwithin, hholds⟩ := userTrapFrame_spec hframe hclear hnew fun T hT => by
        obtain ⟨parent, hparent, hholds, hapart⟩ := hclone T hT
        exact ⟨parent, hparent, hholds.congr fun y hlo hhi => hlower y (by omega), by omega⟩
      refine ⟨?_, ready_new rfl (by omega) (by omega) fun _ => ⟨by omega, by omega, hfirst, hholds⟩⟩
      refine (hlower.trans (hwithin.mono (by omega) (by omega))).trans ?_
      exact (fillSchedulerFrame_spec ..).1.mono (by omega) (by omega)
    · cases hrun

/-! ## The invariant -/

/-- **The invariant**, for the contexts of the user programs: every thread has a stack of its own; a thread
in user mode has nothing on it; the thread that runs in the kernel, and every thread that does not run,
has on it what it needs to go on; the task state segment has the top of the stack of the current thread,
unless that is in the routine that it was started with. -/
structure Inv (code : Code) (contexts : τ → UserContext) (m : Machine τ) : Prop where
  current : m.CurrentThread ∈ m.live
  used : m.live ⊆ m.used
  apart : ∀ t ∈ m.live, ∀ u ∈ m.live, t ≠ u →
    (m.tcb t).stackTop ≤ (m.tcb u).KernelStack ∨ (m.tcb u).stackTop ≤ (m.tcb t).KernelStack
  user : m.cpu.UserMode → m.currentCalls = [] ∧ m.cpu.User
  kernel : ¬ m.cpu.UserMode →
    Chained code m.mem m.current.stackTop (contexts m.CurrentThread) m.currentCalls
      ∧ m.current.KernelStack ≤ m.cpu.esp ∧ m.cpu.esp ≤ stackLimit m.current m.currentCalls
  tss : m.TS_esp0 = m.current.stackTop
    ∨ ∃ esp StartRoutine StartContext,
      m.currentCalls.getLast? = some (.start esp StartRoutine StartContext)
  others : ∀ t ∈ m.live, t ≠ m.CurrentThread →
    Ready code m.mem (m.tcb t) (contexts t) (m.calls t)

omit [DecidableEq τ] in
/-- **In user mode the task state segment has the top of the stack.** -/
theorem Inv.esp0 (h : Inv code contexts m) (hmode : m.cpu.UserMode) :
    m.TS_esp0 = m.current.stackTop := by
  rcases h.tss with htss | ⟨esp, StartRoutine, StartContext, hlast⟩
  · exact htss
  · rw [(h.user hmode).1] at hlast
    cases hlast

omit [DecidableEq τ] in
/-- The other threads, when only the stack of the current one has changed. -/
theorem Inv.others_congr (h : Inv code contexts m)
    (hmem : Within m.current.KernelStack m.current.stackTop m.mem mem') (ht : t ∈ m.live)
    (hne : t ≠ m.CurrentThread) : Ready code mem' (m.tcb t) (contexts t) (m.calls t) := by
  refine (h.others t ht hne).congr fun y hlo hhi => hmem y ?_
  rcases h.apart t ht m.CurrentThread h.current hne with hbelow | habove
  · exact Or.inl (hhi.trans_le hbelow)
  · exact Or.inr (habove.trans hlo)

@[simp] theorem setCalls_current (m : Machine τ) : (m.setCalls calls).currentCalls = calls :=
  Function.update_self ..

theorem setCalls_other (m : Machine τ) (hne : t ≠ m.CurrentThread) :
    (m.setCalls calls).calls t = m.calls t := Function.update_of_ne hne ..

omit [DecidableEq τ] in
/-- The user program runs. -/
theorem Inv.runUser (h : Inv code contexts m) (hmode : m.cpu.UserMode) (hr : r.User) :
    Inv code contexts { m with cpu := r } where
  current := h.current
  used := h.used
  apart := h.apart
  user _ := ⟨(h.user hmode).1, hr⟩
  kernel hno := absurd hr.1 hno
  tss := h.tss
  others := h.others

/-- **A trap**: the frame is pushed, below what is in use. -/
theorem Inv.enter {contexts' : τ → UserContext} (h : Inv code contexts m) (base frame : Nat)
    (hother : ∀ t, t ≠ m.CurrentThread → contexts' t = contexts t)
    (hbase : (if m.cpu.UserMode then m.TS_esp0 else m.cpu.esp) = base)
    (hframe : frame + 4 * (trapWords m.cpu base trapno err).length = base)
    (hlow : m.current.KernelStack ≤ frame) (hhigh : base ≤ m.current.stackTop)
    (hchain : Chained code (pushAll (trapWords m.cpu base trapno err) base m.mem) m.current.stackTop
      (contexts' m.CurrentThread) (.trap frame none :: m.currentCalls))
    (htss : m.currentCalls = [] → m.TS_esp0 = m.current.stackTop) :
    Inv code contexts' (kiSaveTrapFrame trapno err m) := by
  have hsub : base - 4 * (trapWords m.cpu base trapno err).length = frame := by omega
  have hcalls : (kiSaveTrapFrame trapno err m).currentCalls = .trap frame none :: m.currentCalls := by
    simp only [kiSaveTrapFrame, hbase, hsub, Machine.setCalls, Machine.currentCalls, Function.update_self]
  have hmem : (kiSaveTrapFrame trapno err m).mem
      = pushAll (trapWords m.cpu base trapno err) base m.mem := by
    simp only [kiSaveTrapFrame, hbase]
  have hesp : (kiSaveTrapFrame trapno err m).cpu.esp = frame := by
    simp only [kiSaveTrapFrame, hbase, hsub]
  have hmode : ¬ (kiSaveTrapFrame trapno err m).cpu.UserMode := show ¬ GD_KT % 4 = 3 by decide
  have hwithin := within_pushAll (m := m.mem) hframe
  refine ⟨h.current, h.used, h.apart, fun hno => absurd hno hmode, fun _ => ?_, ?_, ?_⟩
  · rw [hcalls, hmem, hesp]
    exact ⟨hchain, hlow, Nat.le_refl frame⟩
  · by_cases hempty : m.currentCalls = []
    · exact Or.inl (htss hempty)
    · rcases h.tss with htss | hstart
      · exact Or.inl htss
      · rw [hcalls, List.getLast?_cons_of_ne_nil hempty]
        exact Or.inr hstart
  · intro t ht hne
    have hne : t ≠ m.CurrentThread := hne
    have hready := h.others_congr (hwithin.mono hlow hhigh) ht hne
    rw [hother t hne, hmem, kiSaveTrapFrame, setCalls_other m hne]
    exact hready

/-- **A user program enters the kernel**: its trap frame is at the top of the stack. -/
theorem Inv.trap_user (h : Inv code contexts m) (hmode : m.cpu.UserMode) (trapno err : Nat) :
    Inv code (Function.update contexts m.CurrentThread ⟨m.cpu, trapno, none, true⟩)
      (kiSaveTrapFrame trapno err m) := by
  obtain ⟨hcalls, huser⟩ := h.user hmode
  have hesp0 := h.esp0 hmode
  have htop := stackTop_eq m.current
  have hlength : (trapWords m.cpu m.current.stackTop trapno err).length = 17 := by
    rw [trapWords, if_pos hmode]
    rfl
  refine h.enter m.current.stackTop (m.current.stackTop - 68) (fun t ht => Function.update_of_ne ht ..)
    ((if_pos hmode).trans hesp0) (by omega) (by omega) (Nat.le_refl _) ?_ fun _ => hesp0
  rw [hcalls, Function.update_self]
  exact .user (by omega) rfl (holds_trap huser (by omega))

/-- **The kernel is interrupted.** -/
theorem Inv.trap_kernel (h : Inv code contexts m) (hmode : ¬ m.cpu.UserMode)
    (hroom : m.current.KernelStack + 60 ≤ m.cpu.esp) :
    Inv code contexts (kiSaveTrapFrame trapno err m) := by
  obtain ⟨hchain, hlow, hlimit⟩ := h.kernel hmode
  obtain ⟨x, rest, hcalls, hbase, hle⟩ := hchain.limit_le
  rw [hbase] at hlimit
  have hlength : (trapWords m.cpu m.cpu.esp trapno err).length = 15 := by
    rw [trapWords, if_neg hmode]
    rfl
  have hframe : m.cpu.esp - 60 + 4 * (trapWords m.cpu m.cpu.esp trapno err).length = m.cpu.esp := by
    omega
  refine h.enter m.cpu.esp (m.cpu.esp - 60) (fun t ht => rfl) (if_neg hmode) hframe (by omega)
    (hlimit.trans hle) ?_ fun hempty => ?_
  · rw [hcalls] at hchain ⊢
    refine .nested (by omega) ?_ (hchain.congr fun y hlo hhi => ?_)
    · rw [trapWords_kernel_cs hmode (by omega)]
      exact hmode
    · exact within_pushAll hframe y (by omega)
  · rw [hcalls] at hempty
    cases hempty

omit [DecidableEq τ] in
/-- **The kernel runs**, on its part of the stack. -/
theorem Inv.kernelRuns (h : Inv code contexts m) (hmode : ¬ m.cpu.UserMode)
    (hlow : m.current.KernelStack ≤ r.esp) (hlimit : r.esp ≤ stackLimit m.current m.currentCalls)
    (stack : StackMemory) : Inv code contexts (kernelRuns r stack m) := by
  obtain ⟨hchain, -, -⟩ := h.kernel hmode
  obtain ⟨x, rest, hcalls, hbase, hle⟩ := hchain.limit_le
  have hwithin : Within m.current.KernelStack x.base m.mem (Trap.kernelRuns r stack m).mem := by
    intro y hy
    refine if_neg fun hpart => ?_
    obtain ⟨hlo, hhi⟩ := hpart
    omega
  have hmode' : ¬ (Trap.kernelRuns r stack m).cpu.UserMode := show ¬ GD_KT % 4 = 3 by decide
  refine ⟨h.current, h.used, h.apart, fun hno => absurd hno hmode', fun _ => ⟨?_, hlow, hlimit⟩, h.tss,
    fun t ht hne => h.others_congr (hwithin.mono (Nat.le_refl _) hle) ht hne⟩
  show Chained code _ m.current.stackTop (contexts m.CurrentThread) m.currentCalls
  rw [hcalls] at hchain ⊢
  exact hchain.congr fun y hlo _ => hwithin y (Or.inr hlo)

/-- **A thread is created**, on a stack of its own. -/
theorem Inv.insert {child : τ} {KernelStack : Nat} (h : Inv code contexts m) (hmode : ¬ m.cpu.UserMode)
    (hnew : m.NewStack child KernelStack) (hwithin : Within KernelStack (KernelStack + 12288) m.mem mem')
    (hready : Ready code mem' ⟨KernelStack, StackPtr⟩ c []) :
    Inv code (Function.update contexts child c)
      { m with
        mem := mem'
        tcb := Function.update m.tcb child ⟨KernelStack, StackPtr⟩
        calls := Function.update m.calls child []
        live := insert child m.live
        used := insert child m.used } := by
  obtain ⟨hfresh, -, -, hapart⟩ := hnew
  have hother : ∀ t ∈ m.live, t ≠ child := by
    rintro t ht rfl
    exact hfresh (h.used ht)
  have hcurrent := hother m.CurrentThread h.current
  have hsame : ∀ t ∈ m.live, ∀ y, (m.tcb t).KernelStack ≤ y → y < (m.tcb t).stackTop →
      mem' y = m.mem y := by
    intro t ht y hlo hhi
    refine hwithin y ?_
    rcases hapart t ht with hbelow | habove
    · exact Or.inl (hhi.trans_le hbelow)
    · exact Or.inr (habove.trans hlo)
  obtain ⟨hchain, hlow, hlimit⟩ := h.kernel hmode
  refine ⟨Finset.mem_insert_of_mem h.current, Finset.insert_subset_insert _ h.used, ?_,
    fun hno => absurd hno hmode, fun _ => ?_, ?_, ?_⟩
  · intro t ht u hu hne
    rcases Finset.mem_insert.mp ht with ht' | ht'
    · rcases Finset.mem_insert.mp hu with hu' | hu'
      · exact absurd (ht'.trans hu'.symm) hne
      · subst ht'
        simp only [Function.update_self, Function.update_of_ne (hother u hu')]
        exact (hapart u hu').symm
    · rcases Finset.mem_insert.mp hu with hu' | hu'
      · subst hu'
        simp only [Function.update_self, Function.update_of_ne (hother t ht')]
        exact hapart t ht'
      · simp only [Function.update_of_ne (hother u hu'), Function.update_of_ne (hother t ht')]
        exact h.apart t ht' u hu' hne
  · simp only [Machine.current, Machine.currentCalls, Function.update_of_ne hcurrent] at *
    obtain ⟨x, rest, hcalls, hbase, hle⟩ := hchain.limit_le
    refine ⟨?_, hlow, hlimit⟩
    rw [hcalls] at hchain ⊢
    refine hchain.congr fun y hlo hhi => hsame _ h.current y ?_ hhi
    omega
  · simp only [Machine.current, Machine.currentCalls, Function.update_of_ne hcurrent]
    exact h.tss
  · intro t ht hne
    rcases Finset.mem_insert.mp ht with rfl | ht
    · simp only [Function.update_self]
      exact hready
    · simp only [Function.update_of_ne (hother t ht)]
      exact (h.others t ht hne).congr (hsame t ht)

/-- **A thread is created** that is not a clone. -/
theorem Inv.create {child : τ} {KernelStack : Nat} (h : Inv code contexts m) (hmode : ¬ m.cpu.UserMode)
    (hnew : m.NewStack child KernelStack) (hroutine : StartRoutine ≠ code.KiRunUserThread)
    (hrun : pspCreateThread code child KernelStack UserStack none StartRoutine StartContext m = .ok m') :
    Inv code (Function.update contexts child ⟨startRegisters StartRoutine UserStack, 0, none, false⟩) m' := by
  obtain ⟨⟨mem, StackPtr⟩, hcreate, hrun⟩ := kernel_bind_eq_ok.mp hrun
  obtain rfl := Except.ok.inj hrun
  obtain ⟨hwithin, hready⟩ := kiCreateThreadContext_spec hcreate (fun _ => hroutine) (fun _ => rfl)
    fun T hT => absurd hT.symm (Option.some_ne_none T)
  exact h.insert hmode hnew hwithin hready

omit [DecidableEq τ] in
/-- **The trap frame of a thread that handles a system call** is where it is looked for. -/
theorem Inv.systemCall (h : Inv code contexts m) (hmode : ¬ m.cpu.UserMode) (hcall : m.InSystemCall) :
    m.currentCalls = [.trap (cloneTrapFrame m.current) none]
      ∧ (contexts m.CurrentThread).RetStatus = none ∧ (contexts m.CurrentThread).entered = true
      ∧ (contexts m.CurrentThread).trapno = SYSCALL_INTR
      ∧ Holds m.mem (cloneTrapFrame m.current) (contexts m.CurrentThread) := by
  have hchain := (h.kernel hmode).1
  unfold Machine.InSystemCall at hcall
  split at hcall
  · rename_i frame hcalls
    rw [hcalls] at hchain
    obtain ⟨htop, hstatus, hentered, hholds⟩ := hchain.single
    have hframe : frame = cloneTrapFrame m.current := by
      simp only [cloneTrapFrame, trapFrameWords]
      omega
    subst hframe
    exact ⟨hcalls, hstatus.symm, hentered, hholds.trapno_eq.symm.trans hcall, hholds⟩
  · cases hcall

/-- The result of the system call is known. -/
theorem Inv.setStatus (h : Inv code contexts m) (hmode : ¬ m.cpu.UserMode)
    (hcalls : m.currentCalls = [.trap frame none]) (pid : Nat) :
    Inv code (Function.update contexts m.CurrentThread { contexts m.CurrentThread with RetStatus := some pid })
      (m.setCalls [.trap frame (some pid)]) := by
  obtain ⟨hchain, hlow, hlimit⟩ := h.kernel hmode
  rw [hcalls] at hchain hlimit
  refine ⟨h.current, h.used, h.apart, fun hno => absurd hno hmode, fun _ => ?_, ?_, fun t ht hne => ?_⟩
  · rw [setCalls_current]
    refine ⟨?_, hlow, hlimit⟩
    rw [show (m.setCalls [.trap frame (some pid)]).CurrentThread = m.CurrentThread from rfl, Function.update_self]
    obtain ⟨htop, -, hentered, hholds⟩ := hchain.single
    have hholds' : Holds m.mem frame { contexts m.CurrentThread with RetStatus := some pid } :=
      ⟨hholds.user, hholds.frame⟩
    exact .user htop hentered hholds'
  · rcases h.tss with htss | ⟨esp, StartRoutine, StartContext, hlast⟩
    · exact Or.inl htss
    · rw [hcalls] at hlast
      cases hlast
  · have hne : t ≠ m.CurrentThread := hne
    rw [Function.update_of_ne hne, setCalls_other m hne]
    exact h.others t ht hne

/-- **The current thread is cloned**: its trap frame is where it is looked for. -/
theorem Inv.fork {child : τ} {KernelStack pid : Nat} (h : Inv code contexts m) (hmode : ¬ m.cpu.UserMode)
    (hnew : m.NewStack child KernelStack) (hcall : m.InSystemCall)
    (hrun : kCloneProcess code child KernelStack pid m = .ok m') :
    Inv code (Function.update (Function.update contexts child (contexts m.CurrentThread).clone) m.CurrentThread
      { contexts m.CurrentThread with RetStatus := some pid }) m' := by
  obtain ⟨hcalls, -, -, -, hholds⟩ := h.systemCall hmode hcall
  have hne : m.CurrentThread ≠ child := by
    rintro rfl
    exact hnew.1 (h.used h.current)
  obtain ⟨m₁, hcreate, hrun⟩ := kernel_bind_eq_ok.mp hrun
  obtain ⟨⟨mem, StackPtr⟩, hcontext, hcreate⟩ := kernel_bind_eq_ok.mp hcreate
  obtain rfl := Except.ok.inj hcreate
  have hapart : cloneTrapFrame m.current + 68 ≤ KernelStack
      ∨ (⟨KernelStack, 0⟩ : Tcb).stackTop ≤ cloneTrapFrame m.current := by
    have htop := stackTop_eq m.current
    have htop' := stackTop_eq ⟨KernelStack, 0⟩
    simp only [cloneTrapFrame, trapFrameWords]
    rcases hnew.2.2.2 m.CurrentThread h.current with hbelow | habove
    · exact Or.inl (by simp only [Machine.current] at *; omega)
    · refine Or.inr ?_
      have habove : (⟨KernelStack, 0⟩ : Tcb).stackTop ≤ m.current.KernelStack := habove
      omega
  obtain ⟨hwithin, hready⟩ := kiCreateThreadContext_spec (c := (contexts m.CurrentThread).clone) hcontext
    (fun hnone => absurd hnone (Option.some_ne_none _)) (fun hnone => absurd hnone (Option.some_ne_none _))
    fun T hT => ⟨_, rfl, Option.some.inj hT ▸ hholds, Option.some.inj hT ▸ hapart⟩
  have hinsert := h.insert hmode hnew hwithin hready
  have hcalls' : Function.update m.calls child [] m.CurrentThread = [.trap (cloneTrapFrame m.current) none] :=
    (Function.update_of_ne hne ..).trans hcalls
  simp only [Machine.currentCalls, hcalls'] at hrun
  obtain rfl := Except.ok.inj hrun
  have hstatus := hinsert.setStatus hmode hcalls' pid
  simp only [Function.update_of_ne hne] at hstatus
  exact hstatus

/-! ## Switching -/

/-- **What `KiContextSwitch` pushes**: the return address comes first. -/
theorem kiSwapThread_mem (code : Code) (next : τ) (hroom : 40 ≤ m.cpu.esp) :
    Within (m.cpu.esp - 40) m.cpu.esp m.mem (kiSwapThread code next m).mem
      ∧ (kiSwapThread code next m).mem (eipOf (m.cpu.esp - 40)) = code.KiSwapThread := by
  have hsize : m.cpu.esp - 40 + 4 * ([code.KiSwapThread, m.cpu.eflags] ++ pushad m.cpu (m.cpu.esp - 8)).length
      = m.cpu.esp := by
    simp only [pushad, List.length_append, List.length_cons, List.length_nil]
    omega
  refine ⟨within_pushAll hsize, ?_⟩
  have hword := pushAll_word (k := 9) ([code.KiSwapThread, m.cpu.eflags] ++ pushad m.cpu (m.cpu.esp - 8)) m.mem hsize
    (show 9 < 10 by decide)
  exact (Option.some.inj hword).symm

/-- The other threads are in the same routines. -/
theorem kiSwapThread_calls_other {next : τ} (hne : t ≠ next) : (kiSwapThread code next m).calls t = m.calls t := by
  have hcalls : (kiSwapThread code next m).calls = m.calls
      ∨ ∃ started, (kiSwapThread code next m).calls = Function.update m.calls next started := by
    unfold kiSwapThread kiContextSwitch
    dsimp only
    split
    · exact Or.inr ⟨_, rfl⟩
    · exact Or.inl rfl
  rcases hcalls with hcalls | ⟨started, hcalls⟩
  · rw [hcalls]
  · rw [hcalls, Function.update_of_ne hne]

/-- **The thread that is switched to goes on** with what its context leads to. -/
theorem kiSwapThread_goes {next : τ}
    (hready : Ready code (kiSwapThread code next m).mem (m.tcb next) c (m.calls next)) :
    Chained code (kiSwapThread code next m).mem (m.tcb next).stackTop c ((kiSwapThread code next m).calls next)
      ∧ (m.tcb next).StackPointer + 40 ≤ stackLimit (m.tcb next) ((kiSwapThread code next m).calls next) := by
  rcases hready.context with ⟨-, heip, hchain⟩ | ⟨heip, hchain, hlimit⟩
  · have hcalls : (kiSwapThread code next m).calls next
        = [.start ((m.tcb next).StackPointer + 40)
            ((kiSwapThread code next m).mem ((m.tcb next).StackPointer + 44))
            ((kiSwapThread code next m).mem ((m.tcb next).StackPointer + 48))] := by
      have hupdate : (kiSwapThread code next m).calls = Function.update m.calls next _ := if_pos heip
      rw [hupdate, Function.update_self]
      rfl
    rw [hcalls]
    exact ⟨hchain, Nat.le_refl _⟩
  · have hcalls : (kiSwapThread code next m).calls next = m.calls next := by
      have hkept : (kiSwapThread code next m).calls = m.calls :=
        if_neg fun hstart => code.ne (heip.symm.trans hstart)
      rw [hkept]
    rw [hcalls]
    exact ⟨hchain, hlimit⟩

/-- A context switch moves no stack. -/
theorem kiSwapThread_stack {next : τ} (t : τ) :
    ((kiSwapThread code next m).tcb t).KernelStack = (m.tcb t).KernelStack := by
  have htcb : (kiSwapThread code next m).tcb
      = Function.update m.tcb m.CurrentThread ⟨m.current.KernelStack, m.cpu.esp - 40⟩ := rfl
  by_cases ht : t = m.CurrentThread
  · rw [htcb, ht, Function.update_self]
    rfl
  · rw [htcb, Function.update_of_ne ht]

/-- The top neither. -/
theorem kiSwapThread_stackTop {next : τ} (t : τ) :
    ((kiSwapThread code next m).tcb t).stackTop = (m.tcb t).stackTop := by
  rw [Tcb.stackTop, kiSwapThread_stack, Tcb.stackTop]

/-- **Switching to another thread**: the one that ran has a context on its stack, and the other one goes on. -/
theorem Inv.swap {next : τ} (h : Inv code contexts m) (hmode : ¬ m.cpu.UserMode) (hlive : next ∈ m.live)
    (hne : next ≠ m.CurrentThread) (hroom : m.current.KernelStack + 40 ≤ m.cpu.esp) :
    Inv code contexts (kiSwapThread code next m) := by
  obtain ⟨hchain, hlow, hlimit⟩ := h.kernel hmode
  obtain ⟨x, rest, hcalls, hbase, hle⟩ := hchain.limit_le
  obtain ⟨hwithin, hword⟩ := kiSwapThread_mem code next (m := m) (by omega)
  have htcb : (kiSwapThread code next m).tcb
      = Function.update m.tcb m.CurrentThread ⟨m.current.KernelStack, m.cpu.esp - 40⟩ := rfl
  have hready : Ready code (kiSwapThread code next m).mem (m.tcb next) (contexts next) (m.calls next) :=
    h.others_congr (hwithin.mono (by omega) (by omega)) hlive hne
  obtain ⟨hgoes, hbelow⟩ := kiSwapThread_goes hready
  have hlow' := hready.low
  have hnext : (kiSwapThread code next m).current = m.tcb next := by
    show (kiSwapThread code next m).tcb next = m.tcb next
    rw [htcb, Function.update_of_ne hne]
  refine ⟨hlive, h.used, ?_, fun hno => absurd hno hmode, fun _ => ?_, Or.inl ?_, ?_⟩
  · intro t ht u hu hne
    simp only [kiSwapThread_stackTop, kiSwapThread_stack]
    exact h.apart t ht u hu hne
  · rw [hnext]
    refine ⟨hgoes, ?_, hbelow⟩
    show (m.tcb next).KernelStack ≤ (m.tcb next).StackPointer + 40
    omega
  · rw [hnext]
    rfl
  · intro t ht htne
    have htne : t ≠ next := htne
    rw [kiSwapThread_calls_other htne]
    by_cases hold : t = m.CurrentThread
    · subst hold
      rw [htcb, Function.update_self]
      refine ⟨by simp only; omega, Or.inr ⟨hword, ?_, ?_⟩⟩
      · show Chained code _ m.current.stackTop _ m.currentCalls
        rw [hcalls] at hchain ⊢
        exact hchain.congr fun y hlo hhi => hwithin y (by omega)
      · show m.cpu.esp - 40 + 40 ≤ stackLimit _ m.currentCalls
        rw [hcalls] at hlimit ⊢
        simp only [stackLimit] at hlimit ⊢
        omega
    · rw [htcb, Function.update_of_ne hold]
      exact h.others_congr (hwithin.mono (by omega) (by omega)) ht hold

/-! ## The way back -/

/-- A segment that is no segment of the kernel stays as it is. -/
theorem userSelector_idem (selector : Nat) : userSelector (userSelector selector) = userSelector selector := by
  by_cases hselector : selector = GD_KT ∨ selector = GD_KD
  · have hzero : userSelector selector = 0 := if_pos hselector
    rw [hzero]
    rfl
  · have hsame : userSelector selector = selector := if_neg hselector
    rw [hsame, hsame]

/-- The registers that are popped are those of a user program. -/
theorem user_restored (h : r.User) (fs gs : Nat) :
    { r with fs := userSelector fs, gs := userSelector gs }.User := by
  obtain ⟨hmode, hselectors⟩ := h
  refine ⟨hmode, fun selector hs => ?_⟩
  simp only [List.mem_cons, List.not_mem_nil, or_false] at hs
  rcases hs with rfl | rfl | rfl | rfl
  · exact hselectors _ (by simp)
  · exact hselectors _ (by simp)
  · exact userSelector_idem fs
  · exact userSelector_idem gs

/-- **The current thread is in user mode again.** -/
theorem Inv.leave {cpu : Registers} {esp0 : Nat} (h : Inv code contexts m)
    (hmem : Within m.current.KernelStack m.current.stackTop m.mem mem') (hcpu : cpu.User)
    (htss : esp0 = m.current.stackTop) :
    Inv code contexts { m.setCalls [] with mem := mem', cpu := cpu, TS_esp0 := esp0 } where
  current := h.current
  used := h.used
  apart := h.apart
  user _ := ⟨Function.update_self .., hcpu⟩
  kernel hno := absurd hcpu.1 hno
  tss := Or.inl htss
  others t ht hne := by
    have hready := h.others_congr hmem ht hne
    have hcalls : (m.setCalls []).calls t = m.calls t := setCalls_other m hne
    simp only [hcalls]
    exact hready

/-- **A new user thread is started.** -/
theorem Inv.start (h : Inv code contexts m) (hmode : ¬ m.cpu.UserMode) (hroutine : m.AtUserThread code) :
    Inv code contexts (kiStartThread m) ∧ (contexts m.CurrentThread).entered = false
      ∧ (kiStartThread m).cpu = { (contexts m.CurrentThread).registers with
        fs := userSelector m.cpu.fs, gs := userSelector m.cpu.gs } := by
  have hchain := (h.kernel hmode).1
  unfold Machine.AtUserThread at hroutine
  split at hroutine
  · rename_i esp StartRoutine StartContext hcalls
    rw [hcalls] at hchain
    cases hchain with
    | start htop hstart =>
      obtain ⟨-, -, hnew, hholds⟩ := hstart hroutine
      have hrun : kiStartThread m = kiRunUserThread StartContext m := by
        rw [kiStartThread, hcalls]
      have hcpu : (kiRunUserThread StartContext m).cpu = restore m.mem StartContext m.cpu := rfl
      rw [hrun, hcpu, hholds.restore]
      refine ⟨?_, hnew, rfl⟩
      have hleave := h.leave Within.refl (user_restored hholds.user m.cpu.fs m.cpu.gs) rfl
      rw [← hholds.restore] at hleave
      exact hleave
  · cases hroutine

/-- The result that a thread gets in `eax` when it has handled a trap. -/
def UserContext.result (c : UserContext) (RetStatus : Nat) : Registers :=
  if c.trapno = SYSCALL_INTR then { c.registers with eax := c.RetStatus.getD RetStatus } else c.registers

/-- The result is stored to the frame, or nothing is. -/
theorem dispatched_within (frame RetStatus : Nat) (mem : StackMemory) :
    Within (frame + 28) (frame + 29) mem (dispatched frame RetStatus mem) := by
  unfold dispatched
  split
  · exact within_store (Nat.le_refl _) (Nat.lt_succ_self _)
  · exact Within.refl

/-- **The frame behind a dispatcher** holds the registers with the result. -/
theorem Holds.dispatched (h : Holds mem frame c) (RetStatus : Nat) :
    Holds (dispatched frame (c.RetStatus.getD RetStatus) mem) frame { c with registers := c.result RetStatus } := by
  unfold Trap.dispatched UserContext.result
  rw [h.trapno_eq]
  split
  · exact h.store_eax _
  · exact h

/-- **A trap has been handled**: the kernel goes on where it was interrupted, or the user program has the
registers that it had, with the result of its system call. -/
theorem Inv.ret (h : Inv code contexts m) (hmode : ¬ m.cpu.UserMode) (htrap : m.InTrap) (RetStatus : Nat) :
    Inv code contexts (kiTrapReturn RetStatus m)
      ∧ ((kiTrapReturn RetStatus m).cpu.UserMode → (contexts m.CurrentThread).entered = true
        ∧ (kiTrapReturn RetStatus m).cpu = { (contexts m.CurrentThread).result RetStatus with
          fs := userSelector m.cpu.fs, gs := userSelector m.cpu.gs }) := by
  obtain ⟨hchain, hlow, hlimit⟩ := h.kernel hmode
  unfold Machine.InTrap at htrap
  split at htrap
  · rename_i frame status rest hcalls
    have hret : kiTrapReturn RetStatus m
        = { m.setCalls rest with
            mem := dispatched frame (status.getD RetStatus) m.mem
            cpu := restore (dispatched frame (status.getD RetStatus) m.mem) frame m.cpu } := by
      rw [kiTrapReturn, hcalls]
    rw [hcalls] at hchain hlimit
    have hbase : m.cpu.esp ≤ frame := hlimit
    have hstore := dispatched_within frame (status.getD RetStatus) m.mem
    cases hrest : rest with
    | nil =>
      subst hrest
      obtain ⟨htop, rfl, hentered, hholds⟩ := hchain.single
      have hcpu := (hholds.dispatched RetStatus).restore m.cpu
      have huser := (hholds.dispatched RetStatus).user
      have htss : m.TS_esp0 = m.current.stackTop := by
        rcases h.tss with htss | ⟨esp, StartRoutine, StartContext, hlast⟩
        · exact htss
        · rw [hcalls] at hlast
          cases hlast
      rw [hret]
      refine ⟨?_, fun _ => ⟨hentered, hcpu⟩⟩
      have hleave := h.leave (hstore.mono (by omega) (by omega)) (user_restored huser m.cpu.fs m.cpu.gs) htss
      rw [← hcpu] at hleave
      exact hleave
    | cons x rest' =>
      subst hrest
      obtain ⟨hbelow, hcs, hchain'⟩ := hchain.tail
      have hle := hchain'.base_le
      have hkernel : ¬ (popFrame (dispatched frame (status.getD RetStatus) m.mem) frame m.cpu).UserMode := by
        rw [Registers.UserMode, popFrame, hstore (frame + 52) (by omega)]
        exact hcs
      have hrestored : restore (dispatched frame (status.getD RetStatus) m.mem) frame m.cpu
          = { popFrame (dispatched frame (status.getD RetStatus) m.mem) frame m.cpu with esp := frame + 60 } := by
        rw [restore, iret, if_neg hkernel]
      rw [hret, hrestored]
      refine ⟨⟨h.current, h.used, h.apart, fun hno => absurd hno hkernel, fun _ => ?_, ?_, fun t ht hne => ?_⟩,
        fun hno => absurd hno hkernel⟩
      · have hcalls' : (m.setCalls (x :: rest')).currentCalls = x :: rest' := setCalls_current m
        refine ⟨?_, ?_, ?_⟩
        · show Chained code _ m.current.stackTop _ (m.setCalls (x :: rest')).currentCalls
          rw [hcalls']
          exact hchain'.congr fun y hlo hhi => hstore y (by omega)
        · show m.current.KernelStack ≤ frame + 60
          omega
        · show frame + 60 ≤ stackLimit m.current (m.setCalls (x :: rest')).currentCalls
          rw [hcalls']
          exact hbelow
      · rcases h.tss with htss | hstart
        · exact Or.inl htss
        · rw [hcalls, List.getLast?_cons_of_ne_nil (List.cons_ne_nil _ _)] at hstart
          refine Or.inr ?_
          show ∃ esp StartRoutine StartContext, (m.setCalls (x :: rest')).currentCalls.getLast? = _
          rw [setCalls_current]
          exact hstart
      · have hne : t ≠ m.CurrentThread := hne
        have hready := h.others_congr (hstore.mono (by omega) (by omega)) ht hne
        have hother : (m.setCalls (x :: rest')).calls t = m.calls t := setCalls_other m hne
        simp only [hother]
        exact hready
  · cases htrap

/-- The stack of another thread is freed. -/
theorem Inv.free (h : Inv code contexts m) (hne : t ≠ m.CurrentThread) :
    Inv code contexts { m with live := m.live.erase t } where
  current := Finset.mem_erase.mpr ⟨hne.symm, h.current⟩
  used := (Finset.erase_subset ..).trans h.used
  apart u hu v hv := h.apart u (Finset.mem_of_mem_erase hu) v (Finset.mem_of_mem_erase hv)
  user := h.user
  kernel := h.kernel
  tss := h.tss
  others u hu := h.others u (Finset.mem_of_mem_erase hu)

/-! ## Steps -/

/-- **Every step keeps the invariant.** -/
theorem Inv.step (h : Inv code contexts m) (henabled : e.Enabled code m) (hrun : e.run code m = .ok m') :
    Inv code (e.contexts m contexts) m' := by
  cases e with
  | user r =>
    obtain rfl := Except.ok.inj hrun
    exact h.runUser henabled.1 henabled.2
  | trap trapno err =>
    obtain rfl := Except.ok.inj hrun
    by_cases hmode : m.cpu.UserMode
    · rw [TrapEvent.contexts, if_pos hmode]
      exact h.trap_user hmode trapno err
    · rw [TrapEvent.contexts, if_neg hmode]
      exact h.trap_kernel hmode (henabled.resolve_left hmode).2
  | kernel r stack =>
    obtain rfl := Except.ok.inj hrun
    exact h.kernelRuns henabled.1 henabled.2.1 henabled.2.2 stack
  | create child KernelStack UserStack StartRoutine StartContext =>
    exact h.create henabled.1 henabled.2.1 henabled.2.2 hrun
  | fork child KernelStack pid => exact h.fork henabled.1 henabled.2.1 henabled.2.2 hrun
  | swap next =>
    obtain rfl := Except.ok.inj hrun
    exact h.swap henabled.1 henabled.2.1 henabled.2.2.1 henabled.2.2.2
  | start =>
    obtain rfl := Except.ok.inj hrun
    exact (h.start henabled.1 henabled.2).1
  | ret RetStatus =>
    obtain rfl := Except.ok.inj hrun
    exact (h.ret henabled.1 henabled.2 RetStatus).1
  | free t =>
    obtain rfl := Except.ok.inj hrun
    exact h.free henabled

end KaushOS.Trap
