import KaushOS.Hal.Irql
import KaushOS.Library.Transition
import KaushOS.Library.WordStack
import KaushOS.Mm.Paging
import KaushOS.Ps.Process

/-! # Trap frames and kernel stacks

The registers of the processor and the kernel stacks of the threads, in `kern/ke/int.S`,
`kern/ke/ctxswitch.S`, `kern/ke/interrupt.c` and `kern/ke/scheduler.c`.

A thread enters the kernel on the stack whose top is in the task state segment. Its registers are pushed
there, and are popped when it leaves. `KiCreateThreadContext` lays out the stack of a new thread so that
the context switch and `KiRunUserThread` pop it in the same way.

* **`Registers`**, **`Machine`** — the processor, the kernel stacks, and the routines that each thread is
  in.
* **`kiSaveTrapFrame`, `popFrame`, `iret`** — the entry into the kernel, and the way back.
* **`kiSwapThread`, `kiRunUserThread`, `kiCreateThreadContext`** — the scheduler.
* **`TrapEvent`** — the steps. Of the compiled code, what it does to the stack of the thread that it runs
  on is left open: it may store anything below the frames of the routines that it returns to.

The floating-point registers are neither saved nor used by the kernel, and are not modelled. -/

namespace KaushOS.Trap

open Paging WordStack

/-! ## The processor -/

/-- `GD_KT`, the selector of the kernel text. -/
def GD_KT : Nat := 0x08

/-- `GD_KD`, the selector of the kernel data. -/
def GD_KD : Nat := 0x10

/-- `GD_UT`, the selector of the user text. -/
def GD_UT : Nat := 0x18

/-- `GD_UD`, the selector of the user data. -/
def GD_UD : Nat := 0x20

/-- `FL_MBS`, the flag that is always set. -/
def FL_MBS : Nat := 0x2

/-- `FL_IF`, the interrupt flag. -/
def FL_IF : Nat := 0x200

/-- **The registers of the processor.** -/
structure Registers where
  edi : Nat
  esi : Nat
  ebp : Nat
  ebx : Nat
  edx : Nat
  ecx : Nat
  eax : Nat
  es : Nat
  ds : Nat
  fs : Nat
  gs : Nat
  eip : Nat
  cs : Nat
  eflags : Nat
  esp : Nat
  ss : Nat
  deriving DecidableEq, Repr

/-- The processor is in user mode when the privilege level of the text segment is 3. -/
def Registers.UserMode (r : Registers) : Prop := r.cs % 4 = 3

instance (r : Registers) : Decidable r.UserMode := inferInstanceAs (Decidable (r.cs % 4 = 3))

/-- What `iret` to user mode leaves in a segment register: a segment of the kernel is taken away. -/
def userSelector (selector : Nat) : Nat :=
  if selector = GD_KT ∨ selector = GD_KD then 0 else selector

/-- **What a user program can have in the registers**: anything but the segments of the kernel. -/
def Registers.User (r : Registers) : Prop :=
  r.UserMode ∧ ∀ selector ∈ [r.es, r.ds, r.fs, r.gs], userSelector selector = selector

instance (r : Registers) : Decidable r.User := inferInstanceAs (Decidable (_ ∧ _))

/-! ## Threads -/

/-- The members `KernelStack` and `StackPointer` of a `KTHREAD`. -/
structure Tcb where
  KernelStack : Nat
  StackPointer : Nat
  deriving DecidableEq, Repr

/-- The top of the kernel stack of a thread. -/
def Tcb.stackTop (tcb : Tcb) : Nat := tcb.KernelStack + THREAD_STACK_SIZE * PGSIZE

/-- **The addresses of the routines** that are found on the stacks; `KiSwapThread` is the address in it that
`KiContextSwitch` returns to. -/
structure Code where
  KiStartThread : Nat
  KiRunUserThread : Nat
  KiSwapThread : Nat
  ne : KiSwapThread ≠ KiStartThread

/-- **A routine that a thread is in**, and will go on with. -/
inductive Activation
  /-- `_KiTrap`, with its trap frame, and the value of `RetStatus` when it is known. -/
  | trap (frame : Nat) (RetStatus : Option Nat)
  /-- `KiStartThread(StartRoutine, StartContext)`, with the stack pointer on entry. -/
  | start (esp StartRoutine StartContext : Nat)
  deriving DecidableEq, Repr

/-- The routine uses the stack from here on. -/
def Activation.base : Activation → Nat
  | .trap frame _ => frame
  | .start esp _ _ => esp

/-- **The processor and the threads**: `TS_esp0` is in the task state segment; `calls` are the routines that
a thread is in, the latest first; `live` are the threads whose kernel stack is allocated, and `used`
those that there have been. -/
structure Machine (τ : Type) where
  mem : StackMemory
  cpu : Registers
  TS_esp0 : Nat
  CurrentThread : τ
  tcb : τ → Tcb
  calls : τ → List Activation
  live : Finset τ
  used : Finset τ

variable {τ : Type} [DecidableEq τ]

/-- The control block of the current thread. -/
def Machine.current (m : Machine τ) : Tcb := m.tcb m.CurrentThread

/-- The routines that the current thread is in. -/
def Machine.currentCalls (m : Machine τ) : List Activation := m.calls m.CurrentThread

/-- The current thread is in other routines. -/
def Machine.setCalls (m : Machine τ) (calls : List Activation) : Machine τ :=
  { m with calls := Function.update m.calls m.CurrentThread calls }

/-- The lowest address of the stack of a thread that a routine uses to which it returns. -/
def stackLimit (tcb : Tcb) : List Activation → Nat
  | [] => tcb.stackTop
  | x :: _ => x.base

/-! ## Entering and leaving the kernel (`int.S`) -/

/-- What `pusha` pushes, when the stack pointer is `esp`. -/
def pushad (r : Registers) (esp : Nat) : List Nat :=
  [r.eax, r.ecx, r.edx, r.ebx, esp, r.ebp, r.esi, r.edi]

/-- **What is pushed on the way into the kernel**: by the processor, which pushes `ss` and `esp` when it
comes from user mode, by the stub of the vector, and by `_KiSaveTrapFrame`. -/
def trapWords (r : Registers) (base trapno err : Nat) : List Nat :=
  let words := (if r.UserMode then [r.ss, r.esp] else [])
    ++ [r.eflags, r.cs, r.eip, err, trapno, r.ds, r.es]
  words ++ pushad r (base - 4 * words.length)

/-- **A trap**: the processor takes the stack of the task state segment when it comes from user mode. -/
def kiSaveTrapFrame (trapno err : Nat) (m : Machine τ) : Machine τ :=
  let base := if m.cpu.UserMode then m.TS_esp0 else m.cpu.esp
  let ws := trapWords m.cpu base trapno err
  let frame := base - 4 * ws.length
  { m.setCalls (.trap frame none :: m.currentCalls) with
    mem := pushAll ws base m.mem
    cpu :=
      { m.cpu with
        eax := GD_KD
        ds := GD_KD
        es := GD_KD
        cs := GD_KT
        ss := GD_KD
        esp := frame } }

/-- **The registers are popped** from a trap frame: `popa`, `pop es`, `pop ds`; the error code and the trap
number are skipped, and the instruction pointer, the text segment and the flags follow. -/
def popFrame (mem : StackMemory) (frame : Nat) (r : Registers) : Registers :=
  { r with
    edi := mem frame
    esi := mem (frame + 4)
    ebp := mem (frame + 8)
    ebx := mem (frame + 16)
    edx := mem (frame + 20)
    ecx := mem (frame + 24)
    eax := mem (frame + 28)
    es := mem (frame + 32)
    ds := mem (frame + 36)
    eip := mem (frame + 48)
    cs := mem (frame + 52)
    eflags := mem (frame + 56) }

/-- **`iret`, the rest of it**: when it leads to user mode it pops `esp` and `ss` too, and takes away the
segments of the kernel. -/
def iret (mem : StackMemory) (frame : Nat) (r : Registers) : Registers :=
  if r.UserMode then
    { r with
      esp := mem (frame + 60)
      ss := mem (frame + 64)
      es := userSelector r.es
      ds := userSelector r.ds
      fs := userSelector r.fs
      gs := userSelector r.gs }
  else { r with esp := frame + 60 }

/-- The way back from a trap frame. -/
def restore (mem : StackMemory) (frame : Nat) (r : Registers) : Registers :=
  iret mem frame (popFrame mem frame r)

/-- `KiSystemCallDispatch`, the end of it: the result is stored to the trap frame. The other dispatchers do
not store to it. -/
def dispatched (frame RetStatus : Nat) (mem : StackMemory) : StackMemory :=
  if mem (frame + 40) = SYSCALL_INTR then store mem (frame + 28) RetStatus else mem

/-- **`_KiTrap` returns**, to the code that pops the registers. -/
def kiTrapReturn (RetStatus : Nat) (m : Machine τ) : Machine τ :=
  match m.currentCalls with
  | .trap frame status :: rest =>
    let mem := dispatched frame (status.getD RetStatus) m.mem
    { m.setCalls rest with mem, cpu := restore mem frame m.cpu }
  | _ => m

/-! ## The scheduler -/

/-- `KiUpdateTSS(Stack)`. -/
def kiUpdateTSS (Stack : Nat) (m : Machine τ) : Machine τ := { m with TS_esp0 := Stack }

/-- The address of `Eip` in a `SCHEDULER_TRAPFRAME`. -/
def eipOf (StackPointer : Nat) : Nat := StackPointer + 36

/-- **`KiContextSwitch`** to the stack of `next`: `call`, `pushf` and `pusha` on the one stack, and `popa`,
`popf` and `ret` on the other. A thread that has never run goes on with `KiStartThread`, whose
arguments are on its stack. -/
def kiContextSwitch (code : Code) (current next : τ) (m : Machine τ) : Machine τ :=
  let r := m.cpu
  let ws := [code.KiSwapThread, r.eflags] ++ pushad r (r.esp - 8)
  let mem := pushAll ws r.esp m.mem
  let sp := (m.tcb next).StackPointer
  let started := Activation.start (sp + 40) (mem (sp + 44)) (mem (sp + 48))
  { m with
    mem
    tcb := Function.update m.tcb current ⟨(m.tcb current).KernelStack, r.esp - 40⟩
    calls := if mem (eipOf sp) = code.KiStartThread then Function.update m.calls next [started]
      else m.calls
    cpu :=
      { r with
        edi := mem sp
        esi := mem (sp + 4)
        ebp := mem (sp + 8)
        ebx := mem (sp + 16)
        edx := mem (sp + 20)
        ecx := mem (sp + 24)
        eax := 0
        eflags := mem (sp + 32)
        eip := mem (eipOf sp)
        esp := sp + 40 } }

/-- **`KiSwapThread(CurrentThread, NextThread)`**. -/
def kiSwapThread (code : Code) (next : τ) (m : Machine τ) : Machine τ :=
  kiContextSwitch code m.CurrentThread next
    (kiUpdateTSS (m.tcb next).stackTop { m with CurrentThread := next })

/-- **`KiRunUserThread(Trapframe)`**. -/
def kiRunUserThread (Trapframe : Nat) (m : Machine τ) : Machine τ :=
  let m := kiUpdateTSS m.current.stackTop m
  { m.setCalls [] with cpu := restore m.mem Trapframe m.cpu }

/-- `KiStartThread`, the call of the start routine, if that is `KiRunUserThread`. -/
def kiStartThread (m : Machine τ) : Machine τ :=
  match m.currentCalls with
  | [.start _ _ StartContext] => kiRunUserThread StartContext m
  | _ => m

/-! ## New threads -/

/-- `IsKernelAddress(x)`. -/
def IsKernelAddress (x : Nat) : Prop := x > KERNBASE

instance (x : Nat) : Decidable (IsKernelAddress x) := inferInstanceAs (Decidable (x > KERNBASE))

/-- The words of a `KTRAPFRAME`. -/
def trapFrameWords : Nat := 17

/-- The words of a `SCHEDULER_TRAPFRAME`. -/
def schedulerFrameWords : Nat := 13

/-- The members `Eflags`, `Eip`, `StartRoutine` and `StartContext` of a `SCHEDULER_TRAPFRAME`. -/
def fillSchedulerFrame (StackPtr Eflags Eip StartRoutine StartContext : Nat) (mem : StackMemory) : StackMemory :=
  store (store (store (store mem (StackPtr + 32) Eflags) (eipOf StackPtr) Eip)
    (StackPtr + 44) StartRoutine) (StackPtr + 48) StartContext

/-- The trap frame of a thread that is to start at `StartRoutine`. -/
def fillTrapFrame (frame StartRoutine UserStack : Nat) (mem : StackMemory) : StackMemory :=
  let mem := store mem (frame + 52) (GD_UT ||| 3)
  let mem := store mem (frame + 36) (GD_UD ||| 3)
  let mem := store mem (frame + 32) (GD_UD ||| 3)
  let mem := store mem (frame + 64) (GD_UD ||| 3)
  let mem := store mem (frame + 56) (FL_MBS ||| FL_IF)
  let mem := store mem (frame + 48) StartRoutine
  store mem (frame + 60) (UserStack + THREAD_USER_STACK_SIZE * PGSIZE)

/-- The trap frame that is cloned: it is looked for below the top of the stack. -/
def cloneTrapFrame (CloneTcb : Tcb) : Nat := CloneTcb.stackTop - 4 * trapFrameWords

/-- The trap frame of a clone: that of the other thread, with 0 as the result. -/
def copyTrapFrame (frame : Nat) (CloneTcb : Tcb) (mem : StackMemory) : StackMemory :=
  store (copy trapFrameWords (cloneTrapFrame CloneTcb) frame mem) (frame + 28) 0

/-- `KiCreateThreadContext`, the trap frame of a user thread. The assertions about the selectors in the frame
that is cloned are `(cs == GD_UT) | 3` and `(ss == GD_UD) | 3`, which always hold. -/
def userTrapFrame (frame UserStack : Nat) (CloneTcb : Option Tcb) (StartRoutine : Nat) (mem : StackMemory) :
    Kernel StackMemory :=
  match CloneTcb with
  | some CloneTcb => do
    assert (StartRoutine = 0) "StartRoutine == NULL"
    return copyTrapFrame frame CloneTcb mem
  | none => do
    assert (StartRoutine ≠ 0) "StartRoutine != NULL"
    return fillTrapFrame frame StartRoutine UserStack mem

/-- **`KiCreateThreadContext(Tcb, CloneTcb, StartRoutine, StartContext)`**, for a thread with the given
stacks: the new memory and `StackPointer`. A start routine between `USERTOP` and `KERNBASE` is neither a
user nor a kernel address, and the trap frame is at address 0. -/
def kiCreateThreadContext (code : Code) (tcb : Tcb) (UserStack : Nat) (CloneTcb : Option Tcb)
    (StartRoutine StartContext : Nat) (mem : StackMemory) : Kernel (StackMemory × Nat) := do
  assert (¬ (CloneTcb.isSome = true ∧ StartRoutine ≠ 0)) "0"
  let frame := tcb.stackTop - 4 * trapFrameWords
  if IsKernelAddress StartRoutine then
    let StackPtr := tcb.stackTop - 4 * schedulerFrameWords
    assert (CloneTcb = none) "CloneTcb == NULL"
    assert (StartRoutine ≠ 0) "StartRoutine"
    return (fillSchedulerFrame StackPtr (FL_MBS ||| FL_IF) code.KiStartThread StartRoutine StartContext
      (clear schedulerFrameWords StackPtr mem), StackPtr)
  else if IsUserAddress StartRoutine then
    let StackPtr := frame - 4 * schedulerFrameWords
    let mem ← userTrapFrame frame UserStack CloneTcb StartRoutine
      (clear schedulerFrameWords StackPtr (clear trapFrameWords frame mem))
    return (fillSchedulerFrame StackPtr FL_MBS code.KiStartThread code.KiRunUserThread frame mem, StackPtr)
  else keBugCheck "page fault at 0"

/-- `PspCreateThread`, the stack of the new thread. -/
def pspCreateThread (code : Code) (child : τ) (KernelStack UserStack : Nat) (CloneTcb : Option Tcb)
    (StartRoutine StartContext : Nat) (m : Machine τ) : Kernel (Machine τ) := do
  let (mem, StackPtr) ← kiCreateThreadContext code ⟨KernelStack, 0⟩ UserStack CloneTcb StartRoutine
    StartContext m.mem
  return { m with
    mem
    tcb := Function.update m.tcb child ⟨KernelStack, StackPtr⟩
    calls := Function.update m.calls child []
    live := insert child m.live
    used := insert child m.used }

/-- `KCloneProcess`, the stack of the new thread: the current thread is cloned, and will return `pid`. -/
def kCloneProcess (code : Code) (child : τ) (KernelStack pid : Nat) (m : Machine τ) :
    Kernel (Machine τ) := do
  let m ← pspCreateThread code child KernelStack 0 (some m.current) 0 0 m
  match m.currentCalls with
  | .trap frame _ :: rest => return m.setCalls (.trap frame (some pid) :: rest)
  | _ => return m

/-! ## Steps -/

/-- **The steps of the processor and of the threads.** -/
inductive TrapEvent (τ : Type)
  /-- The user program runs, and leaves these registers. -/
  | user (r : Registers)
  /-- A system call, an exception or an interrupt. -/
  | trap (trapno err : Nat)
  /-- The kernel runs, and leaves these registers and these words on its part of the stack. -/
  | kernel (r : Registers) (stack : StackMemory)
  /-- A thread is created, with this kernel stack. -/
  | create (child : τ) (KernelStack UserStack StartRoutine StartContext : Nat)
  /-- The current thread is cloned, and the process of the clone is `pid`. -/
  | fork (child : τ) (KernelStack pid : Nat)
  /-- The scheduler switches to another thread. -/
  | swap (next : τ)
  /-- A new user thread is started. -/
  | start
  /-- A trap has been handled. -/
  | ret (RetStatus : Nat)
  /-- The kernel stack of a thread that will not run again is freed. -/
  | free (t : τ)

/-- The part of the stack that the kernel may use now. -/
def Machine.kernelPart (m : Machine τ) (x : Nat) : Prop :=
  m.current.KernelStack ≤ x ∧ x < stackLimit m.current m.currentCalls

instance (m : Machine τ) (x : Nat) : Decidable (m.kernelPart x) := inferInstanceAs (Decidable (_ ∧ _))

/-- The kernel has run. -/
def kernelRuns (r : Registers) (stack : StackMemory) (m : Machine τ) : Machine τ :=
  { m with
    mem := fun x => if m.kernelPart x then stack x else m.mem x
    cpu :=
      { r with
        es := GD_KD
        ds := GD_KD
        fs := m.cpu.fs
        gs := m.cpu.gs
        cs := GD_KT
        ss := GD_KD } }

/-- What a step does. -/
def TrapEvent.run (code : Code) (m : Machine τ) : TrapEvent τ → Kernel (Machine τ)
  | .user r => .ok { m with cpu := r }
  | .trap trapno err => .ok (kiSaveTrapFrame trapno err m)
  | .kernel r stack => .ok (kernelRuns r stack m)
  | .create child KernelStack UserStack StartRoutine StartContext =>
    pspCreateThread code child KernelStack UserStack none StartRoutine StartContext m
  | .fork child KernelStack pid => kCloneProcess code child KernelStack pid m
  | .swap next => .ok (kiSwapThread code next m)
  | .start => .ok (kiStartThread m)
  | .ret RetStatus => .ok (kiTrapReturn RetStatus m)
  | .free t => .ok { m with live := m.live.erase t }

/-- A kernel stack for a new thread: pages of its own. -/
def Machine.NewStack (m : Machine τ) (child : τ) (KernelStack : Nat) : Prop :=
  child ∉ m.used ∧ KernelStack % PGSIZE = 0
    ∧ KernelStack + THREAD_STACK_SIZE * PGSIZE ≤ ULONG_VALUES
    ∧ ∀ t ∈ m.live, (m.tcb t).stackTop ≤ KernelStack
      ∨ KernelStack + THREAD_STACK_SIZE * PGSIZE ≤ (m.tcb t).KernelStack

/-- The current thread handles a system call, and has not cloned itself in it. -/
def Machine.InSystemCall (m : Machine τ) : Prop :=
  match m.currentCalls with
  | [.trap frame none] => m.mem (frame + 40) = SYSCALL_INTR
  | _ => False

instance (m : Machine τ) : Decidable m.InSystemCall := by
  unfold Machine.InSystemCall
  split <;> infer_instance

/-- The current thread is in a trap. -/
def Machine.InTrap (m : Machine τ) : Prop :=
  match m.currentCalls with
  | .trap _ _ :: _ => True
  | _ => False

instance (m : Machine τ) : Decidable m.InTrap := by
  unfold Machine.InTrap
  split <;> infer_instance

/-- The current thread is about to call `KiRunUserThread`. -/
def Machine.AtUserThread (code : Code) (m : Machine τ) : Prop :=
  match m.currentCalls with
  | [.start _ StartRoutine _] => StartRoutine = code.KiRunUserThread
  | _ => False

instance (code : Code) (m : Machine τ) : Decidable (m.AtUserThread code) := by
  unfold Machine.AtUserThread
  split <;> infer_instance

/-- **When a step is possible.** A system call comes from user mode, and what the kernel pushes fits its stack.
A thread that is started by the kernel is started at a routine that is not `KiRunUserThread`. -/
def TrapEvent.Enabled (code : Code) (m : Machine τ) : TrapEvent τ → Prop
  | .user r => m.cpu.UserMode ∧ r.User
  | .trap trapno _ => m.cpu.UserMode
      ∨ trapno ≠ SYSCALL_INTR ∧ m.current.KernelStack + 60 ≤ m.cpu.esp
  | .kernel r _ => ¬ m.cpu.UserMode ∧ m.current.KernelStack ≤ r.esp
      ∧ r.esp ≤ stackLimit m.current m.currentCalls
  | .create child KernelStack _ StartRoutine _ => ¬ m.cpu.UserMode ∧ m.NewStack child KernelStack
      ∧ StartRoutine ≠ code.KiRunUserThread
  | .fork child KernelStack _ => ¬ m.cpu.UserMode ∧ m.NewStack child KernelStack ∧ m.InSystemCall
  | .swap next => ¬ m.cpu.UserMode ∧ next ∈ m.live ∧ next ≠ m.CurrentThread
      ∧ m.current.KernelStack + 40 ≤ m.cpu.esp
  | .start => ¬ m.cpu.UserMode ∧ m.AtUserThread code
  | .ret _ => ¬ m.cpu.UserMode ∧ m.InTrap
  | .free t => t ≠ m.CurrentThread

instance (code : Code) (m : Machine τ) (e : TrapEvent τ) : Decidable (e.Enabled code m) := by
  unfold TrapEvent.Enabled Machine.NewStack
  cases e <;> infer_instance

end KaushOS.Trap
