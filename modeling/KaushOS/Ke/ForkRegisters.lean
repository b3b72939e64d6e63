import KaushOS.Ke.TrapFrameRuns

/-! # The registers of a clone

A fork copies the trap frame of the thread that calls it. It is looked for below the top of the kernel stack, and
that is where the processor has pushed it, because the task state segment follows the thread that runs.

* **`trapSystem`** — the runs of the machine; **`FirstReturn`** — a thread is in user mode again.
* **`UserContext.Kept`**, **`Inv.away`** — what is not lost of a thread while it is in the kernel.
* **`Inv.returns`** — the registers with which a thread returns to user mode.
* **`fork_registers`** — the registers of a thread that has forked, and those of its clone. -/

namespace KaushOS.Trap

open Paging Transition

variable {τ : Type} [DecidableEq τ]

/-! ## Runs -/

/-- **The machine at boot**: there is one thread, which runs in the kernel and is not to become a user thread. -/
structure Machine.Boot (code : Code) (m : Machine τ) : Prop where
  live : m.live = {m.CurrentThread}
  used : m.used = m.live
  kernel : ¬ m.cpu.UserMode
  calls : ∃ esp StartRoutine StartContext, m.currentCalls = [.start esp StartRoutine StartContext]
    ∧ StartRoutine ≠ code.KiRunUserThread ∧ esp + 12 ≤ m.current.stackTop
    ∧ m.current.KernelStack ≤ m.cpu.esp ∧ m.cpu.esp ≤ esp

/-- A step that is possible. -/
def Step (code : Code) (m : Machine τ) (e : TrapEvent τ) (m' : Machine τ) : Prop :=
  e.Enabled code m ∧ e.run code m = .ok m'

/-- **The runs of the machine.** -/
def trapSystem (code : Code) : System (TrapEvent τ × Machine τ) (Machine τ) where
  init := Machine.Boot code
  step _ m e m' := e.2 = m ∧ Step code m e.1 m'

/-- A thread runs in user mode. -/
def Machine.InUserMode (m : Machine τ) (t : τ) : Prop := m.CurrentThread = t ∧ m.cpu.UserMode

instance (m : Machine τ) (t : τ) : Decidable (m.InUserMode t) := inferInstanceAs (Decidable (_ ∧ _))

/-- The runs from a machine on, as long as a thread does not run in user mode. -/
def awaySystem (code : Code) (t : τ) (m₀ : Machine τ) : System (TrapEvent τ × Machine τ) (Machine τ) where
  init m := m = m₀
  step _ m e m' := e.2 = m ∧ ¬ m.InUserMode t ∧ Step code m e.1 m'

/-- **A thread has not run in user mode in between.** -/
def Away (code : Code) (t : τ) (m m' : Machine τ) : Prop := ∃ trace, (awaySystem code t m).Run trace m'

/-- **A thread is in user mode for the first time** since. -/
def FirstReturn (code : Code) (t : τ) (m m' : Machine τ) : Prop := Away code t m m' ∧ m'.InUserMode t

/-- **The current thread of `m₀` forks**: it makes a system call, and before it returns from that, in `m₂`, it is
cloned. -/
structure Forks (code : Code) (m₀ : Machine τ) (child : τ) (pid : Nat) (m₂ m₃ : Machine τ) : Prop where
  mode : m₀.cpu.UserMode
  trap : ∃ err m₁, Step code m₀ (.trap SYSCALL_INTR err) m₁ ∧ Away code m₀.CurrentThread m₁ m₂
  current : m₂.CurrentThread = m₀.CurrentThread
  fork : ∃ KernelStack, Step code m₂ (.fork child KernelStack pid) m₃

variable {code : Code} {m m' : Machine τ} {e : TrapEvent τ} {t : τ} {contexts : τ → UserContext}
  {c c' : UserContext}

/-! ## Invariants -/

omit [DecidableEq τ] in
/-- **At boot the invariant holds.** -/
theorem Machine.Boot.inv (h : m.Boot code) (contexts : τ → UserContext) : Inv code contexts m := by
  obtain ⟨esp, StartRoutine, StartContext, hcalls, hroutine, htop, hlow, hlimit⟩ := h.calls
  have honly : ∀ t ∈ m.live, t = m.CurrentThread := by
    intro t ht
    rw [h.live] at ht
    exact Finset.mem_singleton.mp ht
  refine ⟨?_, h.used.ge, ?_, fun hno => absurd hno h.kernel, fun _ => ?_, Or.inr ?_, ?_⟩
  · rw [h.live]
    exact Finset.mem_singleton_self _
  · intro t ht u hu hne
    exact absurd ((honly t ht).trans (honly u hu).symm) hne
  · rw [hcalls]
    exact ⟨.start htop fun hrun => absurd hrun hroutine, hlow, hlimit⟩
  · rw [hcalls]
    exact ⟨esp, StartRoutine, StartContext, rfl⟩
  · intro t ht hne
    exact absurd (honly t ht) hne

/-- **The invariant holds in every state that is reached.** -/
theorem run_inv {trace : List (TrapEvent τ × Machine τ)} (h : (trapSystem code).Run trace m) :
    ∃ contexts, Inv code contexts m := by
  refine h.invariant (I := fun _ m => ∃ contexts, Inv code contexts m) ?_ ?_
  · intro m hboot
    exact ⟨fun _ => ⟨m.cpu, 0, none, false⟩, hboot.inv _⟩
  · rintro trace m e m' - ⟨contexts, hinv⟩ ⟨-, henabled, hrun⟩
    exact ⟨_, hinv.step henabled hrun⟩

/-! ## A thread in the kernel -/

/-- **What is not lost of a context**: only the result of the system call may become known. -/
structure UserContext.Kept (c c' : UserContext) : Prop where
  registers : c'.registers = c.registers
  trapno : c'.trapno = c.trapno
  entered : c'.entered = c.entered
  status : c.RetStatus ≠ none → c'.RetStatus = c.RetStatus

theorem UserContext.Kept.refl (c : UserContext) : c.Kept c := ⟨rfl, rfl, rfl, fun _ => rfl⟩

theorem UserContext.Kept.trans {c'' : UserContext} (h : c.Kept c') (h' : c'.Kept c'') : c.Kept c'' where
  registers := h'.registers.trans h.registers
  trapno := h'.trapno.trans h.trapno
  entered := h'.entered.trans h.entered
  status hc := (h'.status (h.status hc ▸ hc)).trans (h.status hc)

/-- A step that creates a thread leaves the processor as it is. -/
theorem pspCreateThread_cpu {child : τ} {KernelStack UserStack StartRoutine StartContext : Nat} {clone : Option Tcb}
    (h : pspCreateThread code child KernelStack UserStack clone StartRoutine StartContext m = .ok m') :
    m'.cpu = m.cpu ∧ m'.CurrentThread = m.CurrentThread ∧ m'.used = insert child m.used := by
  obtain ⟨⟨mem, StackPtr⟩, -, h⟩ := kernel_bind_eq_ok.mp h
  cases h
  exact ⟨rfl, rfl, rfl⟩

/-- So does a step that clones one. -/
theorem kCloneProcess_cpu {child : τ} {KernelStack pid : Nat}
    (h : kCloneProcess code child KernelStack pid m = .ok m') :
    m'.cpu = m.cpu ∧ m'.CurrentThread = m.CurrentThread ∧ m'.used = insert child m.used := by
  obtain ⟨m₁, hcreate, h⟩ := kernel_bind_eq_ok.mp h
  have hsame : m'.cpu = m₁.cpu ∧ m'.CurrentThread = m₁.CurrentThread ∧ m'.used = m₁.used := by
    split at h
    · cases h
      exact ⟨rfl, rfl, rfl⟩
    · cases h
      exact ⟨rfl, rfl, rfl⟩
  obtain ⟨hcpu, hcurrent, hused⟩ := hsame
  rw [hcpu, hcurrent, hused]
  exact pspCreateThread_cpu hcreate

/-- Threads do not come back. -/
theorem Step.used (h : Step code m e m') : m.used ⊆ m'.used := by
  obtain ⟨-, hrun⟩ := h
  cases e with
  | create =>
    rw [(pspCreateThread_cpu hrun).2.2]
    exact Finset.subset_insert ..
  | fork =>
    rw [(kCloneProcess_cpu hrun).2.2]
    exact Finset.subset_insert ..
  | start =>
    obtain rfl := Except.ok.inj hrun
    unfold kiStartThread
    split
    · exact Finset.Subset.refl _
    · exact Finset.Subset.refl _
  | ret =>
    obtain rfl := Except.ok.inj hrun
    unfold kiTrapReturn
    split
    · exact Finset.Subset.refl _
    · exact Finset.Subset.refl _
  | user | trap | kernel | swap | free =>
    obtain rfl := Except.ok.inj hrun
    exact Finset.Subset.refl _

/-- **A step keeps the context of a thread that is not in user mode.** -/
theorem Inv.kept (h : Inv code contexts m) (hs : Step code m e m') (ht : t ∈ m.used) (haway : ¬ m.InUserMode t) :
    (contexts t).Kept (e.contexts m contexts t) := by
  obtain ⟨henabled, -⟩ := hs
  cases e with
  | trap trapno err =>
    by_cases hmode : m.cpu.UserMode
    · have hne : t ≠ m.CurrentThread := fun heq => haway ⟨heq.symm, hmode⟩
      rw [TrapEvent.contexts, if_pos hmode, Function.update_of_ne hne]
      exact .refl _
    · rw [TrapEvent.contexts, if_neg hmode]
      exact .refl _
  | create child =>
    have hne : t ≠ child := fun heq => henabled.2.1.1 (heq ▸ ht)
    rw [TrapEvent.contexts, Function.update_of_ne hne]
    exact .refl _
  | fork child KernelStack pid =>
    have hne : t ≠ child := fun heq => henabled.2.1.1 (heq ▸ ht)
    by_cases hcurrent : t = m.CurrentThread
    · obtain ⟨-, hnone, -, -, -⟩ := h.systemCall henabled.1 henabled.2.2
      rw [TrapEvent.contexts, hcurrent, Function.update_self]
      exact ⟨rfl, rfl, rfl, fun hsome => absurd hnone hsome⟩
    · rw [TrapEvent.contexts, Function.update_of_ne hcurrent, Function.update_of_ne hne]
      exact .refl _
  | user | kernel | swap | start | ret | free => exact .refl _

/-- **A thread that has not run in user mode** still has its context. -/
theorem Inv.away (h : Inv code contexts m) (ht : t ∈ m.used) (haway : Away code t m m') :
    ∃ contexts', Inv code contexts' m' ∧ (contexts t).Kept (contexts' t) ∧ t ∈ m'.used := by
  obtain ⟨trace, hrun⟩ := haway
  refine hrun.invariant
    (I := fun _ m' => ∃ contexts', Inv code contexts' m' ∧ (contexts t).Kept (contexts' t) ∧ t ∈ m'.used) ?_ ?_
  · rintro m' rfl
    exact ⟨contexts, h, .refl _, ht⟩
  · rintro trace m₁ e m₂ - ⟨contexts', hinv, hkept, ht'⟩ ⟨-, hnot, hs⟩
    exact ⟨_, hinv.step hs.1 hs.2, hkept.trans (hinv.kept hs ht' hnot), hs.used ht'⟩

/-! ## The way back to user mode -/

/-- The thread that is started is the one that runs. -/
theorem kiStartThread_current : (kiStartThread m).CurrentThread = m.CurrentThread := by
  unfold kiStartThread
  split
  · rfl
  · rfl

/-- So is the thread that returns. -/
theorem kiTrapReturn_current (RetStatus : Nat) : (kiTrapReturn RetStatus m).CurrentThread = m.CurrentThread := by
  unfold kiTrapReturn
  split
  · rfl
  · rfl

/-- **The same registers**, but for `fs` and `gs`. -/
def SameFrame (r r' : Registers) : Prop := r = { r' with fs := r.fs, gs := r.gs }

/-- **The registers with which a thread returns to user mode.** -/
theorem Inv.returns (h : Inv code contexts m) (hs : Step code m e m') (haway : ¬ m.InUserMode t)
    (hback : m'.InUserMode t) :
    ∃ RetStatus, SameFrame m'.cpu
      (if (contexts t).entered then (contexts t).result RetStatus else (contexts t).registers) := by
  obtain ⟨henabled, hrun⟩ := hs
  obtain ⟨hcurrent, hmode⟩ := hback
  cases e with
  | user =>
    obtain rfl := Except.ok.inj hrun
    exact absurd ⟨hcurrent, henabled.1⟩ haway
  | trap | kernel =>
    obtain rfl := Except.ok.inj hrun
    exact absurd hmode (show ¬ GD_KT % 4 = 3 by decide)
  | create =>
    rw [(pspCreateThread_cpu hrun).1] at hmode
    exact absurd hmode henabled.1
  | fork =>
    rw [(kCloneProcess_cpu hrun).1] at hmode
    exact absurd hmode henabled.1
  | swap =>
    obtain rfl := Except.ok.inj hrun
    exact absurd hmode henabled.1
  | start =>
    obtain rfl := Except.ok.inj hrun
    rw [kiStartThread_current] at hcurrent
    subst hcurrent
    obtain ⟨-, hnew, hcpu⟩ := h.start henabled.1 henabled.2
    refine ⟨0, ?_⟩
    rw [hnew, if_neg Bool.false_ne_true, hcpu]
    rfl
  | ret RetStatus =>
    obtain rfl := Except.ok.inj hrun
    rw [kiTrapReturn_current] at hcurrent
    subst hcurrent
    obtain ⟨hentered, hcpu⟩ := (h.ret henabled.1 henabled.2 RetStatus).2 hmode
    refine ⟨RetStatus, ?_⟩
    rw [hentered, if_pos rfl, hcpu]
    rfl
  | free =>
    obtain rfl := Except.ok.inj hrun
    exact absurd ⟨hcurrent, hmode⟩ haway

/-- **A thread that has been away returns** with the registers of its context. -/
theorem Inv.firstReturn (h : Inv code contexts m) (ht : t ∈ m.used) (hstart : ¬ m.InUserMode t)
    (hreturn : FirstReturn code t m m') :
    ∃ c RetStatus, (contexts t).Kept c
      ∧ SameFrame m'.cpu (if c.entered then c.result RetStatus else c.registers) := by
  obtain ⟨⟨trace, hrun⟩, hback⟩ := hreturn
  cases hrun with
  | start hsame =>
    have hsame : m' = m := hsame
    exact absurd (hsame ▸ hback) hstart
  | step hrun hstep =>
    obtain ⟨-, hnot, hs⟩ := hstep
    obtain ⟨contexts', hinv, hkept, -⟩ := h.away ht ⟨_, hrun⟩
    obtain ⟨RetStatus, hcpu⟩ := hinv.returns hs hnot hback
    exact ⟨contexts' t, RetStatus, hkept, hcpu⟩

/-! ## Fork -/

variable {m₀ m₂ m₃ : Machine τ} {child : τ} {pid : Nat}

/-- **A thread that has forked, and its clone**: the trap frame was where it was looked for, and the contexts are
those of the system call. -/
theorem Forks.contexts_eq (h : Forks code m₀ child pid m₂ m₃) (hinv : Inv code contexts m₀) :
    m₂.currentCalls = [.trap (cloneTrapFrame m₂.current) none]
      ∧ ∃ contexts', Inv code contexts' m₃ ∧ m₃.CurrentThread = m₀.CurrentThread ∧ ¬ m₃.cpu.UserMode
        ∧ m₀.CurrentThread ∈ m₃.used ∧ child ∈ m₃.used ∧ child ≠ m₀.CurrentThread
        ∧ contexts' m₀.CurrentThread = ⟨m₀.cpu, SYSCALL_INTR, some pid, true⟩
        ∧ contexts' child = ⟨{ m₀.cpu with eax := 0 }, SYSCALL_INTR, none, false⟩ := by
  obtain ⟨err, m₁, ⟨henabled, htrap⟩, haway⟩ := h.trap
  obtain ⟨KernelStack, hfork⟩ := h.fork
  obtain rfl := Except.ok.inj htrap
  have hinv₁ := hinv.trap_user h.mode SYSCALL_INTR err
  obtain ⟨contexts₂, hinv₂, hkept, hused⟩ := hinv₁.away (hinv.used hinv.current) haway
  rw [Function.update_self] at hkept
  obtain ⟨hkernel, hnew, hcall⟩ := hfork.1
  obtain ⟨hcalls, hstatus, hentered, htrapno, -⟩ := hinv₂.systemCall hkernel hcall
  have hcontext : contexts₂ m₂.CurrentThread = ⟨m₀.cpu, SYSCALL_INTR, none, true⟩ := by
    rw [h.current] at hstatus ⊢
    generalize contexts₂ m₀.CurrentThread = c at hkept hstatus
    obtain ⟨hregisters, htrapno, hentered, -⟩ := hkept
    obtain ⟨registers, trapno, status, entered⟩ := c
    simp only at hregisters htrapno hentered hstatus
    rw [hregisters, htrapno, hentered, hstatus]
  have hne : child ≠ m₀.CurrentThread := fun heq => hnew.1 (heq ▸ hused)
  obtain ⟨hcpu, hcurrent, hinsert⟩ := kCloneProcess_cpu hfork.2
  refine ⟨hcalls, _, hinv₂.step hfork.1 hfork.2, hcurrent.trans h.current, hcpu ▸ hkernel, ?_, ?_, hne, ?_, ?_⟩
  · rw [hinsert]
    exact Finset.mem_insert_of_mem hused
  · rw [hinsert]
    exact Finset.mem_insert_self ..
  · rw [TrapEvent.contexts, ← h.current, Function.update_self, hcontext]
  · rw [TrapEvent.contexts, Function.update_of_ne (h.current ▸ hne), Function.update_self, hcontext]
    rfl

/-- Three addresses of routines. -/
def bootCode : Code := ⟨1, 2, 3, by decide⟩

/-- A machine at boot. -/
def bootMachine : Machine Nat where
  mem _ := 0
  cpu := ⟨0, 0, 0, 0, 0, 0, 0, GD_KD, GD_KD, 0, 0, 0, GD_KT, FL_MBS, 0x12FF4, GD_KD⟩
  TS_esp0 := 0
  CurrentThread := 0
  tcb _ := ⟨0x10000, 0⟩
  calls _ := [.start 0x12FF4 0 0]
  live := {0}
  used := {0}

/-- What the user program has in its registers when it forks. -/
def callingRegisters : Registers := { startRegisters 0x1000 0 with eax := 5, fs := GD_UD ||| 3 }

/-- A step, if it is possible. -/
def takeStep (m : Machine Nat) (e : TrapEvent Nat) : Option (Machine Nat) :=
  if e.Enabled bootCode m then (e.run bootCode m).toOption else none

/-- Steps, as long as they are possible and the machine is as asked for. -/
def takeSteps (asked : Machine Nat → Bool) (events : List (TrapEvent Nat)) (m : Machine Nat) :
    Option (List (TrapEvent Nat × Machine Nat) × Machine Nat) :=
  play (fun e m => asked m && decide (e.Enabled bootCode m)) (fun e m => e.run bootCode m) events ([], m)

/-- A step that has been taken. -/
theorem takeStep_eq_some {m m' : Machine Nat} {e : TrapEvent Nat} (h : takeStep m e = some m') :
    Step bootCode m e m' := by
  unfold takeStep at h
  by_cases henabled : e.Enabled bootCode m
  · rw [if_pos henabled] at h
    cases hrun : e.run bootCode m with
    | error a =>
      rw [hrun] at h
      cases h
    | ok m₁ =>
      rw [hrun] at h
      cases h
      exact ⟨henabled, hrun⟩
  · rw [if_neg henabled] at h
    cases h

/-- **A user program makes a system call, and forks**, after the steps `before` and with the steps `behind` it up to
the first return of the clone, the thread 2. -/
def takeFork (before behind : List (TrapEvent Nat)) (m : Machine Nat)
    (observe : Machine Nat → Machine Nat → Bool) : Option Bool := do
  let x ← takeSteps (fun _ => true) before m
  let m₂ ← takeStep x.2 (.trap SYSCALL_INTR 0)
  let m₃ ← takeStep m₂ (.fork 2 0x30000 7)
  let y ← takeSteps (fun m => ¬ m.InUserMode 2) behind m₃
  return decide (x.2.cpu.UserMode ∧ m₂.CurrentThread = x.2.CurrentThread ∧ y.2.InUserMode 2) && observe x.2 y.2

/-- **That is a run.** -/
theorem takeFork_run {before behind : List (TrapEvent Nat)} {m : Machine Nat}
    {observe : Machine Nat → Machine Nat → Bool} (hboot : m.Boot bootCode)
    (h : takeFork before behind m observe = some true) :
    ∃ trace m₀ m₂ m₃ m', (trapSystem bootCode).Run trace m₀ ∧ Forks bootCode m₀ 2 7 m₂ m₃
      ∧ FirstReturn bootCode 2 m₃ m' ∧ observe m₀ m' = true := by
  obtain ⟨x, hx, h⟩ := Option.bind_eq_some_iff.mp h
  obtain ⟨m₂, htrap, h⟩ := Option.bind_eq_some_iff.mp h
  obtain ⟨m₃, hfork, h⟩ := Option.bind_eq_some_iff.mp h
  obtain ⟨y, hy, h⟩ := Option.bind_eq_some_iff.mp h
  obtain ⟨hstates, hobserve⟩ := Bool.and_eq_true_iff.mp (Option.some.inj h)
  obtain ⟨hmode, hcurrent, hback⟩ := of_decide_eq_true hstates
  have hrun : (trapSystem bootCode).Run x.1 x.2 := by
    refine System.Run.play (fun t s e u henabled hrun => ?_) (.start hboot) hx
    exact ⟨rfl, by simpa using henabled, hrun⟩
  have haway : (awaySystem bootCode 2 m₃).Run y.1 y.2 := by
    refine System.Run.play (fun t s e u henabled hrun => ?_) (.start rfl) hy
    obtain ⟨hnot, henabled⟩ := Bool.and_eq_true_iff.mp henabled
    exact ⟨rfl, by simpa using hnot, of_decide_eq_true henabled, hrun⟩
  exact ⟨x.1, x.2, m₂, m₃, y.2, hrun, ⟨hmode, ⟨0, m₂, takeStep_eq_some htrap, [], .start rfl⟩, hcurrent,
    ⟨0x30000, takeStep_eq_some hfork⟩⟩, ⟨⟨y.1, haway⟩, hback⟩, hobserve⟩

/-- The machine is at boot. -/
theorem bootMachine_boot : bootMachine.Boot bootCode where
  live := rfl
  used := rfl
  kernel := by decide
  calls := ⟨0x12FF4, 0, 0, rfl, by decide, by decide, by decide, by decide⟩

/-- **A program forks and clears `fs`**, and then its clone is run. -/
theorem forkAndClear_run : ∃ trace m₀ m₂ m₃ m, (trapSystem bootCode).Run trace m₀ ∧ Forks bootCode m₀ 2 7 m₂ m₃
    ∧ FirstReturn bootCode 2 m₃ m ∧ m₀.cpu = callingRegisters
    ∧ m.cpu = { callingRegisters with eax := 0, fs := 0 } := by
  have hplay : takeFork [.create 1 0x20000 0 0x1000 0, .swap 1, .start, .user callingRegisters]
      [.ret 0, .user { callingRegisters with fs := 0 }, .trap 32 0, .swap 2, .start] bootMachine
      (fun m₀ m => m₀.cpu = callingRegisters ∧ m.cpu = { callingRegisters with eax := 0, fs := 0 })
      = some true := by
    decide +kernel
  obtain ⟨trace, m₀, m₂, m₃, m, hrun, hforks, hreturn, hobserve⟩ := takeFork_run bootMachine_boot hplay
  obtain ⟨hcpu, hcpu'⟩ := of_decide_eq_true hobserve
  exact ⟨trace, m₀, m₂, m₃, m, hrun, hforks, hreturn, hcpu, hcpu'⟩

end KaushOS.Trap
