import Mathlib.Algebra.Group.Nat.Defs
import KaushOS.Inc.Assert
import KaushOS.Library.Transition

/-! # Delays (`kern/ke/timer.c`)

`KeDelayExecutionThread` gives up the processor until the tick counter has come far enough. A negative
interval is relative to the call, another one is absolute. `LARGE_INTEGER` is `ULONG64`, so that no
interval is below zero.

* **`DelayMachine`, `DelayEvent.run`** — the counter, a call, and what the timer and the thread do.
* **`delaySystem`** — the timer and the thread in any order: every schedule.
* **`LastsAsRequested`** — no schedule makes the call return early.
* **`delay_lasts_iff`** — the intervals and the counters for which that is so.

`Schedule` lets other threads run; here these are the ticks that the timer counts meanwhile. -/

namespace KaushOS

open Transition

/-! ## The routine -/

/-- **Where a call of `KeDelayExecutionThread` is**, with the local variables that are live there. -/
inductive DelayPoint
  | called
  /-- In the first loop (`relative`) or in the second one. -/
  | looping (relative : Bool) (StartTicks : UInt64) (LocalInterval : UInt32)
  | returned
  deriving DecidableEq, Repr

/-- **The tick counter of the processor, the interrupt flag, and the call.** -/
structure DelayMachine where
  TimerTicks : UInt64
  InterruptsEnabled : Bool
  point : DelayPoint
  deriving DecidableEq, Repr

/-- What happens during a call. -/
inductive DelayEvent
  /-- `TimerISRoutine`. -/
  | timer
  /-- The thread runs until the next `Schedule`, or until it returns. -/
  | thread
  deriving DecidableEq, Repr

/-- The condition of a loop. -/
def DelayMachine.waits (m : DelayMachine) (relative : Bool) (StartTicks : UInt64)
    (LocalInterval : UInt32) : Bool :=
  if relative then m.TimerTicks - StartTicks < LocalInterval.toUInt64
  else m.TimerTicks < LocalInterval.toUInt64

/-- **`KeDelayExecutionThread(WaitMode, Alertable, &Interval)`** and `TimerISRoutine`. The comparison of
`Interval` with zero and the product with `-1` are those of `ULONG64`. -/
def DelayEvent.run (Interval : UInt64) (m : DelayMachine) : DelayEvent → Kernel DelayMachine
  | .timer => .ok { m with TimerTicks := m.TimerTicks + 1 }
  | .thread =>
    match m.point with
    | .called => do
      let StartTicks := m.TimerTicks
      assert (m.InterruptsEnabled = true) "HalEnableInterrupts()"
      let LocalInterval := (-1 * Interval).toUInt32
      if Interval < 0 then return { m with point := .looping true StartTicks LocalInterval }
      else return { m with point := .looping false StartTicks LocalInterval }
    | .looping relative StartTicks LocalInterval =>
      if m.waits relative StartTicks LocalInterval then .ok m
      else .ok { m with point := .returned }
    | .returned => .ok m

/-- **All schedules of a call** that is made when the counter is `start`. -/
def delaySystem (Interval start : UInt64) : System (DelayEvent × DelayMachine) DelayMachine where
  init m := m.TimerTicks = start ∧ m.InterruptsEnabled = true ∧ m.point = .called
  step _ m l m' := l.2 = m ∧ l.1.run Interval m = .ok m'

/-! ## What is requested -/

/-- The ticks since the call. -/
def ticksElapsed (t : List (DelayEvent × DelayMachine)) : Nat :=
  t.countP fun l => decide (l.1 = .timer)

/-- The next step of the thread returns. -/
def DelayMachine.Returns (Interval : UInt64) (m : DelayMachine) : Prop :=
  m.point ≠ .returned ∧ ∃ m', DelayEvent.thread.run Interval m = .ok m' ∧ m'.point = .returned

/-- The interval is negative, as a number in two's complement. -/
def IsRelative (Interval : UInt64) : Prop := 2 ^ 63 ≤ Interval.toNat

instance (Interval : UInt64) : Decidable (IsRelative Interval) :=
  inferInstanceAs (Decidable (2 ^ 63 ≤ Interval.toNat))

/-- **The delay lasts as long as requested**, in every schedule: a call with the interval `-n` does not
return before `n` ticks, and one with another interval not while the counter is below it. -/
def LastsAsRequested (Interval start : UInt64) : Prop :=
  ∀ t m, (delaySystem Interval start).Run t m → m.Returns Interval →
    if IsRelative Interval then 2 ^ 64 - Interval.toNat ≤ ticksElapsed t
    else Interval ≤ m.TimerTicks

variable {Interval start : UInt64} {t : List (DelayEvent × DelayMachine)} {m : DelayMachine}

/-! ## What the code does -/

/-- The value of `LocalInterval`. -/
theorem localInterval_toNat (Interval : UInt64) :
    (-1 * Interval).toUInt32.toUInt64.toNat = (2 ^ 64 - Interval.toNat) % 2 ^ 32 := by
  have hbound := Interval.toNat_lt
  have hneg : -1 * Interval = -Interval := by rw [UInt64.neg_mul, UInt64.one_mul]
  rw [hneg, UInt32.toNat_toUInt64, UInt64.toNat_toUInt32, UInt64.toNat_neg]
  show (2 ^ 64 - Interval.toNat) % 2 ^ 64 % 2 ^ 32 = _
  omega

/-- **No interval is below zero**: the call always goes to the second loop. -/
theorem run_called (h : m.point = .called) (hint : m.InterruptsEnabled = true) :
    DelayEvent.thread.run Interval m
      = .ok { m with point := .looping false m.TimerTicks (-1 * Interval).toUInt32 } := by
  have hno : ¬ Interval < 0 := UInt64.not_lt_zero
  simp only [DelayEvent.run, h, assert_of_true hint, kernel_ok_bind, if_neg hno]
  rfl

/-- **The invariant of a call**: the counter has counted the ticks, and the loop is the second one. -/
structure DelayMachine.Inv (Interval start : UInt64) (t : List (DelayEvent × DelayMachine))
    (m : DelayMachine) : Prop where
  ticks : m.TimerTicks = start + UInt64.ofNat (ticksElapsed t)
  interrupts : m.InterruptsEnabled = true
  loop : ∀ relative StartTicks LocalInterval,
    m.point = .looping relative StartTicks LocalInterval →
      relative = false ∧ LocalInterval = (-1 * Interval).toUInt32

/-- A step of the thread is not a tick. -/
theorem ticksElapsed_thread : ticksElapsed ((.thread, m) :: t) = ticksElapsed t := rfl

/-- A tick is counted. -/
theorem ticksElapsed_timer : ticksElapsed ((.timer, m) :: t) = ticksElapsed t + 1 :=
  List.countP_cons_of_pos (by rfl)

/-- **The invariant holds in every schedule.** -/
theorem delaySystem_inv (h : (delaySystem Interval start).Run t m) : m.Inv Interval start t := by
  refine h.invariant (I := fun t m => m.Inv Interval start t) ?_ ?_
  · rintro m ⟨hticks, hint, hpoint⟩
    refine ⟨by rw [hticks]; exact (UInt64.add_zero start).symm, hint, fun _ _ _ hloop => ?_⟩
    rw [hpoint] at hloop
    cases hloop
  · rintro t m ⟨e, m₀⟩ m' - hinv ⟨hm, hrun⟩
    obtain rfl : m₀ = m := hm
    cases e with
    | timer =>
      cases hrun
      refine ⟨?_, hinv.interrupts, hinv.loop⟩
      rw [ticksElapsed_timer, UInt64.ofNat_add, ← UInt64.add_assoc, ← hinv.ticks]
      rfl
    | thread =>
      cases hpoint : m₀.point with
      | called =>
        rw [run_called hpoint hinv.interrupts] at hrun
        cases hrun
        refine ⟨hinv.ticks, hinv.interrupts, fun _ _ _ hloop => ?_⟩
        cases hloop
        exact ⟨rfl, rfl⟩
      | looping relative StartTicks LocalInterval =>
        simp only [DelayEvent.run, hpoint] at hrun
        split at hrun
        · cases hrun
          exact ⟨hinv.ticks, hinv.interrupts, hinv.loop⟩
        · cases hrun
          exact ⟨hinv.ticks, hinv.interrupts, fun _ _ _ hloop => by cases hloop⟩
      | returned =>
        simp only [DelayEvent.run, hpoint] at hrun
        cases hrun
        exact ⟨hinv.ticks, hinv.interrupts, hinv.loop⟩

/-- A call returns when the counter has reached `LocalInterval`. -/
theorem DelayMachine.Inv.returns (h : m.Inv Interval start t) (hr : m.Returns Interval) :
    (-1 * Interval).toUInt32.toUInt64 ≤ m.TimerTicks := by
  obtain ⟨hnot, m', hrun, hpoint'⟩ := hr
  cases hpoint : m.point with
  | called =>
    rw [run_called hpoint h.interrupts] at hrun
    cases hrun
    cases hpoint'
  | looping relative StartTicks LocalInterval =>
    obtain ⟨rfl, rfl⟩ := h.loop _ _ _ hpoint
    simp only [DelayEvent.run, hpoint] at hrun
    split at hrun
    · cases hrun
      exact absurd hpoint' hnot
    · rename_i hwaits
      simpa [DelayMachine.waits] using hwaits
  | returned => exact absurd hpoint hnot

/-- **Every number of ticks may pass** while the thread is in the loop. -/
theorem delaySystem_ticks (Interval start : UInt64) (k : Nat) :
    ∃ t m, (delaySystem Interval start).Run t m ∧ ticksElapsed t = k
      ∧ m.TimerTicks = start + UInt64.ofNat k
      ∧ m.point = .looping false start (-1 * Interval).toUInt32 := by
  induction k with
  | zero =>
    have hstart : (delaySystem Interval start).Run [] ⟨start, true, .called⟩ :=
      .start ⟨rfl, rfl, rfl⟩
    exact ⟨_, _, hstart.step (e := (.thread, _)) ⟨rfl, run_called rfl rfl⟩, rfl,
      (UInt64.add_zero start).symm, rfl⟩
  | succ k ih =>
    obtain ⟨t, m, hrun, hcount, hticks, hpoint⟩ := ih
    have hnext : (delaySystem Interval start).Run ((.timer, m) :: t)
        { m with TimerTicks := m.TimerTicks + 1 } := hrun.step ⟨rfl, rfl⟩
    refine ⟨_, _, hnext, ?_, ?_, hpoint⟩
    · rw [ticksElapsed_timer, hcount]
    · rw [UInt64.ofNat_add, ← UInt64.add_assoc, ← hticks]
      rfl

/-- A call in the second loop returns once the counter is far enough. -/
theorem returns_of_le {StartTicks : UInt64} {LocalInterval : UInt32}
    (hpoint : m.point = .looping false StartTicks LocalInterval)
    (hle : LocalInterval.toUInt64 ≤ m.TimerTicks) : m.Returns Interval := by
  have hwaits : ¬ m.waits false StartTicks LocalInterval = true := by
    simpa [DelayMachine.waits] using hle
  refine ⟨fun hno => ?_, { m with point := .returned }, ?_, rfl⟩
  · rw [hpoint] at hno
    cases hno
  · simp only [DelayEvent.run, hpoint, if_neg hwaits]

/-- **What a delay amounts to**: it may end after every number of ticks that takes the counter to
`LocalInterval`. -/
theorem lastsAsRequested_iff : LastsAsRequested Interval start ↔
    ∀ k : Nat, (2 ^ 64 - Interval.toNat) % 2 ^ 32 ≤ (start.toNat + k) % 2 ^ 64 →
      if IsRelative Interval then 2 ^ 64 - Interval.toNat ≤ k
      else Interval.toNat ≤ (start.toNat + k) % 2 ^ 64 := by
  have hvalue : ∀ k : Nat, (start + UInt64.ofNat k).toNat = (start.toNat + k) % 2 ^ 64 := by
    intro k
    rw [UInt64.toNat_add, UInt64.toNat_ofNat', Nat.add_mod_mod]
  constructor
  · intro h k hle
    obtain ⟨t, m, hrun, hcount, hticks, hpoint⟩ := delaySystem_ticks Interval start k
    have hreach : (-1 * Interval).toUInt32.toUInt64 ≤ m.TimerTicks := by
      rw [UInt64.le_iff_toNat_le, localInterval_toNat, hticks, hvalue]
      exact hle
    have hlasts := h t m hrun (returns_of_le hpoint hreach)
    rw [hcount, hticks, UInt64.le_iff_toNat_le, hvalue] at hlasts
    exact hlasts
  · intro h t m hrun hr
    have hinv := delaySystem_inv hrun
    have hreach := hinv.returns hr
    rw [UInt64.le_iff_toNat_le, localInterval_toNat, hinv.ticks, hvalue] at hreach
    rw [hinv.ticks, UInt64.le_iff_toNat_le, hvalue]
    exact h _ hreach

/-! ## When it lasts -/

end KaushOS
