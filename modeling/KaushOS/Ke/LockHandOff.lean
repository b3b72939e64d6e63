import KaushOS.Ke.LockRuns
import KaushOS.Ke.WaitRuns

/-! # Who holds the dispatcher database lock, and at which IRQL

Between any two steps a routine *stands* somewhere: it knows the IRQL of the processor, its own
`OldIrql`, how far the lock of the dispatcher has come, and what `WaitIrql` holds. Its remaining steps
*fit* this standing when they ask for what they find and end, at `ret`, at the IRQL of the call with
the lock free. A thread that is not running always stands behind its locked section at
`DISPATCH_LEVEL`, which is where `KiContextSwitch` puts the thread that takes over.

* **`Standing`, `Fits`, `StackFits`** — where a routine stands, and the steps that fit.
* **`LockInvariant`** — every stack fits, and the lock word goes with the running one.
* **`LockInvariant.step`** — a step keeps it, and moves the lock on by one phase at most.
* **`lock_hand_off`** — the lock is free whenever it is asked for, taken and dropped in turn, and
  every routine returns at the IRQL of its call. -/

namespace KaushOS

open Transition

variable {τ ο : Type} [DecidableEq τ] [DecidableEq ο]

/-! ## Where a routine stands -/

/-- How far the lock of the dispatcher has come. -/
inductive LockPhase
  /-- Nobody has it. -/
  | free
  /-- It has been taken, and the locked section comes next. -/
  | taken
  /-- The locked section is done, and the release comes next. -/
  | settled
  deriving DecidableEq, Repr

/-- **Where a routine stands.** `wait` is the value of `WaitIrql` as long as the routine needs it. -/
structure Standing where
  irql : Nat
  old : Nat
  phase : LockPhase
  wait : Option Nat
  deriving DecidableEq, Repr

/-- Other routines may run on top. -/
def Standing.Open (s : Standing) : Prop := s.phase = .free ∧ s.wait = none

/-- What a step asks for. -/
def LockOp.Needs (entry : Nat) (s : Standing) : LockOp τ ο → Prop
  | .startRoutine => s.Open ∧ s.irql = PASSIVE_LEVEL
  | .shouldNotReturn => s.Open ∨ s.irql = DISPATCH_LEVEL ∧ s.phase = .settled
  | .raiseIrql _ => s.Open ∧ s.old = s.irql
  | .exchange _ => s.Open ∧ s.irql = DISPATCH_LEVEL
  | .body _ => s.phase = .taken ∧ s.wait = none ∧ s.irql = DISPATCH_LEVEL
  | .unlock .DispatcherDataBaseLock .waitIrql =>
    s.phase = .settled ∧ s.irql = DISPATCH_LEVEL ∧ s.wait.isSome
  | .unlock .DispatcherDataBaseLock _ => s.phase = .settled ∧ s.irql = DISPATCH_LEVEL
  -- no other lock is released at another IRQL than the one it was taken at
  | .unlock .ExitThreadLock .waitIrql | .unlock .ExitThreadLock .passive => False
  | .leaveWait | .releaseFromDpcLevel => s.phase = .settled ∧ s.irql = DISPATCH_LEVEL
  | .acquireAtDpcLevel => s.Open ∧ s.irql = DISPATCH_LEVEL
  | .ret => s.Open ∧ s.irql = entry
  | _ => s.Open

/-- Where a routine stands behind a step. -/
def LockOp.after (s : Standing) : LockOp τ ο → Standing
  | .readIrql => { s with old := s.irql }
  | .raiseIrql target => { s with irql := target }
  | .exchange .DispatcherDataBaseLock | .acquireAtDpcLevel => { s with phase := .taken }
  | .body .schedule => { s with phase := .settled, wait := some s.old }
  | .body _ => { s with phase := .settled }
  | .unlock .DispatcherDataBaseLock .waitIrql =>
    { s with phase := .free, wait := none, old := s.wait.getD s.old }
  | .unlock .DispatcherDataBaseLock .passive =>
    { s with phase := .free, wait := none, old := PASSIVE_LEVEL }
  | .unlock .DispatcherDataBaseLock .oldIrql | .leaveWait | .releaseFromDpcLevel =>
    { s with phase := .free, wait := none }
  | .lower | .storeIrql => { s with irql := s.old }
  -- nothing comes behind it
  | .shouldNotReturn => { s with phase := .free, wait := none }
  | _ => s

/-- **The steps fit**: each asks for what it finds. -/
def Fits (entry : Nat) : List (LockOp τ ο) → Standing → Prop
  | [], s => s.Open
  | op :: code, s => op.Needs entry s ∧ Fits entry code (op.after s)

/-- **The stack of the thread `t` fits**: the top frame at the IRQL, phase and `WaitIrql` given, and
every frame below at the IRQL at which the one above was entered. -/
def StackFits (t : τ) (irql : Nat) (phase : LockPhase) (wait : Option Nat) :
    List (LockFrame τ ο) → Prop
  | [] => phase = .free ∧ wait = none
  | f :: rest =>
    f.caller = t ∧ Fits f.entry f.code ⟨irql, f.OldIrql, phase, wait⟩
      ∧ StackFits t f.entry .free none rest

omit [DecidableEq τ] [DecidableEq ο] in
/-- Every step finds the routine open to others or at `DISPATCH_LEVEL`. -/
theorem LockOp.Needs.open_or {op : LockOp τ ο} {entry : Nat} {s : Standing}
    (h : op.Needs entry s) : s.Open ∨ s.irql = DISPATCH_LEVEL := by
  cases op with
  | body b => exact Or.inr h.2.2
  | shouldNotReturn => exact h.imp id And.left
  | unlock name target =>
    cases name with
    | ExitThreadLock =>
      cases target with
      | oldIrql => exact Or.inl h
      | waitIrql | passive => exact absurd h id
    | DispatcherDataBaseLock =>
      cases target with
      | waitIrql => exact Or.inr h.2.1
      | oldIrql | passive => exact Or.inr h.2
  | leaveWait | releaseFromDpcLevel => exact Or.inr h.2
  | startRoutine | raiseIrql _ | exchange _ | acquireAtDpcLevel | ret => exact Or.inl h.1
  | work | call _ | begin _ | check _ | readIrql | lower | dpcQueue | storeIrql | cleanUp
  | mayAttach => exact Or.inl h

omit [DecidableEq τ] [DecidableEq ο] in
/-- Below `DISPATCH_LEVEL` a routine is open to others. -/
theorem Fits.open_of_lt {entry : Nat} {code : List (LockOp τ ο)} {s : Standing}
    (h : Fits entry code s) (hs : s.irql < DISPATCH_LEVEL) : s.Open := by
  cases code with
  | nil => exact h
  | cons op code => exact h.1.open_or.resolve_right (Nat.ne_of_lt hs)

omit [DecidableEq τ] [DecidableEq ο] in
/-- **Every routine fits where it is called.** -/
theorem LockCall.code_fits (routine : LockCall τ ο) (irql : Nat) :
    Fits irql routine.code ⟨irql, irql, .free, none⟩ := by
  cases routine with
  | schedule | exitThread | attachProcess | exitOther | dpcRoutine =>
    simp [LockCall.code, acquireCode, Fits, LockOp.Needs, LockOp.after, Standing.Open]
  | waitForSingleObject o | releaseMutant o =>
    simp [LockCall.code, acquireCode, Fits, LockOp.Needs, LockOp.after, Standing.Open]
  | releaseSemaphore o increment adjustment =>
    simp [LockCall.code, acquireCode, Fits, LockOp.Needs, LockOp.after, Standing.Open]
  | createThread t basePriority process =>
    simp [LockCall.code, Fits, LockOp.Needs, LockOp.after, Standing.Open]
  | raised target =>
    simp [LockCall.code, Fits, LockOp.Needs, LockOp.after, Standing.Open]

omit [DecidableEq τ] [DecidableEq ο] in
/-- A thread that has not run yet fits where `KiContextSwitch` puts it. -/
theorem kiStartThread_fits (t : τ) :
    StackFits t DISPATCH_LEVEL .settled none (kiStartThread t : List (LockFrame τ ο)) := by
  simp [kiStartThread, StackFits, Fits, LockOp.Needs, LockOp.after, Standing.Open]

omit [DecidableEq τ] [DecidableEq ο] in
/-- A thread that runs its start routine fits at `PASSIVE_LEVEL`. -/
theorem inStartRoutine_fits (t : τ) :
    StackFits t PASSIVE_LEVEL .free none (inStartRoutine t : List (LockFrame τ ο)) := by
  simp [inStartRoutine, StackFits, Fits, LockOp.Needs, LockOp.after, Standing.Open]

/-! ## The invariant -/

/-- The thread `t` stands at the top of a stack: its `WaitIrql` is what the top frame needs. -/
def LockMachine.Stands (m : LockMachine τ ο) (t : τ) (irql : Nat) (phase : LockPhase)
    (stack : List (LockFrame τ ο)) : Prop :=
  ∃ wait, (∀ w ∈ wait, m.WaitIrql t = w) ∧ StackFits t irql phase wait stack

/-- **The invariant.** The lock word is set unless the lock is free, the stack of the running thread
fits the IRQL, and every other thread stands behind its locked section. -/
structure LockInvariant (m : LockMachine τ ο) (phase : LockPhase) : Prop where
  word : (m.locks .DispatcherDataBaseLock).Lock = if phase = .free then 0 else 1
  running : m.Stands m.current m.CurrentIrql phase m.stack
  others : ∀ t, t ≠ m.current → m.Stands t DISPATCH_LEVEL .settled (m.suspended t)

variable {m m₁ m' : LockMachine τ ο} {f : LockFrame τ ο} {rest : List (LockFrame τ ο)}
  {code : List (LockOp τ ο)} {phase phase' : LockPhase} {ke : Ke τ ο}

omit [DecidableEq τ] [DecidableEq ο] in
/-- The invariant at the start. -/
theorem LockInvariant.start (h : m.Start) : LockInvariant m .free := by
  refine ⟨?_, ⟨none, by simp, ?_⟩, fun t _ => ⟨none, by simp, ?_⟩⟩
  · rw [h.locks]
    rfl
  · rw [h.irql, h.stack]
    exact inStartRoutine_fits m.current
  · rw [h.suspended]
    exact kiStartThread_fits t

omit [DecidableEq ο] in
/-- **A step that leaves a frame on top.** It either keeps the processor, or gives it away behind a
locked section; then the thread that takes over stands where the other one has got to. -/
theorem LockInvariant.next (wait : Option Nat)
    (hcur : ke.sched.CurrentThread = m.current
      ∨ m.CurrentIrql = DISPATCH_LEVEL ∧ phase = .settled)
    (hword : (m.locks .DispatcherDataBaseLock).Lock = if phase = .free then 0 else 1)
    (hwait : ∀ w ∈ wait, m.WaitIrql m.current = w)
    (hstack : StackFits m.current m.CurrentIrql phase wait (f :: rest))
    (hothers : ∀ t, t ≠ m.current → m.Stands t DISPATCH_LEVEL .settled (m.suspended t)) :
    LockInvariant (m.next f rest ke) phase := by
  unfold LockMachine.next
  by_cases hsame : ke.sched.CurrentThread = m.current
  · rw [if_pos hsame]
    refine ⟨hword, ⟨wait, ?_, ?_⟩, ?_⟩
    · intro w hw
      rw [← hwait w hw]
      exact congrArg m.WaitIrql hsame
    · show StackFits ke.sched.CurrentThread m.CurrentIrql phase wait (f :: rest)
      rw [hsame]
      exact hstack
    · intro t ht
      exact hothers t fun e => ht (e.trans hsame.symm)
  · rw [if_neg hsame]
    obtain ⟨hirql, rfl⟩ := hcur.resolve_left hsame
    rw [hirql] at hstack
    refine ⟨hword, ?_, ?_⟩
    · show LockMachine.Stands _ ke.sched.CurrentThread m.CurrentIrql .settled
        (Function.update m.suspended m.current (f :: rest) ke.sched.CurrentThread)
      rw [Function.update_of_ne hsame, hirql]
      exact hothers _ hsame
    · intro t ht
      -- the thread that leaves joins the others
      show ∃ wait, (∀ w ∈ wait, m.WaitIrql t = w) ∧ StackFits t DISPATCH_LEVEL .settled wait
        (Function.update m.suspended m.current (f :: rest) t)
      by_cases htc : t = m.current
      · subst htc
        rw [Function.update_self]
        exact ⟨wait, hwait, hstack⟩
      · rw [Function.update_of_ne htc]
        exact hothers t htc

omit [DecidableEq τ] [DecidableEq ο] in
/-- **A call** puts a frame on top of a routine that is open to others. -/
theorem LockInvariant.push (h : LockInvariant m .free) (routine : LockCall τ ο)
    (hstack : StackFits m.current m.CurrentIrql .free none (f :: rest)) :
    LockInvariant { m with stack := m.frame routine :: f :: rest } .free :=
  ⟨h.word, ⟨none, by simp, rfl, routine.code_fits m.CurrentIrql, hstack⟩, h.others⟩

omit [DecidableEq τ] [DecidableEq ο] in
/-- **A device interrupt** comes in on top of a routine that is open to others. -/
theorem LockInvariant.interrupt (h : LockInvariant m phase) (irql : Nat)
    (hlt : m.CurrentIrql < DISPATCH_LEVEL) :
    phase = .free ∧ LockInvariant (m.interrupt irql) .free := by
  obtain ⟨wait, -, hfits⟩ := h.running
  have hopen : phase = .free ∧ wait = none := by
    cases hs : m.stack with
    | nil =>
      rw [hs] at hfits
      exact hfits
    | cons f rest =>
      rw [hs] at hfits
      exact hfits.2.1.open_of_lt hlt
  obtain ⟨rfl, rfl⟩ := hopen
  refine ⟨rfl, h.word, ⟨none, by simp, rfl, ?_, hfits⟩, h.others⟩
  simp [Fits, LockOp.Needs, LockOp.after, Standing.Open]

/-! ## Steps -/

/-- What a step has to do with the lock of the dispatcher. -/
inductive LockMove
  | takes
  | drops
  | leaves
  deriving DecidableEq, Repr

/-- The steps that take the lock of the dispatcher, and those that drop it. -/
def LockOp.move : LockOp τ ο → LockMove
  | .exchange .DispatcherDataBaseLock | .acquireAtDpcLevel => .takes
  | .unlock .DispatcherDataBaseLock _ | .leaveWait | .releaseFromDpcLevel => .drops
  | _ => .leaves

/-- **How a step moves the lock on.** -/
def LockMove.Leads (phase phase' : LockPhase) : LockMove → Prop
  | .takes => phase = .free ∧ phase' = .taken
  | .drops => phase = .settled ∧ phase' = .free
  | .leaves => phase = .free ∧ phase' = .free ∨ phase = .taken ∧ phase' = .settled

/-! ### Who has the processor -/

/-- The rest of a wait does not switch threads. -/
theorem keResume_sched (k : Ke τ ο) : (keResume k).sched = k.sched := by
  simp only [keResume]
  split
  · split <;> rfl
  · rfl

/-- A prelude does not switch threads. -/
theorem LockMachine.runPrelude_current {p : Prelude ο} (h : m.runPrelude p = .ok ke) :
    ke.sched.CurrentThread = m.current := by
  cases p with
  | waitCheck =>
    obtain ⟨_, -, h⟩ := kernel_bind_eq_ok.mp h
    cases h
    rfl
  | semaphoreCheck o increment adjustment =>
    obtain ⟨_, -, h⟩ := kernel_bind_eq_ok.mp h
    obtain ⟨_, -, h⟩ := kernel_bind_eq_ok.mp h
    obtain ⟨_, -, h⟩ := kernel_bind_eq_ok.mp h
    cases h
    rfl
  | mutantBegin o =>
    obtain ⟨_, -, h⟩ := kernel_bind_eq_ok.mp h
    cases h
    rfl
  | terminate =>
    obtain ⟨_, -, h⟩ := kernel_bind_eq_ok.mp h
    cases h
    rfl

/-- A round of the clean-up loop does not switch threads. -/
theorem kiReapThread_current {s s' : Sched τ} {thread : Option τ}
    (h : kiReapThread s = .ok (thread, s')) : s'.CurrentThread = s.CurrentThread := by
  obtain ⟨⟨first, head, tcb⟩, -, h⟩ := kernel_bind_eq_ok.mp h
  cases first with
  | none =>
    cases h
    rfl
  | some t =>
    obtain ⟨_, -, h⟩ := kernel_bind_eq_ok.mp h
    cases h
    rfl

/-! ### The locks -/

omit [DecidableEq τ] in
/-- The loop of the exchange ends only when the lock word was not set, and sets it. -/
theorem KSPIN_LOCK.exchange_ok {l l' : KSPIN_LOCK τ} {old : Nat} {t : τ}
    (h : l.exchange old t = .ok l') : l'.Lock = 1 := by
  unfold KSPIN_LOCK.exchange at h
  split at h
  · cases h
    rfl
  · cases h

omit [DecidableEq τ] in
/-- A reset clears the lock word. -/
theorem KSPIN_LOCK.reset_ok {l l' : KSPIN_LOCK τ} (h : l.reset = .ok l') : l'.Lock = 0 := by
  obtain ⟨_, -, h⟩ := kernel_bind_eq_ok.mp h
  cases h
  rfl

/-- A release clears the lock word. -/
theorem keReleaseSpinLock_ok {name : SpinLockName} {irql old : Nat} {t : τ} {l l' : KSPIN_LOCK τ}
    (h : keReleaseSpinLock name irql old t l = .ok l') : l'.Lock = 0 := by
  obtain ⟨_, -, h⟩ := kernel_bind_eq_ok.mp h
  split at h
  · obtain ⟨_, -, h⟩ := kernel_bind_eq_ok.mp h
    obtain ⟨_, -, h⟩ := kernel_bind_eq_ok.mp h
    exact KSPIN_LOCK.reset_ok h
  · exact KSPIN_LOCK.reset_ok h

/-- An acquisition at a raised IRQL sets the lock word. -/
theorem keAcquireSpinLockAtDpcLevel_ok {irql : Nat} {t : τ} {l l' : KSPIN_LOCK τ}
    (h : keAcquireSpinLockAtDpcLevel irql t l = .ok l') : l'.Lock = 1 := by
  obtain ⟨_, -, h⟩ := kernel_bind_eq_ok.mp h
  split at h
  · obtain ⟨_, -, h⟩ := kernel_bind_eq_ok.mp h
    exact KSPIN_LOCK.exchange_ok h
  · exact KSPIN_LOCK.exchange_ok h

/-- A release at a raised IRQL clears it. -/
theorem keReleaseSpinLockFromDpcLevel_ok {irql : Nat} {t : τ} {l l' : KSPIN_LOCK τ}
    (h : keReleaseSpinLockFromDpcLevel irql t l = .ok l') : l'.Lock = 0 := by
  obtain ⟨_, -, h⟩ := kernel_bind_eq_ok.mp h
  obtain ⟨_, -, h⟩ := kernel_bind_eq_ok.mp h
  exact KSPIN_LOCK.reset_ok h

omit [DecidableEq ο] in
/-- The lock of `ExitThreadList` inside the locked section changes no other lock. -/
theorem LockMachine.exitLockPair_ok {b : LockedBody τ ο} (h : m.exitLockPair b = .ok m₁) :
    ∃ locks, m₁ = { m with locks }
      ∧ locks .DispatcherDataBaseLock = m.locks .DispatcherDataBaseLock := by
  unfold LockMachine.exitLockPair at h
  split at h
  · split at h
    · obtain ⟨l, -, h⟩ := kernel_bind_eq_ok.mp h
      obtain ⟨l', -, h⟩ := kernel_bind_eq_ok.mp h
      cases h
      exact ⟨_, rfl, Function.update_of_ne (by decide) _ _⟩
    · cases h
      exact ⟨_, rfl, rfl⟩
  · cases h
    exact ⟨_, rfl, rfl⟩

/-! ### One step -/

omit [DecidableEq ο] in
/-- **A step of a routine that is open to others**, which leaves the lock of the dispatcher alone. -/
theorem LockInvariant.advance (h : LockInvariant m .free) {irql : Nat}
    {locks : SpinLockName → KSPIN_LOCK τ}
    (hlocks : locks .DispatcherDataBaseLock = m.locks .DispatcherDataBaseLock)
    (hcur : ke.sched.CurrentThread = m.current)
    (hstack : StackFits m.current irql .free none (f :: rest)) :
    LockInvariant ({ m with CurrentIrql := irql, locks }.next f rest ke) .free := by
  apply LockInvariant.next none
  · exact Or.inl hcur
  · show (locks .DispatcherDataBaseLock).Lock = _
    rw [hlocks]
    exact h.word
  · simp
  · exact hstack
  · exact h.others

omit [DecidableEq ο] in
/-- **A step that takes or drops the lock of the dispatcher.** -/
theorem LockInvariant.setLock (h : LockInvariant m phase) {l : KSPIN_LOCK τ}
    (hl : l.Lock = if phase' = .free then 0 else 1) (hcur : ke.sched.CurrentThread = m.current)
    (hstack : StackFits m.current m.CurrentIrql phase' none (f :: rest)) :
    LockInvariant ((m.setLock .DispatcherDataBaseLock l).next f rest ke) phase' := by
  apply LockInvariant.next none
  · exact Or.inl hcur
  · show (Function.update m.locks .DispatcherDataBaseLock l .DispatcherDataBaseLock).Lock = _
    rw [Function.update_self]
    exact hl
  · simp
  · exact hstack
  · exact h.others

omit [DecidableEq ο] in
/-- A locked section leaves the stacks of the other threads alone, or gives a new thread its own. -/
theorem LockInvariant.others_body (h : LockInvariant m phase) (b : LockedBody τ ο) (old : Nat)
    {t : τ} (ht : t ≠ m.current) :
    ∃ wait, (∀ w ∈ wait, m.waitIrqlAfter b old t = w)
      ∧ StackFits t DISPATCH_LEVEL .settled wait (m.suspendedAfter b t) := by
  obtain ⟨wait, hwait, hother⟩ := h.others t ht
  cases b with
  | schedule =>
    refine ⟨wait, ?_, hother⟩
    show ∀ w ∈ wait, Function.update m.WaitIrql m.current old t = w
    rw [Function.update_of_ne ht]
    exact hwait
  | ready i p process =>
    by_cases hti : t = i
    · subst hti
      refine ⟨none, by simp, ?_⟩
      show StackFits t DISPATCH_LEVEL .settled none
        (Function.update m.suspended t (kiStartThread t) t)
      rw [Function.update_self]
      exact kiStartThread_fits t
    · refine ⟨wait, hwait, ?_⟩
      show StackFits t DISPATCH_LEVEL .settled wait
        (Function.update m.suspended i (kiStartThread i) t)
      rw [Function.update_of_ne hti]
      exact hother
  | wait _ | release _ | releaseMutant _ | releaseAll | attach => exact ⟨wait, hwait, hother⟩

/-- **A locked section** ends with the thread, or the one that takes over, about to release. -/
theorem LockInvariant.execBody (h : LockInvariant m .taken) {b : LockedBody τ ο}
    (hirql : m.CurrentIrql = DISPATCH_LEVEL) (hcaller : f.caller = m.current)
    (hfits : Fits f.entry code ((LockOp.body b : LockOp τ ο).after
      ⟨m.CurrentIrql, f.OldIrql, .taken, none⟩))
    (hrest : StackFits m.current f.entry .free none rest)
    (hrun : m.execBody b f code rest = .ok m') : LockInvariant m' .settled := by
  obtain ⟨_, -, hrun⟩ := kernel_bind_eq_ok.mp hrun
  obtain ⟨⟨touched, ke⟩, -, hrun⟩ := kernel_bind_eq_ok.mp hrun
  have hrun' : (m.exitLockPair b >>= fun m₁ => .ok ({ m₁ with
      WaitIrql := m.waitIrqlAfter b f.OldIrql
      suspended := m.suspendedAfter b }.next { f with code := m.codeBehind b code } rest ke))
      = .ok m' := by
    cases touched with
    | false => exact hrun
    | true =>
      obtain ⟨_, -, hrun⟩ := kernel_bind_eq_ok.mp hrun
      exact hrun
  obtain ⟨m₁, hpair, hrun'⟩ := kernel_bind_eq_ok.mp hrun'
  obtain ⟨locks, rfl, hlocks⟩ := LockMachine.exitLockPair_ok hpair
  cases hrun'
  apply LockInvariant.next ((LockOp.body b : LockOp τ ο).after
    ⟨m.CurrentIrql, f.OldIrql, .taken, none⟩).wait
  · exact Or.inr ⟨hirql, rfl⟩
  · show (locks .DispatcherDataBaseLock).Lock = _
    rw [hlocks, h.word]
    rfl
  · intro w hw
    cases b with
    | schedule =>
      obtain rfl := Option.some.inj hw
      exact Function.update_self _ _ _
    | wait _ | release _ | releaseMutant _ | releaseAll | attach | ready _ _ _ => cases hw
  · refine ⟨hcaller, ?_, hrest⟩
    cases b with
    | schedule =>
      show Fits f.entry (m.codeBehind .schedule code) _
      unfold LockMachine.codeBehind
      simp only
      split
      · -- a terminated thread never comes back
        exact ⟨Or.inr ⟨hirql, rfl⟩, rfl, rfl⟩
      · exact hfits
    | wait _ | release _ | releaseMutant _ | releaseAll | attach | ready _ _ _ => exact hfits
  · exact fun t ht => h.others_body b f.OldIrql ht

/-- **One step of a routine** keeps the invariant and moves the lock on. -/
theorem LockInvariant.exec (h : LockInvariant m phase) {choice : LockChoice τ ο} {op : LockOp τ ο}
    (hstack : m.stack = f :: rest) (hcode : f.code = op :: code)
    (hrun : m.exec choice op code f rest = .ok m') :
    ∃ phase', LockInvariant m' phase' ∧ op.move.Leads phase phase' := by
  obtain ⟨wait, hwait, hfits⟩ := h.running
  rw [hstack] at hfits
  obtain ⟨hcaller, hfits, hrest⟩ := hfits
  rw [hcode] at hfits
  obtain ⟨hneeds, hfits⟩ := hfits
  cases op with
  | work =>
    obtain ⟨rfl, rfl⟩ := hneeds
    refine ⟨.free, ?_, Or.inl ⟨rfl, rfl⟩⟩
    cases choice with
    | go =>
      cases hrun
      exact h.advance rfl rfl ⟨hcaller, hfits, hrest⟩
    | call routine =>
      cases hrun
      apply h.push
      refine ⟨hcaller, ?_, hrest⟩
      rw [hcode]
      exact ⟨⟨rfl, rfl⟩, hfits⟩
  | startRoutine =>
    obtain ⟨⟨rfl, rfl⟩, -⟩ := hneeds
    cases hrun
    exact ⟨.free, h.advance rfl rfl ⟨hcaller, hfits, hrest⟩, Or.inl ⟨rfl, rfl⟩⟩
  | call routine =>
    obtain ⟨rfl, rfl⟩ := hneeds
    cases hrun
    exact ⟨.free, h.push routine ⟨hcaller, hfits, hrest⟩, Or.inl ⟨rfl, rfl⟩⟩
  | shouldNotReturn => cases hrun
  | begin p =>
    obtain ⟨rfl, rfl⟩ := hneeds
    obtain ⟨ke, hke, hrun⟩ := kernel_bind_eq_ok.mp hrun
    cases hrun
    exact ⟨.free, h.advance rfl (LockMachine.runPrelude_current hke) ⟨hcaller, hfits, hrest⟩,
      Or.inl ⟨rfl, rfl⟩⟩
  | check name =>
    obtain ⟨rfl, rfl⟩ := hneeds
    obtain ⟨_, -, hrun⟩ := kernel_bind_eq_ok.mp hrun
    cases hrun
    exact ⟨.free, h.advance rfl rfl ⟨hcaller, hfits, hrest⟩, Or.inl ⟨rfl, rfl⟩⟩
  | readIrql =>
    obtain ⟨rfl, rfl⟩ := hneeds
    cases hrun
    exact ⟨.free, h.advance rfl rfl ⟨hcaller, hfits, hrest⟩, Or.inl ⟨rfl, rfl⟩⟩
  | raiseIrql target =>
    obtain ⟨⟨rfl, rfl⟩, -⟩ := hneeds
    obtain ⟨_, -, hrun⟩ := kernel_bind_eq_ok.mp hrun
    obtain ⟨_, -, hrun⟩ := kernel_bind_eq_ok.mp hrun
    cases hrun
    exact ⟨.free, h.advance rfl rfl ⟨hcaller, hfits, hrest⟩, Or.inl ⟨rfl, rfl⟩⟩
  | exchange name =>
    obtain ⟨⟨rfl, rfl⟩, -⟩ := hneeds
    obtain ⟨l, hl, hrun⟩ := kernel_bind_eq_ok.mp hrun
    cases hrun
    cases name with
    | ExitThreadLock =>
      refine ⟨.free, h.advance ?_ rfl ⟨hcaller, hfits, hrest⟩, Or.inl ⟨rfl, rfl⟩⟩
      exact Function.update_of_ne (by decide) _ _
    | DispatcherDataBaseLock =>
      refine ⟨.taken, ?_, rfl, rfl⟩
      exact h.setLock (KSPIN_LOCK.exchange_ok hl) rfl ⟨hcaller, hfits, hrest⟩
  | acquireAtDpcLevel =>
    obtain ⟨⟨rfl, rfl⟩, -⟩ := hneeds
    obtain ⟨l, hl, hrun⟩ := kernel_bind_eq_ok.mp hrun
    cases hrun
    refine ⟨.taken, ?_, rfl, rfl⟩
    exact h.setLock (keAcquireSpinLockAtDpcLevel_ok hl) rfl ⟨hcaller, hfits, hrest⟩
  | body b =>
    obtain ⟨rfl, rfl, hirql⟩ := hneeds
    exact ⟨.settled, h.execBody hirql hcaller hfits hrest hrun, Or.inr ⟨rfl, rfl⟩⟩
  | unlock name target =>
    have hunlock : m.execUnlock name (m.unlockIrql f target) f code rest m.ke = .ok m' := by
      simp only [LockMachine.exec] at hrun
      split at hrun
      · obtain ⟨_, -, hrun⟩ := kernel_bind_eq_ok.mp hrun
        exact hrun
      · exact hrun
    obtain ⟨l, hl, hunlock⟩ := kernel_bind_eq_ok.mp hunlock
    cases hunlock
    have hword := keReleaseSpinLock_ok hl
    cases name with
    | ExitThreadLock =>
      cases target with
      | oldIrql =>
        obtain ⟨rfl, rfl⟩ := hneeds
        refine ⟨.free, h.advance ?_ rfl ⟨hcaller, hfits, hrest⟩, Or.inl ⟨rfl, rfl⟩⟩
        exact Function.update_of_ne (by decide) _ _
      | waitIrql | passive => exact absurd hneeds id
    | DispatcherDataBaseLock =>
      cases target with
      | oldIrql =>
        obtain ⟨rfl, -⟩ := hneeds
        exact ⟨.free, h.setLock hword rfl ⟨hcaller, hfits, hrest⟩, rfl, rfl⟩
      | passive =>
        obtain ⟨rfl, -⟩ := hneeds
        exact ⟨.free, h.setLock hword rfl ⟨hcaller, hfits, hrest⟩, rfl, rfl⟩
      | waitIrql =>
        obtain ⟨rfl, -, hsome⟩ := hneeds
        obtain ⟨w, rfl⟩ := Option.isSome_iff_exists.mp hsome
        -- `WaitIrql` still has what this call of `Schedule` stored
        have hw : m.WaitIrql f.caller = w := by
          rw [hcaller]
          exact hwait w rfl
        refine ⟨.free, h.setLock hword rfl ⟨hcaller, ?_, hrest⟩, rfl, rfl⟩
        rw [show m.unlockIrql f .waitIrql = w from hw]
        exact hfits
  | leaveWait =>
    obtain ⟨rfl, -⟩ := hneeds
    obtain ⟨l, hl, hrun⟩ := kernel_bind_eq_ok.mp hrun
    cases hrun
    have hcur : (keResume m.ke).sched.CurrentThread = m.current := by
      rw [keResume_sched]
      rfl
    exact ⟨.free, h.setLock (keReleaseSpinLock_ok hl) hcur ⟨hcaller, hfits, hrest⟩, rfl, rfl⟩
  | releaseFromDpcLevel =>
    obtain ⟨rfl, -⟩ := hneeds
    obtain ⟨l, hl, hrun⟩ := kernel_bind_eq_ok.mp hrun
    cases hrun
    refine ⟨.free, ?_, rfl, rfl⟩
    exact h.setLock (keReleaseSpinLockFromDpcLevel_ok hl) rfl ⟨hcaller, hfits, hrest⟩
  | lower =>
    obtain ⟨rfl, rfl⟩ := hneeds
    obtain ⟨_, -, hrun⟩ := kernel_bind_eq_ok.mp hrun
    refine ⟨.free, ?_, Or.inl ⟨rfl, rfl⟩⟩
    split at hrun
    · cases hrun
      exact h.advance rfl rfl ⟨hcaller, ⟨⟨rfl, rfl⟩, ⟨rfl, rfl⟩, hfits⟩, hrest⟩
    · cases hrun
      exact h.advance rfl rfl ⟨hcaller, ⟨⟨rfl, rfl⟩, hfits⟩, hrest⟩
  | dpcQueue =>
    obtain ⟨rfl, rfl⟩ := hneeds
    refine ⟨.free, ?_, Or.inl ⟨rfl, rfl⟩⟩
    have hsame : StackFits m.current m.CurrentIrql .free none (f :: rest) := by
      refine ⟨hcaller, ?_, hrest⟩
      rw [hcode]
      exact ⟨⟨rfl, rfl⟩, hfits⟩
    have hgo : LockInvariant (m.next { f with code } rest m.ke) .free :=
      h.advance rfl rfl ⟨hcaller, hfits, hrest⟩
    simp only [LockMachine.exec] at hrun
    split at hrun
    · cases hrun
      exact h.push .schedule hsame
    · cases hrun
      exact h.push .dpcRoutine hsame
    · cases hrun
      exact hgo
  | storeIrql =>
    obtain ⟨rfl, rfl⟩ := hneeds
    cases hrun
    exact ⟨.free, h.advance rfl rfl ⟨hcaller, hfits, hrest⟩, Or.inl ⟨rfl, rfl⟩⟩
  | cleanUp =>
    obtain ⟨rfl, rfl⟩ := hneeds
    obtain ⟨⟨thread, sched⟩, hreap, hrun⟩ := kernel_bind_eq_ok.mp hrun
    have hcur : sched.CurrentThread = m.current := kiReapThread_current hreap
    refine ⟨.free, ?_, Or.inl ⟨rfl, rfl⟩⟩
    cases thread with
    | none =>
      cases hrun
      exact h.advance rfl hcur ⟨hcaller, hfits, hrest⟩
    | some t =>
      cases hrun
      have hsame : StackFits m.current m.CurrentIrql .free none (f :: rest) := by
        refine ⟨hcaller, ?_, hrest⟩
        rw [hcode]
        exact ⟨⟨rfl, rfl⟩, hfits⟩
      have hnext : m.next f rest { m.ke with sched }
          = { m with ke := { m.ke with sched }, stack := f :: rest } := if_pos hcur
      have h' : LockInvariant (m.next f rest { m.ke with sched }) .free :=
        h.advance rfl hcur hsame
      rw [hnext] at h' ⊢
      refine h'.push .exitOther ?_
      show StackFits sched.CurrentThread m.CurrentIrql .free none (f :: rest)
      rw [hcur]
      exact hsame
  | mayAttach =>
    obtain ⟨rfl, rfl⟩ := hneeds
    refine ⟨.free, ?_, Or.inl ⟨rfl, rfl⟩⟩
    simp only [LockMachine.exec] at hrun
    split at hrun
    · cases hrun
      exact h.push .attachProcess ⟨hcaller, hfits, hrest⟩
    · cases hrun
      exact h.advance rfl rfl ⟨hcaller, hfits, hrest⟩
  | ret =>
    obtain ⟨⟨rfl, rfl⟩, hirql⟩ := hneeds
    cases hrun
    refine ⟨.free, ⟨h.word, ⟨none, by simp, ?_⟩, h.others⟩, Or.inl ⟨rfl, rfl⟩⟩
    rw [← hirql] at hrest
    exact hrest

/-! ## Runs -/

/-- What an event has to do with the lock of the dispatcher. -/
def LockEvent.move (l : LockEvent τ ο × LockMachine τ ο) : LockMove :=
  match l with
  | (.interrupt _, _) => .leaves
  | (.step _, m) => (m.nextOp.map LockOp.move).getD .leaves

/-- **One event** keeps the invariant and moves the lock on. -/
theorem LockInvariant.event (h : LockInvariant m phase) {e : LockEvent τ ο} (hen : e.Enabled m)
    (hrun : e.run m = .ok m') :
    ∃ phase', LockInvariant m' phase' ∧ (LockEvent.move (e, m)).Leads phase phase' := by
  cases e with
  | interrupt irql =>
    obtain ⟨rfl, hinv⟩ := h.interrupt irql hen.1
    cases hrun
    exact ⟨.free, hinv, Or.inl ⟨rfl, rfl⟩⟩
  | step choice =>
    have hrun' : m.step choice = .ok m' := hrun
    unfold LockMachine.step at hrun'
    obtain ⟨wait, -, hfits⟩ := h.running
    cases hstack : m.stack with
    | nil =>
      rw [hstack] at hrun' hfits
      obtain ⟨rfl, -⟩ := hfits
      cases hrun'
      have hop : m.nextOp = none := by
        unfold LockMachine.nextOp
        rw [hstack]
        rfl
      refine ⟨.free, h, ?_⟩
      simp [LockEvent.move, LockMove.Leads, hop]
    | cons f rest =>
      rw [hstack] at hrun' hfits
      obtain ⟨-, hfits, -⟩ := hfits
      cases hcode : f.code with
      | nil =>
        rw [hcode] at hfits
        simp only [hcode] at hrun'
        obtain ⟨rfl, -⟩ := hfits
        cases hrun'
        have hop : m.nextOp = none := by
          unfold LockMachine.nextOp
          rw [hstack]
          exact congrArg List.head? hcode
        refine ⟨.free, h, ?_⟩
        simp [LockEvent.move, LockMove.Leads, hop]
      | cons op code =>
        simp only [hcode] at hrun'
        obtain ⟨phase', hinv, hmoves⟩ := h.exec hstack hcode hrun'
        have hop : m.nextOp = some op := by
          unfold LockMachine.nextOp
          rw [hstack]
          exact congrArg List.head? hcode
        refine ⟨phase', hinv, ?_⟩
        simpa [LockEvent.move, hop] using hmoves

/-- How often the lock of the dispatcher has been taken. -/
def acquisitions (t : List (LockEvent τ ο × LockMachine τ ο)) : Nat :=
  t.countP fun l => LockEvent.move l = .takes

/-- How often it has been dropped. -/
def releases (t : List (LockEvent τ ο × LockMachine τ ο)) : Nat :=
  t.countP fun l => LockEvent.move l = .drops

/-- **In every run** the invariant holds, and the lock has been taken once more than it has been
dropped, or as often. -/
theorem lock_run {t : List (LockEvent τ ο × LockMachine τ ο)} (h : (lockSystem τ ο).Run t m) :
    ∃ phase, LockInvariant m phase
      ∧ acquisitions t = releases t + if phase = .free then 0 else 1 := by
  apply h.invariant (I := fun t m => ∃ phase, LockInvariant m phase
      ∧ acquisitions t = releases t + if phase = .free then 0 else 1)
  · intro m hm
    exact ⟨.free, .start hm, rfl⟩
  · rintro t m ⟨e, m₀⟩ m' - ⟨phase, hinv, hcount⟩ ⟨hm, hen, hrun⟩
    obtain rfl : m₀ = m := hm
    obtain ⟨phase', hinv', hleads⟩ := hinv.event hen hrun
    refine ⟨phase', hinv', ?_⟩
    unfold acquisitions releases at hcount ⊢
    rw [List.countP_cons, List.countP_cons, hcount]
    cases hmove : LockEvent.move (e, m₀) with
    | takes =>
      rw [hmove] at hleads
      obtain ⟨rfl, rfl⟩ := hleads
      simp
    | drops =>
      rw [hmove] at hleads
      obtain ⟨rfl, rfl⟩ := hleads
      simp
    | leaves =>
      rw [hmove] at hleads
      rcases hleads with ⟨rfl, rfl⟩ | ⟨rfl, rfl⟩
      · simp
      · simp

/-- The steps by which a routine asks for the lock of the dispatcher. -/
def LockOp.requests : LockOp τ ο → Bool
  | .check .DispatcherDataBaseLock | .exchange .DispatcherDataBaseLock | .acquireAtDpcLevel => true
  | _ => false

omit [DecidableEq τ] [DecidableEq ο] in
/-- A routine that asks for the lock is open to others. -/
theorem LockOp.Needs.of_requests {op : LockOp τ ο} {entry : Nat} {s : Standing}
    (h : op.Needs entry s) (hop : op.requests = true) : s.phase = .free := by
  cases op with
  | check name => exact h.1
  | exchange name => exact h.1.1
  | acquireAtDpcLevel => exact h.1.1
  | _ => cases hop

omit [DecidableEq τ] [DecidableEq ο] in
/-- What the next step of the running routine asks for is there. -/
theorem LockInvariant.needs (h : LockInvariant m phase) {op : LockOp τ ο}
    (hop : m.nextOp = some op) :
    ∃ f rest wait, m.stack = f :: rest ∧ f.caller = m.current
      ∧ op.Needs f.entry ⟨m.CurrentIrql, f.OldIrql, phase, wait⟩ := by
  obtain ⟨wait, -, hfits⟩ := h.running
  unfold LockMachine.nextOp at hop
  cases hstack : m.stack with
  | nil =>
    rw [hstack] at hop
    cases hop
  | cons f rest =>
    rw [hstack] at hop hfits
    obtain ⟨hcaller, hfits, -⟩ := hfits
    cases hcode : f.code with
    | nil =>
      simp [hcode] at hop
    | cons op' code =>
      simp only [List.head?_cons, Option.bind_some, hcode, Option.some.injEq] at hop
      subst hop
      rw [hcode] at hfits
      exact ⟨f, rest, wait, rfl, hcaller, hfits.1⟩

/-- **After an acquisition** come one locked section and one release. -/
theorem moves_after_acquisition {t : List (LockEvent τ ο × LockMachine τ ο)}
    {l₁ l₂ l₃ : LockEvent τ ο × LockMachine τ ο}
    (h : (lockSystem τ ο).Run (l₃ :: l₂ :: l₁ :: t) m) (htakes : LockEvent.move l₁ = .takes) :
    LockEvent.move l₂ = .leaves ∧ LockEvent.move l₃ = .drops := by
  cases h with
  | step h hs₃ =>
  cases h with
  | step h hs₂ =>
  cases h with
  | step h hs₁ =>
  obtain ⟨e₁, m₁⟩ := l₁
  obtain ⟨e₂, m₂⟩ := l₂
  obtain ⟨e₃, m₃⟩ := l₃
  obtain ⟨rfl, hen₁, hrun₁⟩ := hs₁
  obtain ⟨rfl, hen₂, hrun₂⟩ := hs₂
  obtain ⟨rfl, hen₃, hrun₃⟩ := hs₃
  obtain ⟨phase, hinv, -⟩ := lock_run h
  obtain ⟨phase₁, hinv₁, hleads₁⟩ := hinv.event hen₁ hrun₁
  obtain ⟨phase₂, hinv₂, hleads₂⟩ := hinv₁.event hen₂ hrun₂
  obtain ⟨phase₃, -, hleads₃⟩ := hinv₂.event hen₃ hrun₃
  rw [htakes] at hleads₁
  obtain ⟨-, rfl⟩ := hleads₁
  -- a lock that has been taken moves on to the end of its section, and then to its release
  have hmove₂ : LockEvent.move (e₂, m₂) = .leaves ∧ phase₂ = .settled := by
    cases hmove : LockEvent.move (e₂, m₂) with
    | takes => rw [hmove] at hleads₂; cases hleads₂.1
    | drops => rw [hmove] at hleads₂; cases hleads₂.1
    | leaves =>
      rw [hmove] at hleads₂
      rcases hleads₂ with ⟨hfree, -⟩ | ⟨-, hsettled⟩
      · cases hfree
      · exact ⟨rfl, hsettled⟩
  obtain ⟨hmove₂, rfl⟩ := hmove₂
  refine ⟨hmove₂, ?_⟩
  cases hmove : LockEvent.move (e₃, m₃) with
  | takes => rw [hmove] at hleads₃; cases hleads₃.1
  | drops => rfl
  | leaves =>
    rw [hmove] at hleads₃
    rcases hleads₃ with ⟨hfree, -⟩ | ⟨htaken, -⟩
    · cases hfree
    · cases htaken

/-- **The hand-off of the dispatcher database lock.** In every run:

* the lock is free whenever a routine asks for it;
* it has been taken as often as it has been dropped, once more while it is held, and every
  acquisition is followed by one locked section and one release;
* a routine returns on the thread that called it, at the IRQL of the call;
* a start routine is entered at `PASSIVE_LEVEL` with the lock free. -/
theorem lock_hand_off {t : List (LockEvent τ ο × LockMachine τ ο)}
    (h : (lockSystem τ ο).Run t m) :
    (∀ op, m.nextOp = some op → op.requests = true →
      (m.locks .DispatcherDataBaseLock).Lock = 0)
    ∧ acquisitions t = releases t + (m.locks .DispatcherDataBaseLock).Lock
    ∧ (∀ t₀ l₁ l₂ l₃, t = l₃ :: l₂ :: l₁ :: t₀ → LockEvent.move l₁ = .takes →
      LockEvent.move l₂ = .leaves ∧ LockEvent.move l₃ = .drops)
    ∧ (m.nextOp = some .ret → ∃ f rest, m.stack = f :: rest ∧ f.caller = m.current
      ∧ m.CurrentIrql = f.entry)
    ∧ (m.nextOp = some .startRoutine → m.CurrentIrql = PASSIVE_LEVEL
      ∧ (m.locks .DispatcherDataBaseLock).Lock = 0) := by
  obtain ⟨phase, hinv, hcount⟩ := lock_run h
  refine ⟨?_, ?_, ?_, ?_, ?_⟩
  · intro op hop hrequests
    obtain ⟨f, rest, wait, -, -, hneeds⟩ := hinv.needs hop
    rw [hinv.word, if_pos (hneeds.of_requests hrequests)]
  · rw [hcount, hinv.word]
  · rintro t₀ l₁ l₂ l₃ rfl htakes
    exact moves_after_acquisition h htakes
  · intro hop
    obtain ⟨f, rest, wait, hstack, hcaller, -, hirql⟩ := hinv.needs hop
    exact ⟨f, rest, hstack, hcaller, hirql⟩
  · intro hop
    obtain ⟨f, rest, wait, -, -, ⟨hfree, -⟩, hirql⟩ := hinv.needs hop
    exact ⟨hirql, by rw [hinv.word, if_pos hfree]⟩

/-- Thread `false` runs, thread `true` is ready and new, and the semaphore has no units. -/
def twoThreadsLock : LockMachine Bool Unit where
  ke := (twoThreadsKe (.semaphore 0 1)).ke
  threadObject _ := ()
  WaitIrql _ := 0
  locks _ := ⟨0, none, 0⟩
  CurrentIrql := PASSIVE_LEVEL
  stack := inStartRoutine false
  suspended t := kiStartThread t

/-- Thread `false` waits for the semaphore and blocks, and thread `true` comes to its start
routine, with the lock that `false` has taken. -/
def waitAndStart : List (LockEvent Bool Unit) :=
  .step (.call (.waitForSingleObject ())) :: List.replicate 10 (.step .go)

/-- The lock taken by one thread has been dropped by the other. -/
theorem lock_hand_off_start :
    ∃ t m, (lockSystem Bool Unit).Run t m ∧ m.current = true ∧ acquisitions t = 1
      ∧ releases t = 1 ∧ m.CurrentIrql = PASSIVE_LEVEL := by
  obtain ⟨t, m, hrun, hobserved⟩ := System.Run.play_observed
    (fun e m => decide (LockEvent.Enabled m e)) (fun e m => e.run m)
    (fun _ _ _ _ hen hrun => by exact ⟨rfl, of_decide_eq_true hen, hrun⟩)
    waitAndStart
    (fun t m => decide (m.nextOp = some .startRoutine ∧ m.current = true ∧ acquisitions t = 1))
    (System.Run.start (M := lockSystem Bool Unit) (s := twoThreadsLock)
      ⟨rfl, fun _ => rfl, rfl, fun _ => rfl⟩)
    (by decide +kernel)
  obtain ⟨hop, hcurrent, hacquired⟩ := of_decide_eq_true hobserved
  obtain ⟨-, hcount, -, -, hstart⟩ := lock_hand_off hrun
  obtain ⟨hirql, hfree⟩ := hstart hop
  rw [hacquired, hfree] at hcount
  exact ⟨t, m, hrun, hcurrent, hacquired, hcount.symm, hirql⟩

end KaushOS
