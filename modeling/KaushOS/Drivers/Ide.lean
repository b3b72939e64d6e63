import KaushOS.Ke.SignalLists

/-! # The disk driver (`kern/drivers/ide.c`)

Reads and writes of sectors on both channels, the interrupts of the devices, and the one DPC that
answers them.

* **`DiskPhase`** — how far a thread is in `disk_read_internal` or `disk_write_internal`.
* **`IdeEvent`** — the steps of threads, of the devices and of `IdeDpcRoutine`.
* **`ideSystem`** — the system, from the state in which `disk_init` leaves locks and semaphores.
* **`CompletionsMatch`** — on every channel, releases come from interrupts for its own commands.

Registers and data of the devices are not part of the model: a device may interrupt at any time. -/

namespace KaushOS

open CircularList Transition

variable {τ : Type} [DecidableEq τ]

/-! ## State -/

/-- `CHANNEL_CNT`. -/
abbrev CHANNEL_CNT : Nat := 2

/-- The members of the array `channels`. -/
abbrev Channel := Fin CHANNEL_CNT

/-- The dispatcher objects of the driver. -/
inductive IdeObject
  | lock (c : Channel)
  | completion_wait (c : Channel)
  deriving DecidableEq, Repr

/-- How `disk_init` sets them up: `lock_init` and `sema_init`. -/
def ideSetup : IdeObject → ObjectSetup τ
  | .lock _ => .mutant none
  | .completion_wait _ => .semaphore 0 100

/-- **How far a thread is** in `disk_read_internal` or `disk_write_internal`. -/
inductive DiskPhase
  /-- Outside of both. -/
  | outside
  /-- It has acquired the lock of the channel. -/
  | locked (c : Channel)
  /-- It has issued its command. -/
  | issued (c : Channel)
  /-- It has called `sema_down`, and may be blocked there. -/
  | waited (c : Channel)
  deriving DecidableEq, Repr

/-- The channel that a thread works on. -/
def DiskPhase.channel : DiskPhase → Option Channel
  | .outside => none
  | .locked c | .issued c | .waited c => some c

/-- **The kernel state, the threads that exist, and the driver**: how far each thread is,
`expecting_interrupt` of each channel, whether `IdeDpcObject` is in the DPC queue, and the channels
that `IdeDpcRoutine` has yet to look at. `outstanding` belongs to the devices: the commands for which
no interrupt has been raised. -/
structure IdeMachine (τ : Type) where
  ke : Ke τ IdeObject
  live : Finset τ
  phase : τ → DiskPhase
  expecting_interrupt : Channel → Bool
  queued : Bool
  looking : List Channel
  outstanding : Channel → Nat

/-- `KeGetCurrentThread()`. -/
def IdeMachine.current (m : IdeMachine τ) : τ := m.ke.sched.CurrentThread

/-- The current thread gets to another phase. -/
def IdeMachine.setPhase (m : IdeMachine τ) (p : DiskPhase) : τ → DiskPhase :=
  Function.update m.phase m.current p

/-! ## Steps -/

/-- **The steps of threads, devices and the DPC.** -/
inductive IdeEvent (τ : Type)
  /-- A step of the scheduler that wakes nobody up and puts nobody to sleep. -/
  | sched (e : SchedEvent τ)
  /-- `lock_acquire(&c->lock)`. -/
  | lock (c : Channel)
  /-- `issue_pio_command(c, ...)`. -/
  | issue (c : Channel)
  /-- `sema_down(&c->completion_wait)`. -/
  | down (c : Channel)
  /-- `lock_release(&c->lock)`, in front of its locked section. -/
  | unlock (c : Channel)
  /-- `lock_release(&c->lock)`, its locked section. -/
  | unlocked (c : Channel)
  /-- An interrupt of a channel, for a command of its own or spurious. -/
  | interrupt (c : Channel) (own : Bool)
  /-- `IdeDpcObject` is taken off the queue, and `IdeDpcRoutine` starts. -/
  | dpc
  /-- `IdeDpcRoutine` looks at the next channel. -/
  | look (c : Channel)
  deriving DecidableEq

/-- Whether the current thread exits. -/
def SchedEvent.exits : SchedEvent τ → Bool
  | .exit _ => true
  | _ => false

/-- **Which steps are taken.** The DPC runs before threads do, a thread exits outside the driver, and
a device raises at most one interrupt for a command; but any number of spurious ones. -/
def IdeEvent.Enabled (m : IdeMachine τ) : IdeEvent τ → Prop
  | .sched e => m.looking = [] ∧ e.Enabled ⟨m.ke.sched, m.live⟩ ∧ e.Background
    ∧ (e.exits = true → m.phase m.current = .outside)
  | .lock _ => m.looking = [] ∧ m.ke.control m.current = .outside ∧ m.phase m.current = .outside
  | .issue c => m.looking = [] ∧ m.ke.control m.current = .outside ∧ m.phase m.current = .locked c
  | .down c => m.looking = [] ∧ m.ke.control m.current = .outside ∧ m.phase m.current = .issued c
  | .unlock c => m.looking = [] ∧ m.ke.control m.current = .outside ∧ m.phase m.current = .waited c
  | .unlocked c => m.looking = [] ∧ m.ke.control m.current = .inReleaseMutant (.lock c)
    ∧ m.phase m.current = .waited c
  | .interrupt c own => own = true → 0 < m.outstanding c
  | .dpc => m.looking = [] ∧ m.queued = true
  | .look c => m.looking.head? = some c

/-- Which steps are taken can be decided. -/
instance IdeEvent.decidableEnabled (m : IdeMachine τ) (e : IdeEvent τ) :
    Decidable (e.Enabled m) := by
  cases e <;> unfold IdeEvent.Enabled <;> infer_instance

/-- **A step.** -/
def IdeEvent.run (m : IdeMachine τ) : IdeEvent τ → Kernel (IdeMachine τ)
  | .sched e => do
    let sched ← schedStep e m.ke.sched
    return { m with ke := keResume (newThread e { m.ke with sched }), live := e.liveAfter m.live }
  | .lock c => do
    let (_, k) ← keWaitForSingleObject (.lock c) m.ke
    return { m with ke := keResume k, phase := m.setPhase (.locked c) }
  | .issue c =>
    return { m with
      phase := m.setPhase (.issued c)
      expecting_interrupt := Function.update m.expecting_interrupt c true
      outstanding := Function.update m.outstanding c (m.outstanding c + 1) }
  | .down c => do
    let (_, k) ← keWaitForSingleObject (.completion_wait c) m.ke
    return { m with ke := keResume k, phase := m.setPhase (.waited c) }
  | .unlock c => do
    let k ← keReleaseMutantBegin (.lock c) m.ke
    return { m with ke := k }
  | .unlocked c => do
    let (_, k) ← keReleaseMutantLocked (.lock c) m.ke
    return { m with ke := k, phase := m.setPhase .outside }
  | .interrupt c own =>
    -- `interrupt_handler` puts the DPC into the queue, whichever channel the interrupt comes from
    return { m with
      queued := true
      outstanding := if own then Function.update m.outstanding c (m.outstanding c - 1)
        else m.outstanding }
  | .dpc => return { m with queued := false, looking := List.finRange CHANNEL_CNT }
  | .look c => do
    let m := { m with looking := m.looking.tail }
    if m.expecting_interrupt c then
      let (_, _, k) ← keReleaseSemaphore (.completion_wait c) 0 1 m.ke
      return { m with ke := k }
    else
      return m

/-- **The system of disk accesses.** It starts in any state that the scheduler alone can reach, with
the objects of the driver just set up. A label records the step and the state it was taken in. -/
def ideSystem : System (IdeEvent τ × IdeMachine τ) (IdeMachine τ) where
  init m := (∃ start tr, (schedSystem start).Run tr ⟨m.ke.sched, m.live⟩)
    ∧ (∀ t ∈ m.live, m.ke.control t = .outside ∧ m.ke.WaitBlockList t = listInit)
    ∧ (∀ t, m.phase t = .outside) ∧ (∀ o, (ideSetup o).Done o m.ke)
    ∧ (∀ c, m.expecting_interrupt c = false ∧ m.outstanding c = 0)
    ∧ m.queued = false ∧ m.looking = []
  step _ m l m' := l.2 = m ∧ l.1.Enabled m ∧ l.1.run m = .ok m'

/-! ## What has happened on a channel -/

/-- A step of a run: the event, and the state in which it happens. -/
abbrev IdeLabel (τ : Type) := IdeEvent τ × IdeMachine τ

/-- The step releases `completion_wait` of the channel. -/
def IdeReleases (c : Channel) (l : IdeLabel τ) : Prop :=
  l.1 = .look c ∧ l.2.expecting_interrupt c = true

/-- The step lets a thread pass `sema_down` on the channel: the thread that calls it, or the one that
has waited. -/
def IdePasses (c : Channel) (l : IdeLabel τ) : Prop :=
  (l.1 = .down c ∧ 0 < (l.2.ke.header (.completion_wait c)).SignalState)
  ∨ (IdeReleases c l ∧ waitQueue (.completion_wait c) l.2.ke ≠ [])

instance (c : Channel) (l : IdeLabel τ) : Decidable (IdeReleases c l) := by
  unfold IdeReleases
  infer_instance

instance (c : Channel) (l : IdeLabel τ) : Decidable (IdePasses c l) := by
  unfold IdePasses
  infer_instance

/-- The commands issued on a channel. -/
def ideCommands (c : Channel) (tr : List (IdeLabel τ)) : Nat := tr.countP fun l => l.1 = .issue c

/-- The interrupts that a channel has raised for its commands. -/
def ideInterrupts (c : Channel) (tr : List (IdeLabel τ)) : Nat :=
  tr.countP fun l => l.1 = .interrupt c true

/-- The releases of `completion_wait` of a channel. -/
def ideReleases (c : Channel) (tr : List (IdeLabel τ)) : Nat := tr.countP fun l => IdeReleases c l

/-- The threads that have passed `sema_down` on a channel. -/
def idePasses (c : Channel) (tr : List (IdeLabel τ)) : Nat := tr.countP fun l => IdePasses c l

/-- **The completions of a channel match its commands**: there are no more releases than interrupts
for its own commands, and no thread is past its `sema_down` before every command of the channel has
got its interrupt, the last of which is its own. -/
def CompletionMatches (c : Channel) (tr : List (IdeLabel τ)) (m : IdeMachine τ) : Prop :=
  ideReleases c tr ≤ ideInterrupts c tr
  ∧ ∀ t, m.phase t = .waited c → t ∉ waitQueue (.completion_wait c) m.ke →
    ideInterrupts c tr = ideCommands c tr

/-- **Completions match commands** in every state of a run. -/
def CompletionsMatch : List (IdeLabel τ) → IdeMachine τ → Prop
  | [], m => ∀ c, CompletionMatches c [] m
  | l :: tr, m => CompletionsMatch tr l.2 ∧ ∀ c, CompletionMatches c (l :: tr) m

end KaushOS
