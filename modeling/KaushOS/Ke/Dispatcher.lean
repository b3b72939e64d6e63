import KaushOS.Ke.Scheduler
import Mathlib.Data.Finset.Basic

/-! # The dispatcher as queues of threads

What `scheduler.c` does with intrusive links, seen as plain sequences: a state and a priority for
each thread, one sequence of ready threads for each priority, and the terminated threads that wait
for their clean-up. This file says what each routine does to these sequences, and connects the two:

* **`Dispatcher`** — the abstract scheduler, with `select`, `makeReady`, `dispatch`, `schedule`,
  `block` and `reap`.
* **`Sched.Represents`** — the memory of the kernel represents an abstract scheduler.
* **`kiSelectNextThread_spec`, `kiReadyThread_spec`, `kiSwapThread_spec`, `schedule_spec`,
  `kiBlockThread_spec`, `kiReapThread_spec`** — under the states that its assertions ask for, each
  routine returns and does what its abstract counterpart does. -/

namespace KaushOS

open CircularList

variable {τ : Type} [DecidableEq τ]

/-! ## The abstract scheduler -/

/-- **The abstract scheduler.** -/
structure Dispatcher (τ : Type) where
  /-- The state of each thread. -/
  state : τ → THREAD_STATE
  /-- The priority of each thread. -/
  priority : τ → Nat
  /-- The threads queued at each priority, the next one to run first. -/
  ready : Nat → List τ
  /-- The terminated threads that are still to be cleaned up. -/
  exited : List τ
  /-- The thread that has the processor. -/
  current : τ

namespace Dispatcher

/-- Put a thread into a state. -/
def setState (a : Dispatcher τ) (t : τ) (x : THREAD_STATE) : Dispatcher τ :=
  { a with state := Function.update a.state t x }

/-- Replace the queue of one priority. -/
def setReady (a : Dispatcher τ) (p : Nat) (l : List τ) : Dispatcher τ :=
  { a with ready := Function.update a.ready p l }

/-- The highest priority between `p` and `n` at which a thread is queued. -/
def topFrom (a : Dispatcher τ) (p : Nat) : Nat → Option Nat
  | 0 => none
  | n + 1 =>
    if n + 1 < p then none
    else if a.ready (n + 1) = [] then a.topFrom p n
    else some (n + 1)

/-- The highest priority from `p` upwards at which a thread is queued. -/
def top (a : Dispatcher τ) (p : Nat) : Option Nat :=
  a.topFrom p PROCESS_PRIORITY_MAX

/-- The thread that is selected when priority `p` is asked for, and the queues without it. -/
def select (a : Dispatcher τ) (p : Nat) : Option τ × Dispatcher τ :=
  match a.top p with
  | none => (none, a)
  | some q => ((a.ready q).head?, a.setReady q (a.ready q).tail)

/-- Queue a thread at its priority. -/
def makeReady (a : Dispatcher τ) (t : τ) : Dispatcher τ :=
  (a.setState t .READY).setReady (a.priority t) (a.ready (a.priority t) ++ [t])

/-- Give the processor to a thread. -/
def dispatch (a : Dispatcher τ) (t : τ) : Dispatcher τ :=
  { a.setState t .RUNNING with current := t }

/-- The current thread yields: to a thread of its own priority or above, or to nobody. -/
def yield (a : Dispatcher τ) : Dispatcher τ :=
  match a.select (a.priority a.current) with
  | (some next, a') => (a'.makeReady a.current).dispatch next
  | (none, _) => a

/-- The terminated current thread leaves the processor for good. -/
def retire (a : Dispatcher τ) : Dispatcher τ :=
  match a.select PROCESS_PRIORITY_IDLE with
  | (some next, a') => { a' with exited := a'.exited ++ [a.current] }.dispatch next
  | (none, _) => a

/-- What `Schedule` is for. -/
def schedule (a : Dispatcher τ) : Dispatcher τ :=
  if a.state a.current = .TERMINATED then a.retire else a.yield

/-- What `KiBlockThread` is for. -/
def block (a : Dispatcher τ) : Dispatcher τ :=
  match (a.setState a.current .WAITING).select PROCESS_PRIORITY_IDLE with
  | (some next, a') => a'.dispatch next
  | (none, _) => a

/-- One terminated thread is cleaned up. -/
def reap (a : Dispatcher τ) : Dispatcher τ := { a with exited := a.exited.tail }

/-- Change the priority of a thread. -/
def setPriority (a : Dispatcher τ) (t : τ) (p : Nat) : Dispatcher τ :=
  { a with priority := Function.update a.priority t p }

/-- All sequences that are threaded through `Scheduler_link`: the queues, and the threads to be
cleaned up under the key `none`. -/
def lists (a : Dispatcher τ) : Option Nat → List τ
  | some p => a.ready p
  | none => a.exited

/-! ### Small facts about the operations -/

@[simp] theorem setState_priority (a : Dispatcher τ) (t : τ) (x : THREAD_STATE) :
    (a.setState t x).priority = a.priority := rfl

@[simp] theorem setState_ready (a : Dispatcher τ) (t : τ) (x : THREAD_STATE) :
    (a.setState t x).ready = a.ready := rfl

@[simp] theorem setState_current (a : Dispatcher τ) (t : τ) (x : THREAD_STATE) :
    (a.setState t x).current = a.current := rfl

@[simp] theorem setState_lists (a : Dispatcher τ) (t : τ) (x : THREAD_STATE) :
    (a.setState t x).lists = a.lists := rfl

@[simp] theorem setState_exited (a : Dispatcher τ) (t : τ) (x : THREAD_STATE) :
    (a.setState t x).exited = a.exited := rfl

@[simp] theorem setState_self (a : Dispatcher τ) (t : τ) (x : THREAD_STATE) :
    (a.setState t x).state t = x := by simp [setState]

theorem setState_of_ne (a : Dispatcher τ) {t i : τ} (x : THREAD_STATE) (h : i ≠ t) :
    (a.setState t x).state i = a.state i := by simp [setState, h]

omit [DecidableEq τ]

@[simp] theorem setReady_state (a : Dispatcher τ) (p : Nat) (l : List τ) :
    (a.setReady p l).state = a.state := rfl

@[simp] theorem setReady_priority (a : Dispatcher τ) (p : Nat) (l : List τ) :
    (a.setReady p l).priority = a.priority := rfl

@[simp] theorem setReady_current (a : Dispatcher τ) (p : Nat) (l : List τ) :
    (a.setReady p l).current = a.current := rfl

@[simp] theorem setReady_exited (a : Dispatcher τ) (p : Nat) (l : List τ) :
    (a.setReady p l).exited = a.exited := rfl

/-- Replacing a queue replaces one of the linked sequences. -/
theorem setReady_lists (a : Dispatcher τ) (p : Nat) (l : List τ) :
    (a.setReady p l).lists = Function.update a.lists (some p) l := by
  funext k
  cases k with
  | none => rfl
  | some q =>
    by_cases h : q = p
    · subst h
      simp [lists, setReady]
    · simp [lists, setReady, h]

/-- Replacing the threads to be cleaned up replaces one of the linked sequences. -/
theorem exited_lists (a : Dispatcher τ) (l : List τ) :
    { a with exited := l }.lists = Function.update a.lists none l := by
  funext k
  cases k with
  | none => simp [lists]
  | some q => simp [lists]

/-- **What the search for the highest queue finds.** The queue found is not empty, lies between
the two bounds, and all queues above it are empty. -/
theorem topFrom_eq_some {a : Dispatcher τ} {p q : Nat} {n : Nat}
    (h : a.topFrom p n = some q) :
    p ≤ q ∧ q ≤ n ∧ a.ready q ≠ [] ∧ ∀ r, q < r → r ≤ n → a.ready r = [] := by
  induction n with
  | zero => cases h
  | succ n ih =>
    rw [topFrom] at h
    split at h
    · cases h
    · rename_i hp
      split at h
      · rename_i hempty
        obtain ⟨hpq, hqn, hne, habove⟩ := ih h
        refine ⟨hpq, by omega, hne, fun r hqr hrn => ?_⟩
        obtain rfl | hr := Nat.eq_or_lt_of_le hrn
        · exact hempty
        · exact habove r hqr (by omega)
      · rename_i hne
        obtain rfl := Option.some.inj h
        exact ⟨by omega, le_rfl, hne, fun r hqr hrn => by omega⟩

/-- **What it means that the search finds nothing.** All queues between the bounds are empty. -/
theorem topFrom_eq_none {a : Dispatcher τ} {p : Nat} {n : Nat} (hp : 0 < p)
    (h : a.topFrom p n = none) : ∀ r, p ≤ r → r ≤ n → a.ready r = [] := by
  induction n with
  | zero =>
    intro r hpr hrn
    omega
  | succ n ih =>
    intro r hpr hrn
    rw [topFrom] at h
    split at h
    · omega
    · split at h
      · rename_i hempty
        obtain rfl | hr := Nat.eq_or_lt_of_le hrn
        · exact hempty
        · exact ih h r hpr (by omega)
      · cases h

/-- **Inversion of a successful selection.** The selected thread is the first one of the highest
nonempty queue, and only this queue changes. -/
theorem select_eq_some {a a' : Dispatcher τ} {p : Nat} {t : τ}
    (h : a.select p = (some t, a')) :
    ∃ q rest, p ≤ q ∧ q ≤ PROCESS_PRIORITY_MAX ∧ a.ready q = t :: rest
      ∧ (∀ r, q < r → r ≤ PROCESS_PRIORITY_MAX → a.ready r = []) ∧ a' = a.setReady q rest := by
  unfold select at h
  cases htop : a.top p with
  | none => simp [htop] at h
  | some q =>
    obtain ⟨hpq, hqn, hne, habove⟩ := topFrom_eq_some htop
    obtain ⟨x, rest, hq⟩ := List.exists_cons_of_ne_nil hne
    simp only [htop, hq, List.head?_cons, List.tail_cons, Prod.mk.injEq, Option.some.injEq] at h
    obtain ⟨rfl, rfl⟩ := h
    exact ⟨q, rest, hpq, hqn, hq, habove, rfl⟩

/-- **Inversion of a failed selection.** All queues from the requested priority on are empty. -/
theorem select_eq_none {a a' : Dispatcher τ} {p : Nat} (hp : 0 < p)
    (h : a.select p = (none, a')) :
    a' = a ∧ ∀ r, p ≤ r → r ≤ PROCESS_PRIORITY_MAX → a.ready r = [] := by
  unfold select at h
  cases htop : a.top p with
  | none =>
    simp only [htop, Prod.mk.injEq, true_and] at h
    exact ⟨h.symm, topFrom_eq_none hp htop⟩
  | some q =>
    obtain ⟨-, -, hne, -⟩ := topFrom_eq_some htop
    obtain ⟨x, rest, hq⟩ := List.exists_cons_of_ne_nil hne
    simp [htop, hq] at h

/-- A queued thread of sufficient priority makes a selection succeed. -/
theorem select_isSome {a : Dispatcher τ} {p q : Nat} {t : τ} (hp : 0 < p)
    (hpq : p ≤ q) (hq : q ≤ PROCESS_PRIORITY_MAX) (ht : t ∈ a.ready q) :
    ∃ next a', a.select p = (some next, a') := by
  rcases hsel : a.select p with ⟨next, a'⟩
  cases next with
  | some next => exact ⟨next, a', rfl⟩
  | none =>
    have hempty := (select_eq_none hp hsel).2 q hpq hq
    rw [hempty] at ht
    exact absurd ht List.not_mem_nil

end Dispatcher

/-! ## The memory represents an abstract scheduler -/

/-- All list heads that are threaded through `Scheduler_link`. -/
def Sched.heads (s : Sched τ) : Option Nat → ListHead τ
  | some p => s.Scheduler_list p
  | none => s.ExitThreadList

/-- **Representation.** The members of the threads and the processor block have the abstract
values, and the lists through `Scheduler_link` hold the abstract sequences. -/
structure Sched.Represents (s : Sched τ) (a : Dispatcher τ) : Prop where
  state : ∀ t, (s.tcb t).State = a.state t
  priority : ∀ t, (s.tcb t).Priority = a.priority t
  current : s.CurrentThread = a.current
  lists : IsFamily (schedLinks τ) Set.univ s.tcb s.heads a.lists

variable {s : Sched τ} {a : Dispatcher τ}

/-- The members of a thread that its queueing does not touch. -/
def KTHREAD.control (r : KTHREAD τ) : THREAD_STATE × Nat × UInt32 :=
  (r.State, r.Priority, r.ThreadProcess)

/-- Link edits keep the control members of every thread. -/
theorem control_of_edits {T : Set τ} {tcb tcb' : τ → KTHREAD τ}
    (h : Edits (schedLinks τ) T tcb tcb') (t : τ) : (tcb' t).control = (tcb t).control := by
  have hset := congrArg KTHREAD.control (EntryField.set_eq_of_edits h t ⟨none, none⟩)
  exact hset

/-- A thread of a queue is in no other list. -/
theorem Sched.Represents.not_mem (h : s.Represents a) {j k : Option Nat} {t : τ}
    (ht : t ∈ a.lists j) (hjk : j ≠ k) : t ∉ a.lists k :=
  h.lists.disjoint j k hjk t ht

/-- Stores that keep the link of a thread keep every list. -/
theorem Sched.Represents.lists_modify (h : s.Represents a) (t : τ) {f : KTHREAD τ → KTHREAD τ}
    (hf : ∀ r, (f r).Scheduler_link = r.Scheduler_link) :
    IsFamily (schedLinks τ) Set.univ (s.modify t f).tcb (s.modify t f).heads a.lists := by
  have hlink : ∀ c, ((s.modify t f).tcb c).Scheduler_link = (s.tcb c).Scheduler_link := by
    intro c
    by_cases hc : c = t
    · subst hc
      rw [Sched.modify_self, hf]
    · rw [Sched.modify_of_ne s t f hc]
  refine ⟨fun k => ?_, h.lists.disjoint⟩
  have hhead : (s.modify t f).heads k = s.heads k := by cases k <;> rfl
  rw [hhead]
  exact (h.lists.each k).of_links_eq (fun c => congrArg KListEntry.le_next (hlink c))
    (fun c => congrArg KListEntry.le_prev (hlink c))

/-- Storing a state. -/
theorem Sched.Represents.setState (h : s.Represents a) (t : τ) (x : THREAD_STATE) :
    (s.modify t fun tcb => { tcb with State := x }).Represents (a.setState t x) := by
  refine ⟨fun i => ?_, fun i => ?_, h.current, h.lists_modify t fun _ => rfl⟩
  · by_cases hi : i = t
    · subst hi
      simp
    · rw [Sched.modify_of_ne s t _ hi, a.setState_of_ne x hi, h.state]
  · by_cases hi : i = t
    · subst hi
      simpa using h.priority i
    · rw [Sched.modify_of_ne s t _ hi]
      exact h.priority i

/-- Storing a member that the abstract scheduler does not know. -/
theorem Sched.Represents.setOther (h : s.Represents a) (t : τ) {f : KTHREAD τ → KTHREAD τ}
    (hf : ∀ r, (f r).Scheduler_link = r.Scheduler_link) (hstate : ∀ r, (f r).State = r.State)
    (hprio : ∀ r, (f r).Priority = r.Priority) : (s.modify t f).Represents a := by
  refine ⟨fun i => ?_, fun i => ?_, h.current, h.lists_modify t hf⟩
  · by_cases hi : i = t
    · subst hi
      rw [Sched.modify_self, hstate, h.state]
    · rw [Sched.modify_of_ne s t _ hi, h.state]
  · by_cases hi : i = t
    · subst hi
      rw [Sched.modify_self, hprio, h.priority]
    · rw [Sched.modify_of_ne s t _ hi, h.priority]

/-- `PsSetTheadPriority` changes the priority and no queue. -/
theorem psSetTheadPriority_spec (h : s.Represents a) (t : τ) (p : Nat) :
    (psSetTheadPriority t p s).Represents (a.setPriority t p) := by
  refine ⟨fun i => ?_, fun i => ?_, h.current, h.lists_modify t fun _ => rfl⟩
  · by_cases hi : i = t
    · subst hi
      simpa [psSetTheadPriority, Dispatcher.setPriority] using h.state i
    · rw [psSetTheadPriority, Sched.modify_of_ne s t _ hi]
      exact h.state i
  · by_cases hi : i = t
    · subst hi
      simp [psSetTheadPriority, Dispatcher.setPriority]
    · rw [psSetTheadPriority, Sched.modify_of_ne s t _ hi]
      simpa [Dispatcher.setPriority, hi] using h.priority i

/-- Storing back the head of a queue. -/
theorem Sched.Represents.storeQueue (h : s.Represents a) {p : Nat} {l : List τ}
    {head : ListHead τ} {tcb : τ → KTHREAD τ}
    (hlists : IsFamily (schedLinks τ) Set.univ tcb (Function.update s.heads (some p) head)
      (Function.update a.lists (some p) l))
    (hedits : Edits (schedLinks τ) Set.univ s.tcb tcb) :
    Sched.Represents
      { s with tcb, Scheduler_list := Function.update s.Scheduler_list p head }
      (a.setReady p l) := by
  have hcontrol := control_of_edits hedits
  refine ⟨fun t => ?_, fun t => ?_, h.current, ?_⟩
  · exact (congrArg (fun c => c.1) (hcontrol t)).trans (h.state t)
  · exact (congrArg (fun c => c.2.1) (hcontrol t)).trans (h.priority t)
  · have hheads : Sched.heads
        { s with tcb, Scheduler_list := Function.update s.Scheduler_list p head }
        = Function.update s.heads (some p) head := by
      funext k
      cases k with
      | none => simp [Sched.heads]
      | some q =>
        by_cases hq : q = p
        · subst hq
          simp [Sched.heads]
        · simp [Sched.heads, hq]
    rw [hheads, a.setReady_lists]
    exact hlists

/-- Storing back the head of `ExitThreadList`. -/
theorem Sched.Represents.storeExited (h : s.Represents a) {l : List τ} {head : ListHead τ}
    {tcb : τ → KTHREAD τ}
    (hlists : IsFamily (schedLinks τ) Set.univ tcb (Function.update s.heads none head)
      (Function.update a.lists none l))
    (hedits : Edits (schedLinks τ) Set.univ s.tcb tcb) :
    Sched.Represents { s with tcb, ExitThreadList := head } { a with exited := l } := by
  have hcontrol := control_of_edits hedits
  refine ⟨fun t => ?_, fun t => ?_, h.current, ?_⟩
  · exact (congrArg (fun c => c.1) (hcontrol t)).trans (h.state t)
  · exact (congrArg (fun c => c.2.1) (hcontrol t)).trans (h.priority t)
  · have hheads : Sched.heads { s with tcb, ExitThreadList := head }
        = Function.update s.heads none head := by
      funext k
      cases k with
      | none => simp [Sched.heads]
      | some q => simp [Sched.heads]
    rw [hheads, a.exited_lists]
    exact hlists

/-! ## What the routines do -/

/-- The loop of `KiSelectNextThread` finds the highest queue. -/
theorem selectLoop_eq (h : s.Represents a) {p : Nat} (hp : 0 < p) (n : Nat) :
    selectLoop p s n = .ok (a.topFrom p n) := by
  induction n with
  | zero =>
    rw [selectLoop, if_pos hp]
    rfl
  | succ n ih =>
    have hempty : listEmpty (s.Scheduler_list (n + 1)) = true ↔ a.ready (n + 1) = [] :=
      (h.lists.each (some (n + 1))).listEmpty_iff
    rw [selectLoop, Dispatcher.topFrom, ih]
    split
    · rfl
    · by_cases he : a.ready (n + 1) = []
      · rw [if_pos (hempty.mpr he), if_pos he]
      · rw [if_neg (fun hc => he (hempty.mp hc)), if_neg he]

/-- **`KiSelectNextThread`** takes the first thread off the highest nonempty queue. -/
theorem kiSelectNextThread_spec (h : s.Represents a) {p : Nat}
    (hp : PROCESS_PRIORITY_IDLE ≤ p) (hp' : p ≤ PROCESS_PRIORITY_MAX) :
    ∃ s', kiSelectNextThread p s = .ok ((a.select p).1, s') ∧ s'.Represents (a.select p).2 := by
  have hloop : selectLoop p s PROCESS_PRIORITY_MAX = .ok (a.top p) := selectLoop_eq h hp _
  simp only [kiSelectNextThread, assert_of_true hp', assert_of_true hp, kernel_ok_bind, hloop]
  cases htop : a.top p with
  | none => exact ⟨s, by simp [Dispatcher.select, htop]; rfl, by simpa [Dispatcher.select, htop]⟩
  | some q =>
    obtain ⟨-, -, hne, -⟩ := Dispatcher.topFrom_eq_some htop
    obtain ⟨t, rest, hq⟩ := List.exists_cons_of_ne_nil hne
    obtain ⟨head, tcb, hrun, hlists, hedits⟩ :=
      h.lists.removeHead (EntryField.links_lawful _) (some q)
    have hq' : a.lists (some q) = t :: rest := hq
    rw [hq'] at hrun hlists
    have hsel : a.select p = (some t, a.setReady q rest) := by simp [Dispatcher.select, htop, hq]
    rw [hsel]
    refine ⟨_, ?_, h.storeQueue hlists hedits⟩
    have hrun' : listRemoveHead (schedLinks τ) (s.Scheduler_list q) s.tcb
        = .ok (some t, head, tcb) := hrun
    simp only [hrun', kernel_ok_bind]
    rfl

/-- **`KiReadyThread`** queues a thread that is on no list. -/
theorem kiReadyThread_spec (h : s.Represents a) {t : τ} (hfree : ∀ k, t ∉ a.lists k)
    (hstate : a.state t = .INITIALIZED ∨ a.state t = .WAITING ∨ a.state t = .RUNNING) :
    ∃ s', kiReadyThread t s = .ok s' ∧ s'.Represents (a.makeReady t) := by
  have hcheck : ¬ ((s.tcb t).State ≠ .INITIALIZED ∧ (s.tcb t).State ≠ .WAITING
      ∧ (s.tcb t).State ≠ .RUNNING) := by
    rw [h.state t]
    rintro ⟨h₁, h₂, h₃⟩
    rcases hstate with h₀ | h₀ | h₀
    · exact h₁ h₀
    · exact h₂ h₀
    · exact h₃ h₀
  let s₁ := s.modify t fun tcb => { tcb with State := .READY }
  let s₂ := s₁.modify t fun tcb => { tcb with Quantum := (s₁.process tcb.ThreadProcess).Quantum }
  have h₂ : s₂.Represents (a.setState t .READY) :=
    Sched.Represents.setOther (h.setState t .READY) t (fun _ => rfl) (fun _ => rfl) fun _ => rfl
  have hprio : (s₂.tcb t).Priority = a.priority t := h₂.priority t
  obtain ⟨head, tcb, hrun, hlists, hedits⟩ :=
    h₂.lists.insertTail (EntryField.links_lawful _) (some (a.priority t)) hfree trivial
  refine ⟨_, ?_, h₂.storeQueue hlists hedits⟩
  have hrun' : listInsertTail (schedLinks τ) (s₂.Scheduler_list (s₂.tcb t).Priority) t s₂.tcb
      = .ok (head, tcb) := by
    rw [hprio]
    exact hrun
  simp only [kiReadyThread, hcheck, if_false]
  refine kernel_bind_eq_ok.mpr ⟨(head, tcb), hrun', ?_⟩
  show Except.ok { s₂ with
    tcb
    Scheduler_list := Function.update s₂.Scheduler_list (s₂.tcb t).Priority head } = _
  rw [hprio]

/-- **`KiSwapThread`** gives the processor to a ready thread. -/
theorem kiSwapThread_spec (h : s.Represents a) {current next : τ} (hcur : a.current = current)
    (hold : a.state current = .READY ∨ a.state current = .TERMINATED
      ∨ a.state current = .WAITING) (hnext : a.state next = .READY) :
    ∃ s', kiSwapThread current next s = .ok s' ∧ s'.Represents (a.dispatch next) := by
  have h₁ : s.CurrentThread = current := h.current.trans hcur
  have h₂ : (s.tcb current).State = .READY ∨ (s.tcb current).State = .TERMINATED
      ∨ (s.tcb current).State = .WAITING := by rwa [h.state]
  have h₃ : (s.tcb next).State = .READY := by rwa [h.state]
  have hset := h.setState next .RUNNING
  simp only [kiSwapThread, assert_of_true h₁, assert_of_true h₂, assert_of_true h₃,
    kernel_ok_bind]
  exact ⟨_, rfl, hset.state, hset.priority, rfl, hset.lists⟩

/-! ## Which threads are queued -/

namespace Dispatcher

/-- **The queues hold the ready threads.** Among the threads `live` that exist, exactly the ready
ones are queued, except for one thread `held` that has been selected and is about to run; the
threads to be cleaned up are terminated; and the priorities are those of the enumeration. -/
structure Queued (a : Dispatcher τ) (live : Finset τ) (held : Option τ) : Prop where
  ready_state : ∀ p, ∀ t ∈ a.ready p, t ∈ live ∧ a.state t = .READY ∧ some t ≠ held
    ∧ PROCESS_PRIORITY_IDLE ≤ p ∧ p ≤ PROCESS_PRIORITY_MAX
  ready_mem : ∀ t ∈ live, a.state t = .READY → some t ≠ held → ∃ p, t ∈ a.ready p
  exited_state : ∀ t ∈ a.exited, t ∈ live ∧ a.state t = .TERMINATED
  held_state : ∀ t, held = some t → t ∈ live ∧ a.state t = .READY
  priority : ∀ t ∈ live,
    PROCESS_PRIORITY_IDLE ≤ a.priority t ∧ a.priority t ≤ PROCESS_PRIORITY_MAX

/-- **One thread runs**, and it is the one that has the processor. -/
def OneRunning (a : Dispatcher τ) (live : Finset τ) : Prop :=
  a.current ∈ live ∧ ∀ t ∈ live, a.state t = .RUNNING ↔ t = a.current

variable {a a' : Dispatcher τ} {live : Finset τ} {held : Option τ} {t next : τ}

omit [DecidableEq τ] in
/-- A thread that is neither ready nor terminated is on no list. -/
theorem Queued.not_mem (h : a.Queued live held) (hready : a.state t ≠ .READY)
    (hterm : a.state t ≠ .TERMINATED) (k : Option Nat) : t ∉ a.lists k := by
  intro ht
  cases k with
  | none => exact hterm (h.exited_state t ht).2
  | some p => exact hready (h.ready_state p t ht).2.1

omit [DecidableEq τ] in
/-- A thread that does not exist is on no list. -/
theorem Queued.not_mem_of_not_live (h : a.Queued live held) (ht : t ∉ live) (k : Option Nat) :
    t ∉ a.lists k := by
  intro hk
  cases k with
  | none => exact ht (h.exited_state t hk).1
  | some p => exact ht (h.ready_state p t hk).1

/-- A change of state that neither makes a thread ready nor takes a ready or terminated one. -/
theorem Queued.setState (h : a.Queued live held) (hready : a.state t ≠ .READY)
    (hterm : a.state t ≠ .TERMINATED) {x : THREAD_STATE} (hx : x ≠ .READY) :
    (a.setState t x).Queued live held := by
  constructor
  · intro p i hi
    obtain ⟨hlive, hstate, hrest⟩ := h.ready_state p i hi
    have hit : i ≠ t := fun e => hready (e ▸ hstate)
    exact ⟨hlive, (a.setState_of_ne x hit).trans hstate, hrest⟩
  · intro i hi hstate hheld
    have hit : i ≠ t := by
      rintro rfl
      rw [a.setState_self] at hstate
      exact hx hstate
    exact h.ready_mem i hi ((a.setState_of_ne x hit).symm.trans hstate) hheld
  · intro i hi
    obtain ⟨hlive, hstate⟩ := h.exited_state i hi
    have hit : i ≠ t := fun e => hterm (e ▸ hstate)
    exact ⟨hlive, (a.setState_of_ne x hit).trans hstate⟩
  · intro i hi
    obtain ⟨hlive, hstate⟩ := h.held_state i hi
    have hit : i ≠ t := fun e => hready (e ▸ hstate)
    exact ⟨hlive, (a.setState_of_ne x hit).trans hstate⟩
  · exact h.priority

omit [DecidableEq τ] in
/-- A selection holds the selected thread. -/
theorem Queued.select (h : a.Queued live none) {p : Nat} (hnodup : ∀ q, (a.ready q).Nodup)
    (hdisj : ∀ q r, q ≠ r → ∀ t ∈ a.ready q, t ∉ a.ready r)
    (hsel : a.select p = (some next, a')) :
    a'.Queued live (some next) := by
  obtain ⟨q, rest, -, -, hq, -, rfl⟩ := select_eq_some hsel
  have hnext : next ∈ a.ready q := by simp [hq]
  have hrest : ∀ i ∈ rest, i ∈ a.ready q ∧ i ≠ next := by
    intro i hi
    have hnd := hnodup q
    rw [hq, List.nodup_cons] at hnd
    exact ⟨by simp [hq, hi], fun e => hnd.1 (e ▸ hi)⟩
  constructor
  · intro r i hi
    by_cases hr : r = q
    · subst hr
      have hi' : i ∈ rest := by simpa [setReady] using hi
      obtain ⟨hlive, hstate, -, hrange⟩ := h.ready_state r i (hrest i hi').1
      exact ⟨hlive, hstate, by simpa using (hrest i hi').2, hrange⟩
    · have hi' : i ∈ a.ready r := by simpa [setReady, hr] using hi
      obtain ⟨hlive, hstate, -, hrange⟩ := h.ready_state r i hi'
      have hne : i ≠ next := fun e => hdisj r q hr i hi' (e ▸ hnext)
      exact ⟨hlive, hstate, by simpa using hne, hrange⟩
  · intro i hi hstate hheld
    obtain ⟨r, hr⟩ := h.ready_mem i hi hstate (by simp)
    refine ⟨r, ?_⟩
    by_cases hrq : r = q
    · subst hrq
      have hne : i ≠ next := by simpa using hheld
      simpa [setReady, hq, hne] using hr
    · simpa [setReady, hrq] using hr
  · exact h.exited_state
  · intro i hi
    obtain rfl := Option.some.inj hi
    exact ⟨(h.ready_state q next hnext).1, (h.ready_state q next hnext).2.1⟩
  · exact h.priority

/-- Queueing a thread that is not ready and not terminated. -/
theorem Queued.makeReady (h : a.Queued live held) (hlive : t ∈ live)
    (hready : a.state t ≠ .READY) (hterm : a.state t ≠ .TERMINATED) :
    (a.makeReady t).Queued live held := by
  have hstate : ∀ i, (a.makeReady t).state i = if i = t then .READY else a.state i := by
    intro i
    by_cases hi : i = t
    · simp [Dispatcher.makeReady, hi]
    · simp [Dispatcher.makeReady, hi, a.setState_of_ne _ hi]
  have hmem : ∀ p i, i ∈ (a.makeReady t).ready p ↔ i ∈ a.ready p ∨ i = t ∧ p = a.priority t := by
    intro p i
    by_cases hp : p = a.priority t
    · simp [Dispatcher.makeReady, setReady, hp]
    · simp [Dispatcher.makeReady, setReady, hp]
  have hheld : some t ≠ held := fun e => hready (h.held_state t e.symm).2
  constructor
  · intro p i hi
    rcases (hmem p i).mp hi with hi | ⟨rfl, rfl⟩
    · obtain ⟨hl, hs, hrest⟩ := h.ready_state p i hi
      refine ⟨hl, ?_, hrest⟩
      rw [hstate, hs, ite_self]
    · refine ⟨hlive, ?_, hheld, h.priority i hlive⟩
      rw [hstate, if_pos rfl]
  · intro i hi hs hne
    by_cases hit : i = t
    · exact ⟨a.priority t, (hmem _ i).mpr (Or.inr ⟨hit, rfl⟩)⟩
    · rw [hstate, if_neg hit] at hs
      obtain ⟨p, hp⟩ := h.ready_mem i hi hs hne
      exact ⟨p, (hmem p i).mpr (Or.inl hp)⟩
  · intro i hi
    obtain ⟨hl, hs⟩ := h.exited_state i hi
    have hit : i ≠ t := fun e => hterm (e ▸ hs)
    refine ⟨hl, ?_⟩
    rw [hstate, if_neg hit, hs]
  · intro i hi
    obtain ⟨hl, hs⟩ := h.held_state i hi
    refine ⟨hl, ?_⟩
    rw [hstate, hs, ite_self]
  · exact h.priority

/-- The selected thread runs. -/
theorem Queued.dispatch (h : a.Queued live (some next)) : (a.dispatch next).Queued live none := by
  obtain ⟨hnlive, hnstate⟩ := h.held_state next rfl
  constructor
  · intro p i hi
    obtain ⟨hl, hs, hne, hrange⟩ := h.ready_state p i hi
    have hin : i ≠ next := by simpa using hne
    exact ⟨hl, (a.setState_of_ne _ hin).trans hs, by simp, hrange⟩
  · intro i hi hs _
    have hin : i ≠ next := by
      rintro rfl
      have hrun : (a.dispatch i).state i = .RUNNING := a.setState_self i _
      rw [hrun] at hs
      cases hs
    exact h.ready_mem i hi ((a.setState_of_ne _ hin).symm.trans hs) (by simpa using hin)
  · intro i hi
    obtain ⟨hl, hs⟩ := h.exited_state i hi
    have hin : i ≠ next := by
      rintro rfl
      rw [hnstate] at hs
      cases hs
    exact ⟨hl, (a.setState_of_ne _ hin).trans hs⟩
  · intro i hi
    cases hi
  · exact h.priority

omit [DecidableEq τ] in
/-- A terminated thread is set aside for its clean-up. -/
theorem Queued.exit (h : a.Queued live held) (hlive : t ∈ live) (hterm : a.state t = .TERMINATED) :
    { a with exited := a.exited ++ [t] }.Queued live held := by
  refine ⟨h.ready_state, h.ready_mem, ?_, h.held_state, h.priority⟩
  intro i hi
  rcases List.mem_append.mp hi with hi | hi
  · exact h.exited_state i hi
  · obtain rfl := List.mem_singleton.mp hi
    exact ⟨hlive, hterm⟩

/-- When nobody runs, the thread that gets the processor is the one that runs. -/
theorem oneRunning_dispatch (hlive : next ∈ live) (h : ∀ t ∈ live, a.state t ≠ .RUNNING) :
    (a.dispatch next).OneRunning live := by
  refine ⟨hlive, fun t ht => ?_⟩
  by_cases hn : t = next
  · subst hn
    exact ⟨fun _ => rfl, fun _ => a.setState_self t _⟩
  · have hs : (a.dispatch next).state t = a.state t := a.setState_of_ne _ hn
    rw [hs]
    exact ⟨fun hr => absurd hr (h t ht), fun e => absurd e hn⟩

end Dispatcher

/-! ## Giving up the processor -/

variable {live : Finset τ}

/-- The queues of a represented scheduler have no thread twice. -/
theorem Sched.Represents.ready_nodup (h : s.Represents a) (p : Nat) : (a.ready p).Nodup :=
  (h.lists.each (some p)).nodup

/-- Two queues of a represented scheduler have no thread in common. -/
theorem Sched.Represents.ready_disjoint (h : s.Represents a) (p q : Nat) (hpq : p ≠ q) :
    ∀ t ∈ a.ready p, t ∉ a.ready q :=
  h.lists.disjoint (some p) (some q) (by simpa using hpq)

/-- **`Schedule` of a running thread** returns and yields. -/
theorem schedule_spec (h : s.Represents a) (hq : a.Queued live none) (hr : a.OneRunning live) :
    ∃ s', schedule s = .ok s' ∧ s'.Represents a.yield := by
  obtain ⟨hcl, hrun⟩ := hr
  have hcur : a.state a.current = .RUNNING := (hrun _ hcl).mpr rfl
  have hnotterm : ¬ (s.tcb a.current).State = .TERMINATED := by
    rw [h.state, hcur]
    decide
  obtain ⟨hlo, hhi⟩ := hq.priority a.current hcl
  obtain ⟨s₁, hsel, hrep⟩ := kiSelectNextThread_spec h hlo hhi
  rcases hpick : a.select (a.priority a.current) with ⟨next, a₁⟩
  rw [hpick] at hsel hrep
  simp only [schedule, hnotterm, if_false, h.current, h.priority, hsel, kernel_ok_bind]
  cases next with
  | none =>
    obtain ⟨rfl, -⟩ := Dispatcher.select_eq_none (Nat.lt_of_lt_of_le Nat.zero_lt_one hlo) hpick
    have hyield : a₁.yield = a₁ := by simp [Dispatcher.yield, hpick]
    rw [hyield]
    exact ⟨s₁, rfl, hrep⟩
  | some next =>
    have hheld := hq.select h.ready_nodup h.ready_disjoint hpick
    obtain ⟨q, rest, -, -, -, -, ha₁⟩ := Dispatcher.select_eq_some hpick
    have hcur₁ : a₁.current = a.current := by rw [ha₁]; rfl
    have hstate₁ : a₁.state a.current = .RUNNING := by rw [ha₁]; exact hcur
    obtain ⟨-, hnext⟩ := hheld.held_state next rfl
    have hne : a.current ≠ next := by
      rintro rfl
      rw [hstate₁] at hnext
      cases hnext
    have hfree : ∀ k, a.current ∉ a₁.lists k :=
      hheld.not_mem (by rw [hstate₁]; decide) (by rw [hstate₁]; decide)
    obtain ⟨s₂, hready, hrep₂⟩ := kiReadyThread_spec hrep hfree (Or.inr (Or.inr hstate₁))
    have hcur₂ : (a₁.makeReady a.current).state a.current = .READY := a₁.setState_self _ _
    have hnext₂ : (a₁.makeReady a.current).state next = .READY :=
      (a₁.setState_of_ne _ hne.symm).trans hnext
    obtain ⟨s₃, hswap, hrep₃⟩ := kiSwapThread_spec hrep₂ hcur₁ (Or.inl hcur₂) hnext₂
    have hyield : a.yield = (a₁.makeReady a.current).dispatch next := by
      simp [Dispatcher.yield, hpick]
    rw [hyield]
    have hassert : some a.current ≠ some next := by simpa using hne
    exact ⟨s₃, by simp only [assert_of_true hassert, kernel_ok_bind, hready, hswap], hrep₃⟩

/-- **`Schedule` of a terminated thread** returns into another thread if there is one, and
bugchecks otherwise. -/
theorem schedule_retire_spec (h : s.Represents a) (hq : a.Queued live none)
    (hcur : a.state a.current = .TERMINATED) (hfree : ∀ k, a.current ∉ a.lists k) :
    ((a.select PROCESS_PRIORITY_IDLE).1 = none ∧ ∃ e, schedule s = .error e)
    ∨ (∃ p t, t ∈ a.ready p) ∧ ∃ s', schedule s = .ok s' ∧ s'.Represents a.retire := by
  have hterm : (s.tcb s.CurrentThread).State = .TERMINATED := by rw [h.current, h.state, hcur]
  obtain ⟨s₁, hsel, hrep⟩ := kiSelectNextThread_spec h (le_refl PROCESS_PRIORITY_IDLE) (by decide)
  rcases hpick : a.select PROCESS_PRIORITY_IDLE with ⟨next, a₁⟩
  rw [hpick] at hsel hrep
  simp only [schedule, hterm, if_true, hsel, kernel_ok_bind]
  cases next with
  | none =>
    refine Or.inl ⟨rfl, .assertion "NextThread != NULL", ?_⟩
    rw [assert_of_not (by simp)]
    rfl
  | some next =>
    refine Or.inr ?_
    have hheld := hq.select h.ready_nodup h.ready_disjoint hpick
    obtain ⟨q, rest, -, -, hqueue, -, ha₁⟩ := Dispatcher.select_eq_some hpick
    have hcur₁ : a₁.current = a.current := by rw [ha₁]; rfl
    have hstate₁ : a₁.state a.current = .TERMINATED := by rw [ha₁]; exact hcur
    obtain ⟨-, hnext⟩ := hheld.held_state next rfl
    have hne : a.current ≠ next := by
      rintro rfl
      rw [hstate₁] at hnext
      cases hnext
    have hfree₁ : ∀ k, a.current ∉ a₁.lists k := by
      intro k hk
      rw [ha₁, a.setReady_lists] at hk
      by_cases hkq : k = some q
      · subst hkq
        rw [Function.update_self] at hk
        exact hfree (some q) (by simp [Dispatcher.lists, hqueue, hk])
      · rw [Function.update_of_ne hkq] at hk
        exact hfree k hk
    obtain ⟨head, tcb, hins, hlists, hedits⟩ :=
      hrep.lists.insertTail (EntryField.links_lawful _) none hfree₁ trivial
    have hrep₂ := hrep.storeExited hlists hedits
    obtain ⟨s₃, hswap, hrep₃⟩ :=
      kiSwapThread_spec hrep₂ hcur₁ (Or.inr (Or.inl hstate₁)) hnext
    have hretire : a.retire
        = { a₁ with exited := a₁.exited ++ [a.current] }.dispatch next := by
      simp [Dispatcher.retire, hpick]
    rw [hretire]
    refine ⟨⟨q, next, by simp [hqueue]⟩, s₃, ?_, hrep₃⟩
    have hassert : some s.CurrentThread ≠ some next := by
      rw [h.current]
      simpa using hne
    have hins' : listInsertTail (schedLinks τ) s₁.ExitThreadList s.CurrentThread s₁.tcb
        = .ok (head, tcb) := by
      rw [h.current]
      exact hins
    rw [← h.current] at hswap
    simp only [assert_of_true hassert, assert_of_true (Option.some_ne_none next), kernel_ok_bind,
      hins', deref_some, hswap]

/-- **`KiBlockThread`** returns into another thread if there is one, and bugchecks otherwise. -/
theorem kiBlockThread_spec (h : s.Represents a) (hq : a.Queued live none)
    (hr : a.OneRunning live) :
    ((a.select PROCESS_PRIORITY_IDLE).1 = none ∧ ∃ e, kiBlockThread s = .error e)
    ∨ (∃ p t, t ∈ a.ready p) ∧ ∃ s', kiBlockThread s = .ok s' ∧ s'.Represents a.block := by
  obtain ⟨hcl, hrun⟩ := hr
  have hcur : a.state a.current = .RUNNING := (hrun _ hcl).mpr rfl
  have hcheck : (s.tcb s.CurrentThread).State = .RUNNING := by rw [h.current, h.state, hcur]
  let a₀ := a.setState a.current .WAITING
  have hrep₀ : (s.modify s.CurrentThread fun tcb => { tcb with State := .WAITING }).Represents
      a₀ := by
    rw [h.current]
    exact h.setState a.current .WAITING
  have hq₀ : a₀.Queued live none :=
    hq.setState (by rw [hcur]; decide) (by rw [hcur]; decide) (by decide)
  obtain ⟨s₁, hsel, hrep⟩ :=
    kiSelectNextThread_spec hrep₀ (le_refl PROCESS_PRIORITY_IDLE) (by decide)
  -- the selection does not look at states
  have hsame : (a.select PROCESS_PRIORITY_IDLE).1 = (a₀.select PROCESS_PRIORITY_IDLE).1 := by
    have htop : ∀ n, a₀.topFrom PROCESS_PRIORITY_IDLE n = a.topFrom PROCESS_PRIORITY_IDLE n := by
      intro n
      induction n with
      | zero => rfl
      | succ n ih => rw [Dispatcher.topFrom, Dispatcher.topFrom, ih]; rfl
    have htop' : a₀.top PROCESS_PRIORITY_IDLE = a.top PROCESS_PRIORITY_IDLE := htop _
    unfold Dispatcher.select
    rw [htop']
    cases a.top PROCESS_PRIORITY_IDLE <;> rfl
  rcases hpick : a₀.select PROCESS_PRIORITY_IDLE with ⟨next, a₁⟩
  rw [hpick] at hsel hrep hsame
  simp only [kiBlockThread, assert_of_true hcheck, kernel_ok_bind, hsel]
  cases next with
  | none =>
    refine Or.inl ⟨hsame, .assertion "NextThread != NULL", ?_⟩
    rw [assert_of_not (by simp)]
    rfl
  | some next =>
    refine Or.inr ?_
    have hheld := hq₀.select hrep₀.ready_nodup hrep₀.ready_disjoint hpick
    obtain ⟨q, rest, -, -, hqueue, -, ha₁⟩ := Dispatcher.select_eq_some hpick
    have hcur₁ : a₁.current = a.current := by rw [ha₁]; rfl
    have hstate₁ : a₁.state a.current = .WAITING := by
      rw [ha₁]
      exact a.setState_self _ _
    obtain ⟨-, hnext⟩ := hheld.held_state next rfl
    obtain ⟨s₃, hswap, hrep₃⟩ := kiSwapThread_spec hrep hcur₁ (Or.inr (Or.inr hstate₁)) hnext
    have hblock : a.block = a₁.dispatch next := by
      unfold Dispatcher.block
      rw [hpick]
    rw [hblock]
    rw [← h.current] at hswap
    have hqueue' : a.ready q = next :: rest := hqueue
    exact ⟨⟨q, next, by simp [hqueue']⟩, s₃, by simp only [
      assert_of_true (Option.some_ne_none next), kernel_ok_bind, deref_some, hswap], hrep₃⟩

/-- **The clean-up loop** takes the first terminated thread. -/
theorem kiReapThread_spec (h : s.Represents a) (hq : a.Queued live none) :
    ∃ s', kiReapThread s = .ok (a.exited.head?, s') ∧ s'.Represents a.reap := by
  obtain ⟨head, tcb, hrun, hlists, hedits⟩ :=
    h.lists.removeHead (EntryField.links_lawful _) none
  have hrep := h.storeExited hlists hedits
  have hrun' : listRemoveHead (schedLinks τ) s.ExitThreadList s.tcb
      = .ok (a.exited.head?, head, tcb) := hrun
  refine ⟨_, ?_, hrep⟩
  simp only [kiReapThread, hrun', kernel_ok_bind]
  cases hx : a.exited.head? with
  | none => rfl
  | some t =>
    have hterm := (hq.exited_state t (List.mem_of_mem_head? hx)).2
    have hstate : (tcb t).State ≠ .RUNNING := by
      have := hrep.state t
      simp only at this
      rw [this, hterm]
      decide
    simp only [assert_of_true hstate, kernel_ok_bind]
    rfl

end KaushOS
