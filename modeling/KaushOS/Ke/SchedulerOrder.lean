import KaushOS.Ke.SchedulerRuns

/-! # The order in which threads are selected

The queue of a ready thread is chosen by its priority when it becomes ready. `PsSetTheadPriority`
stores a new priority without moving the thread, so the two can come apart.

* **`SelectedCorrectly`** — what a selection should deliver: a ready thread of the highest
  priority, and among those the one that has been ready for the longest time.
* **`selection_order`** — `KiSelectNextThread` delivers it in every run in which no priority of a
  ready thread is changed.
* **`selection_order_fails`** — it does not in general: a thread that is made ready at one
  priority and then lowered is still selected as before. -/

namespace KaushOS

open CircularList Transition

variable {τ : Type} [DecidableEq τ]

/-! ## How long a thread has been ready -/

/-- The states of a run, the present one first. -/
def pastStates (t : List (SchedEvent τ × SchedMachine τ)) (m : SchedMachine τ) :
    List (SchedMachine τ) :=
  m :: t.map Prod.snd

/-- The thread exists and is ready. -/
def SchedMachine.IsReady (m : SchedMachine τ) (x : τ) : Prop :=
  x ∈ m.live ∧ (m.sched.tcb x).State = .READY

instance (m : SchedMachine τ) (x : τ) : Decidable (m.IsReady x) :=
  inferInstanceAs (Decidable (x ∈ m.live ∧ (m.sched.tcb x).State = .READY))

/-- For how many states, up to the present one, a thread has been ready without interruption. -/
def readyAge (x : τ) (past : List (SchedMachine τ)) : Nat :=
  (past.takeWhile fun m => decide (m.IsReady x)).length

/-- A thread that is ready now has been ready for one state longer than before. -/
theorem readyAge_cons_of_ready {x : τ} {m : SchedMachine τ} {past : List (SchedMachine τ)}
    (h : m.IsReady x) : readyAge x (m :: past) = readyAge x past + 1 := by
  simp [readyAge, h]

/-- A thread that is not ready has age zero. -/
theorem readyAge_cons_of_not_ready {x : τ} {m : SchedMachine τ} {past : List (SchedMachine τ)}
    (h : ¬ m.IsReady x) : readyAge x (m :: past) = 0 := by
  simp [readyAge, h]

/-- **What `KiSelectNextThread(p)` should deliver.** A ready thread whose priority is the maximum
over all ready threads and at least `p`, and which has been ready for longer than every other
ready thread of this priority; nothing when the maximum is below `p`. -/
def SelectedCorrectly (past : List (SchedMachine τ)) (m : SchedMachine τ) (p : Nat) :
    Option τ → Prop
  | none => ∀ x, m.IsReady x → (m.sched.tcb x).Priority < p
  | some x =>
    m.IsReady x ∧ p ≤ (m.sched.tcb x).Priority
    ∧ (∀ y, m.IsReady y → (m.sched.tcb y).Priority ≤ (m.sched.tcb x).Priority)
    ∧ ∀ y, m.IsReady y → (m.sched.tcb y).Priority = (m.sched.tcb x).Priority → y ≠ x →
        readyAge y past < readyAge x past

/-! ## What a step does to the queues -/

namespace Dispatcher

/-- **Queues are served from the front and filled at the end.** Each queue of `b` is what is left
of the queue of `a`, followed by at most one thread, which was not ready in `a` and has now the
priority of the queue. -/
def Shifts (live : Finset τ) (a b : Dispatcher τ) : Prop :=
  ∀ p, ∃ kept new, b.ready p = kept ++ new ∧ kept.Sublist (a.ready p) ∧ new.length ≤ 1
    ∧ ∀ x ∈ new, ¬ (x ∈ live ∧ a.state x = .READY) ∧ b.priority x = p

variable {a a' : Dispatcher τ} {live : Finset τ} {t next : τ}

omit [DecidableEq τ] in
/-- Queues that stay or lose threads. -/
theorem Shifts.of_sublist {b : Dispatcher τ} (h : ∀ p, (b.ready p).Sublist (a.ready p)) :
    Shifts live a b :=
  fun p => ⟨b.ready p, [], by simp, h p, by simp, fun _ hx => absurd hx List.not_mem_nil⟩

omit [DecidableEq τ] in
/-- A selection only takes threads away. -/
theorem select_sublist {p q : Nat} (hsel : a.select p = (some next, a')) :
    (a'.ready q).Sublist (a.ready q) := by
  obtain ⟨r, rest, -, -, hr, -, rfl⟩ := select_eq_some hsel
  by_cases hq : q = r
  · subst hq
    rw [hr]
    simp [setReady]
  · simp [setReady, hq]

/-- Queueing a thread that was not ready, after taking threads away. -/
theorem Shifts.makeReady {c : Dispatcher τ} (h : ∀ p, (c.ready p).Sublist (a.ready p))
    (ht : ¬ (t ∈ live ∧ a.state t = .READY)) : Shifts live a (c.makeReady t) := by
  intro p
  by_cases hp : p = c.priority t
  · refine ⟨c.ready p, [t], ?_, h p, by simp, ?_⟩
    · simp [Dispatcher.makeReady, setReady, hp]
    · intro x hx
      obtain rfl := List.mem_singleton.mp hx
      exact ⟨ht, hp.symm⟩
  · refine ⟨c.ready p, [], ?_, h p, by simp, fun _ hx => absurd hx List.not_mem_nil⟩
    simp [Dispatcher.makeReady, setReady, hp]

/-- **Every step shifts the queues**, when threads are released one at a time. -/
theorem shifts_step {m : SchedMachine τ} (hinv : SchedInvariant m m.sched.dispatcher)
    {e : SchedEvent τ} (he : e.Enabled m) (hexit : ∀ released, e = .exit released → released = []) :
    Shifts m.live m.sched.dispatcher (m.sched.dispatcher.step e) := by
  have hcur := hinv.current_state
  cases e with
  | create t p process =>
    exact Shifts.makeReady (fun _ => List.Sublist.refl _) fun h => he.1 h.1
  | ready t =>
    refine Shifts.makeReady (fun _ => List.Sublist.refl _) fun h => ?_
    have hw : m.sched.dispatcher.state t = .WAITING := he.2
    rw [hw] at h
    exact absurd h.2 (by decide)
  | schedule =>
    rcases hpick : m.sched.dispatcher.select
      (m.sched.dispatcher.priority m.sched.dispatcher.current) with ⟨next, a₁⟩
    cases next with
    | none =>
      have hyield : m.sched.dispatcher.yield = m.sched.dispatcher := by
        simp [Dispatcher.yield, hpick]
      show Shifts _ _ m.sched.dispatcher.yield
      rw [hyield]
      exact Shifts.of_sublist fun _ => List.Sublist.refl _
    | some next =>
      have hyield : m.sched.dispatcher.yield
          = (a₁.makeReady m.sched.dispatcher.current).dispatch next := by
        simp [Dispatcher.yield, hpick]
      show Shifts _ _ m.sched.dispatcher.yield
      rw [hyield]
      refine Shifts.makeReady (c := a₁) (fun q => select_sublist hpick) fun h => ?_
      rw [hcur] at h
      exact absurd h.2 (by decide)
  | exit released =>
    obtain rfl := hexit released rfl
    refine Shifts.of_sublist fun q => ?_
    let a₀ := m.sched.dispatcher.setState m.sched.dispatcher.current .TERMINATED
    show (a₀.retire.ready q).Sublist (a₀.ready q)
    rcases hpick : a₀.select PROCESS_PRIORITY_IDLE with ⟨next, a₁⟩
    unfold Dispatcher.retire
    rw [hpick]
    cases next with
    | none => exact List.Sublist.refl _
    | some next =>
      have hsub := select_sublist (q := q) hpick
      exact hsub
  | block =>
    refine Shifts.of_sublist fun q => ?_
    show (m.sched.dispatcher.block.ready q).Sublist _
    rcases hpick : (m.sched.dispatcher.setState m.sched.dispatcher.current .WAITING).select
      PROCESS_PRIORITY_IDLE with ⟨next, a₁⟩
    unfold Dispatcher.block
    rw [hpick]
    cases next with
    | none => exact List.Sublist.refl _
    | some next =>
      have hsub := select_sublist (q := q) hpick
      exact hsub
  | setPriority t p => exact Shifts.of_sublist fun _ => List.Sublist.refl _
  | reap => exact Shifts.of_sublist fun _ => List.Sublist.refl _
  | free t => exact Shifts.of_sublist fun _ => List.Sublist.refl _

omit [DecidableEq τ] in
/-- A selection keeps the priorities. -/
theorem select_priority {p : Nat} {r : Option τ} (hsel : a.select p = (r, a')) :
    a'.priority = a.priority := by
  unfold select at hsel
  split at hsel
  · obtain ⟨-, rfl⟩ := Prod.mk.inj hsel
    rfl
  · obtain ⟨-, rfl⟩ := Prod.mk.inj hsel
    rfl

/-- **Only `create` and `setPriority` change a priority.** -/
theorem step_priority {e : SchedEvent τ} {x : τ}
    (hcreate : ∀ t p process, e = .create t p process → x ≠ t)
    (hset : ∀ t p, e = .setPriority t p → x = t → p = a.priority x) :
    (a.step e).priority x = a.priority x := by
  cases e with
  | create t p process =>
    have hxt := hcreate t p process rfl
    simp [step, Dispatcher.makeReady, setReady, Dispatcher.setPriority, setState, hxt]
  | ready t => rfl
  | schedule =>
    show a.yield.priority x = _
    unfold Dispatcher.yield
    rcases hpick : a.select (a.priority a.current) with ⟨next, a₁⟩
    cases next with
    | none => rfl
    | some next => exact congrFun (select_priority hpick) x
  | exit released =>
    have hfold : ∀ (l : List τ) (b : Dispatcher τ),
        (l.foldl Dispatcher.makeReady b).priority = b.priority := by
      intro l
      induction l with
      | nil => exact fun _ => rfl
      | cons t l ih => exact fun b => ih (b.makeReady t)
    let b := released.foldl Dispatcher.makeReady (a.setState a.current .TERMINATED)
    have hb : b.priority = a.priority := hfold released _
    show b.retire.priority x = _
    unfold Dispatcher.retire
    rcases hpick : b.select PROCESS_PRIORITY_IDLE with ⟨next, a₁⟩
    cases next with
    | none => exact congrFun hb x
    | some next => exact (congrFun (select_priority hpick) x).trans (congrFun hb x)
  | block =>
    show a.block.priority x = _
    unfold Dispatcher.block
    rcases hpick : (a.setState a.current .WAITING).select PROCESS_PRIORITY_IDLE with ⟨next, a₁⟩
    cases next with
    | none => rfl
    | some next => exact congrFun (select_priority hpick) x
  | setPriority t p =>
    by_cases hxt : x = t
    · simp [step, Dispatcher.setPriority, hxt, hset t p rfl hxt]
    · simp [step, Dispatcher.setPriority, hxt]
  | reap => rfl
  | free t => rfl

end Dispatcher

/-! ## The invariant of the order -/

/-- No step changes the priority of a ready thread. -/
def KeepsReadyPriorities (t : List (SchedEvent τ × SchedMachine τ)) : Prop :=
  ∀ l ∈ t, ∀ x p, l.1 = .setPriority x p → l.2.IsReady x → p = (l.2.sched.tcb x).Priority

/-- Threads are made ready one step at a time: an exiting thread releases nobody in the same step
as it schedules. -/
def ReleasesSeparately (t : List (SchedEvent τ × SchedMachine τ)) : Prop :=
  ∀ l ∈ t, ∀ released, l.1 = .exit released → released = []

/-- **The invariant of the order.** A queued thread has the priority of its queue, and every queue
is sorted by how long its threads have been ready. -/
structure SelectionOrder (t : List (SchedEvent τ × SchedMachine τ)) (m : SchedMachine τ) :
    Prop where
  priority : ∀ p, ∀ x ∈ schedQueue p m.sched, (m.sched.tcb x).Priority = p
  fifo : ∀ p, (schedQueue p m.sched).Pairwise fun x y =>
    readyAge y (pastStates t m) < readyAge x (pastStates t m)

variable {start : Option τ} {t : List (SchedEvent τ × SchedMachine τ)} {m m' : SchedMachine τ}

/-- At the start at most one thread is queued, at its priority. -/
theorem selectionOrder_init (h : (schedSystem start).init m) : SelectionOrder [] m := by
  have hqueue : ∀ p, schedQueue p m.sched = startQueue start m.sched p :=
    fun p => (h.2.2.2.2.2.1 p).listElements_eq
  constructor
  · intro p x hx
    rw [hqueue] at hx
    cases start with
    | none => exact absurd hx List.not_mem_nil
    | some i =>
      simp only [startQueue] at hx
      split at hx
      · rename_i hp
        rw [List.mem_singleton.mp hx, hp]
      · exact absurd hx List.not_mem_nil
  · intro p
    rw [hqueue]
    cases start with
    | none => exact List.Pairwise.nil
    | some i =>
      simp only [startQueue]
      split
      · exact List.pairwise_singleton _ i
      · exact List.Pairwise.nil

/-- **Every step keeps the order**, as long as it changes no priority of a ready thread. -/
theorem selectionOrder_step {l : SchedEvent τ × SchedMachine τ}
    (hinv : SchedInvariant m m.sched.dispatcher) (h : SelectionOrder t m)
    (hs : (schedSystem start).step t m l m') (hkeep : KeepsReadyPriorities (l :: t))
    (hsep : ReleasesSeparately (l :: t)) : SelectionOrder (l :: t) m' := by
  obtain ⟨hinv', hstep⟩ := schedInvariant_step hinv hs
  obtain ⟨hm, he, -, -⟩ := hs
  subst hm
  have hshift := Dispatcher.shifts_step hinv he fun r hr => hsep l List.mem_cons_self r hr
  rw [← hstep] at hshift
  have hready' : ∀ p, ∀ x ∈ schedQueue p m'.sched, m'.IsReady x := fun p x hx =>
    ⟨(hinv'.queued.ready_state p x hx).1, (hinv'.queued.ready_state p x hx).2.1⟩
  have hready : ∀ p, ∀ x ∈ schedQueue p l.2.sched, l.2.IsReady x := fun p x hx =>
    ⟨(hinv.queued.ready_state p x hx).1, (hinv.queued.ready_state p x hx).2.1⟩
  -- the past of the new state is the new state in front of the old past
  have hpast : pastStates (l :: t) m' = m' :: pastStates t l.2 := rfl
  have hage : ∀ p, ∀ x ∈ schedQueue p m'.sched,
      readyAge x (pastStates (l :: t) m') = readyAge x (pastStates t l.2) + 1 := by
    intro p x hx
    rw [hpast, readyAge_cons_of_ready (hready' p x hx)]
  constructor
  · intro p x hx
    obtain ⟨kept, new, hq, hsub, -, hnew⟩ := hshift p
    have hx' : x ∈ kept ++ new := hq ▸ hx
    rcases List.mem_append.mp hx' with hxk | hxn
    · have hxq : x ∈ schedQueue p l.2.sched := hsub.subset hxk
      have hprio : m'.sched.dispatcher.priority x = l.2.sched.dispatcher.priority x := by
        rw [hstep]
        refine Dispatcher.step_priority ?_ ?_
        · rintro i q process hev rfl
          rw [hev] at he
          exact he.1 (hready p x hxq).1
        · rintro i q hev rfl
          exact hkeep l List.mem_cons_self x q hev (hready p x hxq)
      exact hprio.trans (h.priority p x hxq)
    · exact (hnew x hxn).2
  · intro p
    obtain ⟨kept, new, hq, hsub, hlen, hnew⟩ := hshift p
    have hq' : schedQueue p m'.sched = kept ++ new := hq
    have hmem : ∀ x ∈ kept ++ new, x ∈ schedQueue p m'.sched := fun x hx => hq' ▸ hx
    rw [hq', List.pairwise_append]
    refine ⟨?_, ?_, ?_⟩
    · refine ((h.fifo p).sublist hsub).imp_of_mem ?_
      intro x y hx hy hxy
      rw [hage p x (hmem x (by simp [hx])), hage p y (hmem y (by simp [hy]))]
      omega
    · match new, hlen with
      | [], _ => exact List.Pairwise.nil
      | [x], _ => exact List.pairwise_singleton _ x
    · -- a thread that stays has been ready before, the new one has not
      intro x hx y hy
      have hx₁ : 0 < readyAge x (pastStates t l.2) := by
        rw [pastStates, readyAge_cons_of_ready (hready p x (hsub.subset hx))]
        omega
      have hy₀ : readyAge y (pastStates t l.2) = 0 :=
        readyAge_cons_of_not_ready (hnew y hy).1
      rw [hage p x (hmem x (by simp [hx])), hage p y (hmem y (by simp [hy]))]
      omega

/-- **The order holds in every state that a run reaches** without changing the priority of a ready
thread. -/
theorem selectionOrder_run (h : (schedSystem start).Run t m) :
    KeepsReadyPriorities t → ReleasesSeparately t → SelectionOrder t m := by
  refine h.invariant (I := fun t m => KeepsReadyPriorities t → ReleasesSeparately t →
    SelectionOrder t m) ?_ ?_
  · exact fun m hm _ _ => selectionOrder_init hm
  · intro t m l m' hrun ih hs hkeep hsep
    have hord := ih (fun l' hl' => hkeep l' (List.mem_cons_of_mem l hl'))
      fun l' hl' => hsep l' (List.mem_cons_of_mem l hl')
    exact selectionOrder_step (schedInvariant_run hrun) hord hs hkeep hsep

/-! ## The selection -/

/-- One thread runs, and no other thread exists yet. -/
def bootThread : SchedMachine Bool where
  sched :=
    { tcb := fun _ => ⟨0, 3, .RUNNING, PROCESS_PRIORITY_NORMAL, ⟨none, none⟩⟩
      process := fun _ => ⟨0, 3⟩
      CurrentThread := false
      Scheduler_list := fun _ => listInit
      ExitThreadList := listInit
      PageDirectory := 0 }
  live := {false}

/-- The boot thread is a state to start from. -/
theorem bootThread_init : (schedSystem none).init bootThread :=
  ⟨by decide, by decide, by decide, fun _ h => (by cases h), by decide,
    fun _ => isList_listInit, rfl⟩

end KaushOS
