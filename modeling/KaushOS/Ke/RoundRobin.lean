import KaushOS.Ke.SchedulerOrder

/-! # Round-robin fairness

A thread that gets the processor leaves its queue, and when it comes back it goes to the end. A thread
that was ready meanwhile is in front of it there, and is served first.

* **`Dispatcher.Ahead`** — a ready thread is not overtaken in its queue.
* **`Dispatcher.Ahead.step`** — a step keeps that, gives the processor to the ready thread, or to a
  thread of a higher priority.
* **`Dispatches`** — a step gives the processor to a thread.
* **`round_robin_fair`** — between two dispatches of a thread, every thread of at least its priority that
  was ready is dispatched. -/

namespace KaushOS

open CircularList Transition

variable {τ : Type} [DecidableEq τ]

/-! ## Who is in front of whom -/

namespace Dispatcher

/-- **The thread `u` is ready, and `x` is not in front of it.** -/
def Ahead (a : Dispatcher τ) (u x : τ) : Prop :=
  u ∈ a.ready (a.priority u) ∧ x ∉ (a.ready (a.priority u)).takeWhile fun y => decide (y ≠ u)

/-- Every thread is queued at its priority. -/
def Sorted (a : Dispatcher τ) : Prop := ∀ p, ∀ x ∈ a.ready p, a.priority x = p

variable {a a' : Dispatcher τ} {u x t next : τ} {p : Nat}

/-- What is in front of a member of a list does not depend on what is appended. -/
theorem takeWhile_append_of_mem {l : List τ} (r : List τ) (h : u ∈ l) :
    (l ++ r).takeWhile (fun y => decide (y ≠ u)) = l.takeWhile fun y => decide (y ≠ u) := by
  induction l with
  | nil => exact absurd h List.not_mem_nil
  | cons y l ih =>
    by_cases hyu : y = u
    · simp [hyu]
    · have hul : u ∈ l := (List.mem_cons.mp h).resolve_left (Ne.symm hyu)
      have hfront : ∀ l : List τ, (y :: l).takeWhile (fun y => decide (y ≠ u))
          = y :: l.takeWhile fun y => decide (y ≠ u) := by simp [hyu]
      rw [List.cons_append, hfront, hfront, ih hul]

/-- **A thread that becomes ready goes to the end.** -/
theorem Ahead.makeReady (h : a.Ahead u x) (t : τ) : (a.makeReady t).Ahead u x := by
  unfold Ahead
  by_cases hp : a.priority u = a.priority t
  · have hready : (a.makeReady t).ready ((a.makeReady t).priority u)
        = a.ready (a.priority u) ++ [t] := by
      simp [Dispatcher.makeReady, setReady, hp]
    rw [hready, takeWhile_append_of_mem [t] h.1]
    exact ⟨List.mem_append_left _ h.1, h.2⟩
  · have hready : (a.makeReady t).ready ((a.makeReady t).priority u) = a.ready (a.priority u) := by
      simp [Dispatcher.makeReady, setReady, hp]
    rw [hready]
    exact h

/-- **A selection serves the thread, or leaves it where it is.** -/
theorem Ahead.select (h : a.Ahead u x) (hsel : a.select p = (some next, a')) (hnext : next ≠ u) :
    a'.Ahead u x := by
  obtain ⟨q, rest, -, -, hq, -, rfl⟩ := select_eq_some hsel
  unfold Ahead
  by_cases hp : a.priority u = q
  · have hready : (a.setReady q rest).ready ((a.setReady q rest).priority u) = rest := by
      simp [setReady, hp]
    rw [hready]
    rw [Ahead, hp, hq] at h
    have hfront : (next :: rest).takeWhile (fun y => decide (y ≠ u))
        = next :: rest.takeWhile fun y => decide (y ≠ u) := by simp [hnext]
    rw [hfront] at h
    exact ⟨(List.mem_cons.mp h.1).resolve_left hnext.symm, fun hx => h.2 (List.mem_cons_of_mem _ hx)⟩
  · have hready : (a.setReady q rest).ready ((a.setReady q rest).priority u)
        = a.ready (a.priority u) := by
      simp [setReady, hp]
    rw [hready]
    exact h

/-- **Who is selected instead** has a higher priority. -/
theorem Ahead.outranked (h : a.Ahead u x) (hs : a.Sorted) (hux : u ≠ x)
    (hmax : a.priority u ≤ PROCESS_PRIORITY_MAX) (hsel : a.select p = (some x, a')) :
    a.priority u < a.priority x := by
  obtain ⟨q, rest, -, -, hq, habove, -⟩ := select_eq_some hsel
  have hx : a.priority x = q := hs q x (by rw [hq]; exact List.mem_cons_self)
  by_contra hle
  have hpu : a.priority u = q := by
    rcases Nat.lt_or_ge q (a.priority u) with hlt | hge
    · have hnil := habove _ hlt hmax
      rw [Ahead, hnil] at h
      exact absurd h.1 List.not_mem_nil
    · omega
  rw [Ahead, hpu, hq] at h
  exact h.2 (by simp [hux.symm])

/-- Queueing keeps every thread at its priority. -/
theorem Sorted.makeReady (h : a.Sorted) (t : τ) : (a.makeReady t).Sorted := by
  intro p y hy
  rcases mem_makeReady.mp hy with hy | ⟨rfl, rfl⟩
  · exact h p y hy
  · rfl

omit [DecidableEq τ] in
/-- A selection keeps every thread at its priority. -/
theorem Sorted.select (h : a.Sorted) (hsel : a.select p = (some next, a')) : a'.Sorted := by
  intro q y hy
  rw [select_priority hsel]
  exact h q y ((select_sublist hsel).subset hy)

/-- Many threads are made ready. -/
theorem Ahead.foldl (l : List τ) (h : a.Ahead u x) : (l.foldl Dispatcher.makeReady a).Ahead u x := by
  induction l generalizing a with
  | nil => exact h
  | cons t l ih => exact ih (h.makeReady t)

theorem Sorted.foldl (l : List τ) (h : a.Sorted) : (l.foldl Dispatcher.makeReady a).Sorted := by
  induction l generalizing a with
  | nil => exact h
  | cons t l ih => exact ih (h.makeReady t)

theorem foldl_makeReady_fields (l : List τ) (a : Dispatcher τ) :
    (l.foldl Dispatcher.makeReady a).priority = a.priority
      ∧ (l.foldl Dispatcher.makeReady a).current = a.current := by
  induction l generalizing a with
  | nil => exact ⟨rfl, rfl⟩
  | cons t l ih => exact ih (a.makeReady t)

/-! ## What a step does -/

/-- **The thread `u` is served or not overtaken**: it gets the processor, or it stays in front of `x`,
and if `x` gets the processor, it has a higher priority. -/
def Serves (a b : Dispatcher τ) (u x : τ) : Prop :=
  b.current = u ∨ b.Ahead u x ∧ (b.current = x → a.current = x ∨ a.priority u < a.priority x)

/-- A step that leaves the processor to the current thread. -/
theorem Ahead.serves {b : Dispatcher τ} (h : b.Ahead u x) (hcur : b.current = a.current) :
    Serves a b u x := Or.inr ⟨h, fun hx => Or.inl (hcur.symm.trans hx)⟩

/-- **The processor goes to the thread that is selected.** -/
theorem Ahead.dispatch {b c : Dispatcher τ} (h : b.Ahead u x) (hs : b.Sorted) (hux : u ≠ x)
    (hmax : b.priority u ≤ PROCESS_PRIORITY_MAX) (hsel : b.select p = (some next, a'))
    (hprio : b.priority = a.priority) (hcur : c.current = next)
    (hc : a'.Ahead u x → c.Ahead u x) : Serves a c u x := by
  by_cases hnext : next = u
  · exact Or.inl (hcur.trans hnext)
  · refine Or.inr ⟨hc (h.select hsel hnext), fun hx => Or.inr ?_⟩
    obtain rfl : next = x := hcur.symm.trans hx
    rw [← hprio]
    exact h.outranked hs hux hmax hsel

/-- **Every step serves the ready thread or does not let it be overtaken**, if priorities are fixed. -/
theorem Ahead.step {m : SchedMachine τ} (hinv : SchedInvariant m a) (hs : a.Sorted)
    {e : SchedEvent τ} (he : e.Enabled m) (hu : u ∈ m.live) (h : a.Ahead u x) (hux : u ≠ x)
    (hfixed : ∀ y p, e ≠ .setPriority y p) : Serves a (a.step e) u x := by
  have hmax := (hinv.queued.priority u hu).2
  cases e with
  | create t p process =>
    have hut : u ≠ t := fun heq => he.1 (heq ▸ hu)
    have hcreated : ((a.setState t .INITIALIZED).setPriority t p).Ahead u x := by
      have hprio : ((a.setState t .INITIALIZED).setPriority t p).priority u = a.priority u :=
        Function.update_of_ne hut ..
      rw [Ahead, hprio]
      exact h
    exact (hcreated.makeReady t).serves rfl
  | ready t => exact (h.makeReady t).serves rfl
  | schedule =>
    show Serves a a.yield u x
    rcases hpick : a.select (a.priority a.current) with ⟨next, a₁⟩
    cases next with
    | none =>
      have hyield : a.yield = a := by simp [Dispatcher.yield, hpick]
      rw [hyield]
      exact h.serves rfl
    | some next =>
      have hyield : a.yield = (a₁.makeReady a.current).dispatch next := by
        simp [Dispatcher.yield, hpick]
      rw [hyield]
      exact h.dispatch hs hux hmax hpick rfl rfl fun h' => h'.makeReady a.current
  | exit released =>
    -- the threads that are released go to the end before the successor is selected
    let b := released.foldl Dispatcher.makeReady (a.setState a.current .TERMINATED)
    obtain ⟨hprio, hcur⟩ : b.priority = a.priority ∧ b.current = a.current :=
      foldl_makeReady_fields released _
    have hb : b.Ahead u x := Ahead.foldl (a := a.setState a.current .TERMINATED) released h
    have hbs : b.Sorted := Sorted.foldl (a := a.setState a.current .TERMINATED) released hs
    show Serves a b.retire u x
    rcases hpick : b.select PROCESS_PRIORITY_IDLE with ⟨next, a₁⟩
    cases next with
    | none =>
      have hretire : b.retire = b := by simp [Dispatcher.retire, hpick]
      rw [hretire]
      exact hb.serves hcur
    | some next =>
      have hretire : b.retire = { a₁ with exited := a₁.exited ++ [b.current] }.dispatch next := by
        simp [Dispatcher.retire, hpick]
      rw [hretire]
      exact hb.dispatch hbs hux (hprio ▸ hmax) hpick hprio rfl id
  | block =>
    show Serves a a.block u x
    have hb : (a.setState a.current .WAITING).Ahead u x := h
    rcases hpick : (a.setState a.current .WAITING).select PROCESS_PRIORITY_IDLE with ⟨next, a₁⟩
    cases next with
    | none =>
      have hblock : a.block = a := by simp [Dispatcher.block, hpick]
      rw [hblock]
      exact h.serves rfl
    | some next =>
      have hblock : a.block = a₁.dispatch next := by simp [Dispatcher.block, hpick]
      rw [hblock]
      exact hb.dispatch hs hux hmax hpick rfl rfl id
  | setPriority t p => exact absurd rfl (hfixed t p)
  | reap => exact Ahead.serves (b := a.reap) h rfl
  | free t => exact h.serves rfl

/-- **Every step keeps the threads at their priorities**, if these are fixed. -/
theorem Sorted.step {m : SchedMachine τ} (hinv : SchedInvariant m a) (hs : a.Sorted)
    {e : SchedEvent τ} (he : e.Enabled m) (hfixed : ∀ y p, e ≠ .setPriority y p) :
    (a.step e).Sorted := by
  cases e with
  | create t p process =>
    refine Sorted.makeReady (fun q y hy => ?_) t
    have hyt : y ≠ t := fun heq => he.1 (heq ▸ (hinv.queued.ready_state q y hy).1)
    have hprio : ((a.setState t .INITIALIZED).setPriority t p).priority y = a.priority y :=
      Function.update_of_ne hyt ..
    rw [hprio]
    exact hs q y hy
  | ready t => exact hs.makeReady t
  | schedule =>
    show a.yield.Sorted
    rcases hpick : a.select (a.priority a.current) with ⟨next, a₁⟩
    cases next with
    | none =>
      have hyield : a.yield = a := by simp [Dispatcher.yield, hpick]
      rw [hyield]
      exact hs
    | some next =>
      have hyield : a.yield = (a₁.makeReady a.current).dispatch next := by
        simp [Dispatcher.yield, hpick]
      rw [hyield]
      exact (hs.select hpick).makeReady a.current
  | exit released =>
    let b := released.foldl Dispatcher.makeReady (a.setState a.current .TERMINATED)
    have hb : b.Sorted := Sorted.foldl (a := a.setState a.current .TERMINATED) released hs
    show b.retire.Sorted
    rcases hpick : b.select PROCESS_PRIORITY_IDLE with ⟨next, a₁⟩
    cases next with
    | none =>
      have hretire : b.retire = b := by simp [Dispatcher.retire, hpick]
      rw [hretire]
      exact hb
    | some next =>
      have hretire : b.retire = { a₁ with exited := a₁.exited ++ [b.current] }.dispatch next := by
        simp [Dispatcher.retire, hpick]
      rw [hretire]
      have hafter : a₁.Sorted := hb.select hpick
      exact hafter
  | block =>
    show a.block.Sorted
    have hb : (a.setState a.current .WAITING).Sorted := hs
    rcases hpick : (a.setState a.current .WAITING).select PROCESS_PRIORITY_IDLE with ⟨next, a₁⟩
    cases next with
    | none =>
      have hblock : a.block = a := by simp [Dispatcher.block, hpick]
      rw [hblock]
      exact hs
    | some next =>
      have hblock : a.block = a₁.dispatch next := by simp [Dispatcher.block, hpick]
      rw [hblock]
      have hafter : a₁.Sorted := hb.select hpick
      exact hafter
  | setPriority t p => exact absurd rfl (hfixed t p)
  | reap => exact hs
  | free t => exact hs

end Dispatcher

/-! ## Runs -/

/-- No step changes a priority. -/
def FixedPriorities (t : List (SchedEvent τ × SchedMachine τ)) : Prop :=
  ∀ l ∈ t, ∀ x p, l.1 ≠ .setPriority x p

/-- **The step gives the processor to the thread `x`.** -/
def Dispatches (x : τ) (l : SchedEvent τ × SchedMachine τ) : Prop :=
  l.2.sched.CurrentThread ≠ x ∧ ∃ s', schedStep l.1 l.2.sched = .ok s' ∧ s'.CurrentThread = x

/-- The thread exists and is ready after the step. -/
def ReadyAfter (x : τ) (l : SchedEvent τ × SchedMachine τ) : Prop :=
  ∃ s', schedStep l.1 l.2.sched = .ok s' ∧ SchedMachine.IsReady ⟨s', l.1.liveAfter l.2.live⟩ x

variable {start : Option τ} {m : SchedMachine τ} {l l₁ l₂ : SchedEvent τ × SchedMachine τ}
  {t t₀ middle : List (SchedEvent τ × SchedMachine τ)} {u x : τ}

/-- The last step of a run. -/
theorem schedSystem_last (h : (schedSystem start).Run (l :: t) m) :
    (schedSystem start).Run t l.2 ∧ l.1.Enabled l.2 ∧ schedStep l.1 l.2.sched = .ok m.sched
      ∧ m.live = l.1.liveAfter l.2.live
      ∧ m.sched.dispatcher = l.2.sched.dispatcher.step l.1 := by
  cases h with
  | step hrun hstep =>
    obtain ⟨-, habstract⟩ := schedInvariant_step (schedInvariant_run hrun) hstep
    obtain ⟨rfl, he, hok, hlive⟩ := hstep
    exact ⟨hrun, he, hok, hlive, habstract⟩

/-- The last step of a run gives the processor to `x`. -/
theorem dispatches_last (h : (schedSystem start).Run (l :: t) m) (hother : l.2.sched.CurrentThread ≠ x)
    (hcur : m.sched.CurrentThread = x) : Dispatches x l :=
  ⟨hother, m.sched, (schedSystem_last h).2.2.1, hcur⟩

/-- A thread that is ready at the end of a run is ready after its last step. -/
theorem readyAfter_last (h : (schedSystem start).Run (l :: t) m) (hu : m.IsReady u) :
    ReadyAfter u l := by
  obtain ⟨-, -, hok, hlive, -⟩ := schedSystem_last h
  exact ⟨m.sched, hok, hlive ▸ hu.1, hu.2⟩

/-- With fixed priorities, every thread is queued at its priority. -/
theorem sorted_run (h : (schedSystem start).Run t m) :
    FixedPriorities t → m.sched.dispatcher.Sorted := by
  refine h.invariant (I := fun t m => FixedPriorities t → m.sched.dispatcher.Sorted) ?_ ?_
  · intro m hm _
    exact (selectionOrder_init hm).priority
  · intro t m l m' hrun ih hstep hfixed
    have hs := ih fun l' hl' => hfixed l' (List.mem_cons_of_mem l hl')
    have hinv := schedInvariant_run hrun
    obtain ⟨-, habstract⟩ := schedInvariant_step hinv hstep
    rw [habstract]
    exact hs.step hinv hstep.2.1 (hfixed l List.mem_cons_self)

/-- A thread that exists is ready or it is not: what a step makes of a ready one. -/
theorem ready_step (hrun : (schedSystem start).Run (l :: t) m) (hu : l.2.IsReady u)
    (hcur : m.sched.CurrentThread ≠ u) : m.IsReady u := by
  obtain ⟨hbefore, he, -, hlive, habstract⟩ := schedSystem_last hrun
  have hinv := schedInvariant_run hbefore
  have hrunnable : (m.sched.dispatcher).Runnable u := by
    rw [habstract]
    refine Dispatcher.Runnable.step (Or.inl hu.2) hu.1 he fun _ heq => ?_
    have hstate := hinv.current_state
    rw [heq] at hstate
    exact absurd (hu.2.symm.trans hstate) (by decide)
  have hlive' : u ∈ m.live := by
    rw [hlive]
    cases hev : l.1 with
    | create t p process => exact Finset.mem_insert_of_mem hu.1
    | free t =>
      rw [hev] at he
      refine Finset.mem_erase.mpr ⟨?_, hu.1⟩
      rintro rfl
      exact absurd (hu.2.symm.trans he.2.1) (by decide)
    | ready _ | schedule | exit _ | block | setPriority _ _ | reap => exact hu.1
  refine ⟨hlive', hrunnable.resolve_right fun hr => hcur ?_⟩
  exact ((schedInvariant_run hrun).running.2 u hlive').mp hr |>.symm

/-- **Since the dispatch of `x`**, the thread `u` has been dispatched, or it is ready and in front. -/
theorem ahead_since (h : (schedSystem start).Run (middle ++ l₁ :: t₀) m)
    (hfixed : FixedPriorities (middle ++ l₁ :: t₀)) (h₁ : Dispatches x l₁) (hux : u ≠ x)
    (hready : ReadyAfter u l₁) :
    ((∃ l ∈ middle, Dispatches u l) ∧ (¬ m.IsReady u ∨ ∃ l ∈ middle, ¬ l.2.IsReady u))
      ∨ m.IsReady u ∧ m.sched.dispatcher.Ahead u x := by
  induction middle generalizing m with
  | nil =>
    -- the thread that has just got the processor is in no queue
    obtain ⟨-, -, hok, hlive, -⟩ := schedSystem_last h
    obtain ⟨-, s', hok', hcur⟩ := h₁
    obtain ⟨s'', hok'', hu⟩ := hready
    obtain rfl : m.sched = s' := Except.ok.inj (hok.symm.trans hok')
    obtain rfl : m.sched = s'' := Except.ok.inj (hok.symm.trans hok'')
    rw [← hlive] at hu
    have hinv := schedInvariant_run h
    obtain ⟨q, hq⟩ := hinv.queued.ready_mem u hu.1 hu.2 (by simp)
    have hprio := sorted_run h hfixed q u hq
    refine Or.inr ⟨hu, ?_, fun hx => ?_⟩
    · rw [hprio]
      exact hq
    · have hx' := (List.takeWhile_sublist _).subset hx
      have hcurrent : x = m.sched.dispatcher.current := hcur.symm
      exact hinv.current_not_mem (some _) (hcurrent ▸ hx')
  | cons l middle ih =>
    obtain ⟨hbefore, he, hok, -, habstract⟩ := schedSystem_last h
    have hfixed' : FixedPriorities (middle ++ l₁ :: t₀) :=
      fun l' hl' => hfixed l' (List.mem_cons_of_mem l hl')
    rcases ih hbefore hfixed' with ⟨⟨l', hl', hd⟩, hnot⟩ | ⟨hu, hahead⟩
    · refine Or.inl ⟨⟨l', List.mem_cons_of_mem l hl', hd⟩, Or.inr ?_⟩
      rcases hnot with hnot | ⟨l'', hl'', hnot⟩
      · exact ⟨l, List.mem_cons_self, hnot⟩
      · exact ⟨l'', List.mem_cons_of_mem l hl'', hnot⟩
    · have hinv := schedInvariant_run hbefore
      have hserves := hahead.step hinv (sorted_run hbefore hfixed') he hu.1 hux
        (hfixed l List.mem_cons_self)
      rw [← habstract] at hserves
      by_cases hcur : m.sched.CurrentThread = u
      · have hrunning : m.sched.dispatcher.state u = .RUNNING :=
          hcur ▸ (schedInvariant_run h).current_state
        refine Or.inl ⟨⟨l, List.mem_cons_self, ?_, _, hok, hcur⟩, Or.inl fun hno => ?_⟩
        · intro heq
          have hstate : l.2.sched.dispatcher.state u = .RUNNING := heq ▸ hinv.current_state
          exact absurd (hu.2.symm.trans hstate) (by decide)
        · exact absurd (hno.2.symm.trans hrunning) (by decide)
      · exact Or.inr ⟨ready_step h hu hcur, (hserves.resolve_left hcur).1⟩

/-- **Round-robin fairness.** Between two dispatches of a thread `x`, in a run with fixed priorities,
every other thread of at least its priority that is ready at the first is dispatched at least once, and
so is not ready in every state between them. -/
theorem round_robin_fair (h : (schedSystem start).Run (l₂ :: (middle ++ l₁ :: t₀)) m)
    (hfixed : FixedPriorities (l₂ :: (middle ++ l₁ :: t₀))) (h₁ : Dispatches x l₁)
    (h₂ : Dispatches x l₂) (hux : u ≠ x)
    (hprio : (l₂.2.sched.tcb x).Priority ≤ (l₂.2.sched.tcb u).Priority)
    (hready : ReadyAfter u l₁) :
    (∃ l ∈ middle, Dispatches u l) ∧ ∃ l ∈ l₂ :: middle, ¬ l.2.IsReady u := by
  obtain ⟨hbefore, he, hok, -, habstract⟩ := schedSystem_last h
  have hfixed' : FixedPriorities (middle ++ l₁ :: t₀) :=
    fun l' hl' => hfixed l' (List.mem_cons_of_mem l₂ hl')
  rcases ahead_since hbefore hfixed' h₁ hux hready with ⟨hd, hnot⟩ | ⟨hu, hahead⟩
  · refine ⟨hd, ?_⟩
    rcases hnot with hnot | ⟨l, hl, hnot⟩
    · exact ⟨l₂, List.mem_cons_self, hnot⟩
    · exact ⟨l, List.mem_cons_of_mem l₂ hl, hnot⟩
  · -- the thread is still in front, so that `x` cannot be selected
    have hserves := hahead.step (schedInvariant_run hbefore) (sorted_run hbefore hfixed') he hu.1 hux
      (hfixed l₂ List.mem_cons_self)
    obtain ⟨hother, s', hok', hcur⟩ := h₂
    obtain rfl : m.sched = s' := Except.ok.inj (hok.symm.trans hok')
    rw [← habstract] at hserves
    rcases hserves with hcur' | ⟨-, hserved⟩
    · exact absurd (hcur'.symm.trans hcur) hux
    · rcases hserved hcur with hsame | hlt
      · exact absurd hsame hother
      · exact absurd hprio (Nat.not_le.mpr hlt)

/-- The boot thread and a thread that it has created take turns. -/
theorem round_robin_fair_two : ∃ (t middle : List (SchedEvent Bool × SchedMachine Bool))
    (l₁ l₂ : SchedEvent Bool × SchedMachine Bool) (m : SchedMachine Bool),
    (schedSystem none).Run (l₂ :: (middle ++ l₁ :: t)) m ∧ Dispatches true l₁ ∧ Dispatches true l₂
      ∧ ∃ l ∈ middle, Dispatches false l := by
  have h₀ := System.Run.start bootThread_init
  have h₁ := h₀.step (e := (SchedEvent.create true PROCESS_PRIORITY_NORMAL 0, bootThread))
    (u := ⟨_, _⟩) ⟨rfl, ⟨by decide, by decide, by decide⟩, rfl, rfl⟩
  have h₂ := h₁.step (e := (SchedEvent.schedule, _)) (u := ⟨_, _⟩) ⟨rfl, trivial, rfl, rfl⟩
  have h₃ := h₂.step (e := (SchedEvent.schedule, _)) (u := ⟨_, _⟩) ⟨rfl, trivial, rfl, rfl⟩
  have h₄ := h₃.step (e := (SchedEvent.schedule, _)) (u := ⟨_, _⟩) ⟨rfl, trivial, rfl, rfl⟩
  have hrun : (schedSystem none).Run (_ :: ([_] ++ _ :: [_])) _ := h₄
  have hfirst := dispatches_last (x := true) h₂ (by decide) rfl
  have hsecond := dispatches_last (x := true) h₄ (by decide) rfl
  refine ⟨_, _, _, _, _, hrun, hfirst, hsecond, ?_⟩
  refine (round_robin_fair (u := false) hrun ?_ hfirst hsecond (by decide) (by decide)
    (readyAfter_last h₂ ⟨by decide, rfl⟩)).1
  simp [FixedPriorities]

end KaushOS
