import KaushOS.Ke.SchedulerRuns
import KaushOS.Ke.Wait

/-! # Wait lists and threads

What a signal state, a wait list and the states of the waiting threads have to do with each other,
for objects of all kinds.

* **`KeInvariant`** — the wait lists hold waiting threads, each on one list and once; an object
  that is signalled has no waiters.
* **`kiDHeaderAcquire_block_spec`, `kiDHeaderRelease_handoff_spec`** — what the operations do: a wait
  takes a unit or joins the end of the list, a release hands the unit to the first waiter or
  stores it.
* **`KeInvariant.background`** — steps of the scheduler leave the wait lists alone. -/

namespace KaushOS

open CircularList Transition

variable {τ ο : Type} [DecidableEq τ] [DecidableEq ο]

/-! ## Waiting threads stay waiting -/

namespace Dispatcher

variable {a : Dispatcher τ} {t : τ}

omit [DecidableEq τ] in
/-- The processor goes to a thread that was ready. -/
theorem dispatch_state_of_waiting {a' : Dispatcher τ} {live : Finset τ} {p : Nat} {next : τ}
    (hq : a.Queued live none) (hsel : a.select p = (some next, a')) (hw : a.state t = .WAITING) :
    t ≠ next ∧ a'.state t = .WAITING := by
  obtain ⟨q, rest, -, -, hqueue, -, rfl⟩ := select_eq_some hsel
  have hnext := (hq.ready_state q next (by simp [hqueue])).2.1
  refine ⟨?_, hw⟩
  rintro rfl
  rw [hw] at hnext
  cases hnext

/-- Yielding does not wake a waiting thread. -/
theorem yield_state_of_waiting {live : Finset τ} (hq : a.Queued live none)
    (hc : t ≠ a.current) (hw : a.state t = .WAITING) : a.yield.state t = .WAITING := by
  unfold Dispatcher.yield
  rcases hpick : a.select (a.priority a.current) with ⟨next, a₁⟩
  cases next with
  | none => exact hw
  | some next =>
    obtain ⟨hne, hw₁⟩ := dispatch_state_of_waiting hq hpick hw
    show ((a₁.makeReady a.current).dispatch next).state t = _
    rw [show ((a₁.makeReady a.current).dispatch next).state t = (a₁.makeReady a.current).state t
      from setState_of_ne _ _ hne, makeReady_state, if_neg hc, hw₁]

/-- Retiring does not wake a waiting thread. -/
theorem retire_state_of_waiting {live : Finset τ} (hq : a.Queued live none)
    (hw : a.state t = .WAITING) : a.retire.state t = .WAITING := by
  unfold Dispatcher.retire
  rcases hpick : a.select PROCESS_PRIORITY_IDLE with ⟨next, a₁⟩
  cases next with
  | none => exact hw
  | some next =>
    obtain ⟨hne, hw₁⟩ := dispatch_state_of_waiting hq hpick hw
    exact (setState_of_ne _ _ hne).trans hw₁

/-- Blocking does not wake a waiting thread, and the thread that blocks waits afterwards. -/
theorem block_state_of_waiting {live : Finset τ} (hq : a.Queued live none)
    (hcur : a.state a.current = .RUNNING) {p : Nat} {i : τ} (hi : i ∈ a.ready p)
    (hw : t = a.current ∨ a.state t = .WAITING) : a.block.state t = .WAITING := by
  have hq₀ : (a.setState a.current .WAITING).Queued live none :=
    hq.setState (by simp [hcur]) (by simp [hcur]) (by decide)
  have hw₀ : (a.setState a.current .WAITING).state t = .WAITING := by
    by_cases hc : t = a.current
    · rw [hc, a.setState_self]
    · rw [a.setState_of_ne _ hc]
      exact hw.resolve_left hc
  obtain ⟨-, -, -, hlo, hhi⟩ := hq.ready_state p i hi
  obtain ⟨next, a₁, hpick⟩ := select_isSome (a := a.setState a.current .WAITING)
    Nat.zero_lt_one hlo hhi hi
  have hpick' : (a.setState a.current .WAITING).select PROCESS_PRIORITY_IDLE = (some next, a₁) :=
    hpick
  obtain ⟨hne, hw₁⟩ := dispatch_state_of_waiting hq₀ hpick' hw₀
  unfold Dispatcher.block
  rw [hpick']
  exact (setState_of_ne _ _ hne).trans hw₁

end Dispatcher

/-- **Steps of the scheduler that no object takes part in**: they wake no thread and block none. -/
def SchedEvent.Background : SchedEvent τ → Prop
  | .ready _ | .block => False
  | .exit released => released = []
  | _ => True

/-- A background step leaves a waiting thread waiting. -/
theorem Dispatcher.step_state_of_waiting {m : SchedMachine τ} {a : Dispatcher τ} {t : τ}
    {e : SchedEvent τ} (hinv : SchedInvariant m a) (he : e.Enabled m) (hb : e.Background)
    (ht : t ∈ m.live) (hw : a.state t = .WAITING) : (a.step e).state t = .WAITING := by
  have hc : t ≠ a.current := by
    rintro rfl
    rw [hinv.current_state] at hw
    cases hw
  cases e with
  | create i p process =>
    have hti : t ≠ i := fun h => he.1 (h ▸ ht)
    show (((a.setState i .INITIALIZED).setPriority i p).makeReady i).state t = _
    rw [makeReady_state, if_neg hti]
    exact (a.setState_of_ne _ hti).trans hw
  | ready i => exact absurd hb id
  | schedule => exact yield_state_of_waiting hinv.queued hc hw
  | exit released =>
    obtain rfl : released = [] := hb
    have hq₀ : (a.setState a.current .TERMINATED).Queued m.live none :=
      hinv.queued.setState (by simp [hinv.current_state]) (by simp [hinv.current_state])
        (by decide)
    exact retire_state_of_waiting hq₀ ((a.setState_of_ne _ hc).trans hw)
  | block => exact absurd hb id
  | setPriority i p => exact hw
  | reap => exact hw
  | free i => exact hw

/-! ## The invariant -/

/-- The heads of all wait lists. -/
def Ke.waitHeads (k : Ke τ ο) (o : ο) : ListHead τ := (k.header o).WaitListHead

/-- The threads that wait for an object, as `LIST_FOREACH` visits them. -/
def waitQueue (o : ο) (k : Ke τ ο) : List τ :=
  listElements (waitLinks τ ο) k.waitBlock (k.header o).WaitListHead

/-- **The invariant of the wait lists.** The lists represent the sequences `w`, no wait block on
two of them; a thread on a list is waiting for that object; no thread has a list of wait blocks;
signal states are not negative, and a signalled object has no waiters. -/
structure KeInvariant (live : Finset τ) (k : Ke τ ο) (w : ο → List τ) : Prop where
  sched : SchedInvariant ⟨k.sched, live⟩ k.sched.dispatcher
  lists : IsFamily (waitLinks τ ο) Set.univ k.waitBlock k.waitHeads w
  waiter : ∀ o, ∀ t ∈ w o, t ∈ live ∧ (k.sched.tcb t).State = .WAITING
    ∧ (k.waitBlock t).Thread = some t ∧ (k.waitBlock t).Object = some o
    ∧ k.control t = .inWait o
  single : ∀ t ∈ live, listEmpty (k.WaitBlockList t) = true
  signal : ∀ o, 0 ≤ (k.header o).SignalState ∧ (0 < (k.header o).SignalState → w o = [])

variable {live : Finset τ} {k : Ke τ ο} {w : ο → List τ} {o : ο}

omit [DecidableEq ο] in
/-- The sequence of a wait list is the one that `LIST_FOREACH` visits. -/
theorem KeInvariant.waitQueue_eq (h : KeInvariant live k w) (o : ο) : waitQueue o k = w o :=
  (h.lists.each o).listElements_eq

omit [DecidableEq ο] in
/-- The current thread is running. -/
theorem KeInvariant.current_state (h : KeInvariant live k w) :
    (k.sched.tcb k.sched.CurrentThread).State = .RUNNING :=
  h.sched.current_state

omit [DecidableEq ο] in
/-- The current thread exists. -/
theorem KeInvariant.current_live (h : KeInvariant live k w) : k.sched.CurrentThread ∈ live :=
  h.sched.running.1

omit [DecidableEq ο] in
/-- The current thread is on no wait list. -/
theorem KeInvariant.current_not_mem (h : KeInvariant live k w) (o : ο) :
    k.sched.CurrentThread ∉ w o := by
  intro hc
  have hw := (h.waiter o _ hc).2.1
  rw [h.current_state] at hw
  cases hw

omit [DecidableEq ο] in
/-- Recording what the running thread is in the middle of. -/
theorem KeInvariant.setControl (h : KeInvariant live k w) (c : KeControl ο) :
    KeInvariant live (k.setControl k.sched.CurrentThread c) w := by
  refine ⟨h.sched, h.lists, ?_, h.single, h.signal⟩
  intro o t ht
  obtain ⟨hl, hs, hthread, hobject, hcontrol⟩ := h.waiter o t ht
  have htc : t ≠ k.sched.CurrentThread := fun e => h.current_not_mem o (e ▸ ht)
  refine ⟨hl, hs, hthread, hobject, ?_⟩
  simpa [Ke.setControl, htc] using hcontrol

omit [DecidableEq ο] in
/-- Storing an owner. -/
theorem KeInvariant.setOwner (h : KeInvariant live k w) (owner : ο → Option τ) :
    KeInvariant live { k with OwnerThread := owner } w :=
  ⟨h.sched, h.lists, h.waiter, h.single, h.signal⟩

/-- **The resumption of a thread**: one that was blocked in a wait leaves it, and owns the object if
that is a mutant; otherwise nothing happens. -/
theorem keResume_cases (k : Ke τ ο) :
    (keResume k = k ∧ ∀ i, k.control k.sched.CurrentThread ≠ .inWait i)
    ∨ ∃ i owner, k.control k.sched.CurrentThread = .inWait i
      ∧ keResume k = { k.setControl k.sched.CurrentThread .outside with OwnerThread := owner }
      ∧ ∀ j, j ≠ i → owner j = k.OwnerThread j := by
  cases hc : k.control k.sched.CurrentThread with
  | outside => exact Or.inl ⟨by simp [keResume, hc], by simp⟩
  | inReleaseMutant i => exact Or.inl ⟨by simp [keResume, hc], by simp⟩
  | inWait i =>
    refine Or.inr ⟨i, (keResume k).OwnerThread, rfl, ?_, fun j hj => ?_⟩
    · by_cases htype : (k.header i).type = .MutantObject
      · simp [keResume, hc, Ke.setControl, htype]
      · simp [keResume, hc, Ke.setControl, htype]
    · by_cases htype : (k.header i).type = .MutantObject
      · simp [keResume, hc, Ke.setControl, htype, hj]
      · simp [keResume, hc, Ke.setControl, htype]

/-- The resumption of a thread keeps the invariant. -/
theorem KeInvariant.resume (h : KeInvariant live k w) : KeInvariant live (keResume k) w := by
  rcases keResume_cases k with ⟨heq, -⟩ | ⟨i, owner, -, heq, -⟩
  · rw [heq]
    exact h
  · rw [heq]
    exact (h.setControl .outside).setOwner owner

/-- The resumption of a thread keeps the scheduler, the headers and the limits. -/
theorem keResume_frame (k : Ke τ ο) : (keResume k).sched = k.sched
    ∧ (keResume k).header = k.header ∧ (keResume k).Limit = k.Limit := by
  rcases keResume_cases k with ⟨heq, -⟩ | ⟨i, owner, -, heq, -⟩
  · rw [heq]
    exact ⟨rfl, rfl, rfl⟩
  · rw [heq]
    exact ⟨rfl, rfl, rfl⟩

/-- Storing a signal state that is not negative, and zero when there are waiters. -/
theorem KeInvariant.setSignal (h : KeInvariant live k w) {x : Int} (hx : 0 ≤ x)
    (hw : 0 < x → w o = []) : KeInvariant live (k.setSignal o x) w := by
  refine ⟨h.sched, ⟨fun i => ?_, h.lists.disjoint⟩, h.waiter, h.single, fun i => ?_⟩
  · have hhead : (k.setSignal o x).waitHeads i = k.waitHeads i := by
      by_cases hi : i = o
      · subst hi
        simp [Ke.waitHeads, Ke.setSignal, Ke.setHeader]
      · simp [Ke.waitHeads, Ke.setSignal, Ke.setHeader, hi]
    rw [hhead]
    exact h.lists.each i
  · by_cases hi : i = o
    · subst hi
      simpa [Ke.setSignal, Ke.setHeader] using ⟨hx, hw⟩
    · simpa [Ke.setSignal, Ke.setHeader, hi] using h.signal i

omit [DecidableEq τ] in
/-- The heads after one wait list has been stored back. -/
theorem waitHeads_setWaitList (k : Ke τ ο) (o : ο) (head : ListHead τ)
    (blocks : τ → KWAIT_BLOCK τ ο) :
    (k.setWaitList o head blocks).waitHeads = Function.update k.waitHeads o head := by
  funext i
  by_cases hi : i = o
  · subst hi
    simp [Ke.waitHeads, Ke.setWaitList, Ke.setHeader]
  · simp [Ke.waitHeads, Ke.setWaitList, Ke.setHeader, hi]

omit [DecidableEq τ] in
/-- The signal states are not touched by storing back a wait list. -/
theorem signal_setWaitList (k : Ke τ ο) (o i : ο) (head : ListHead τ)
    (blocks : τ → KWAIT_BLOCK τ ο) :
    ((k.setWaitList o head blocks).header i).SignalState = (k.header i).SignalState := by
  by_cases hi : i = o
  · subst hi
    simp [Ke.setWaitList, Ke.setHeader]
  · simp [Ke.setWaitList, Ke.setHeader, hi]

omit [DecidableEq τ] in
/-- The types are not touched by storing back a wait list. -/
theorem type_setWaitList (k : Ke τ ο) (o i : ο) (head : ListHead τ)
    (blocks : τ → KWAIT_BLOCK τ ο) :
    ((k.setWaitList o head blocks).header i).type = (k.header i).type := by
  by_cases hi : i = o
  · subst hi
    simp [Ke.setWaitList, Ke.setHeader]
  · simp [Ke.setWaitList, Ke.setHeader, hi]

omit [DecidableEq ο] in
/-- Link edits keep the thread and the object of every wait block. -/
theorem waitBlock_of_edits {T : Set τ} {blocks blocks' : τ → KWAIT_BLOCK τ ο}
    (h : Edits (waitLinks τ ο) T blocks blocks') (t : τ) :
    (blocks' t).Thread = (blocks t).Thread ∧ (blocks' t).Object = (blocks t).Object := by
  have hset := congrArg (fun b : KWAIT_BLOCK τ ο => (b.Thread, b.Object))
    (EntryField.set_eq_of_edits h t ⟨none, none⟩)
  exact Prod.mk.inj hset

/-! ## Steps of the scheduler -/

omit [DecidableEq ο] in
/-- **A background step of the scheduler leaves the wait lists alone.** A new thread starts outside
the routines of `wait.c` and without wait blocks. -/
theorem KeInvariant.background (h : KeInvariant live k w) {e : SchedEvent τ} {sched : Sched τ}
    (he : e.Enabled ⟨k.sched, live⟩) (hb : e.Background)
    (hrun : schedStep e k.sched = .ok sched) {k' : Ke τ ο} (hsched : k'.sched = sched)
    (hblock : k'.waitBlock = k.waitBlock) (hheader : k'.header = k.header)
    (hcontrol : ∀ t ∈ live, k'.control t = k.control t)
    (hlist : ∀ t ∈ e.liveAfter live, listEmpty (k'.WaitBlockList t) = true) :
    KeInvariant (e.liveAfter live) k' w := by
  rcases schedStep_spec h.sched he with ⟨-, -, err, herr⟩ | ⟨s', hok, hinv⟩
  · rw [hrun] at herr
    cases herr
  · rw [hrun] at hok
    obtain rfl := Except.ok.inj hok
    have heq := hinv.rep.eq_dispatcher
    subst hsched
    refine ⟨heq ▸ hinv, ?_, ?_, hlist, ?_⟩
    · have hheads : k'.waitHeads = k.waitHeads := by
        funext i
        simp only [Ke.waitHeads, hheader]
      rw [hheads, hblock]
      exact h.lists
    · intro o t ht
      obtain ⟨hl, hs, hthread, hobject, hctl⟩ := h.waiter o t ht
      have hs' := Dispatcher.step_state_of_waiting h.sched he hb hl hs
      have hl' : t ∈ e.liveAfter live := by
        cases e with
        | create i p process => exact Finset.mem_insert_of_mem hl
        | free i =>
          refine Finset.mem_erase.mpr ⟨?_, hl⟩
          rintro rfl
          have hterm : (k.sched.tcb t).State = .TERMINATED := he.2.1
          rw [hs] at hterm
          cases hterm
        | ready _ | schedule | exit _ | block | setPriority _ _ | reap => exact hl
      refine ⟨hl', ?_, ?_, ?_, ?_⟩
      · exact (hinv.rep.state t).trans hs'
      · rw [hblock]; exact hthread
      · rw [hblock]; exact hobject
      · rw [hcontrol t hl]; exact hctl
    · rw [hheader]
      exact h.signal

/-! ## Acquiring and releasing -/

/-- A wait for a signalled object takes one unit. -/
theorem kiDHeaderAcquire_of_pos (hs : 0 < (k.header o).SignalState) :
    kiDHeaderAcquire o k = .ok (.acquired, k.setSignal o ((k.header o).SignalState - 1)) := by
  rw [kiDHeaderAcquire, if_neg (ne_of_gt hs), assert_of_true hs, kernel_ok_bind]
  rfl

/-- **A wait for a signalled object** keeps the invariant. -/
theorem KeInvariant.take (h : KeInvariant live k w) (hs : 0 < (k.header o).SignalState) :
    KeInvariant live (k.setSignal o ((k.header o).SignalState - 1)) w :=
  h.setSignal (by omega) fun _ => (h.signal o).2 hs

omit [DecidableEq ο] in
/-- The wait block of the current thread is on no list, so no list sees it being filled in. -/
theorem KeInvariant.initWaitBlock (h : KeInvariant live k w) (o : ο) :
    IsFamily (waitLinks τ ο) Set.univ (kiInitWaitBlock o k).waitBlock
      (kiInitWaitBlock o k).waitHeads w := by
  refine ⟨fun i => ?_, h.lists.disjoint⟩
  have hlist := h.lists.each i
  have hne : ∀ c ∈ w i, c ≠ k.sched.CurrentThread := fun c hc =>
    ne_of_mem_of_not_mem hc (h.current_not_mem i)
  refine ⟨hlist.ring.congr ?_ ?_, hlist.first, hlist.count, hlist.nodup, hlist.mem⟩
  · intro c hc
    have hct := hne c hc
    simp [kiInitWaitBlock, EntryField.links, hct]
  · intro c hc
    have hct := hne c hc
    simp [kiInitWaitBlock, EntryField.links, hct]

/-- **A wait for an object that is not signalled** puts the current thread at the end of the wait
list and blocks it, or bugchecks when no other thread is ready. -/
theorem kiDHeaderAcquire_block_spec (h : KeInvariant live k w)
    (hs : (k.header o).SignalState = 0) :
    (∃ e, kiDHeaderAcquire o k = .error e)
    ∨ ∃ k', kiDHeaderAcquire o k = .ok (.blocked, k')
      ∧ KeInvariant live k' (Function.update w o (w o ++ [k.sched.CurrentThread]))
      ∧ (∀ i, (k'.header i).SignalState = (k.header i).SignalState
        ∧ (k'.header i).type = (k.header i).type)
      ∧ k'.Limit = k.Limit ∧ k'.OwnerThread = k.OwnerThread
      ∧ k'.control = Function.update k.control k.sched.CurrentThread (.inWait o) := by
  let t := k.sched.CurrentThread
  let k₁ := kiInitWaitBlock o k
  have htl : t ∈ live := h.current_live
  obtain ⟨head, blocks, hins, hlists, hedits⟩ :=
    (h.initWaitBlock o).insertTail (EntryField.links_lawful _) o (fun i => h.current_not_mem i) trivial
  let k₂ := (k₁.setWaitList o head blocks).setControl t (.inWait o)
  have hrun : kiDHeaderAcquire o k = (do
      let sched ← kiBlockThread k.sched
      return (.blocked, { k₂ with sched })) := by
    have hins' : listInsertTail (waitLinks τ ο) (k₁.header o).WaitListHead t k₁.waitBlock
        = .ok (head, blocks) := hins
    rw [kiDHeaderAcquire, if_pos hs]
    show (listInsertTail (waitLinks τ ο) (k₁.header o).WaitListHead t k₁.waitBlock >>= _) = _
    rw [hins', kernel_ok_bind]
    rfl
  rcases schedStep_spec h.sched (e := .block) trivial with ⟨-, -, err, herr⟩ | ⟨s', hok, hinv⟩
  · refine Or.inl ⟨err, ?_⟩
    have herr' : kiBlockThread k.sched = .error err := herr
    rw [hrun, herr']
    rfl
  · refine Or.inr ⟨{ k₂ with sched := s' }, ?_, ?_, ?_, rfl, rfl, rfl⟩
    · have hok' : kiBlockThread k.sched = .ok s' := hok
      rw [hrun, hok']
      rfl
    · have heq := hinv.rep.eq_dispatcher
      have hstate : ∀ i, (i = t ∨ (k.sched.tcb i).State = .WAITING) →
          (s'.tcb i).State = .WAITING := by
        intro i hi
        rcases kiBlockThread_spec h.sched.rep h.sched.queued h.sched.running with
          ⟨-, err, herr⟩ | ⟨⟨p, j, hj⟩, -⟩
        · have hok' : kiBlockThread k.sched = .ok s' := hok
          rw [herr] at hok'
          cases hok'
        · exact (hinv.rep.state i).trans
            (Dispatcher.block_state_of_waiting h.sched.queued h.sched.current_state hj hi)
      have hblocks : ∀ i, (blocks i).Thread = (k₁.waitBlock i).Thread
          ∧ (blocks i).Object = (k₁.waitBlock i).Object := fun i => waitBlock_of_edits hedits i
      refine ⟨heq ▸ hinv, ?_, ?_, h.single, ?_⟩
      · have hheads : (Ke.waitHeads { k₂ with sched := s' } : ο → ListHead τ)
            = Function.update k₁.waitHeads o head := waitHeads_setWaitList k₁ o head blocks
        rw [hheads]
        exact hlists
      · intro i c hc
        have hcase : c ∈ w i ∨ c = t ∧ i = o := by
          by_cases hi : i = o
          · subst hi
            rw [Function.update_self] at hc
            rcases List.mem_append.mp hc with hc | hc
            · exact Or.inl hc
            · exact Or.inr ⟨List.mem_singleton.mp hc, rfl⟩
          · rw [Function.update_of_ne hi] at hc
            exact Or.inl hc
        rcases hcase with hc | ⟨rfl, rfl⟩
        · obtain ⟨hl, hst, hthread, hobject, hctl⟩ := h.waiter i c hc
          have hct : c ≠ k.sched.CurrentThread := fun e => h.current_not_mem i (e ▸ hc)
          refine ⟨hl, hstate c (Or.inr hst), ?_, ?_, ?_⟩
          · rw [show (Ke.waitBlock { k₂ with sched := s' } c) = blocks c from rfl, (hblocks c).1]
            simpa [k₁, kiInitWaitBlock, hct] using hthread
          · rw [show (Ke.waitBlock { k₂ with sched := s' } c) = blocks c from rfl, (hblocks c).2]
            simpa [k₁, kiInitWaitBlock, hct] using hobject
          · have hct' : c ≠ t := hct
            show Function.update k.control t _ c = _
            rw [Function.update_of_ne hct']
            exact hctl
        · refine ⟨htl, hstate _ (Or.inl rfl), ?_, ?_, ?_⟩
          · rw [show (Ke.waitBlock { k₂ with sched := s' } t) = blocks t from rfl, (hblocks t).1]
            simp [k₁, kiInitWaitBlock, t]
          · rw [show (Ke.waitBlock { k₂ with sched := s' } t) = blocks t from rfl, (hblocks t).2]
            simp [k₁, kiInitWaitBlock, t]
          · show Function.update k.control t _ t = _
            rw [Function.update_self]
      · intro i
        have hsig : (Ke.header { k₂ with sched := s' } i).SignalState
            = (k.header i).SignalState := signal_setWaitList k₁ o i head blocks
        rw [hsig]
        refine ⟨(h.signal i).1, fun hpos => ?_⟩
        have hio : i ≠ o := by
          rintro rfl
          omega
        rw [Function.update_of_ne hio]
        exact (h.signal i).2 hpos
    · exact fun i => ⟨signal_setWaitList k₁ o i head blocks, type_setWaitList k₁ o i head blocks⟩

/-- **A release of an object without waiters** stores the unit. -/
theorem kiDHeaderRelease_store_spec (h : KeInvariant live k w) (hw : w o = [])
    (hs : (k.header o).SignalState < MAX_DISPATCH_SIGNAL_STATE) :
    kiDHeaderRelease o k = .ok (none, k.setSignal o ((k.header o).SignalState + 1))
      ∧ KeInvariant live (k.setSignal o ((k.header o).SignalState + 1)) w := by
  have hempty : listEmpty (k.header o).WaitListHead = true :=
    (h.lists.each o).listEmpty_iff.mpr hw
  have hnonneg := (h.signal o).1
  refine ⟨?_, h.setSignal (by omega) fun _ => hw⟩
  rw [kiDHeaderRelease, assert_of_true hs, kernel_ok_bind, assert_of_true (Or.inr hempty),
    kernel_ok_bind, if_pos hempty]
  rfl

omit [DecidableEq ο] in
/-- A signalled object has no waiters, so one with waiters is not signalled. -/
theorem KeInvariant.signal_eq_zero (h : KeInvariant live k w) (hw : w o ≠ []) :
    (k.header o).SignalState = 0 := by
  have hnonneg := (h.signal o).1
  by_contra hne
  exact hw ((h.signal o).2 (by omega))

/-- **The first waiter is taken off the list and made ready**: what the stores do to it that release
one waiter or all of them. -/
theorem KeInvariant.wakeFirst (h : KeInvariant live k w) {x : τ} {rest : List τ}
    (hw : w o = x :: rest) :
    ∃ head blocks sched,
      listRemoveHead (waitLinks τ ο) (k.header o).WaitListHead k.waitBlock
        = .ok (some x, head, blocks)
      ∧ (blocks x).Thread = some x ∧ (blocks x).Object = some o
      ∧ listEmpty (k.WaitBlockList x) = true
      ∧ kiReadyThread x k.sched = .ok sched
      ∧ KeInvariant live { k.setWaitList o head blocks with sched } (Function.update w o rest)
      ∧ (sched.tcb x).State = .READY
      ∧ (∀ i, i ≠ x → (k.sched.tcb i).State = .READY → (sched.tcb i).State = .READY)
      ∧ sched.CurrentThread = k.sched.CurrentThread := by
  have hzero := h.signal_eq_zero (o := o) (by rw [hw]; exact List.cons_ne_nil x rest)
  have hxo : x ∈ w o := by simp [hw]
  obtain ⟨hxl, hxs, hxt, hxobj, hxc⟩ := h.waiter o x hxo
  obtain ⟨head, blocks, hrem, hlists, hedits⟩ :=
    h.lists.removeHead (EntryField.links_lawful _) o
  rw [hw, List.head?_cons] at hrem
  rw [hw, List.tail_cons] at hlists
  have hblocks := fun i => waitBlock_of_edits hedits i
  rcases schedStep_spec h.sched (e := .ready x) ⟨hxl, hxs⟩ with ⟨hg, -⟩ | ⟨s', hok, hinv⟩
  · exact absurd hg id
  · have heq := hinv.rep.eq_dispatcher
    have hother : ∀ i, i ≠ x → (s'.tcb i).State = (k.sched.tcb i).State := by
      intro i hi
      refine (hinv.rep.state i).trans ?_
      show (k.sched.dispatcher.makeReady x).state i = _
      rw [Dispatcher.makeReady_state, if_neg hi]
      rfl
    refine ⟨head, blocks, s', hrem, (hblocks x).1.trans hxt, (hblocks x).2.trans hxobj,
      h.single x hxl, hok, ?_, ?_, fun i hi hready => (hother i hi).trans hready, hinv.rep.current⟩
    · refine ⟨heq ▸ hinv, ?_, ?_, h.single, ?_⟩
      · have hheads : (Ke.waitHeads { k.setWaitList o head blocks with sched := s' } : ο → ListHead τ)
            = Function.update k.waitHeads o head := waitHeads_setWaitList k o head blocks
        rw [hheads]
        exact hlists
      · intro i c hc
        have hcw : c ∈ w i := by
          by_cases hi : i = o
          · subst hi
            rw [Function.update_self] at hc
            simp [hw, hc]
          · rwa [Function.update_of_ne hi] at hc
        have hcx : c ≠ x := by
          rintro rfl
          by_cases hi : i = o
          · subst hi
            rw [Function.update_self] at hc
            have hnd := (h.lists.each i).nodup
            rw [hw] at hnd
            exact (List.nodup_cons.mp hnd).1 hc
          · exact h.lists.disjoint i o hi c hcw hxo
        obtain ⟨hl, hst, hthread, hobject, hctl⟩ := h.waiter i c hcw
        exact ⟨hl, (hother c hcx).trans hst, (hblocks c).1.trans hthread,
          (hblocks c).2.trans hobject, hctl⟩
      · intro i
        have hsig : (Ke.header { k.setWaitList o head blocks with sched := s' } i).SignalState
            = (k.header i).SignalState := signal_setWaitList k o i head blocks
        rw [hsig]
        refine ⟨(h.signal i).1, fun hpos => ?_⟩
        have hio : i ≠ o := by
          rintro rfl
          omega
        rw [Function.update_of_ne hio]
        exact (h.signal i).2 hpos
    · have hs' : (k.sched.dispatcher.makeReady x).state x = .READY := by
        rw [Dispatcher.makeReady_state, if_pos rfl]
      exact (hinv.rep.state x).trans hs'

/-- **A release of an object with waiters** hands the unit to the first of them and makes it
ready. -/
theorem kiDHeaderRelease_handoff_spec (h : KeInvariant live k w) {x : τ} {rest : List τ}
    (hw : w o = x :: rest) :
    ∃ k', kiDHeaderRelease o k = .ok (some x, k')
      ∧ KeInvariant live k' (Function.update w o rest)
      ∧ (k'.sched.tcb x).State = .READY
      ∧ k'.sched.CurrentThread = k.sched.CurrentThread
      ∧ (∀ i, (k'.header i).SignalState = (k.header i).SignalState
        ∧ (k'.header i).type = (k.header i).type)
      ∧ k'.Limit = k.Limit ∧ k'.OwnerThread = k.OwnerThread ∧ k'.control = k.control := by
  have hzero := h.signal_eq_zero (o := o) (by rw [hw]; exact List.cons_ne_nil x rest)
  have hlt : (k.header o).SignalState < MAX_DISPATCH_SIGNAL_STATE := by
    rw [hzero]
    decide
  have hempty : ¬ listEmpty (k.header o).WaitListHead = true := by
    intro he
    rw [(h.lists.each o).listEmpty_iff.mp he] at hw
    cases hw
  obtain ⟨head, blocks, sched, hrem, hthread, hobject, hsingle, hready, hinv, hstate, -, hcurrent⟩ :=
    h.wakeFirst hw
  let k₁ := k.setWaitList o head blocks
  refine ⟨{ k₁ with sched }, ?_, hinv, hstate, hcurrent, ?_, rfl, rfl, rfl⟩
  · have hobj₁ : (k₁.waitBlock x).Object = some o := hobject
    have hthr₁ : (k₁.waitBlock x).Thread = some x := hthread
    have hsingle₁ : listEmpty (k₁.WaitBlockList x) = true := hsingle
    rw [kiDHeaderRelease, assert_of_true hlt, kernel_ok_bind, assert_of_true (Or.inl hzero),
      kernel_ok_bind, if_neg hempty, hrem, kernel_ok_bind]
    show (do
      let block ← deref (some x)
      assert ((k₁.waitBlock block).Object = some o) "WaitBlock->Object == Dispatcher"
      let thread ← deref (k₁.waitBlock block).Thread
      if listEmpty (k₁.WaitBlockList thread) then do
        let sched ← kiReadyThread thread k₁.sched
        return (some thread, { k₁ with sched })
      else do
        let k ← releaseMultiple thread block k₁
        return (some thread, k) : Kernel (Option τ × Ke τ ο)) = _
    rw [deref_some, kernel_ok_bind, assert_of_true hobj₁, kernel_ok_bind, hthr₁, deref_some,
      kernel_ok_bind, if_pos hsingle₁]
    show (do
      let sched ← kiReadyThread x k.sched
      return (some x, { k₁ with sched }) : Kernel (Option τ × Ke τ ο)) = _
    rw [hready]
    rfl
  · exact fun i => ⟨signal_setWaitList k o i head blocks, type_setWaitList k o i head blocks⟩

end KaushOS
