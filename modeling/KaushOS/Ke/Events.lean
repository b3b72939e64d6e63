import KaushOS.Ke.SignalLists

/-! # Synchronization events

An event that resets itself, as it is meant to be, and `KeSetEvent`, `KeResetEvent` and
`KeWaitForSingleObject` as they are.

* **`AutoReset`** — the event in the abstract: a flag, and the threads that wait, in order.
* **`KeepsEvent`** — a run that does to the event what the calls mean.
* **`keepsEvent_iff`** — the runs that do: those in which every `KeSetEvent` finds a waiting thread.
* **`keepsEvent_fails`** — the signal of an event for which nobody waits yet is lost. -/

namespace KaushOS

open CircularList Transition

variable {τ ο : Type} [DecidableEq τ] [DecidableEq ο]

/-! ## The abstract event -/

/-- **An event that resets itself**: whether it is signalled, and the threads that wait for it, the
one that has waited longest first. -/
structure AutoReset (τ : Type) where
  signalled : Bool
  waiting : List τ
  deriving DecidableEq, Repr

namespace AutoReset

/-- The calls that an event gets. -/
inductive Call (τ : Type)
  | set
  | reset
  | wait (t : τ)
  deriving DecidableEq, Repr

/-- An event as it is created. -/
def start (τ : Type) (state : Bool) : AutoReset τ := ⟨state, []⟩

/-- **What a call does.** A set wakes the first thread, or leaves the event signalled; a wait takes
the signal, or joins the queue. -/
def after (s : AutoReset τ) : Call τ → AutoReset τ
  | .set =>
    match s.waiting with
    | [] => ⟨true, []⟩
    | _ :: rest => ⟨s.signalled, rest⟩
  | .reset => ⟨false, s.waiting⟩
  | .wait t => if s.signalled then ⟨false, s.waiting⟩ else ⟨false, s.waiting ++ [t]⟩

/-- The thread that a call wakes. -/
def wakes (s : AutoReset τ) : Call τ → List τ
  | .set => s.waiting.take 1
  | _ => []

/-- The thread that a call blocks. -/
def blocks (s : AutoReset τ) : Call τ → List τ
  | .wait t => if s.signalled then [] else [t]
  | _ => []

/-- The event after some calls, the last one first. -/
def run (s : AutoReset τ) (calls : List (Call τ)) : AutoReset τ :=
  calls.foldr (fun call s => s.after call) s

/-- The threads woken by some calls, in order. -/
def woken (s : AutoReset τ) : List (Call τ) → List τ
  | [] => []
  | call :: calls => woken s calls ++ (s.run calls).wakes call

/-- The threads blocked by some calls, in order. -/
def blocked (s : AutoReset τ) : List (Call τ) → List τ
  | [] => []
  | call :: calls => blocked s calls ++ (s.run calls).blocks call

omit [DecidableEq τ] in
/-- One call moves threads from the front of the queue and to its end. -/
theorem after_waiting (s : AutoReset τ) (call : Call τ) :
    s.waiting ++ s.blocks call = s.wakes call ++ (s.after call).waiting := by
  cases call with
  | set =>
    cases hw : s.waiting with
    | nil => simp [blocks, wakes, after, hw]
    | cons x rest => simp [blocks, wakes, after, hw]
  | reset => simp [blocks, wakes, after]
  | wait t =>
    cases hs : s.signalled with
    | true => simp [blocks, wakes, after, hs]
    | false => simp [blocks, wakes, after, hs]

omit [DecidableEq τ] in
/-- **Threads are woken in the order in which they blocked.** -/
theorem blocked_eq (s : AutoReset τ) (calls : List (Call τ)) :
    s.waiting ++ s.blocked calls = s.woken calls ++ (s.run calls).waiting := by
  induction calls with
  | nil => simp [blocked, woken, run]
  | cons call calls ih =>
    calc s.waiting ++ s.blocked (call :: calls)
        = (s.waiting ++ s.blocked calls) ++ (s.run calls).blocks call := by
          rw [blocked, List.append_assoc]
      _ = s.woken calls ++ ((s.run calls).waiting ++ (s.run calls).blocks call) := by
          rw [ih, List.append_assoc]
      _ = s.woken calls ++ ((s.run calls).wakes call ++ ((s.run calls).after call).waiting) := by
          rw [after_waiting]
      _ = s.woken (call :: calls) ++ (s.run (call :: calls)).waiting := by
          rw [woken, ← List.append_assoc]
          rfl

end AutoReset

/-! ## Calls of a run -/

/-- The event `o` in the abstract. -/
def eventState (o : ο) (k : Ke τ ο) : AutoReset τ where
  signalled := decide (0 < (k.header o).SignalState)
  waiting := waitQueue o k

/-- The call that a step is for the event `o`. -/
def eventCall (o : ο) (l : SignalEvent τ ο × SignalMachine τ ο) : Option (AutoReset.Call τ) :=
  match l.1 with
  | .setEvent i => if i = o then some .set else none
  | .resetEvent i | .clearEvent i => if i = o then some .reset else none
  | .wait i => if i = o then some (.wait l.2.current) else none
  | _ => none

/-- The calls of a run for the event `o`, the last one first. -/
def eventCalls (o : ο) (tr : List (SignalEvent τ ο × SignalMachine τ ο)) :
    List (AutoReset.Call τ) :=
  tr.filterMap (eventCall o)

/-- **What a call returns and does to the threads.** A set makes the first waiter ready and touches
no other queue, and returns whether the event was signalled; a wait for a signalled event returns at
once. -/
def Answers (o : ο) (l : SignalEvent τ ο × SignalMachine τ ο) : Prop :=
  (l.1 = .setEvent o → ∃ state k, keSetEvent o l.2.ke = .ok (state, k)
    ∧ eventState o k = (eventState o l.2.ke).after .set
    ∧ (∀ x, (waitQueue o l.2.ke).head? = some x → (k.sched.tcb x).State = .READY)
    ∧ (∀ i, i ≠ o → waitQueue i k = waitQueue i l.2.ke)
    ∧ (state ≠ 0 ↔ 0 < (l.2.ke.header o).SignalState))
  ∧ (l.1 = .wait o → 0 < (l.2.ke.header o).SignalState →
    ∃ k, keWaitForSingleObject o l.2.ke = .ok (.acquired, k)
      ∧ eventState o k = (eventState o l.2.ke).after (.wait l.2.current))

/-- **A run that does to the event `o` what the calls mean**: every call answers as it should, the
event is in the state that the calls lead to, and threads are woken in the order in which they
blocked. -/
def KeepsEvent (o : ο) (state : Bool) (tr : List (SignalEvent τ ο × SignalMachine τ ο))
    (m : SignalMachine τ ο) : Prop :=
  (∀ l ∈ tr, Answers o l)
  ∧ eventState o m.ke = (AutoReset.start τ state).run (eventCalls o tr)
  ∧ (AutoReset.start τ state).blocked (eventCalls o tr)
    = (AutoReset.start τ state).woken (eventCalls o tr) ++ waitQueue o m.ke

/-! ## One step -/

section Step

variable {live : Finset τ} {k k' : Ke τ ο} {w : ο → List τ} {o : ο} {setup : ο → SignalSetup}
  {m m' : SignalMachine τ ο} {e : SignalEvent τ ο} {state : Bool}
  {tr : List (SignalEvent τ ο × SignalMachine τ ο)}

/-- **A synchronization event between two calls**: its signal state is 0 or 1. -/
structure EventInvariant (o : ο) (m : SignalMachine τ ο) : Prop where
  lists : SignalLists m.live m.ke (waitQueues m.ke)
  type : (m.ke.header o).type = .EventSynchronizationObject
  signal : (m.ke.header o).SignalState = 0 ∨ (m.ke.header o).SignalState = 1

omit [DecidableEq τ] [DecidableEq ο] in
/-- Two states with the same flag and the same queue. -/
theorem eventState_eq {s : AutoReset τ} [DecidableEq τ]
    (hs : s.signalled = decide (0 < (k.header o).SignalState)) (hw : s.waiting = waitQueue o k) :
    eventState o k = s := by
  obtain ⟨signalled, waiting⟩ := s
  obtain rfl : signalled = _ := hs
  obtain rfl : waiting = _ := hw
  rfl

/-- **A set that finds a waiting thread** wakes it, and returns 0. -/
theorem EventInvariant.set (h : EventInvariant o m) (hw : waitQueue o m.ke ≠ []) {returned : Int}
    (hrun : keSetEvent o m.ke = .ok (returned, k)) :
    returned = 0 ∧ (m.ke.header o).SignalState = 0
      ∧ eventState o k = (eventState o m.ke).after .set
      ∧ (∀ x, (waitQueue o m.ke).head? = some x → (k.sched.tcb x).State = .READY)
      ∧ ∀ i, i ≠ o → waitQueue i k = waitQueue i m.ke := by
  have hzero : (m.ke.header o).SignalState = 0 := h.lists.signal_eq_zero hw
  have hsignal := (keSetEvent_signal hrun).signal o
  obtain ⟨w', hlists, hmoves⟩ := keSetEvent_moves h.lists hrun
  rcases hmoves with ⟨hkind, -⟩ | ⟨-, hw', hready⟩
  · rw [h.type] at hkind
    cases hkind
  · have hreturned : returned = 0 := by
      obtain ⟨_, -, hset⟩ := kernel_bind_eq_ok.mp hrun
      rw [if_neg (by rw [h.type]; decide)] at hset
      obtain ⟨⟨handed, k₁⟩, hrelease, hset⟩ := kernel_bind_eq_ok.mp hset
      obtain ⟨rfl, -⟩ := Prod.mk.inj (Except.ok.inj hset)
      rcases kiDHeaderRelease_signal hrelease with ⟨-, hsame⟩ | ⟨hempty, -⟩
      · exact (hsame.signal o).trans hzero
      · exact absurd (h.lists.listEmpty_iff.mp hempty) hw
    refine ⟨hreturned, hzero, ?_, hready, fun i hi => ?_⟩
    · obtain ⟨x, rest, hx⟩ := List.exists_cons_of_ne_nil hw
      have hrest : waitQueue o k = rest := by
        rw [hlists.waitQueue_eq, hw', Function.update_self]
        show (waitQueue o m.ke).tail = rest
        rw [hx, List.tail_cons]
      apply eventState_eq
      · simp [AutoReset.after, eventState, hx, hzero, hsignal]
      · simp [AutoReset.after, eventState, hx, hrest]
    · rw [hlists.waitQueue_eq, hw', Function.update_of_ne hi]
      rfl

/-- **A wait for a signalled event** returns at once, and the event is not signalled any more. -/
theorem EventInvariant.wait (h : EventInvariant o m) (hs : 0 < (m.ke.header o).SignalState) :
    ∃ k, keWaitForSingleObject o m.ke = .ok (.acquired, k)
      ∧ eventState o k = (eventState o m.ke).after (.wait m.current) := by
  have hone : (m.ke.header o).SignalState = 1 := by
    rcases h.signal with hzero | hone
    · omega
    · exact hone
  refine ⟨m.ke.setSignal o ((m.ke.header o).SignalState - 1), ?_, ?_⟩
  · rw [keWaitForSingleObject]
    simp only [h.type]
    exact kiDHeaderAcquire_of_pos hs
  · have hqueue : waitQueue o (m.ke.setSignal o ((m.ke.header o).SignalState - 1))
        = waitQueue o m.ke := (h.lists.take hs).waitQueue_eq o
    apply eventState_eq
    · simp [AutoReset.after, eventState, signal_setSignal, hone]
    · rw [hqueue]
      simp [AutoReset.after, eventState, hone]

/-- **A step does to the event what its call means**, when a set finds a waiting thread. -/
theorem EventInvariant.step (h : EventInvariant o m) (hen : e.Enabled setup m)
    (hrun : e.run m = .ok m') (hrelease : e ≠ .release o) (hnotification : e ≠ .releaseNotification o)
    (hsafe : e = .setEvent o → waitQueue o m.ke ≠ []) :
    eventState o m'.ke = match eventCall o (e, m) with
      | none => eventState o m.ke
      | some call => (eventState o m.ke).after call := by
  have heffect := SignalEvent.run_effect hrun
  obtain ⟨-, hmoves⟩ := SignalEvent.run_lists h.lists hen.scheduled hrun
  by_cases ho : e.object = some o
  · cases e with
    | sched _ | check _ => cases ho
    | wait i =>
      obtain rfl := Option.some.inj ho
      simp only [eventCall, if_true]
      rcases heffect with ⟨hzero, hs⟩ | ⟨hpos, hs⟩
      · rcases hmoves with ⟨-, hw⟩ | ⟨hpos, -⟩
        · have hqueue : waitQueue i m'.ke = waitQueue i m.ke ++ [m.current] := by
            show waitQueues m'.ke i = _
            rw [hw, Function.update_self]
            rfl
          apply eventState_eq
          · simp [AutoReset.after, eventState, hs.signal, hzero]
          · simp [AutoReset.after, eventState, hqueue, hzero]
        · omega
      · rcases hmoves with ⟨hzero, -⟩ | ⟨-, hw⟩
        · omega
        · have hone : (m.ke.header i).SignalState = 1 := by
            have hbit := h.signal
            omega
          have hqueue : waitQueue i m'.ke = waitQueue i m.ke := congrFun hw i
          apply eventState_eq
          · simp [AutoReset.after, eventState, hs.signal, hone]
          · simp [AutoReset.after, eventState, hqueue, hone]
    | release i => exact absurd (congrArg SignalEvent.release (Option.some.inj ho)) hrelease
    | setEvent i =>
      obtain rfl := Option.some.inj ho
      have hw := hsafe rfl
      have hzero : (m.ke.header i).SignalState = 0 := h.lists.signal_eq_zero hw
      simp only [eventCall, if_true]
      rcases hmoves with ⟨hkind, -⟩ | ⟨-, hw', -⟩
      · rw [h.type] at hkind
        cases hkind
      · obtain ⟨x, rest, hx⟩ := List.exists_cons_of_ne_nil hw
        have hqueue : waitQueue i m'.ke = rest := by
          show waitQueues m'.ke i = _
          rw [hw', Function.update_self]
          show (waitQueue i m.ke).tail = rest
          rw [hx, List.tail_cons]
        apply eventState_eq
        · simp [AutoReset.after, eventState, hx, heffect.signal, hzero]
        · simp [AutoReset.after, eventState, hx, hqueue]
    | resetEvent i | clearEvent i =>
      obtain rfl := Option.some.inj ho
      have hqueue : waitQueue i m'.ke = waitQueue i m.ke := congrFun hmoves i
      simp only [eventCall, if_true]
      apply eventState_eq
      · simp [AutoReset.after, heffect.signal]
      · simp [AutoReset.after, eventState, hqueue]
    | releaseNotification i =>
      exact absurd (congrArg SignalEvent.releaseNotification (Option.some.inj ho)) hnotification
  · obtain ⟨hs, hw⟩ := SignalEvent.run_frame h.lists hen hrun ho
    have hnone : eventCall o (e, m) = none := by
      cases e with
      | sched _ | check _ | release _ | releaseNotification _ => rfl
      | wait i | setEvent i | resetEvent i | clearEvent i =>
        have hi : i ≠ o := by
          rintro rfl
          exact ho rfl
        simp [eventCall, hi]
    rw [hnone]
    exact eventState_eq (by rw [hs]; rfl) hw.symm

/-- The signal state of an event is 0 or 1 after every step. -/
theorem EventInvariant.signal_step (h : EventInvariant o m) (hen : e.Enabled setup m)
    (hrun : e.run m = .ok m') (hrelease : e ≠ .release o) :
    EventInvariant o m' := by
  refine ⟨(SignalEvent.run_lists h.lists hen.scheduled hrun).1, (SignalEvent.run_type hrun o).trans h.type, ?_⟩
  have heffect := SignalEvent.run_effect hrun
  have hbit := h.signal
  by_cases ho : e.object = some o
  · cases e with
    | sched _ | check _ => cases ho
    | wait i =>
      obtain rfl := Option.some.inj ho
      rcases heffect with ⟨-, hs⟩ | ⟨hpos, hs⟩
      · rw [hs.signal i]
        exact hbit
      · left
        rw [hs.signal i, if_pos rfl]
        omega
    | release i => exact absurd (congrArg SignalEvent.release (Option.some.inj ho)) hrelease
    | setEvent i | resetEvent i | clearEvent i =>
      obtain rfl := Option.some.inj ho
      exact Or.inl ((heffect.signal i).trans (if_pos rfl))
    | releaseNotification i =>
      obtain rfl := Option.some.inj ho
      exact Or.inr ((heffect.signal i).trans (if_pos rfl))
  · rw [(SignalEvent.run_frame h.lists hen hrun ho).1]
    exact hbit

end Step

/-! ## Runs -/

section Runs

variable {o : ο} {setup : ο → SignalSetup} {m m' : SignalMachine τ ο} {e : SignalEvent τ ο}
  {state : Bool} {tr : List (SignalEvent τ ο × SignalMachine τ ο)}

/-- Nobody releases an event as a semaphore, or as the header of a thread or a process. -/
theorem event_not_released (hset : setup o = .event .SynchronizationEvent state)
    (h : (signalSystem setup).Run tr m) (hen : e.Enabled setup m) :
    e ≠ .release o ∧ e ≠ .releaseNotification o := by
  constructor
  · rintro rfl
    obtain ⟨-, hreleasing⟩ := hen
    obtain ⟨⟨i, old⟩, hold, hi⟩ := Option.map_eq_some_iff.mp hreleasing
    obtain rfl : i = o := hi
    have hkind := signalSystem_releasing h hold
    rw [hset] at hkind
    cases hkind
  · rintro rfl
    obtain ⟨-, -, hkind⟩ := hen
    rw [hset] at hkind
    cases hkind

/-- **The event in every run.** -/
theorem eventInvariant_run (hset : setup o = .event .SynchronizationEvent state)
    (h : (signalSystem setup).Run tr m) : EventInvariant o m := by
  refine h.invariant (I := fun _ m => EventInvariant o m) ?_ ?_
  · intro m hinit
    have hheader := SignalSetup.done_header (hinit.2.2.2 o)
    rw [hset] at hheader
    refine ⟨(signalSystem_invariant (.start hinit)).1, by rw [hheader]; rfl, ?_⟩
    rw [hheader]
    cases state with
    | true => exact Or.inr rfl
    | false => exact Or.inl rfl
  · rintro tr m ⟨e, m₀⟩ m' hrun hinv ⟨hm, hen, hstep⟩
    obtain rfl : m₀ = m := hm
    exact hinv.signal_step hen hstep (event_not_released hset hrun hen).1

/-- A call that is made as it should be answers as it should. -/
theorem answers_of_waiting (hset : setup o = .event .SynchronizationEvent state)
    (h : (signalSystem setup).Run tr m) (hrun : e.run m = .ok m')
    (hsafe : e = .setEvent o → waitQueue o m.ke ≠ []) : Answers o (e, m) := by
  have hinv := eventInvariant_run hset h
  constructor
  · intro he
    obtain rfl : e = .setEvent o := he
    obtain ⟨k, hruns, -⟩ := kernel_bind_eq_ok.mp hrun
    obtain ⟨⟨returned, k⟩, hrun, -⟩ := kernel_bind_eq_ok.mp hruns
    obtain ⟨rfl, hzero, hstate, hready, hother⟩ := hinv.set (hsafe rfl) hrun
    refine ⟨0, k, hrun, hstate, hready, hother, ?_⟩
    show (0 : Int) ≠ 0 ↔ 0 < (m.ke.header o).SignalState
    rw [hzero]
    simp
  · rintro - hs
    exact hinv.wait hs

/-- **A set for which nobody waits does not answer as it should**: the event is not signalled
afterwards. -/
theorem waiting_of_answers (h : Answers o (.setEvent o, m)) : waitQueue o m.ke ≠ [] := by
  intro hw
  obtain ⟨returned, k, hrun, hstate, -⟩ := h.1 rfl
  have hsignal := (keSetEvent_signal hrun).signal o
  have hflag := congrArg AutoReset.signalled hstate
  simp [eventState, AutoReset.after, hw, hsignal] at hflag

/-- **The signals that are kept**: a run does to a synchronization event what its calls mean exactly
when every set finds a waiting thread. -/
theorem keepsEvent_iff (hset : setup o = .event .SynchronizationEvent state)
    (h : (signalSystem setup).Run tr m) :
    KeepsEvent o state tr m ↔ ∀ l ∈ tr, l.1 = .setEvent o → waitQueue o l.2.ke ≠ [] := by
  constructor
  · rintro ⟨hanswers, -⟩ ⟨e, m₀⟩ hl he
    obtain rfl : e = .setEvent o := he
    exact waiting_of_answers (hanswers _ hl)
  · intro hsafe
    have hboth : (∀ l ∈ tr, l.1 = .setEvent o → waitQueue o l.2.ke ≠ []) →
        (∀ l ∈ tr, Answers o l)
          ∧ eventState o m.ke = (AutoReset.start τ state).run (eventCalls o tr) := by
      refine h.invariant (I := fun tr m =>
        (∀ l ∈ tr, l.1 = .setEvent o → waitQueue o l.2.ke ≠ []) → (∀ l ∈ tr, Answers o l)
          ∧ eventState o m.ke = (AutoReset.start τ state).run (eventCalls o tr)) ?_ ?_
      · intro m hinit _
        refine ⟨fun l hl => absurd hl List.not_mem_nil, ?_⟩
        have hqueue : waitQueue o m.ke = [] := (signalLists_init hinit).waitQueue_eq o
        have hheader := SignalSetup.done_header (hinit.2.2.2 o)
        rw [hset] at hheader
        apply eventState_eq
        · rw [hheader]
          cases state with
          | true => rfl
          | false => rfl
        · exact hqueue.symm
      · rintro tr m ⟨e, m₀⟩ m' hrun hinv ⟨hm, hen, hstep⟩ hsafe
        obtain rfl : m₀ = m := hm
        obtain ⟨hanswers, hstate⟩ := hinv fun l hl => hsafe l (List.mem_cons_of_mem _ hl)
        have hfirst : e = .setEvent o → waitQueue o m₀.ke ≠ [] := hsafe _ List.mem_cons_self
        constructor
        · intro l hl
          rcases List.mem_cons.mp hl with rfl | hl
          · exact answers_of_waiting hset hrun hstep hfirst
          · exact hanswers l hl
        · obtain ⟨hrelease, hnotification⟩ := event_not_released hset hrun hen
          rw [(eventInvariant_run hset hrun).step hen hstep hrelease hnotification hfirst, hstate]
          cases hcall : eventCall o (e, m₀) with
          | none => simp [eventCalls, hcall]
          | some call => simp [eventCalls, hcall, AutoReset.run]
    obtain ⟨hanswers, hstate⟩ := hboth hsafe
    refine ⟨hanswers, hstate, ?_⟩
    have horder := AutoReset.blocked_eq (AutoReset.start τ state) (eventCalls o tr)
    rw [← hstate] at horder
    exact horder

end Runs

/-- A thread waits, and another one sets the event. -/
theorem keepsEvent_iff_waiting : ∃ tr, ∃ m : SignalMachine Bool Unit,
    (signalSystem fun _ => .event .SynchronizationEvent false).Run tr m
      ∧ KeepsEvent () false tr m := by
  obtain ⟨tr, m, hrun, hwaiting⟩ := twoThreadsSignal_run (.event .SynchronizationEvent false)
    (by rintro _ _ ⟨⟩)
    [.wait (), .setEvent (), .sched .schedule]
    (fun tr _ => tr.all fun l => l.1 ≠ .setEvent () ∨ waitQueue () l.2.ke ≠ []) (by decide +kernel)
  refine ⟨tr, m, hrun, (keepsEvent_iff (o := ()) ?_ hrun).mpr fun l hl he => ?_⟩
  · rfl
  · have hl' := of_decide_eq_true (List.all_eq_true.mp hwaiting l hl)
    exact hl'.resolve_left fun hne => hne he

/-- The event is set while nobody waits, and is not signalled afterwards. -/
theorem keepsEvent_fails : ¬ ∀ (setup : Unit → SignalSetup) state tr (m : SignalMachine Bool Unit),
    setup () = .event .SynchronizationEvent state → (signalSystem setup).Run tr m →
    KeepsEvent () state tr m := by
  intro h
  obtain ⟨tr, m, hrun, hlost⟩ := twoThreadsSignal_run (.event .SynchronizationEvent false)
    (by rintro _ _ ⟨⟩)
    [.setEvent ()]
    (fun tr _ => tr.any fun l => l.1 = .setEvent () ∧ waitQueue () l.2.ke = []) (by decide +kernel)
  obtain ⟨⟨e, m₀⟩, hl, hempty⟩ := List.any_eq_true.mp hlost
  obtain ⟨he, hw⟩ := of_decide_eq_true hempty
  obtain rfl : e = .setEvent () := he
  exact waiting_of_answers ((h _ false tr m rfl hrun).1 _ hl) hw

end KaushOS
