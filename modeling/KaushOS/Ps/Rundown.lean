import KaushOS.Ps.MachineInvariant

/-! # Process rundown

`RundownProtect` counts what keeps a process: its threads and its child processes. The decrement that
brings it to 0 destroys the process, and possibly some of its ancestors with it.

* **`RundownCorrect`** — the counters are right, processes are destroyed by their last decrements, and
  only allocated processes are used.
* **`PsMachine.ClosesProtected`** — the process of the thread that is cleaned up next is protected by
  something else.
* **`rundown_correct_iff`** — the rundown of a run is correct exactly if that has been so for every
  thread cleaned up: `PsCloseThread` releases the lock of the process behind its last decrement. -/

namespace KaushOS

open CircularList Transition

variable {τ : Type} {boot idle t : τ} {sys p : UInt32} {m m' : PsMachine τ}

/-- The threads of a process: created, and not closed. -/
def Ps.threadsOf (s : Ps τ) (p : UInt32) : Finset τ :=
  s.threads.filter fun t => (s.ethread t).ThreadsProcess = p

/-- The child process objects of a process that have not been freed. -/
def Ps.childrenOf (s : Ps τ) (p : UInt32) : Finset UInt32 :=
  s.processes.filter fun c => (s.eprocess c).Parent = p

/-- **The rundown of processes is correct**: every counter is the number of threads and children, and
processes go in good order. -/
structure RundownCorrect (m : PsMachine τ) : Prop where
  protect : ∀ p ∈ m.ps.processes,
    (m.ps.eprocess p).RundownProtect = (m.ps.threadsOf p).card + (m.ps.childrenOf p).card
  tidy : Tidy m.ps.log

variable [DecidableEq τ]

/-- **The thread that is cleaned up next is not the last protection of its process.** -/
def PsMachine.ClosesProtected (m : PsMachine τ) : Prop :=
  ∀ t, (schedExited m.sched).head? = some t →
    (m.ps.eprocess (m.ps.ethread t).ThreadsProcess).RundownProtect ≠ 1

/-- **The counters are right** in every state that satisfies the invariant. -/
theorem PsMachine.Inv.protect (h : m.Inv boot idle sys) (hp : p ∈ m.ps.processes) :
    (m.ps.eprocess p).RundownProtect = (m.ps.threadsOf p).card + (m.ps.childrenOf p).card := by
  have hthreads : m.ps.openThreads p = m.ps.threadsOf p := by
    apply Finset.filter_congr
    exact fun t ht => and_iff_right (h.opened t ht).1
  have hchildren : m.ps.children p = m.ps.childrenOf p := by
    have halive : m.ps.alive = m.ps.processes :=
      Finset.Subset.antisymm (fun q => Ps.mem_processes_of_alive) h.alive
    rw [Ps.children, Ps.childrenOf, halive]
  rw [h.ps.protect p (h.alive p hp), hthreads, hchildren, noDebt]
  omega

/-! ## What the calls write to the log -/

/-- **Entries in good order**, apart from uses: each decrement to 0 destroys, without active threads,
and nothing else does. -/
structure DestroysLast (new : List (PsAction τ)) : Prop where
  destroyed : ∀ q, new.countP (PsAction.destroys q) = new.countP (PsAction.zeroes q)
  active : ∀ q n, .destroy q n ∈ new → n = 0

/-- All uses are of processes that are allocated. -/
def UsesAllocated (new : List (PsAction τ)) : Prop := ∀ q b, .use q b ∈ new → b = true

omit [DecidableEq τ] in
/-- Entries that are uses of allocated processes destroy nothing. -/
theorem OnlyUses.destroysLast {new : List (PsAction τ)} (h : OnlyUses new) : DestroysLast new where
  destroyed q := by
    have hdestroys : new.countP (PsAction.destroys q) = 0 := by
      refine List.countP_eq_zero.mpr fun a ha => ?_
      obtain ⟨q, rfl⟩ := h a ha
      exact Bool.noConfusion
    have hzeroes : new.countP (PsAction.zeroes q) = 0 := by
      refine List.countP_eq_zero.mpr fun a ha => ?_
      obtain ⟨q, rfl⟩ := h a ha
      exact Bool.noConfusion
    rw [hdestroys, hzeroes]
  active q n hn := by
    obtain ⟨q, hq⟩ := h _ hn
    cases hq

omit [DecidableEq τ] in
/-- Uses of allocated processes. -/
theorem OnlyUses.usesAllocated {new : List (PsAction τ)} (h : OnlyUses new) : UsesAllocated new := by
  intro q b hb
  obtain ⟨r, hr⟩ := h _ hb
  cases hr
  rfl

omit [DecidableEq τ] in
/-- Entries on top of entries. -/
theorem OnlyUses.append {new old : List (PsAction τ)} (hnew : OnlyUses new) (hold : OnlyUses old) :
    OnlyUses (new ++ old) :=
  List.forall_mem_append.mpr ⟨hnew, hold⟩

omit [DecidableEq τ] in
/-- **What closing a thread writes to the log**: the last use of the process is the one that may find
it gone. -/
theorem ClosingLog.entries {s s' : Ps τ} {allocated : Bool} (h : ClosingLog t p allocated s s') :
    ∃ new, s'.log = new ++ s.log ∧ DestroysLast new ∧ (UsesAllocated new ↔ allocated = true) := by
  obtain ⟨new, hlog, htidy, -⟩ := h
  refine ⟨.use p allocated :: (new ++ [.use p true, .freeKernelStack t, .freeUserStack t,
    .use p true, .close t]), by rw [hlog, List.cons_append], ⟨fun q => ?_, fun q n hn => ?_⟩, ?_, ?_⟩
  · have hnew := htidy.destroyed q
    simp [PsAction.destroys, PsAction.zeroes, hnew]
  · simp only [List.mem_cons, List.mem_append, reduceCtorEq, List.not_mem_nil, or_false,
      false_or] at hn
    exact htidy.active q n hn
  · exact fun h => h p allocated (List.mem_cons_self ..)
  · rintro hallocated q b hb
    simp only [List.mem_cons, List.mem_append, reduceCtorEq, List.not_mem_nil, or_false, false_or,
      PsAction.use.injEq] at hb
    rcases hb with hb | hb | hb | hb
    · exact hb.2.trans hallocated
    · exact htidy.used q b hb
    · exact hb.2
    · exact hb.2

/-- **What a call writes to the log.** -/
theorem PsMachine.Inv.step_log (h : m.Inv boot idle sys) {e : PsEvent τ}
    (hen : e.Enabled boot idle m) (hrun : e.run m = .ok m') :
    ∃ new, m'.ps.log = new ++ m.ps.log ∧ DestroysLast new
      ∧ (UsesAllocated new ↔ (e = .cleanUp → m.ClosesProtected)) := by
  have hquiet : ∀ m' : PsMachine τ, m'.ps.log = m.ps.log →
      ∃ new, m'.ps.log = new ++ m.ps.log ∧ DestroysLast new ∧ UsesAllocated new := fun _ hlog =>
    ⟨[], hlog, ⟨fun _ => rfl, fun _ _ hn => (List.not_mem_nil hn).elim⟩,
      fun _ _ hb => (List.not_mem_nil hb).elim⟩
  cases e with
  | createProcess p t kind signalState =>
    obtain ⟨-, parent, s, hprocess, hthread, -⟩ := h.createProcess hen hrun
    obtain ⟨new, hlog, hnew⟩ := hprocess.log
    obtain ⟨new', hlog', hnew'⟩ := hthread.log
    have huses := hnew'.append hnew
    refine ⟨new' ++ new, ?_, huses.destroysLast, iff_of_true huses.usesAllocated nofun⟩
    rw [hlog', hlog, List.append_assoc]
  | createThread t p signalState =>
    obtain ⟨new, hlog, hnew⟩ := (h.createThread hen hrun).2.1.log
    exact ⟨new, hlog, hnew.destroysLast, iff_of_true hnew.usesAllocated nofun⟩
  | exit =>
    obtain ⟨-, hps, -⟩ := h.exit hen hrun
    obtain ⟨new, hlog, hdestroys, huses⟩ := hquiet m' (by rw [hps])
    exact ⟨new, hlog, hdestroys, iff_of_true huses nofun⟩
  | schedule =>
    obtain ⟨-, hps, -⟩ := h.schedule hrun
    obtain ⟨new, hlog, hdestroys, huses⟩ := hquiet m' (by rw [hps])
    exact ⟨new, hlog, hdestroys, iff_of_true huses nofun⟩
  | cleanUp =>
    cases hhead : (schedExited m.sched).head? with
    | none =>
      obtain ⟨m'', hrun', -, hps, -⟩ := h.cleanUp_none (List.head?_eq_none_iff.mp hhead)
      obtain rfl := Except.ok.inj (hrun'.symm.trans hrun)
      obtain ⟨new, hlog, hdestroys, huses⟩ := hquiet m'' (by rw [hps])
      refine ⟨new, hlog, hdestroys, iff_of_true huses fun _ t ht => ?_⟩
      rw [hhead] at ht
      cases ht
    | some t =>
      obtain ⟨m'', hrun', -, -, hclosing, -⟩ := h.cleanUp_some hhead (h.cleanUp_guards hhead hrun)
      obtain rfl := Except.ok.inj (hrun'.symm.trans hrun)
      obtain ⟨new, hlog, hdestroys, huses⟩ := hclosing.entries
      refine ⟨new, hlog, hdestroys, huses.trans (decide_eq_true_iff.trans ?_)⟩
      constructor
      · intro hne _ i hi
        rw [hhead] at hi
        obtain rfl := Option.some.inj hi
        exact hne
      · exact fun hprotected => hprotected rfl t hhead

/-! ## Runs -/

/-- **The log of a run**: processes are destroyed by their last decrements, and are used while they
are allocated exactly if every thread cleaned up left something that protects its process. -/
theorem psSystem_log {t : List (PsEvent τ × PsMachine τ)} (h : (psSystem boot idle sys).Run t m) :
    DestroysLast m.ps.log
      ∧ (UsesAllocated m.ps.log ↔ ∀ l ∈ t, l.1 = .cleanUp → l.2.ClosesProtected) := by
  induction h with
  | start hinit =>
    rw [hinit.log]
    exact ⟨⟨fun _ => rfl, fun _ _ hn => (List.not_mem_nil hn).elim⟩,
      iff_of_true (fun _ _ hb => (List.not_mem_nil hb).elim) (List.forall_mem_nil _)⟩
  | @step t m l m' hrun hstep ih =>
    obtain ⟨e, m₀⟩ := l
    obtain ⟨hm₀, hen, he⟩ := hstep
    obtain rfl : m₀ = m := hm₀
    obtain ⟨new, hlog, hdestroys, huses⟩ := (psSystem_inv hrun).step_log hen he
    rw [hlog]
    refine ⟨⟨fun q => ?_, fun q n hn => ?_⟩, ?_⟩
    · rw [List.countP_append, List.countP_append, hdestroys.destroyed, ih.1.destroyed]
    · rcases List.mem_append.mp hn with hn | hn
      · exact hdestroys.active q n hn
      · exact ih.1.active q n hn
    · rw [List.forall_mem_cons, ← ih.2, ← huses]
      constructor
      · exact fun h => ⟨fun q b hb => h q b (List.mem_append_left _ hb),
          fun q b hb => h q b (List.mem_append_right _ hb)⟩
      · rintro ⟨hnew, hold⟩ q b hb
        exact (List.mem_append.mp hb).elim (hnew q b) (hold q b)

/-- **Process rundown**: in every state of a run the counters are right, and processes go in good
order exactly if no thread that has been cleaned up was the last protection of its process. -/
theorem rundown_correct_iff {t : List (PsEvent τ × PsMachine τ)}
    (h : (psSystem boot idle sys).Run t m) :
    RundownCorrect m ↔ ∀ l ∈ t, l.1 = .cleanUp → l.2.ClosesProtected := by
  obtain ⟨hdestroys, huses⟩ := psSystem_log h
  have hinv := psSystem_inv h
  rw [← huses]
  constructor
  · exact fun hcorrect => hcorrect.tidy.used
  · exact fun hused => ⟨fun p hp => hinv.protect hp, hused, hdestroys.destroyed, hdestroys.active⟩

/-- Calls of the first two threads and their descendants, one after another, are a run. -/
theorem firstThreads_play (events : List (PsEvent (Fin 4)))
    (observe : List (PsEvent (Fin 4) × PsMachine (Fin 4)) → PsMachine (Fin 4) → Bool)
    (hplay : (play (fun e m => decide (PsEvent.Enabled 0 1 m e)) (fun e m => PsEvent.run m e) events
      ([], firstThreads)).map (fun x => observe x.1 x.2) = some true) :
    ∃ t m, (psSystem 0 1 4).Run t m ∧ observe t m = true := by
  refine System.Run.play_observed _ _ (fun t m e m' hen hrun => ?_) events observe
    (System.Run.start firstThreads_start) hplay
  exact ⟨rfl, of_decide_eq_true hen, hrun⟩

/-- One of the two threads of a process terminates and is cleaned up. -/
theorem rundown_correct_of_two : ∃ t m, (psSystem (0 : Fin 4) 1 4).Run t m
    ∧ .close 2 ∈ m.ps.log ∧ RundownCorrect m := by
  obtain ⟨t, m, hrun, hobserved⟩ := firstThreads_play
    [.createProcess 8 2 (.load true 16) 0, .createThread 3 8 0, .schedule, .exit, .schedule, .cleanUp]
    (fun t m => decide (.close 2 ∈ m.ps.log) && t.all fun l =>
      (schedExited l.2.sched).head?.all fun x =>
        decide ((l.2.ps.eprocess (l.2.ps.ethread x).ThreadsProcess).RundownProtect ≠ 1))
    (by decide +kernel)
  obtain ⟨hclosed, hall⟩ := Bool.and_eq_true_iff.mp hobserved
  refine ⟨t, m, hrun, of_decide_eq_true hclosed, (rundown_correct_iff hrun).mpr fun l hl _ x hx => ?_⟩
  have hprotected := List.all_eq_true.mp hall l hl
  rw [hx] at hprotected
  exact of_decide_eq_true hprotected

/-- **The only thread of a process terminates**: `PsCloseThread` releases the lock of a process that
is gone. -/
theorem rundown_correct_fails : ¬ ∀ (t : List (PsEvent (Fin 4) × PsMachine (Fin 4)))
    (m : PsMachine (Fin 4)), (psSystem 0 1 4).Run t m → RundownCorrect m := by
  intro hall
  obtain ⟨t, m, hrun, hobserved⟩ := firstThreads_play
    [.createProcess 8 2 (.load true 16) 0, .schedule, .exit, .cleanUp]
    (fun _ m => decide (.use 8 false ∈ m.ps.log)) (by decide +kernel)
  exact Bool.noConfusion ((hall t m hrun).tidy.used 8 false (of_decide_eq_true hobserved))

end KaushOS
