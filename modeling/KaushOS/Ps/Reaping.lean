import KaushOS.Ps.Rundown

/-! # Terminated threads are cleaned up

A thread that terminates is put on `ExitThreadList`, and whoever goes on at the end of `Schedule` closes
it there.

* **`ReapedOnce`** — each thread that was put on the list is closed once, and its stacks are freed once.
* **`PsEvent.ReapsSafely`** — what the code needs: the thread that cleans up belongs to another process,
  and nobody has freed the user stack yet.
* **`reaped_once_safely`** — the first holds in every run, and a call on the way returns exactly under
  the second. -/

namespace KaushOS

open CircularList Transition

variable {τ : Type} [DecidableEq τ] {boot idle t : τ} {sys p : UInt32} {m m' : PsMachine τ}

/-! ## What is claimed -/

/-- **The user stack of the thread is intact**: its pages are marked in the bitmap that the process of
the thread uses, and mapped in the process. -/
def Ps.StackIntact (s : Ps τ) (t : τ) : Prop :=
  ∃ i, (s.ethread t).UserStack = USERPTEPOOL_START + PGSIZE * i
    ∧ (s.ethread t).UserStack < USERPTEPOOL_END
    ∧ i + THREAD_USER_STACK_SIZE
      ≤ (s.userBitmap (s.eprocess (s.ethread t).ThreadsProcess).UserPtePool).BitCount
    ∧ AllIn (s.userBitmap (s.eprocess (s.ethread t).ThreadsProcess).UserPtePool).bits i
      THREAD_USER_STACK_SIZE true
    ∧ AllIn (s.userMapped (s.ethread t).ThreadsProcess) (USERPTEPOOL_START / PGSIZE + i)
      THREAD_USER_STACK_SIZE true

/-- The calls on the way from the termination of a thread to its end. -/
def PsEvent.IsReaping : PsEvent τ → Prop
  | .exit | .schedule | .cleanUp => True
  | .createProcess .. | .createThread .. => False

/-- **When such a call is safe.** `SignalState` is never initialised, so it need not be small. -/
def PsEvent.ReapsSafely (m : PsMachine τ) : PsEvent τ → Prop
  | .exit => (m.ps.ethread m.current).SignalState < MAX_DISPATCH_SIGNAL_STATE
  | .cleanUp => ∀ t, (schedExited m.sched).head? = some t →
    m.currentProcess ≠ (m.ps.ethread t).ThreadsProcess ∧ m.ps.StackIntact t
  | .createProcess .. | .createThread .. | .schedule => True

/-- How often the thread has been put on `ExitThreadList`. -/
def terminations (t : τ) (tr : List (PsEvent τ × PsMachine τ)) : Nat :=
  tr.countP fun l => l.1 = .exit ∧ l.2.current = t

/-- **Each thread put on the list is closed once**, unless it is still there, and its stacks are freed
whenever it is closed. -/
structure ReapedOnce (tr : List (PsEvent τ × PsMachine τ)) (m : PsMachine τ) : Prop where
  closed : ∀ t, m.ps.log.count (.close t) + (schedExited m.sched).count t = terminations t tr
  userStack : ∀ t, m.ps.log.count (.freeUserStack t) = m.ps.log.count (.close t)
  kernelStack : ∀ t, m.ps.log.count (.freeKernelStack t) = m.ps.log.count (.close t)

/-! ## `ExitThreadList` -/

/-- Yielding does not touch the threads to be cleaned up. -/
theorem Dispatcher.yield_exited (a : Dispatcher τ) : a.yield.exited = a.exited := by
  rcases hpick : a.select (a.priority a.current) with ⟨next, a₁⟩
  cases next with
  | none => simp [Dispatcher.yield, hpick]
  | some next =>
    obtain ⟨q, rest, -, -, -, -, rfl⟩ := select_eq_some hpick
    simp [Dispatcher.yield, hpick, Dispatcher.makeReady, Dispatcher.dispatch]

/-- A terminated thread is put on the list when another one is selected. -/
theorem Dispatcher.retire_exited {a : Dispatcher τ}
    (hsel : (a.select PROCESS_PRIORITY_IDLE).1 ≠ none) :
    a.retire.exited = a.exited ++ [a.current] := by
  rcases hpick : a.select PROCESS_PRIORITY_IDLE with ⟨next, a₁⟩
  cases next with
  | none => exact absurd (by rw [hpick]) hsel
  | some next =>
    obtain ⟨q, rest, -, -, -, -, rfl⟩ := select_eq_some hpick
    simp [Dispatcher.retire, hpick, Dispatcher.dispatch]

/-- While another thread runs, the idle thread is queued. -/
theorem PsMachine.Inv.idle_queued (h : m.Inv boot idle sys) (hne : m.current ≠ idle) :
    ∃ q, idle ∈ m.sched.dispatcher.ready q := by
  have hidle := h.mem_live.2
  refine h.sched.queued.ready_mem idle hidle (h.runnable.2.resolve_right fun hrunning => ?_) nofun
  exact hne ((h.sched.running.2 idle hidle).mp hrunning).symm

/-- **A thread that terminates is put on the list.** -/
theorem PsMachine.Inv.exit_exited (h : m.Inv boot idle sys) (hne : m.current ≠ idle) :
    (m.sched.dispatcher.step (.exit [])).exited = schedExited m.sched ++ [m.current] := by
  obtain ⟨q, hq⟩ := h.idle_queued hne
  refine Dispatcher.retire_exited fun hnone => ?_
  have hrunning : m.sched.dispatcher.state m.current = .RUNNING := h.sched.current_state
  have hterminated : (m.sched.dispatcher.setState m.current .TERMINATED).Queued m.live none :=
    h.sched.queued.setState (by simp [hrunning]) (by simp [hrunning]) (by decide)
  have hempty := hterminated.ready_eq_nil hnone q
  rw [Dispatcher.setState_ready] at hempty
  rw [hempty] at hq
  exact List.not_mem_nil hq

/-! ## Entries about threads -/

omit [DecidableEq τ] in
/-- Uses are no entries about threads. -/
theorem OnlyUses.not_thread {new : List (PsAction τ)} (h : OnlyUses new) :
    ∀ a ∈ new, a.ofThread = false := by
  intro a ha
  obtain ⟨q, rfl⟩ := h a ha
  rfl

/-- Entries that are not about threads do not count. -/
theorem count_not_thread {new : List (PsAction τ)} (h : ∀ a ∈ new, a.ofThread = false)
    {a : PsAction τ} (ha : a.ofThread = true) : new.count a = 0 := by
  refine List.count_eq_zero_of_not_mem fun hmem => ?_
  rw [h a hmem] at ha
  cases ha

/-- **Closing a thread makes one entry of each kind about it**, and none about others. -/
theorem ClosingLog.count {s s' : Ps τ} {allocated : Bool} (h : ClosingLog t p allocated s s')
    {a : PsAction τ} (ha : a.ofThread = true) :
    s'.log.count a = s.log.count a
      + if a = .close t ∨ a = .freeUserStack t ∨ a = .freeKernelStack t then 1 else 0 := by
  obtain ⟨new, hlog, -, hnew⟩ := h
  have hnone := count_not_thread hnew ha
  rw [hlog]
  cases a with
  | use _ _ => cases ha
  | decrement _ _ => cases ha
  | destroy _ _ => cases ha
  | close i =>
    by_cases hi : i = t
    · subst hi
      simp [List.count_append, hnone]
    · simp [List.count_append, hnone, hi, Ne.symm hi]
  | freeUserStack i =>
    by_cases hi : i = t
    · subst hi
      simp [List.count_append, hnone]
    · simp [List.count_append, hnone, hi, Ne.symm hi]
  | freeKernelStack i =>
    by_cases hi : i = t
    · subst hi
      simp [List.count_append, hnone]
    · simp [List.count_append, hnone, hi, Ne.symm hi]

/-! ## Steps -/

/-- **What a call does to the entries about threads and to the list.** -/
structure ReapStep (e : PsEvent τ) (m m' : PsMachine τ) : Prop where
  closed : ∀ t, m'.ps.log.count (.close t) + (schedExited m'.sched).count t
    = m.ps.log.count (.close t) + (schedExited m.sched).count t
      + if e = .exit ∧ m.current = t then 1 else 0
  userStack : ∀ t, m'.ps.log.count (.freeUserStack t) + m.ps.log.count (.close t)
    = m.ps.log.count (.freeUserStack t) + m'.ps.log.count (.close t)
  kernelStack : ∀ t, m'.ps.log.count (.freeKernelStack t) + m.ps.log.count (.close t)
    = m.ps.log.count (.freeKernelStack t) + m'.ps.log.count (.close t)

/-- A call that neither closes a thread nor changes the list. -/
theorem ReapStep.quiet {e : PsEvent τ} {new : List (PsAction τ)} (hlog : m'.ps.log = new ++ m.ps.log)
    (hnew : ∀ a ∈ new, a.ofThread = false) (hexited : schedExited m'.sched = schedExited m.sched)
    (he : e ≠ .exit) : ReapStep e m m' := by
  have hcount : ∀ a : PsAction τ, a.ofThread = true → m'.ps.log.count a = m.ps.log.count a := by
    intro a ha
    rw [hlog, List.count_append, count_not_thread hnew ha, Nat.zero_add]
  refine ⟨fun t => ?_, fun t => ?_, fun t => ?_⟩
  · rw [hcount (.close t) rfl, hexited, if_neg fun h => he h.1, Nat.add_zero]
  · rw [hcount (.freeUserStack t) rfl, hcount (.close t) rfl]
  · rw [hcount (.freeKernelStack t) rfl, hcount (.close t) rfl]

/-- **Every call that returns** keeps the accounts. -/
theorem PsMachine.Inv.reapStep (h : m.Inv boot idle sys) {e : PsEvent τ}
    (hen : e.Enabled boot idle m) (hrun : e.run m = .ok m') : ReapStep e m m' := by
  cases e with
  | createProcess p t kind signalState =>
    obtain ⟨-, parent, s, hprocess, hthread, -, hexited⟩ := h.createProcess hen hrun
    obtain ⟨new, hlog, hnew⟩ := hprocess.log
    obtain ⟨new', hlog', hnew'⟩ := hthread.log
    have hlogs : m'.ps.log = (new' ++ new) ++ m.ps.log := by
      rw [hlog', hlog, List.append_assoc]
    exact .quiet hlogs (hnew'.append hnew).not_thread hexited nofun
  | createThread t p signalState =>
    obtain ⟨-, hadd, hexited⟩ := h.createThread hen hrun
    obtain ⟨new, hlog, hnew⟩ := hadd.log
    exact .quiet hlog hnew.not_thread hexited nofun
  | exit =>
    obtain ⟨-, hps, hdispatcher⟩ := h.exit hen hrun
    have hexited := (congrArg Dispatcher.exited hdispatcher).trans (h.exit_exited hen.2.2)
    have hlog : m'.ps.log = m.ps.log := by rw [hps]
    have hexited' : schedExited m'.sched = schedExited m.sched ++ [m.current] := hexited
    refine ⟨fun t => ?_, fun t => ?_, fun t => ?_⟩
    · rw [hlog, hexited', List.count_append, List.count_singleton]
      simp only [true_and, beq_iff_eq]
      omega
    · rw [hlog]
    · rw [hlog]
  | schedule =>
    obtain ⟨-, hps, hdispatcher⟩ := h.schedule hrun
    have hexited := (congrArg Dispatcher.exited hdispatcher).trans
      (Dispatcher.yield_exited m.sched.dispatcher)
    have hlog : m'.ps.log = [] ++ m.ps.log := by
      rw [hps]
      rfl
    exact .quiet hlog (List.forall_mem_nil _) hexited nofun
  | cleanUp =>
    cases hhead : (schedExited m.sched).head? with
    | none =>
      have hnil := List.head?_eq_none_iff.mp hhead
      obtain ⟨m'', hrun', -, hps, hdispatcher⟩ := h.cleanUp_none hnil
      obtain rfl := Except.ok.inj (hrun'.symm.trans hrun)
      have hexited : schedExited m''.sched = (schedExited m.sched).tail :=
        congrArg Dispatcher.exited hdispatcher
      have hlog : m''.ps.log = [] ++ m.ps.log := by
        rw [hps]
        rfl
      refine .quiet hlog (List.forall_mem_nil _) ?_ nofun
      rw [hexited, hnil]
      rfl
    | some x =>
      obtain ⟨m'', hrun', -, -, hclosing, hdispatcher⟩ :=
        h.cleanUp_some hhead (h.cleanUp_guards hhead hrun)
      obtain rfl := Except.ok.inj (hrun'.symm.trans hrun)
      have hexited : schedExited m''.sched = (schedExited m.sched).tail :=
        congrArg Dispatcher.exited hdispatcher
      obtain ⟨rest, hrest⟩ := List.head?_eq_some_iff.mp hhead
      refine ⟨fun t => ?_, fun t => ?_, fun t => ?_⟩
      · rw [hclosing.count rfl, hexited, hrest, List.tail_cons, List.count_cons]
        by_cases hx : x = t
        · subst hx
          simp
          omega
        · simp [hx, Ne.symm hx]
      · rw [hclosing.count rfl, hclosing.count rfl]
        simp
        omega
      · rw [hclosing.count rfl, hclosing.count rfl]
        simp
        omega

/-! ## Runs -/

/-- **The accounts are right in every run.** -/
theorem psSystem_reaped {tr : List (PsEvent τ × PsMachine τ)} (h : (psSystem boot idle sys).Run tr m) :
    ReapedOnce tr m := by
  induction h with
  | @start m hinit =>
    have hexited : schedExited m.sched = [] := by
      obtain ⟨-, -, -, -, -, -, hlist⟩ := hinit.sched
      show listElements _ _ m.sched.ExitThreadList = []
      have hempty : IsList (schedLinks τ) Set.univ m.sched.tcb listInit [] := isList_listInit
      rw [hlist]
      exact hempty.listElements_eq
    refine ⟨fun t => ?_, fun t => ?_, fun t => ?_⟩
    · rw [hinit.log, hexited]
      rfl
    · rw [hinit.log]
      rfl
    · rw [hinit.log]
      rfl
  | @step tr m l m' hrun hstep ih =>
    obtain ⟨e, m₀⟩ := l
    obtain ⟨hm₀, hen, he⟩ := hstep
    obtain rfl : m₀ = m := hm₀
    have hone := (psSystem_inv hrun).reapStep hen he
    refine ⟨fun t => ?_, fun t => ?_, fun t => ?_⟩
    · rw [hone.closed, ih.closed, terminations, terminations, List.countP_cons]
      simp only [decide_eq_true_eq]
    · have huser := hone.userStack t
      have hold := ih.userStack t
      omega
    · have hkernel := hone.kernelStack t
      have hold := ih.kernelStack t
      omega

/-- The guards of `PsCloseThread` for the thread that is cleaned up next. -/
theorem PsMachine.Inv.closeGuards_iff (h : m.Inv boot idle sys)
    (hhead : (schedExited m.sched).head? = some t) :
    CloseGuards m.current m.currentProcess .TERMINATED t m.ps
      ↔ m.currentProcess ≠ (m.ps.ethread t).ThreadsProcess ∧ m.ps.StackIntact t := by
  have hcurrent := (h.exited_thread (List.mem_of_mem_head? hhead)).2.2.1
  have hstack : _ ↔ m.ps.StackIntact t := mmFreeUserPtes_ok_iff (by decide)
  constructor
  · exact fun hg => ⟨hg.process, hstack.mp hg.stack⟩
  · exact fun hg => ⟨hcurrent, rfl, hg.1, hstack.mpr hg.2⟩

/-- **When a call on the way returns.** -/
theorem PsMachine.Inv.returns_iff (h : m.Inv boot idle sys) {e : PsEvent τ} (he : e.IsReaping)
    (hen : e.Enabled boot idle m) : (∃ m', e.run m = .ok m') ↔ e.ReapsSafely m := by
  cases e with
  | createProcess p t kind signalState => exact he.elim
  | createThread t p signalState => exact he.elim
  | exit =>
    constructor
    · rintro ⟨m', hrun⟩
      obtain ⟨_, -, hrun⟩ := kernel_bind_eq_ok.mp hrun
      obtain ⟨ps, hrelease, -⟩ := kernel_bind_eq_ok.mp hrun
      obtain ⟨_, hsignal, -⟩ := kernel_bind_eq_ok.mp hrelease
      have hsmall : (m.ps.ethread m.current).SignalState < MAX_DISPATCH_SIGNAL_STATE :=
        assert_eq_ok.mp hsignal
      exact hsmall
    · intro hsafe
      have hsignal : (m.ps.ethread m.current).SignalState < MAX_DISPATCH_SIGNAL_STATE := hsafe
      have hstate : (m.sched.tcb m.current).State = .RUNNING := h.sched.current_state
      have hexit : (SchedEvent.exit ([] : List τ)).Enabled ⟨m.sched, m.live⟩ :=
        ⟨List.nodup_nil, List.forall_mem_nil _⟩
      rcases schedStep_spec h.sched hexit with ⟨-, hempty, -⟩ | ⟨sched, hrun, -⟩
      · -- the idle thread is there to take over
        obtain ⟨q, hq⟩ := h.idle_queued hen.2.2
        rw [hempty q] at hq
        exact absurd hq List.not_mem_nil
      · have hrelease : ∃ ps, m.ps.keReleaseNotificationDHeader m.current = .ok ps := by
          rw [Ps.keReleaseNotificationDHeader, assert_of_true hsignal, kernel_ok_bind]
          exact ⟨_, rfl⟩
        obtain ⟨ps, hrelease⟩ := hrelease
        show ∃ m', (assert ((m.sched.tcb m.current).State = .RUNNING) _ >>= _) = .ok m'
        rw [assert_of_true hstate, kernel_ok_bind, hrelease, kernel_ok_bind, hrun, kernel_ok_bind]
        exact ⟨_, rfl⟩
  | schedule =>
    refine iff_of_true ?_ trivial
    rcases schedStep_spec h.sched (e := .schedule) trivial with ⟨hgives, -⟩ | ⟨sched, hrun, -⟩
    · exact hgives.elim
    · show ∃ m', (KaushOS.schedStep .schedule m.sched >>= _) = .ok m'
      rw [hrun, kernel_ok_bind]
      exact ⟨_, rfl⟩
  | cleanUp =>
    cases hhead : (schedExited m.sched).head? with
    | none =>
      obtain ⟨m', hrun, -⟩ := h.cleanUp_none (List.head?_eq_none_iff.mp hhead)
      refine iff_of_true ⟨m', hrun⟩ fun t ht => ?_
      rw [hhead] at ht
      cases ht
    | some x =>
      constructor
      · rintro ⟨m', hrun⟩ t ht
        exact (h.closeGuards_iff ht).mp (h.cleanUp_guards ht hrun)
      · intro hsafe
        obtain ⟨m', hrun, -⟩ :=
          h.cleanUp_some hhead ((h.closeGuards_iff hhead).mpr (hsafe x hhead))
        exact ⟨m', hrun⟩

/-- **Terminated threads are cleaned up**: each once, with its stacks, in every run; and a call on the
way returns exactly if the thread that cleans up belongs to another process and the user stack is
intact. -/
theorem reaped_once_safely {tr : List (PsEvent τ × PsMachine τ)}
    (h : (psSystem boot idle sys).Run tr m) : ReapedOnce tr m
      ∧ ∀ e : PsEvent τ, e.IsReaping → e.Enabled boot idle m →
        ((∃ m', e.run m = .ok m') ↔ e.ReapsSafely m) :=
  ⟨psSystem_reaped h, fun _ he hen => (psSystem_inv h).returns_iff he hen⟩

/-- The only thread of a process is cleaned up by the first thread of the system. -/
theorem reaped_once_safely_one : ∃ tr m, (psSystem (0 : Fin 4) 1 4).Run tr m
    ∧ .close 2 ∈ m.ps.log ∧ ReapedOnce tr m
    ∧ ∀ e : PsEvent (Fin 4), e.IsReaping → e.Enabled 0 1 m →
      ((∃ m', e.run m = .ok m') ↔ e.ReapsSafely m) := by
  obtain ⟨tr, m, hrun, hclosed⟩ := firstThreads_play
    [.createProcess 8 2 (.load true 16) 0, .schedule, .exit, .cleanUp]
    (fun _ m => decide (.close 2 ∈ m.ps.log)) (by decide +kernel)
  exact ⟨tr, m, hrun, of_decide_eq_true hclosed, reaped_once_safely hrun⟩

/-- **Another thread of the same process cleans up**: `PsCloseThread` ends in a bugcheck. -/
theorem reaped_safely_fails : ¬ ∀ (tr : List (PsEvent (Fin 4) × PsMachine (Fin 4)))
    (m : PsMachine (Fin 4)), (psSystem 0 1 4).Run tr m →
      ∀ e : PsEvent (Fin 4), e.IsReaping → e.Enabled 0 1 m → ∃ m', e.run m = .ok m' := by
  intro hall
  obtain ⟨tr, m, hrun, hobserved⟩ := firstThreads_play
    [.createProcess 8 2 (.load true 16) 0, .createThread 3 8 0, .schedule, .schedule, .schedule,
      .cleanUp, .schedule, .cleanUp, .exit]
    (fun _ m => decide (PsEvent.cleanUp.Enabled 0 1 m)
      && match PsEvent.cleanUp.run m with
        | .ok _ => false
        | .error _ => true) (by decide +kernel)
  obtain ⟨hen, herror⟩ := Bool.and_eq_true_iff.mp hobserved
  obtain ⟨m', hok⟩ := hall tr m hrun .cleanUp trivial (of_decide_eq_true hen)
  rw [hok] at herror
  cases herror

end KaushOS
