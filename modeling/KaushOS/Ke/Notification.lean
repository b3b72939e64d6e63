import KaushOS.Ke.SignalLists

/-! # Notification objects

Threads, processes and notification events: what waits for them should do, and what they do.

* **`signalledIn`** — the object in the abstract, a latch that signals close and resets open.
* **`StaysSignalled`** — waits and signals do what the latch says.
* **`Notice`** — what is left of a signal, by the calls made so far.
* **`staysSignalled_iff`** — the states in which all is well: those in which the last signal is not
  spent.
* **`staysSignalled_fails`** — the second wait for a process that has terminated blocks. -/

namespace KaushOS

open CircularList Transition

variable {τ ο : Type} [DecidableEq τ] [DecidableEq ο]

/-! ## The abstract object -/

/-- Whether an object is a notification object. -/
def SignalSetup.isNotification : SignalSetup → Bool
  | .process | .thread _ _ | .event .NotificationEvent _ => true
  | _ => false

/-- Whether an object is signalled from the start. -/
def SignalSetup.signalled : SignalSetup → Bool
  | .event _ state => state
  | _ => false

/-- **The latch**: signals close it, resets open it, waits leave it as it is. -/
def SignalEvent.latch (o : ο) (e : SignalEvent τ ο) (signalled : Bool) : Bool :=
  match e with
  | .setEvent i | .releaseNotification i => if i = o then true else signalled
  | .resetEvent i | .clearEvent i => if i = o then false else signalled
  | _ => signalled

/-- Whether the object is signalled after a run. -/
def signalledIn (setup : ο → SignalSetup) (o : ο)
    (tr : List (SignalEvent τ ο × SignalMachine τ ο)) : Bool :=
  tr.foldr (fun l signalled => l.1.latch o signalled) (setup o).signalled

/-- The calls that signal an object. -/
def SignalEvent.Signals (setup : ο → SignalSetup) (o : ο) (e : SignalEvent τ ο) : Prop :=
  (e = .setEvent o ∧ (setup o).isEvent = true)
  ∨ (e = .releaseNotification o ∧ (setup o).terminates = true)

/-- **Waits and signals made now do what the latch says**: while the object is not signalled a wait
blocks, as soon as there is a thread to switch to; when it is signalled, a wait returns at once; and
a signal makes all waiters ready. -/
structure StaysSignalled (setup : ο → SignalSetup) (o : ο) (signalled : Bool)
    (m : SignalMachine τ ο) : Prop where
  blocks : signalled = false → (∀ k, keWaitForSingleObject o m.ke ≠ .ok (.acquired, k))
    ∧ ((∃ t ∈ m.live, (m.ke.sched.tcb t).State = .READY) →
      ∃ k, keWaitForSingleObject o m.ke = .ok (.blocked, k))
  returns : signalled = true → ∃ k, keWaitForSingleObject o m.ke = .ok (.acquired, k)
  wakes : ∀ e : SignalEvent τ ο, e.Signals setup o → ∃ k, e.runs m = .ok k
    ∧ waitQueue o k = [] ∧ ∀ x ∈ waitQueue o m.ke, (k.sched.tcb x).State = .READY

/-! ## What is left of a signal -/

/-- **What is left of the last signal** of an object. -/
inductive Notice
  /-- None was given, or it was taken back. -/
  | unsignalled
  /-- It was given, and no wait has come since. -/
  | fresh
  /-- It was given by `KeSetEvent`, or a wait has come since. -/
  | spent
  deriving DecidableEq, Repr

/-- What a call leaves of the signal. -/
def SignalEvent.notice (o : ο) (e : SignalEvent τ ο) (n : Notice) : Notice :=
  match e with
  | .setEvent i => if i = o then .spent else n
  | .releaseNotification i => if i = o then .fresh else n
  | .resetEvent i | .clearEvent i => if i = o then .unsignalled else n
  | .wait i => if i = o ∧ n = .fresh then .spent else n
  | _ => n

/-- What there is of a signal at the start. -/
def SignalSetup.notice (setup : SignalSetup) : Notice :=
  if setup.signalled then .fresh else .unsignalled

/-- What a run leaves of the signal. -/
def noticeIn (setup : ο → SignalSetup) (o : ο)
    (tr : List (SignalEvent τ ο × SignalMachine τ ο)) : Notice :=
  tr.foldr (fun l n => l.1.notice o n) (setup o).notice

/-- Whether `KeWaitForSingleObject` passes objects of a type on to `KiDHeaderAcquire` as they are. -/
def KOBJECTS.waitable : KOBJECTS → Bool
  | .ThreadObject | .ProcessObject | .SemaphoreObject | .EventNotificationObject
  | .EventSynchronizationObject => true
  | _ => false

/-- **The header of a thread** is left as its creation finds it on the stack: here, not signalled and
of a type that can be waited for. -/
def SignalSetup.Sound : SignalSetup → Prop
  | .thread type signalState => type.waitable = true ∧ signalState = 0
  | _ => True

section Latch

variable {setup : ο → SignalSetup} {o : ο} {e : SignalEvent τ ο}
  {tr : List (SignalEvent τ ο × SignalMachine τ ο)}

omit [DecidableEq τ] in
/-- A call does the same to the latch and to what is left of the signal. -/
theorem SignalEvent.latch_eq (o : ο) (e : SignalEvent τ ο) (n : Notice) :
    e.latch o (decide (n ≠ .unsignalled)) = decide (e.notice o n ≠ .unsignalled) := by
  cases e with
  | sched _ | check _ | release _ => rfl
  | setEvent i | resetEvent i | clearEvent i | releaseNotification i =>
    by_cases hi : i = o
    · simp [SignalEvent.latch, SignalEvent.notice, hi]
    · simp [SignalEvent.latch, SignalEvent.notice, hi]
  | wait i =>
    by_cases hi : i = o
    · cases n with
      | unsignalled | fresh | spent => simp [SignalEvent.latch, SignalEvent.notice, hi]
    · simp [SignalEvent.latch, SignalEvent.notice, hi]

omit [DecidableEq τ] in
/-- **The object is signalled** when anything but nothing is left of its signal. -/
theorem signalledIn_eq (setup : ο → SignalSetup) (o : ο)
    (tr : List (SignalEvent τ ο × SignalMachine τ ο)) :
    signalledIn setup o tr = decide (noticeIn setup o tr ≠ .unsignalled) := by
  induction tr with
  | nil =>
    show (setup o).signalled = decide ((setup o).notice ≠ .unsignalled)
    cases hs : (setup o).signalled with
    | true => simp [SignalSetup.notice, hs]
    | false => simp [SignalSetup.notice, hs]
  | cons l tr ih =>
    show l.1.latch o (signalledIn setup o tr) = decide (l.1.notice o (noticeIn setup o tr) ≠ _)
    rw [ih]
    exact l.1.latch_eq o _

end Latch

/-! ## One step -/

section Step

variable {live : Finset τ} {k k' : Ke τ ο} {w : ο → List τ} {o : ο} {setup : ο → SignalSetup}
  {m m' : SignalMachine τ ο} {e : SignalEvent τ ο} {n : Notice}
  {tr : List (SignalEvent τ ο × SignalMachine τ ο)}

omit [DecidableEq ο] in
/-- A wait for an object that is no mutant. -/
theorem keWaitForSingleObject_of_waitable [DecidableEq ο]
    (h : (k.header o).type.waitable = true) :
    keWaitForSingleObject o k = kiDHeaderAcquire o k := by
  rw [keWaitForSingleObject]
  cases htype : (k.header o).type <;> simp_all [KOBJECTS.waitable]

/-- **A wait for an object that is not signalled blocks**, if another thread is ready. -/
theorem kiDHeaderAcquire_ready (h : SignalLists live k w) (hs : (k.header o).SignalState = 0)
    (hready : ∃ t ∈ live, (k.sched.tcb t).State = .READY) :
    ∃ k', kiDHeaderAcquire o k = .ok (.blocked, k') := by
  obtain ⟨head, blocks, hinsert, -⟩ := (h.counted.initWaitBlock o).insertTail
    (EntryField.links_lawful _) o (fun i => h.counted.current_not_mem i) trivial
  have hinsert' : listInsertTail (waitLinks τ ο) ((kiInitWaitBlock o k).header o).WaitListHead
      k.sched.CurrentThread (kiInitWaitBlock o k).waitBlock = .ok (head, blocks) := hinsert
  obtain ⟨sched, hblock⟩ : ∃ sched, kiBlockThread k.sched = .ok sched := by
    rcases schedStep_spec h.counted.sched (e := .block) trivial with ⟨-, hnone, -⟩ | ⟨sched, hok, -⟩
    · obtain ⟨t, ht, hstate⟩ := hready
      obtain ⟨p, hp⟩ := h.counted.sched.queued.ready_mem t ht hstate (by simp)
      rw [hnone p] at hp
      cases hp
    · exact ⟨sched, hok⟩
  have hblock' : kiBlockThread (((kiInitWaitBlock o k).setWaitList o head blocks).setControl
      k.sched.CurrentThread (.inWait o)).sched = .ok sched := hblock
  rw [kiDHeaderAcquire, if_pos hs]
  simp only [hinsert', kernel_ok_bind, hblock']
  exact ⟨_, rfl⟩

/-- **A notification object between two calls**: its signal state is 1 as long as its signal is
fresh. -/
structure NoticeInvariant (o : ο) (n : Notice) (m : SignalMachine τ ο) : Prop where
  lists : SignalLists m.live m.ke (waitQueues m.ke)
  type : (m.ke.header o).type.waitable = true
  signal : (m.ke.header o).SignalState = if n = .fresh then 1 else 0

/-- **Every step keeps count of the signal.** -/
theorem NoticeInvariant.step (h : NoticeInvariant o n m) (hen : e.Enabled setup m)
    (hrun : e.run m = .ok m') (hrelease : e ≠ .release o) :
    NoticeInvariant o (e.notice o n) m' := by
  refine ⟨(SignalEvent.run_lists h.lists hen.scheduled hrun).1, ?_, ?_⟩
  · rw [SignalEvent.run_type hrun o]
    exact h.type
  · have heffect := SignalEvent.run_effect hrun
    have hsignal := h.signal
    by_cases ho : e.object = some o
    · cases e with
      | sched _ | check _ => cases ho
      | release i => exact absurd (congrArg SignalEvent.release (Option.some.inj ho)) hrelease
      | wait i =>
        obtain rfl := Option.some.inj ho
        rcases heffect with ⟨hzero, hs⟩ | ⟨hpos, hs⟩
        · have hfresh : n ≠ .fresh := by
            rintro rfl
            simp [hzero] at hsignal
          simp [SignalEvent.notice, hs.signal i, hzero, hfresh]
        · have hfresh : n = .fresh := by
            by_contra hne
            rw [if_neg hne] at hsignal
            omega
          simp [SignalEvent.notice, hs.signal i, hsignal, hfresh]
      | setEvent i | resetEvent i | clearEvent i | releaseNotification i =>
        obtain rfl := Option.some.inj ho
        simp [SignalEvent.notice, heffect.signal i]
    · rw [(SignalEvent.run_frame h.lists hen hrun ho).1, hsignal]
      have hsame : e.notice o n = n := by
        cases e with
        | sched _ | check _ | release _ => rfl
        | wait i | setEvent i | resetEvent i | clearEvent i | releaseNotification i =>
          have hi : i ≠ o := by
            rintro rfl
            exact ho rfl
          simp [SignalEvent.notice, hi]
      rw [hsame]

/-- **A signal makes all waiters ready.** -/
theorem NoticeInvariant.wakes (h : NoticeInvariant o n m)
    (hkind : (setup o).isEvent = true → (m.ke.header o).type = .EventNotificationObject)
    (he : e.Signals setup o) :
    ∃ k, e.runs m = .ok k ∧ waitQueue o k = []
      ∧ ∀ x ∈ waitQueue o m.ke, (k.sched.tcb x).State = .READY := by
  have hlt : (m.ke.header o).SignalState < MAX_DISPATCH_SIGNAL_STATE := by
    rw [h.signal]
    split
    · decide
    · decide
  obtain ⟨k, hall, hlists, hready, -⟩ := kiDHeaderReleaseAll_spec h.lists hlt
  have hempty : ∀ {k'}, SignalLists m.live k' (Function.update (waitQueues m.ke) o []) →
      waitQueue o k' = [] := by
    intro k' hk'
    rw [hk'.waitQueue_eq, Function.update_self]
  rcases he with ⟨rfl, hevent⟩ | ⟨rfl, -⟩
  · have htype := hkind hevent
    refine ⟨k.setSignal o 0, ?_, hempty hlists.clear, hready⟩
    have hset : keSetEvent o m.ke = .ok ((k.header o).SignalState, k.setSignal o 0) := by
      rw [keSetEvent, assertEvent, assert_of_true (Or.inl htype), kernel_ok_bind, if_pos htype, hall]
      rfl
    rw [SignalEvent.runs, hset]
    rfl
  · exact ⟨k, hall, hempty hlists, hready⟩

end Step

/-! ## Runs -/

section Runs

variable {o : ο} {setup : ο → SignalSetup} {m m' : SignalMachine τ ο} {e : SignalEvent τ ο}
  {tr : List (SignalEvent τ ο × SignalMachine τ ο)}

/-- **The signal in every run.** -/
theorem noticeInvariant_run (hset : (setup o).isNotification = true) (hsound : (setup o).Sound)
    (h : (signalSystem setup).Run tr m) : NoticeInvariant o (noticeIn setup o tr) m := by
  refine h.invariant (I := fun tr m => NoticeInvariant o (noticeIn setup o tr) m) ?_ ?_
  · intro m hinit
    have hheader := SignalSetup.done_header (hinit.2.2.2 o)
    refine ⟨(signalSystem_invariant (.start hinit)).1, ?_, ?_⟩
    · rw [hheader]
      cases hsetup : setup o with
      | semaphore count limit =>
        rw [hsetup] at hset
        cases hset
      | event type state =>
        cases type with
        | NotificationEvent | SynchronizationEvent => rfl
      | process => rfl
      | thread type signalState =>
        rw [hsetup] at hsound
        exact hsound.1
    · rw [hheader]
      show (setup o).signal = if (setup o).notice = .fresh then 1 else 0
      cases hsetup : setup o with
      | semaphore count limit =>
        rw [hsetup] at hset
        cases hset
      | event type state =>
        cases state with
        | true | false => simp [SignalSetup.signal, SignalSetup.notice, SignalSetup.signalled]
      | process => simp [SignalSetup.signal, SignalSetup.notice, SignalSetup.signalled]
      | thread type signalState =>
        rw [hsetup] at hsound
        simp [SignalSetup.signal, SignalSetup.notice, SignalSetup.signalled, hsound.2]
  · rintro tr m ⟨e, m₀⟩ m' hrun hinv ⟨hm, hen, hstep⟩
    obtain rfl : m₀ = m := hm
    refine hinv.step hen hstep ?_
    rintro rfl
    obtain ⟨⟨i, old⟩, hold, hi⟩ := Option.map_eq_some_iff.mp hen.2
    obtain rfl : i = o := hi
    have hkind := signalSystem_releasing hrun hold
    cases hsetup : setup i with
    | semaphore count limit =>
      rw [hsetup] at hset
      cases hset
    | event _ _ | process | thread _ _ =>
      rw [hsetup] at hkind
      cases hkind

/-- **A wait after the signal is spent is not satisfied**, although the object is signalled. -/
theorem wait_of_spent {n : Notice} (h : NoticeInvariant o n m) (hn : n = .spent) :
    ∀ k, keWaitForSingleObject o m.ke ≠ .ok (.acquired, k) := by
  intro k hwait
  have hsignal := h.signal
  rw [hn, if_neg (by decide)] at hsignal
  rcases keWaitForSingleObject_signal hwait with ⟨hout, -⟩ | ⟨-, hpos, -⟩
  · cases hout
  · omega

/-- **When notification objects do what they should**: in every state that a run reaches, waits and
signals made now do what the latch says exactly if the last signal is not spent. -/
theorem staysSignalled_iff (hset : (setup o).isNotification = true) (hsound : (setup o).Sound)
    (h : (signalSystem setup).Run tr m) :
    StaysSignalled setup o (signalledIn setup o tr) m ↔ noticeIn setup o tr ≠ .spent := by
  have hinv := noticeInvariant_run hset hsound h
  have hflag := signalledIn_eq setup o tr
  constructor
  · intro hstays hspent
    rw [hspent] at hflag
    obtain ⟨k, hwait⟩ := hstays.returns (hflag.trans rfl)
    exact wait_of_spent hinv hspent k hwait
  · intro hspent
    rw [hflag]
    refine ⟨fun hunsignalled => ?_, fun hsignalled => ?_, fun e he => hinv.wakes ?_ he⟩
    · have hn : noticeIn setup o tr = .unsignalled := by simpa using hunsignalled
      have hzero : (m.ke.header o).SignalState = 0 := by
        rw [hinv.signal, hn]
        rfl
      rw [keWaitForSingleObject_of_waitable hinv.type]
      constructor
      · intro k hwait
        rcases kiDHeaderAcquire_signal hwait with ⟨hout, -⟩ | ⟨-, hpos, -⟩
        · cases hout
        · omega
      · exact kiDHeaderAcquire_ready hinv.lists hzero
    · have hn : noticeIn setup o tr = .fresh := by
        have hne : noticeIn setup o tr ≠ .unsignalled := of_decide_eq_true hsignalled
        cases hcase : noticeIn setup o tr with
        | unsignalled => exact absurd hcase hne
        | spent => exact absurd hcase hspent
        | fresh => rfl
      have hone : (m.ke.header o).SignalState = 1 := by
        rw [hinv.signal, hn]
        rfl
      rw [keWaitForSingleObject_of_waitable hinv.type]
      exact ⟨_, kiDHeaderAcquire_of_pos (by omega)⟩
    · intro hevent
      rw [(signalSystem_invariant h).2 o]
      cases hsetup : setup o with
      | semaphore _ _ | process | thread _ _ =>
        rw [hsetup] at hevent
        cases hevent
      | event type state =>
        cases type with
        | NotificationEvent => rfl
        | SynchronizationEvent =>
          rw [hsetup] at hset
          cases hset

end Runs

/-- A process that has just terminated, with a thread that waited for it. -/
theorem staysSignalled_iff_process : ∃ tr, ∃ m : SignalMachine Bool Unit,
    (signalSystem fun _ => .process).Run tr m
      ∧ StaysSignalled (fun _ => .process) () (signalledIn (fun _ => .process) () tr) m := by
  obtain ⟨tr, m, hrun, hfresh⟩ := twoThreadsSignal_run .process (by rintro _ _ ⟨⟩)
    [.wait (), .releaseNotification ()]
    (fun tr _ => noticeIn (fun _ => .process) () tr ≠ .spent) (by decide +kernel)
  refine ⟨tr, m, hrun, (staysSignalled_iff ?_ ?_ hrun).mpr (of_decide_eq_true hfresh)⟩
  · rfl
  · exact trivial

/-- One thread has waited for a process that has terminated; the next wait is not satisfied. -/
theorem staysSignalled_fails : ¬ ∀ (setup : Unit → SignalSetup) tr (m : SignalMachine Bool Unit),
    (setup ()).isNotification = true → (signalSystem setup).Run tr m →
    StaysSignalled setup () (signalledIn setup () tr) m := by
  intro h
  obtain ⟨tr, m, hrun, hspent⟩ := twoThreadsSignal_run .process (by rintro _ _ ⟨⟩)
    [.releaseNotification (), .wait ()]
    (fun tr _ => noticeIn (fun _ => .process) () tr = .spent) (by decide +kernel)
  have hn := of_decide_eq_true hspent
  have hflag := signalledIn_eq (fun _ => SignalSetup.process) () tr
  rw [hn] at hflag
  obtain ⟨k, hwait⟩ := (h _ tr m rfl hrun).returns (hflag.trans rfl)
  have hinv : NoticeInvariant () (noticeIn (fun _ => SignalSetup.process) () tr) m := by
    apply noticeInvariant_run _ _ hrun
    · rfl
    · exact trivial
  exact wait_of_spent hinv hn k hwait

end KaushOS
