import KaushOS.Drivers.Ide

/-! # Runs of the disk driver

`IdeDpcRoutine` releases every channel that has ever issued a command, whichever channel has
interrupted and why.

* **`IdeEvent.run_frame`** — what a step leaves alone in the dispatcher objects.
* **`ChannelInvariant`** — the books of a channel: who holds it, its units, commands and interrupts.
* **`SafeLooks`** — a run in which the DPC looks only at channels that have something to report.
* **`completionsMatch_iff`** — these are the runs in which completions match commands.
* **`completionsMatch_fails`** — an interrupt of the other channel completes a read. -/

namespace KaushOS

open CircularList Transition

variable {τ : Type} [DecidableEq τ]

/-! ## Dispatcher objects -/

/-- The dispatcher object that a step changes. -/
def IdeEvent.object : IdeEvent τ → Option IdeObject
  | .lock c | .unlocked c => some (.lock c)
  | .down c | .look c => some (.completion_wait c)
  | _ => none

section Step

variable {m m' : IdeMachine τ} {e : IdeEvent τ} {c d : Channel} {tr : List (IdeLabel τ)}
  {live : Finset τ} {k k' : Ke τ IdeObject} {w : IdeObject → List τ} {o : IdeObject}

/-- **What a step leaves alone**: the invariant of the wait lists, the types, and all other
objects. -/
structure IdeFrame (o : Option IdeObject) (m m' : IdeMachine τ) : Prop where
  lists : SignalLists m'.live m'.ke (waitQueues m'.ke)
  type : ∀ i, (m'.ke.header i).type = (m.ke.header i).type
  signal : ∀ i, o ≠ some i →
    (m'.ke.header i).SignalState = (m.ke.header i).SignalState
  queue : ∀ i, o ≠ some i → waitQueue i m'.ke = waitQueue i m.ke

/-- A wait, and the resumption of the thread that runs then. -/
theorem ideFrame_wait (h : SignalLists m.live m.ke (waitQueues m.ke)) {outcome : WaitOutcome}
    (hrun : keWaitForSingleObject o m.ke = .ok (outcome, k)) (hke : m'.ke = keResume k)
    (hlive : m'.live = m.live) : IdeFrame (some o) m m' := by
  obtain ⟨w', hlists, hmoves⟩ := keWaitForSingleObject_moves h hrun
  have hresume := hlists.resume
  have hw : waitQueues m'.ke = w' := by
    rw [hke]
    exact hresume.queues_eq
  have hsame := sameSignals_keResume k
  have hne : ∀ {i}, some o ≠ some i → i ≠ o := by
    rintro i hi rfl
    exact hi rfl
  refine ⟨?_, fun i => ?_, fun i hi => ?_, fun i hi => ?_⟩
  · rw [hw, hlive, hke]
    exact hresume
  · rw [hke, hsame.type]
    rcases keWaitForSingleObject_signal hrun with ⟨-, -, hs⟩ | ⟨-, -, hs⟩
    · exact hs.type i
    · exact hs.type i
  · rw [hke, hsame.signal]
    rcases keWaitForSingleObject_signal hrun with ⟨-, -, hs⟩ | ⟨-, -, hs⟩
    · exact hs.signal i
    · exact (hs.signal i).trans (if_neg (hne hi))
  · show waitQueues m'.ke i = waitQueues m.ke i
    rw [hw]
    rcases hmoves with ⟨-, hw'⟩ | ⟨-, hw'⟩
    · rw [hw', Function.update_of_ne (hne hi)]
    · rw [hw']

/-- A release, and what the thread records behind it. -/
theorem ideFrame_release (h : SignalLists m.live m.ke (waitQueues m.ke)) {handed : Option τ}
    (hrun : kiDHeaderRelease o m.ke = .ok (handed, k))
    (hke : m'.ke = k ∨ m'.ke = k.setControl k.sched.CurrentThread .outside)
    (hlive : m'.live = m.live) : IdeFrame (some o) m m' := by
  obtain ⟨hlists, -⟩ := kiDHeaderRelease_moves h hrun
  have hsame : m'.ke.header = k.header ∧ waitQueues m'.ke = waitQueues k
      ∧ SignalLists m.live m'.ke (Function.update (waitQueues m.ke) o (waitQueues m.ke o).tail) := by
    rcases hke with hke | hke
    · rw [hke]
      exact ⟨rfl, rfl, hlists⟩
    · rw [hke]
      exact ⟨rfl, rfl, hlists.setControl .outside⟩
  obtain ⟨hheader, hqueues, hlists'⟩ := hsame
  have hw : waitQueues m'.ke = Function.update (waitQueues m.ke) o (waitQueues m.ke o).tail :=
    hlists'.queues_eq
  have hne : ∀ {i}, some o ≠ some i → i ≠ o := by
    rintro i hi rfl
    exact hi rfl
  refine ⟨?_, fun i => ?_, fun i hi => ?_, fun i hi => ?_⟩
  · rw [hw, hlive]
    exact hlists'
  · rw [hheader]
    rcases kiDHeaderRelease_signal hrun with ⟨-, hs⟩ | ⟨-, hs⟩
    · exact hs.type i
    · exact hs.type i
  · rw [hheader]
    rcases kiDHeaderRelease_signal hrun with ⟨-, hs⟩ | ⟨-, hs⟩
    · exact hs.signal i
    · exact (hs.signal i).trans (if_neg (hne hi))
  · show waitQueues m'.ke i = waitQueues m.ke i
    rw [hw, Function.update_of_ne (hne hi)]

/-- A step that leaves headers and wait lists as they are. -/
theorem ideFrame_same (h : SignalLists m'.live m'.ke (waitQueues m.ke))
    (hheader : m'.ke.header = m.ke.header) (o : Option IdeObject) : IdeFrame o m m' := by
  have hw : waitQueues m'.ke = waitQueues m.ke := h.queues_eq
  exact ⟨hw ▸ h, fun i => by rw [hheader], fun i _ => by rw [hheader], fun i _ => congrFun hw i⟩

/-- **Every step has its frame.** -/
theorem IdeEvent.run_frame (h : SignalLists m.live m.ke (waitQueues m.ke)) (hen : e.Enabled m)
    (hrun : e.run m = .ok m') : IdeFrame e.object m m' := by
  cases e with
  | sched e =>
    obtain ⟨-, he, hb, -⟩ := hen
    obtain ⟨sched, hstep, hrun⟩ := kernel_bind_eq_ok.mp hrun
    cases hrun
    obtain ⟨-, -, hheader, -⟩ := newThread_frame e { m.ke with sched }
    apply ideFrame_same (h.background he hb hstep).resume
    rw [(keResume_frame _).2.1, hheader]
  | lock c | down c =>
    obtain ⟨⟨outcome, k⟩, hwait, hrun⟩ := kernel_bind_eq_ok.mp hrun
    cases hrun
    exact ideFrame_wait h hwait rfl rfl
  | unlock c =>
    obtain ⟨k, hbegin, hrun⟩ := kernel_bind_eq_ok.mp hrun
    cases hrun
    obtain ⟨-, rfl⟩ := keReleaseMutantBegin_eq_ok.mp hbegin
    apply ideFrame_same
    · exact (h.setOwner _).setControl (.inReleaseMutant (.lock c))
    · rfl
  | unlocked c =>
    obtain ⟨⟨handed, k⟩, hlocked, hrun⟩ := kernel_bind_eq_ok.mp hrun
    cases hrun
    obtain ⟨k₁, hrelease, rfl⟩ := keReleaseMutantLocked_release hlocked
    exact ideFrame_release h hrelease (Or.inr rfl) rfl
  | look c =>
    by_cases hexpecting : m.expecting_interrupt c = true
    · simp only [IdeEvent.run, hexpecting, if_true] at hrun
      obtain ⟨⟨old, handed, k⟩, hrelease, hrun⟩ := kernel_bind_eq_ok.mp hrun
      cases hrun
      exact ideFrame_release h (keReleaseSemaphore_release hrelease).2.2 (Or.inl rfl) rfl
    · simp only [IdeEvent.run, hexpecting] at hrun
      cases hrun
      apply ideFrame_same
      · exact h
      · rfl
  | issue c | interrupt c own | dpc =>
    cases hrun
    apply ideFrame_same
    · exact h
    · rfl

/-! ## The books of a channel -/

/-- The thread is between the issue of its command and the end of its `sema_down`. -/
def DiskPending (c : Channel) (m : IdeMachine τ) (t : τ) : Prop :=
  m.phase t = .issued c
  ∨ (m.phase t = .waited c ∧ t ∈ waitQueue (.completion_wait c) m.ke)

/-- **The books of a channel.** At most one thread is on it, and the lock is taken when one is;
units of `completion_wait` are releases that no thread has passed on yet; there is one command for
each thread that has passed, and one for the thread that has yet to; and the device has answered all
commands but those outstanding. -/
structure ChannelInvariant (c : Channel) (tr : List (IdeLabel τ)) (m : IdeMachine τ) : Prop where
  held : ((∀ t, (m.phase t).channel ≠ some c) ∧ (m.ke.header (.lock c)).SignalState = 1)
    ∨ ∃ t, (∀ x, (m.phase x).channel = some c ↔ x = t) ∧ (m.ke.header (.lock c)).SignalState = 0
  free : waitQueue (.lock c) m.ke = []
  waiting : ∀ t ∈ waitQueue (.completion_wait c) m.ke, m.phase t = .waited c
  stock : 0 ≤ (m.ke.header (.completion_wait c)).SignalState
  units : (m.ke.header (.completion_wait c)).SignalState + idePasses c tr = ideReleases c tr
  turn : ((∀ t, ¬ DiskPending c m t) ∧ ideCommands c tr = idePasses c tr)
    ∨ ∃ t, DiskPending c m t ∧ ideCommands c tr = idePasses c tr + 1
  device : ideInterrupts c tr + m.outstanding c = ideCommands c tr
  quiet : m.expecting_interrupt c = false → ideCommands c tr = 0

/-- **Nothing happens on a channel.** -/
structure SameChannel (c : Channel) (m m' : IdeMachine τ) : Prop where
  phase : ∀ t, m'.phase t = m.phase t
    ∨ ((m.phase t).channel ≠ some c ∧ (m'.phase t).channel ≠ some c)
  lock : (m'.ke.header (.lock c)).SignalState = (m.ke.header (.lock c)).SignalState
  completion : (m'.ke.header (.completion_wait c)).SignalState
    = (m.ke.header (.completion_wait c)).SignalState
  free : waitQueue (.lock c) m'.ke = waitQueue (.lock c) m.ke
  queue : waitQueue (.completion_wait c) m'.ke = waitQueue (.completion_wait c) m.ke
  outstanding : m'.outstanding c = m.outstanding c
  expecting : m'.expecting_interrupt c = m.expecting_interrupt c

omit [DecidableEq τ] in
/-- A thread that is in a phase of a channel is on the channel before and after. -/
theorem SameChannel.phase_iff [DecidableEq τ] (h : SameChannel c m m') {t : τ} {p : DiskPhase}
    (hp : p.channel = some c) : m'.phase t = p ↔ m.phase t = p := by
  rcases h.phase t with heq | ⟨hm, hm'⟩
  · rw [heq]
  · constructor
    · rintro rfl
      exact absurd hp hm'
    · rintro rfl
      exact absurd hp hm

/-- The threads on the channel stay the same. -/
theorem SameChannel.channel_iff (h : SameChannel c m m') (t : τ) :
    (m'.phase t).channel = some c ↔ (m.phase t).channel = some c := by
  rcases h.phase t with heq | ⟨hm, hm'⟩
  · rw [heq]
  · exact iff_of_false hm' hm

/-- So does the thread that has yet to pass. -/
theorem SameChannel.pending_iff (h : SameChannel c m m') (t : τ) :
    DiskPending c m' t ↔ DiskPending c m t := by
  unfold DiskPending
  rw [h.phase_iff rfl, h.phase_iff rfl, h.queue]

/-- A step that counts for nothing on the channel. -/
structure NoCount (c : Channel) (l : IdeLabel τ) : Prop where
  command : l.1 ≠ .issue c
  interrupt : l.1 ≠ .interrupt c true
  release : ¬ IdeReleases c l
  pass : ¬ IdePasses c l

/-- The counts stay the same. -/
theorem NoCount.counts {l : IdeLabel τ} (h : NoCount c l) (tr : List (IdeLabel τ)) :
    ideCommands c (l :: tr) = ideCommands c tr ∧ ideInterrupts c (l :: tr) = ideInterrupts c tr
      ∧ ideReleases c (l :: tr) = ideReleases c tr ∧ idePasses c (l :: tr) = idePasses c tr := by
  refine ⟨?_, ?_, ?_, ?_⟩
  · simp [ideCommands, h.command]
  · simp [ideInterrupts, h.interrupt]
  · simp [ideReleases, h.release]
  · simp [idePasses, h.pass]

/-- **Where nothing happens the books stay the same.** -/
theorem ChannelInvariant.same (h : ChannelInvariant c tr m) (hsame : SameChannel c m m')
    {l : IdeLabel τ} (hl : NoCount c l) : ChannelInvariant c (l :: tr) m' := by
  obtain ⟨hcommands, hinterrupts, hreleases, hpasses⟩ := hl.counts tr
  refine ⟨?_, by rw [hsame.free, h.free], ?_, by rw [hsame.completion]; exact h.stock, ?_, ?_, ?_, ?_⟩
  · rw [hsame.lock]
    rcases h.held with ⟨hnone, hone⟩ | ⟨t, ht, hzero⟩
    · exact Or.inl ⟨fun t => (hsame.channel_iff t).not.mpr (hnone t), hone⟩
    · exact Or.inr ⟨t, fun x => (hsame.channel_iff x).trans (ht x), hzero⟩
  · intro t ht
    rw [hsame.queue] at ht
    exact (hsame.phase_iff rfl).mpr (h.waiting t ht)
  · rw [hsame.completion, hpasses, hreleases]
    exact h.units
  · rw [hcommands, hpasses]
    rcases h.turn with ⟨hnone, heq⟩ | ⟨t, ht, heq⟩
    · exact Or.inl ⟨fun t => (hsame.pending_iff t).not.mpr (hnone t), heq⟩
    · exact Or.inr ⟨t, (hsame.pending_iff t).mpr ht, heq⟩
  · rw [hinterrupts, hsame.outstanding, hcommands]
    exact h.device
  · rw [hsame.expecting, hcommands]
    exact h.quiet

/-- **The invariant of the driver.** -/
structure IdeInvariant (tr : List (IdeLabel τ)) (m : IdeMachine τ) : Prop where
  lists : SignalLists m.live m.ke (waitQueues m.ke)
  type : ∀ o, (m.ke.header o).type = (ideSetup o : ObjectSetup τ).type
  channel : ∀ c, ChannelInvariant c tr m

/-! ## Steps elsewhere -/

/-- The channel whose books a step changes. -/
def IdeEvent.channel : IdeEvent τ → Option Channel
  | .lock c | .issue c | .down c | .unlocked c | .look c => some c
  | .interrupt c own => if own then some c else none
  | .sched _ | .unlock _ | .dpc => none

omit [DecidableEq τ] in
/-- A step that changes an object of a channel changes its books. -/
theorem IdeEvent.object_ne (hd : e.channel ≠ some d) :
    e.object ≠ some (.lock d) ∧ e.object ≠ some (.completion_wait d) := by
  cases e with
  | lock c | unlocked c | down c | look c =>
    have hc : c ≠ d := by
      rintro rfl
      exact hd rfl
    simp [IdeEvent.object, hc]
  | sched _ | issue _ | unlock _ | interrupt _ _ | dpc => simp [IdeEvent.object]

/-- The phase of the current thread. -/
@[simp] theorem IdeMachine.setPhase_current (m : IdeMachine τ) (p : DiskPhase) :
    m.setPhase p m.current = p := by
  simp [IdeMachine.setPhase]

/-- The phase of another thread. -/
theorem IdeMachine.setPhase_of_ne (m : IdeMachine τ) (p : DiskPhase) {t : τ} (ht : t ≠ m.current) :
    m.setPhase p t = m.phase t := by
  simp [IdeMachine.setPhase, ht]

/-- A thread that gets from one phase of a channel to the next is on no other channel. -/
theorem setPhase_other {p : DiskPhase} (hphase : (m.phase m.current).channel ≠ some d)
    (hp : p.channel ≠ some d) (t : τ) :
    m.setPhase p t = m.phase t ∨ ((m.phase t).channel ≠ some d ∧ (m.setPhase p t).channel ≠ some d) := by
  by_cases ht : t = m.current
  · subst ht
    exact Or.inr ⟨hphase, by rwa [m.setPhase_current]⟩
  · exact Or.inl (m.setPhase_of_ne p ht)

/-- **Nothing happens on the other channels.** -/
theorem IdeEvent.run_same (h : SignalLists m.live m.ke (waitQueues m.ke)) (hen : e.Enabled m)
    (hrun : e.run m = .ok m') (hd : e.channel ≠ some d) : SameChannel d m m' := by
  have hframe := IdeEvent.run_frame h hen hrun
  obtain ⟨hlock, hcompletion⟩ := IdeEvent.object_ne hd
  have hrest : (∀ t, m'.phase t = m.phase t
      ∨ ((m.phase t).channel ≠ some d ∧ (m'.phase t).channel ≠ some d))
      ∧ m'.outstanding d = m.outstanding d
      ∧ m'.expecting_interrupt d = m.expecting_interrupt d := by
    cases e with
    | sched e =>
      obtain ⟨sched, -, hrun⟩ := kernel_bind_eq_ok.mp hrun
      cases hrun
      exact ⟨fun t => Or.inl rfl, rfl, rfl⟩
    | lock c =>
      obtain ⟨⟨outcome, k⟩, -, hrun⟩ := kernel_bind_eq_ok.mp hrun
      cases hrun
      refine ⟨setPhase_other ?_ hd, rfl, rfl⟩
      rw [hen.2.2]
      simp [DiskPhase.channel]
    | issue c =>
      have hdc : d ≠ c := by
        rintro rfl
        exact hd rfl
      cases hrun
      refine ⟨setPhase_other ?_ hd, Function.update_of_ne hdc _ _, Function.update_of_ne hdc _ _⟩
      rw [hen.2.2]
      exact hd
    | down c =>
      obtain ⟨⟨outcome, k⟩, -, hrun⟩ := kernel_bind_eq_ok.mp hrun
      cases hrun
      refine ⟨setPhase_other ?_ hd, rfl, rfl⟩
      rw [hen.2.2]
      exact hd
    | unlock c =>
      obtain ⟨k, -, hrun⟩ := kernel_bind_eq_ok.mp hrun
      cases hrun
      exact ⟨fun t => Or.inl rfl, rfl, rfl⟩
    | unlocked c =>
      obtain ⟨⟨handed, k⟩, -, hrun⟩ := kernel_bind_eq_ok.mp hrun
      cases hrun
      refine ⟨setPhase_other ?_ (by simp [DiskPhase.channel]), rfl, rfl⟩
      rw [hen.2.2]
      exact hd
    | interrupt c own =>
      cases hrun
      refine ⟨fun t => Or.inl rfl, ?_, rfl⟩
      cases own with
      | false => rfl
      | true =>
        have hdc : d ≠ c := by
          rintro rfl
          exact hd rfl
        exact Function.update_of_ne hdc _ _
    | dpc =>
      cases hrun
      exact ⟨fun t => Or.inl rfl, rfl, rfl⟩
    | look c =>
      by_cases hexpecting : m.expecting_interrupt c = true
      · simp only [IdeEvent.run, hexpecting, if_true] at hrun
        obtain ⟨⟨old, handed, k⟩, -, hrun⟩ := kernel_bind_eq_ok.mp hrun
        cases hrun
        exact ⟨fun t => Or.inl rfl, rfl, rfl⟩
      · simp only [IdeEvent.run, hexpecting] at hrun
        cases hrun
        exact ⟨fun t => Or.inl rfl, rfl, rfl⟩
  obtain ⟨hphase, hout, hexp⟩ := hrest
  exact ⟨hphase, hframe.signal _ hlock, hframe.signal _ hcompletion, hframe.queue _ hlock,
    hframe.queue _ hcompletion, hout, hexp⟩

omit [DecidableEq τ] in
/-- Nothing is counted on the other channels. -/
theorem IdeEvent.noCount [DecidableEq τ] (hd : e.channel ≠ some d) : NoCount d (e, m) := by
  have hne : ∀ {e' : IdeEvent τ}, e'.channel = some d → e ≠ e' := by
    rintro e' he rfl
    exact hd he
  refine ⟨hne rfl, hne rfl, fun hr => hne rfl hr.1, ?_⟩
  rintro (⟨he, -⟩ | ⟨hr, -⟩)
  · exact hne rfl he
  · exact hne rfl hr.1

/-! ## Steps on the channel -/

/-- Who is on a channel is alone on it. -/
theorem ChannelInvariant.held_by (h : ChannelInvariant c tr m) {t : τ}
    (ht : (m.phase t).channel = some c) :
    (∀ x, (m.phase x).channel = some c ↔ x = t) ∧ (m.ke.header (.lock c)).SignalState = 0 := by
  rcases h.held with ⟨hnone, -⟩ | ⟨y, hy, hzero⟩
  · exact absurd ht (hnone t)
  · obtain rfl := (hy t).mp ht
    exact ⟨hy, hzero⟩

/-- Whoever is pending is on the channel. -/
theorem DiskPending.channel {t : τ} (h : DiskPending c m t) : (m.phase t).channel = some c := by
  rcases h with hp | ⟨hp, -⟩
  · rw [hp]
    rfl
  · rw [hp]
    rfl

/-- Commands and passes, when the only thread on the channel is not pending. -/
theorem ChannelInvariant.settled (h : ChannelInvariant c tr m) {t : τ}
    (ht : (m.phase t).channel = some c) (hp : ¬ DiskPending c m t) :
    (∀ x, ¬ DiskPending c m x) ∧ ideCommands c tr = idePasses c tr := by
  have hnone : ∀ x, ¬ DiskPending c m x := by
    intro x hx
    obtain rfl := ((h.held_by ht).1 x).mp hx.channel
    exact hp hx
  rcases h.turn with ⟨-, heq⟩ | ⟨x, hx, -⟩
  · exact ⟨hnone, heq⟩
  · exact absurd hx (hnone x)

/-- Commands and passes, when a thread is pending. -/
theorem ChannelInvariant.pending (h : ChannelInvariant c tr m) {t : τ} (hp : DiskPending c m t) :
    ideCommands c tr = idePasses c tr + 1 := by
  rcases h.turn with ⟨hnone, -⟩ | ⟨x, -, heq⟩
  · exact absurd hp (hnone t)
  · exact heq

/-- **`lock_acquire`** finds nobody on the channel. -/
theorem ChannelInvariant.lock (h : ChannelInvariant c tr m) (hlists : SignalLists m.live m.ke (waitQueues m.ke))
    (htype : (m.ke.header (.lock c)).type = .MutantObject)
    (hen : (IdeEvent.lock c : IdeEvent τ).Enabled m) (hrun : (IdeEvent.lock c).run m = .ok m') :
    ChannelInvariant c ((.lock c, m) :: tr) m' := by
  have hframe := IdeEvent.run_frame hlists hen hrun
  obtain ⟨⟨outcome, k⟩, hwait, hrun⟩ := kernel_bind_eq_ok.mp hrun
  cases hrun
  obtain ⟨-, hpos, -, rfl⟩ := (keWaitForSingleObject_mutant_eq_ok htype).mp hwait
  rcases h.held with ⟨hnone, hone⟩ | ⟨t, -, hzero⟩
  · have hcount : NoCount c (.lock c, m) :=
      ⟨by simp, by simp, by simp [IdeReleases], by simp [IdePasses, IdeReleases]⟩
    obtain ⟨hcommands, hinterrupts, hreleases, hpasses⟩ := hcount.counts tr
    have hqueue := hframe.queue (.completion_wait c) (by simp [IdeEvent.object])
    have hempty : waitQueue (.completion_wait c) m.ke = [] := by
      apply List.eq_nil_iff_forall_not_mem.mpr
      intro t ht
      have hphase := h.waiting t ht
      exact hnone t (by rw [hphase]; rfl)
    have hpending : ∀ t, ¬ DiskPending c { m with
        ke := keResume (takeMutant (.lock c) m.ke), phase := m.setPhase (.locked c) } t := by
      rintro t (hp | ⟨-, ht⟩)
      · have hp' : m.setPhase (.locked c) t = .issued c := hp
        by_cases htc : t = m.current
        · rw [htc, m.setPhase_current] at hp'
          cases hp'
        · rw [m.setPhase_of_ne _ htc] at hp'
          exact hnone t (by rw [hp']; rfl)
      · rw [hqueue, hempty] at ht
        cases ht
    have hsignal := hframe.signal (.completion_wait c) (by simp [IdeEvent.object])
    refine ⟨Or.inr ⟨m.current, fun x => ?_, ?_⟩, ?_, ?_, by rw [hsignal]; exact h.stock, ?_,
      Or.inl ⟨hpending, ?_⟩, ?_, ?_⟩
    · by_cases hx : x = m.current
      · subst hx
        simp [IdeMachine.setPhase, DiskPhase.channel]
      · simpa [IdeMachine.setPhase, hx] using hnone x
    · show ((keResume (takeMutant (.lock c) m.ke)).header (.lock c)).SignalState = 0
      rw [(keResume_frame _).2.1]
      exact (signal_setSignal m.ke (.lock c) (.lock c) _).trans (by simp [hone])
    · have hlists' := ((hlists.take hpos).setOwner (Function.update m.ke.OwnerThread (.lock c)
        (some m.ke.sched.CurrentThread))).resume
      exact (hlists'.waitQueue_eq (.lock c)).trans h.free
    · intro t ht
      rw [hqueue, hempty] at ht
      cases ht
    · rw [hsignal, hpasses, hreleases]
      exact h.units
    · rcases h.turn with ⟨-, heq⟩ | ⟨t, ht, -⟩
      · rw [hcommands, hpasses, heq]
      · exact absurd ht.channel (hnone t)
    · rw [hinterrupts, hcommands]
      exact h.device
    · rw [hcommands]
      exact h.quiet
  · omega

/-- **`issue_pio_command`** puts the thread between command and completion. -/
theorem ChannelInvariant.issue (h : ChannelInvariant c tr m)
    (hen : (IdeEvent.issue c : IdeEvent τ).Enabled m) (hrun : (IdeEvent.issue c).run m = .ok m') :
    ChannelInvariant c ((.issue c, m) :: tr) m' := by
  have hphase := hen.2.2
  have hchannel : (m.phase m.current).channel = some c := by
    rw [hphase]
    rfl
  obtain ⟨honly, hzero⟩ := h.held_by hchannel
  have hnot : ¬ DiskPending c m m.current := by
    rintro (hp | ⟨hp, -⟩)
    · rw [hphase] at hp
      cases hp
    · rw [hphase] at hp
      cases hp
  obtain ⟨-, hsettled⟩ := h.settled hchannel hnot
  have hcommands : ideCommands c ((.issue c, m) :: tr) = ideCommands c tr + 1 := by
    simp [ideCommands]
  have hinterrupts : ideInterrupts c ((.issue c, m) :: tr) = ideInterrupts c tr := by
    simp [ideInterrupts]
  have hreleases : ideReleases c ((.issue c, m) :: tr) = ideReleases c tr := by
    simp [ideReleases, IdeReleases]
  have hpasses : idePasses c ((.issue c, m) :: tr) = idePasses c tr := by
    simp [idePasses, IdePasses, IdeReleases]
  cases hrun
  refine ⟨Or.inr ⟨m.current, fun x => ?_, hzero⟩, h.free, fun t ht => ?_, h.stock, ?_,
    Or.inr ⟨m.current, Or.inl ?_, ?_⟩, ?_, ?_⟩
  · by_cases hx : x = m.current
    · subst hx
      simp [DiskPhase.channel]
    · simpa [m.setPhase_of_ne _ hx, hx] using (honly x).not.mpr hx
  · have hold := h.waiting t ht
    have htc : t ≠ m.current := by
      rintro rfl
      rw [hphase] at hold
      cases hold
    show m.setPhase (.issued c) t = .waited c
    rw [m.setPhase_of_ne _ htc]
    exact hold
  · rw [hpasses, hreleases]
    exact h.units
  · exact m.setPhase_current _
  · rw [hcommands, hpasses, hsettled]
  · rw [hinterrupts, hcommands]
    show ideInterrupts c tr + Function.update m.outstanding c (m.outstanding c + 1) c = _
    rw [Function.update_self, ← h.device]
    omega
  · intro hquiet
    simp at hquiet

/-- A thread that runs is on no wait list. -/
theorem current_not_waiting (h : SignalLists m.live m.ke (waitQueues m.ke)) (o : IdeObject) :
    m.current ∉ waitQueue o m.ke :=
  h.counted.current_not_mem o

/-- **`sema_down`** passes at once, or leaves the thread pending on the wait list. -/
theorem ChannelInvariant.down (h : ChannelInvariant c tr m)
    (hlists : SignalLists m.live m.ke (waitQueues m.ke))
    (hen : (IdeEvent.down c : IdeEvent τ).Enabled m) (hrun : (IdeEvent.down c).run m = .ok m') :
    ChannelInvariant c ((.down c, m) :: tr) m' := by
  have hframe := IdeEvent.run_frame hlists hen hrun
  have hphase := hen.2.2
  have hchannel : (m.phase m.current).channel = some c := by
    rw [hphase]
    rfl
  obtain ⟨honly, hzero⟩ := h.held_by hchannel
  have hpending := h.pending (Or.inl hphase)
  obtain ⟨⟨outcome, k⟩, hwait, hrun⟩ := kernel_bind_eq_ok.mp hrun
  have hke : m'.ke = keResume k := by
    cases hrun
    rfl
  have hphase' : m'.phase = m.setPhase (.waited c) := by
    cases hrun
    rfl
  have hdevice : m'.outstanding = m.outstanding ∧ m'.expecting_interrupt = m.expecting_interrupt := by
    cases hrun
    exact ⟨rfl, rfl⟩
  have honly' : ∀ x, (m'.phase x).channel = some c ↔ x = m.current := by
    intro x
    rw [hphase']
    by_cases hx : x = m.current
    · subst hx
      simp [DiskPhase.channel]
    · simpa [m.setPhase_of_ne _ hx, hx] using (honly x).not.mpr hx
  have hlock : (m'.ke.header (.lock c)).SignalState = 0 := by
    rw [hframe.signal _ (by simp [IdeEvent.object]), hzero]
  have hfree : waitQueue (.lock c) m'.ke = [] := by
    rw [hframe.queue _ (by simp [IdeEvent.object]), h.free]
  have hwaited : m'.phase m.current = .waited c := by
    rw [hphase', m.setPhase_current]
  -- nobody else is on the channel, so nobody is on the wait list
  have hempty : waitQueue (.completion_wait c) m.ke = [] := by
    apply List.eq_nil_iff_forall_not_mem.mpr
    intro t ht
    have hold := h.waiting t ht
    obtain rfl := (honly t).mp (by rw [hold]; rfl)
    exact current_not_waiting hlists _ ht
  have hcommands : ideCommands c ((.down c, m) :: tr) = ideCommands c tr := by
    simp [ideCommands]
  have hinterrupts : ideInterrupts c ((.down c, m) :: tr) = ideInterrupts c tr := by
    simp [ideInterrupts]
  have hreleases : ideReleases c ((.down c, m) :: tr) = ideReleases c tr := by
    simp [ideReleases, IdeReleases]
  obtain ⟨w', hlists', hmoves⟩ := keWaitForSingleObject_moves hlists hwait
  have hqueue : waitQueue (.completion_wait c) m'.ke = w' (.completion_wait c) := by
    rw [hke]
    exact hlists'.resume.waitQueue_eq _
  have hsignal : (m'.ke.header (.completion_wait c)).SignalState
      = (k.header (.completion_wait c)).SignalState := by
    rw [hke, (keResume_frame k).2.1]
  have hunits := h.units
  refine ⟨Or.inr ⟨m.current, honly', hlock⟩, hfree, ?_, ?_, ?_, ?_, ?_, ?_⟩
  · intro t ht
    rw [hqueue] at ht
    rcases hmoves with ⟨-, hw⟩ | ⟨-, hw⟩
    · rw [hw, Function.update_self] at ht
      have ht' : t ∈ waitQueue (.completion_wait c) m.ke ++ [m.current] := ht
      rw [hempty, List.nil_append, List.mem_singleton] at ht'
      rw [ht', hwaited]
    · rw [hw] at ht
      have ht' : t ∈ waitQueue (.completion_wait c) m.ke := ht
      rw [hempty] at ht'
      cases ht'
  · rw [hsignal]
    rcases keWaitForSingleObject_signal hwait with ⟨-, hnone, hs⟩ | ⟨-, hpos, hs⟩
    · rw [hs.signal, hnone]
    · rw [hs.signal, if_pos rfl]
      omega
  · rw [hsignal, hreleases]
    rcases keWaitForSingleObject_signal hwait with ⟨-, hnone, hs⟩ | ⟨-, hpos, hs⟩
    · have hpasses : idePasses c ((.down c, m) :: tr) = idePasses c tr := by
        simp [idePasses, IdePasses, IdeReleases, hnone]
      rw [hs.signal, hpasses]
      exact hunits
    · have hpasses : idePasses c ((.down c, m) :: tr) = idePasses c tr + 1 := by
        simp [idePasses, IdePasses, hpos]
      rw [hs.signal, if_pos rfl, hpasses]
      push_cast
      omega
  · rcases hmoves with ⟨hnone, hw⟩ | ⟨hpos, hw⟩
    · have hpasses : idePasses c ((.down c, m) :: tr) = idePasses c tr := by
        simp [idePasses, IdePasses, IdeReleases, hnone]
      refine Or.inr ⟨m.current, Or.inr ⟨hwaited, ?_⟩, by rw [hcommands, hpasses, hpending]⟩
      rw [hqueue, hw, Function.update_self]
      exact List.mem_append_right _ List.mem_cons_self
    · have hpasses : idePasses c ((.down c, m) :: tr) = idePasses c tr + 1 := by
        simp [idePasses, IdePasses, hpos]
      refine Or.inl ⟨?_, by rw [hcommands, hpasses, hpending]⟩
      rintro t (hp | ⟨-, ht⟩)
      · obtain rfl := (honly' t).mp (by rw [hp]; rfl)
        rw [hwaited] at hp
        cases hp
      · rw [hqueue, hw] at ht
        have ht' : t ∈ waitQueue (.completion_wait c) m.ke := ht
        rw [hempty] at ht'
        cases ht'
  · rw [hinterrupts, hcommands, hdevice.1]
    exact h.device
  · rw [hcommands, hdevice.2]
    exact h.quiet

/-- **`lock_release`** leaves the channel to the next thread. -/
theorem ChannelInvariant.unlocked (h : ChannelInvariant c tr m)
    (hlists : SignalLists m.live m.ke (waitQueues m.ke))
    (hen : (IdeEvent.unlocked c : IdeEvent τ).Enabled m)
    (hrun : (IdeEvent.unlocked c).run m = .ok m') :
    ChannelInvariant c ((.unlocked c, m) :: tr) m' := by
  have hframe := IdeEvent.run_frame hlists hen hrun
  have hphase := hen.2.2
  have hchannel : (m.phase m.current).channel = some c := by
    rw [hphase]
    rfl
  obtain ⟨honly, hzero⟩ := h.held_by hchannel
  have hnot : ¬ DiskPending c m m.current := by
    rintro (hp | ⟨-, ht⟩)
    · rw [hphase] at hp
      cases hp
    · exact current_not_waiting hlists _ ht
  obtain ⟨-, hsettled⟩ := h.settled hchannel hnot
  have hcount : NoCount c (.unlocked c, m) :=
    ⟨by simp, by simp, by simp [IdeReleases], by simp [IdePasses, IdeReleases]⟩
  obtain ⟨hcommands, hinterrupts, hreleases, hpasses⟩ := hcount.counts tr
  obtain ⟨⟨handed, k⟩, hlocked, hrun⟩ := kernel_bind_eq_ok.mp hrun
  obtain ⟨k₁, hrelease, rfl⟩ := keReleaseMutantLocked_release hlocked
  have hke : m'.ke = k₁.setControl k₁.sched.CurrentThread .outside := by
    cases hrun
    rfl
  have hphase' : m'.phase = m.setPhase .outside := by
    cases hrun
    rfl
  have hdevice : m'.outstanding = m.outstanding ∧ m'.expecting_interrupt = m.expecting_interrupt := by
    cases hrun
    exact ⟨rfl, rfl⟩
  have hnone : ∀ t, (m'.phase t).channel ≠ some c := by
    intro t
    rw [hphase']
    by_cases ht : t = m.current
    · subst ht
      simp [DiskPhase.channel]
    · rw [m.setPhase_of_ne _ ht]
      exact (honly t).not.mpr ht
  have hqueue := hframe.queue (.completion_wait c) (by simp [IdeEvent.object])
  obtain ⟨hlists', -⟩ := kiDHeaderRelease_moves hlists hrelease
  have hsignal := hframe.signal (.completion_wait c) (by simp [IdeEvent.object])
  refine ⟨Or.inl ⟨hnone, ?_⟩, ?_, fun t ht => ?_, by rw [hsignal]; exact h.stock, ?_,
    Or.inl ⟨fun t ht => hnone t ht.channel, by rw [hcommands, hpasses, hsettled]⟩, ?_, ?_⟩
  · rw [hke]
    show (k₁.header (.lock c)).SignalState = 1
    rcases kiDHeaderRelease_signal hrelease with ⟨hfull, -⟩ | ⟨-, hs⟩
    · rw [hlists.listEmpty_iff.mpr h.free] at hfull
      cases hfull
    · rw [hs.signal, if_pos rfl, hzero]
      rfl
  · rw [hke]
    have hw := (hlists'.setControl .outside).waitQueue_eq (.lock c)
    rw [hw, Function.update_self]
    show (waitQueue (.lock c) m.ke).tail = []
    rw [h.free]
    rfl
  · rw [hqueue] at ht
    have hold := h.waiting t ht
    obtain rfl := (honly t).mp (by rw [hold]; rfl)
    exact absurd ht (current_not_waiting hlists _)
  · rw [hsignal, hpasses, hreleases]
    exact h.units
  · rw [hinterrupts, hcommands, hdevice.1]
    exact h.device
  · rw [hcommands, hdevice.2]
    exact h.quiet

/-- **An interrupt for a command** of the channel. -/
theorem ChannelInvariant.interrupt (h : ChannelInvariant c tr m)
    (hen : (IdeEvent.interrupt c true : IdeEvent τ).Enabled m)
    (hrun : (IdeEvent.interrupt c true).run m = .ok m') :
    ChannelInvariant c ((.interrupt c true, m) :: tr) m' := by
  have hcommands : ideCommands c ((.interrupt c true, m) :: tr) = ideCommands c tr := by
    simp [ideCommands]
  have hinterrupts : ideInterrupts c ((.interrupt c true, m) :: tr) = ideInterrupts c tr + 1 := by
    simp [ideInterrupts]
  have hreleases : ideReleases c ((.interrupt c true, m) :: tr) = ideReleases c tr := by
    simp [ideReleases, IdeReleases]
  have hpasses : idePasses c ((.interrupt c true, m) :: tr) = idePasses c tr := by
    simp [idePasses, IdePasses, IdeReleases]
  have hpos : 0 < m.outstanding c := hen rfl
  have hdevice := h.device
  cases hrun
  refine ⟨h.held, h.free, h.waiting, h.stock, ?_, ?_, ?_, ?_⟩
  · rw [hpasses, hreleases]
    exact h.units
  · rw [hcommands, hpasses]
    exact h.turn
  · rw [hinterrupts, hcommands]
    show ideInterrupts c tr + 1 + Function.update m.outstanding c (m.outstanding c - 1) c = _
    rw [Function.update_self]
    omega
  · rw [hcommands]
    exact h.quiet

/-- **`IdeDpcRoutine` at a channel** that expects an interrupt: a thread passes, or a unit is
stored. -/
theorem ChannelInvariant.look (h : ChannelInvariant c tr m)
    (hlists : SignalLists m.live m.ke (waitQueues m.ke))
    (hen : (IdeEvent.look c : IdeEvent τ).Enabled m) (hrun : (IdeEvent.look c).run m = .ok m')
    (hexpecting : m.expecting_interrupt c = true) :
    ChannelInvariant c ((.look c, m) :: tr) m' := by
  have hframe := IdeEvent.run_frame hlists hen hrun
  simp only [IdeEvent.run, hexpecting, if_true] at hrun
  obtain ⟨⟨old, handed, k⟩, hsemaphore, hrun⟩ := kernel_bind_eq_ok.mp hrun
  have hrelease := (keReleaseSemaphore_release hsemaphore).2.2
  have hke : m'.ke = k := by
    cases hrun
    rfl
  have hsame : m'.phase = m.phase ∧ m'.outstanding = m.outstanding
      ∧ m'.expecting_interrupt = m.expecting_interrupt := by
    cases hrun
    exact ⟨rfl, rfl, rfl⟩
  obtain ⟨hphase, hout, hexp⟩ := hsame
  have hrel : IdeReleases c (.look c, m) := ⟨rfl, hexpecting⟩
  have hcommands : ideCommands c ((.look c, m) :: tr) = ideCommands c tr := by
    simp [ideCommands]
  have hinterrupts : ideInterrupts c ((.look c, m) :: tr) = ideInterrupts c tr := by
    simp [ideInterrupts]
  have hreleases : ideReleases c ((.look c, m) :: tr) = ideReleases c tr + 1 := by
    simp [ideReleases, hrel]
  obtain ⟨hlists', -⟩ := kiDHeaderRelease_moves hlists hrelease
  have hqueue : waitQueue (.completion_wait c) m'.ke = (waitQueue (.completion_wait c) m.ke).tail := by
    rw [hke, hlists'.waitQueue_eq, Function.update_self]
    rfl
  have hunits := h.units
  have hheld : ((∀ t, (m'.phase t).channel ≠ some c) ∧ (m'.ke.header (.lock c)).SignalState = 1)
      ∨ ∃ t, (∀ x, (m'.phase x).channel = some c ↔ x = t)
        ∧ (m'.ke.header (.lock c)).SignalState = 0 := by
    rw [hphase, hframe.signal _ (by simp [IdeEvent.object])]
    exact h.held
  have hfree : waitQueue (.lock c) m'.ke = [] := by
    rw [hframe.queue _ (by simp [IdeEvent.object]), h.free]
  have hdevice : ideInterrupts c ((.look c, m) :: tr) + m'.outstanding c
      = ideCommands c ((.look c, m) :: tr) := by
    rw [hinterrupts, hcommands, hout]
    exact h.device
  have hquiet : m'.expecting_interrupt c = false → ideCommands c ((.look c, m) :: tr) = 0 := by
    rw [hexp, hcommands]
    exact h.quiet
  have hwaiting : ∀ t ∈ waitQueue (.completion_wait c) m'.ke, m'.phase t = .waited c := by
    intro t ht
    rw [hqueue] at ht
    rw [hphase]
    exact h.waiting t (List.mem_of_mem_tail ht)
  have hstock : 0 ≤ (m'.ke.header (.completion_wait c)).SignalState := by
    have hold := h.stock
    rw [hke]
    rcases kiDHeaderRelease_signal hrelease with ⟨-, hs⟩ | ⟨-, hs⟩
    · rw [hs.signal]
      exact hold
    · rw [hs.signal, if_pos rfl]
      omega
  cases hw : waitQueue (.completion_wait c) m.ke with
  | nil =>
    have hpasses : idePasses c ((.look c, m) :: tr) = idePasses c tr := by
      simp [idePasses, IdePasses, hw]
    refine ⟨hheld, hfree, hwaiting, hstock, ?_, ?_, hdevice, hquiet⟩
    · rw [hke, hpasses, hreleases]
      rcases kiDHeaderRelease_signal hrelease with ⟨hfull, -⟩ | ⟨-, hs⟩
      · rw [hlists.listEmpty_iff.mpr hw] at hfull
        cases hfull
      · rw [hs.signal, if_pos rfl]
        push_cast
        omega
    · have hpending : ∀ t, DiskPending c m' t ↔ DiskPending c m t := by
        intro t
        unfold DiskPending
        rw [hphase, hqueue, hw]
        rfl
      rw [hcommands, hpasses]
      rcases h.turn with ⟨hnone, heq⟩ | ⟨t, ht, heq⟩
      · exact Or.inl ⟨fun t => (hpending t).not.mpr (hnone t), heq⟩
      · exact Or.inr ⟨t, (hpending t).mpr ht, heq⟩
  | cons x rest =>
    have hpasses : idePasses c ((.look c, m) :: tr) = idePasses c tr + 1 := by
      simp [idePasses, IdePasses, hrel, hw]
    have hx : x ∈ waitQueue (.completion_wait c) m.ke := by
      rw [hw]
      exact List.mem_cons_self
    have hxphase := h.waiting x hx
    have hnodup : (x :: rest).Nodup := by
      rw [← hw]
      exact (hlists.counted.lists.each (.completion_wait c)).nodup
    have honly := (h.held_by (t := x) (by rw [hxphase]; rfl)).1
    refine ⟨hheld, hfree, hwaiting, hstock, ?_, ?_, hdevice, hquiet⟩
    · rw [hke, hpasses, hreleases]
      rcases kiDHeaderRelease_signal hrelease with ⟨-, hs⟩ | ⟨hempty, -⟩
      · rw [hs.signal]
        push_cast
        omega
      · have hnil := hlists.listEmpty_iff.mp hempty
        have hnil' : waitQueue (.completion_wait c) m.ke = [] := hnil
        rw [hw] at hnil'
        cases hnil'
    · refine Or.inl ⟨?_, ?_⟩
      · intro t ht
        have hchannel := ht.channel
        rw [hphase] at hchannel
        obtain rfl := (honly t).mp hchannel
        rcases ht with hp | ⟨-, hmem⟩
        · rw [hphase, hxphase] at hp
          cases hp
        · rw [hqueue, hw] at hmem
          exact (List.nodup_cons.mp hnodup).1 hmem
      · rw [hcommands, hpasses]
        exact h.pending (Or.inr ⟨hxphase, hx⟩)

/-- **Every step keeps the books.** -/
theorem IdeInvariant.step (h : IdeInvariant tr m) (hen : e.Enabled m) (hrun : e.run m = .ok m') :
    IdeInvariant ((e, m) :: tr) m' := by
  have hframe := IdeEvent.run_frame h.lists hen hrun
  refine ⟨hframe.lists, fun o => (hframe.type o).trans (h.type o), fun d => ?_⟩
  by_cases hd : e.channel = some d
  · cases e with
    | sched _ | unlock _ | dpc => cases hd
    | lock c =>
      obtain rfl := Option.some.inj hd
      exact (h.channel c).lock h.lists (h.type (.lock c)) hen hrun
    | issue c =>
      obtain rfl := Option.some.inj hd
      exact (h.channel c).issue hen hrun
    | down c =>
      obtain rfl := Option.some.inj hd
      exact (h.channel c).down h.lists hen hrun
    | unlocked c =>
      obtain rfl := Option.some.inj hd
      exact (h.channel c).unlocked h.lists hen hrun
    | interrupt c own =>
      cases own with
      | false => cases hd
      | true =>
        obtain rfl := Option.some.inj hd
        exact (h.channel c).interrupt hen hrun
    | look c =>
      obtain rfl := Option.some.inj hd
      by_cases hexpecting : m.expecting_interrupt c = true
      · exact (h.channel c).look h.lists hen hrun hexpecting
      · have hnone : NoCount c (.look c, m) :=
          ⟨by simp, by simp, by simp [IdeReleases, hexpecting], by simp [IdePasses, IdeReleases, hexpecting]⟩
        have hstep := hrun
        simp only [IdeEvent.run, hexpecting] at hstep
        cases hstep
        refine (h.channel c).same ?_ hnone
        exact ⟨fun t => Or.inl rfl, rfl, rfl, rfl, rfl, rfl, rfl⟩
  · exact (h.channel d).same (IdeEvent.run_same h.lists hen hrun hd) (IdeEvent.noCount hd)

end Step

/-! ## Runs -/

section Runs

variable {m m' : IdeMachine τ} {e : IdeEvent τ} {c : Channel} {tr : List (IdeLabel τ)}

/-- The driver as `disk_init` leaves it. -/
theorem ideInvariant_init (h : (ideSystem : System (IdeLabel τ) (IdeMachine τ)).init m) :
    IdeInvariant [] m := by
  obtain ⟨⟨start, tr, hsched⟩, hthreads, hphase, hdone, hdevice, -⟩ := h
  have hheader := fun o => (ObjectSetup.done_spec (hdone o)).1
  have hlists : SignalLists m.live m.ke fun _ => [] := by
    apply SignalLists.start hsched
    · exact fun t ht => (hthreads t ht).2
    · exact fun o => by rw [hheader o]
  have hqueue : ∀ o, waitQueue o m.ke = [] := fun o => hlists.waitQueue_eq o
  have hw : waitQueues m.ke = fun _ => [] := hlists.queues_eq
  refine ⟨hw ▸ hlists, fun o => by rw [hheader o], fun c => ?_⟩
  have hsignal : (m.ke.header (.completion_wait c)).SignalState = 0 := by
    rw [hheader]
    rfl
  refine ⟨Or.inl ⟨fun t => ?_, ?_⟩, hqueue _, fun t ht => ?_, by rw [hsignal], ?_,
    Or.inl ⟨?_, rfl⟩, ?_, fun _ => rfl⟩
  · rw [hphase t]
    simp [DiskPhase.channel]
  · rw [hheader]
    rfl
  · rw [hqueue] at ht
    cases ht
  · rw [hsignal]
    rfl
  · rintro t (hp | ⟨hp, -⟩)
    · rw [hphase t] at hp
      cases hp
    · rw [hphase t] at hp
      cases hp
  · rw [(hdevice c).2]
    rfl

/-- **The books in every run.** -/
theorem ideInvariant_run (h : ideSystem.Run tr m) : IdeInvariant tr m := by
  refine h.invariant (I := IdeInvariant) (fun m hinit => ideInvariant_init hinit) ?_
  rintro tr m ⟨e, m₀⟩ m' - hinv ⟨hm, hen, hrun⟩
  obtain rfl : m₀ = m := hm
  exact hinv.step hen hrun

/-- The channel has raised an interrupt for a command of its own since `IdeDpcRoutine` last looked
at it. -/
def answered (c : Channel) : List (IdeLabel τ) → Bool
  | [] => false
  | l :: tr =>
    if l.1 = .interrupt c true then true else if l.1 = .look c then false else answered c tr

/-- **The DPC looks only at channels that have something to report**: whenever it comes to a channel
that expects an interrupt, the channel has raised one for a command of its own since last time. -/
def SafeLooks : List (IdeLabel τ) → Prop
  | [] => True
  | l :: tr => SafeLooks tr ∧ ∀ c, IdeReleases c l → answered c tr = true

/-- Whether a run is safe can be decided. -/
instance decidableSafeLooks : (tr : List (IdeLabel τ)) → Decidable (SafeLooks tr)
  | [] => isTrue trivial
  | l :: tr =>
    have := decidableSafeLooks tr
    inferInstanceAs (Decidable (SafeLooks tr ∧ ∀ c, IdeReleases c l → answered c tr = true))

/-- The threads that have passed are no more than the releases, and at most one command more has
been issued. -/
theorem IdeInvariant.bounds (h : IdeInvariant tr m) (c : Channel) :
    idePasses c tr ≤ ideReleases c tr ∧ ideCommands c tr ≤ idePasses c tr + 1
      ∧ ideInterrupts c tr + m.outstanding c = ideCommands c tr := by
  have hch := h.channel c
  have hunits := hch.units
  have hstock := hch.stock
  refine ⟨by omega, ?_, hch.device⟩
  rcases hch.turn with ⟨-, heq⟩ | ⟨-, -, heq⟩
  · omega
  · omega

/-- **The balance of a safe run**: every interrupt but the last has had its release. -/
theorem safe_balance (h : ideSystem.Run tr m) (hsafe : SafeLooks tr) (c : Channel) :
    ideReleases c tr + (if answered c tr then 1 else 0) = ideInterrupts c tr := by
  have hall : SafeLooks tr → ∀ c,
      ideReleases c tr + (if answered c tr then 1 else 0) = ideInterrupts c tr := by
    refine h.invariant (I := fun tr _ => SafeLooks tr → ∀ c,
      ideReleases c tr + (if answered c tr then 1 else 0) = ideInterrupts c tr) ?_ ?_
    · exact fun m _ _ c => rfl
    · rintro tr m ⟨e, m₀⟩ m' hrun hbalance ⟨hm, hen, -⟩ ⟨hsafe, hlook⟩ c
      obtain rfl : m₀ = m := hm
      have hold := hbalance hsafe c
      have hinv := ideInvariant_run hrun
      obtain ⟨hpasses, hcommands, hdevice⟩ := hinv.bounds c
      by_cases hint : e = .interrupt c true
      · subst hint
        have hpos : 0 < m₀.outstanding c := hen rfl
        -- there is one command at most for which nobody has passed
        have hnot : answered c tr = false := by
          by_contra hne
          rw [if_pos (by simpa using hne)] at hold
          omega
        rw [hnot] at hold
        simp [ideReleases, ideInterrupts, answered, IdeReleases] at hold ⊢
        exact hold
      · by_cases hlk : e = .look c
        · subst hlk
          by_cases hexpecting : m₀.expecting_interrupt c = true
          · have hrel : IdeReleases c (.look c, m₀) := ⟨rfl, hexpecting⟩
            rw [if_pos (hlook c hrel)] at hold
            simp only [ideReleases, ideInterrupts] at hold
            simp [ideReleases, ideInterrupts, answered, hrel, hold]
          · have hquiet := (hinv.channel c).quiet (by simpa using hexpecting)
            have hnot : answered c tr = false := by
              by_contra hne
              rw [if_pos (by simpa using hne)] at hold
              omega
            rw [hnot] at hold
            simp [ideReleases, ideInterrupts, answered, IdeReleases, hexpecting] at hold ⊢
            exact hold
        · have hrel : ¬ IdeReleases c (e, m₀) := fun hr => hlk hr.1
          simp only [ideReleases, ideInterrupts] at hold
          simp [ideReleases, ideInterrupts, answered, hint, hlk, hrel, hold]
  exact hall hsafe c

/-- In a safe run the completions match the commands. -/
theorem safe_matches (h : ideSystem.Run tr m) (hsafe : SafeLooks tr) (c : Channel) :
    CompletionMatches c tr m := by
  have hbalance := safe_balance h hsafe c
  have hinv := ideInvariant_run h
  obtain ⟨hpasses, -, hdevice⟩ := hinv.bounds c
  refine ⟨by omega, fun t hwaited hqueue => ?_⟩
  have hnot : ¬ DiskPending c m t := by
    rintro (hp | ⟨-, ht⟩)
    · rw [hwaited] at hp
      cases hp
    · exact hqueue ht
  obtain ⟨-, hsettled⟩ := (hinv.channel c).settled (t := t) (by rw [hwaited]; rfl) hnot
  omega

omit [DecidableEq τ] in
/-- The last state is one of the states of a run. -/
theorem CompletionsMatch.last [DecidableEq τ] (h : CompletionsMatch tr m) (c : Channel) :
    CompletionMatches c tr m := by
  cases tr with
  | nil => exact h c
  | cons l tr => exact h.2 c

/-- **When completions match commands**: exactly in the runs in which the DPC looks only at channels
that have raised an interrupt for a command of their own since last time. -/
theorem completionsMatch_iff (h : ideSystem.Run tr m) : CompletionsMatch tr m ↔ SafeLooks tr := by
  refine h.invariant (I := fun tr m => CompletionsMatch tr m ↔ SafeLooks tr) ?_ ?_
  · intro m hinit
    exact iff_of_true (fun c => safe_matches (.start hinit) trivial c) trivial
  · rintro tr m ⟨e, m₀⟩ m' hrun hiff hstep
    obtain rfl : m₀ = m := hstep.1
    constructor
    · rintro ⟨hbefore, hafter⟩
      have hsafe := hiff.mp hbefore
      refine ⟨hsafe, fun c hrel => ?_⟩
      by_contra hnot
      have hbalance := safe_balance hrun hsafe c
      rw [if_neg hnot] at hbalance
      have hle := (hafter c).1
      obtain rfl : e = .look c := hrel.1
      simp only [ideReleases, ideInterrupts] at hbalance
      simp [ideReleases, ideInterrupts, hrel] at hle
      omega
    · rintro hsafe
      exact ⟨hiff.mpr hsafe.1, fun c => safe_matches (hrun.step hstep) hsafe c⟩

end Runs

/-! ## Two threads -/

/-- Two threads and idle channels. -/
def idleChannels : IdeMachine Bool where
  ke :=
    { sched := equalThreads.sched
      waitBlock := fun _ => ⟨none, none, .WAIT_TYPE_ANY, ⟨none, none⟩, ⟨none, none⟩⟩
      WaitBlockList := fun _ => listInit
      header := fun o => ⟨listInit, (ideSetup o : ObjectSetup Bool).type,
        (ideSetup o : ObjectSetup Bool).units⟩
      Limit := fun _ => 100
      OwnerThread := fun _ => none
      control := fun _ => .outside }
  live := equalThreads.live
  phase := fun _ => .outside
  expecting_interrupt := fun _ => false
  queued := false
  looking := []
  outstanding := fun _ => 0

/-- They are a state to start from. -/
theorem idleChannels_init : ideSystem.init idleChannels := by
  refine ⟨⟨some true, [], .start equalThreads_init⟩, fun _ _ => ⟨rfl, rfl⟩, fun _ => rfl,
    fun o => ⟨idleChannels.ke, idleChannels.ke, ?_, ?_, rfl, rfl, rfl⟩, fun _ => ⟨rfl, rfl⟩, rfl,
    rfl⟩
  · cases o with
    | lock c | completion_wait c =>
      intro t ht
      cases ht
  · cases o with
    | lock c =>
      simp [ObjectSetup.run, ideSetup, keInitializeMutant, keInitDispatcherHeader, Ke.setHeader,
        idleChannels, ObjectSetup.type, ObjectSetup.units]
    | completion_wait c =>
      simp [ObjectSetup.run, ideSetup, keInitializeSemaphore, keInitDispatcherHeader, Ke.setHeader,
        idleChannels, ObjectSetup.type, ObjectSetup.units]

/-- A closed run of two threads, by carrying out the steps. -/
theorem idleChannels_run (events : List (IdeEvent Bool))
    (observe : List (IdeLabel Bool) → IdeMachine Bool → Bool)
    (hplay : (play (fun e m => decide (e.Enabled m)) (fun e m => e.run m) events
      ([], idleChannels)).map (fun x => observe x.1 x.2) = some true) :
    ∃ tr m, ideSystem.Run tr m ∧ observe tr m = true :=
  System.Run.play_observed (fun e m => decide (e.Enabled m)) (fun e m => e.run m)
    (fun _ _ _ _ hen hrun => by exact ⟨rfl, of_decide_eq_true hen, hrun⟩) events observe
    (.start idleChannels_init) hplay

/-- Reading a sector of the first channel, whose completion comes while the thread waits. -/
theorem completionsMatch_iff_read : ∃ tr, ∃ m : IdeMachine Bool, ideSystem.Run tr m
    ∧ CompletionsMatch tr m := by
  obtain ⟨tr, m, hrun, hsafe⟩ := idleChannels_run
    [.lock 0, .issue 0, .down 0, .interrupt 0 true, .dpc, .look 0, .look 1]
    (fun tr _ => SafeLooks tr) (by decide +kernel)
  exact ⟨tr, m, hrun, (completionsMatch_iff hrun).mpr (of_decide_eq_true hsafe)⟩

/-- A spurious interrupt of the second channel completes a command of the first. -/
theorem completionsMatch_fails : ¬ ∀ tr (m : IdeMachine Bool), ideSystem.Run tr m →
    CompletionsMatch tr m := by
  intro h
  obtain ⟨tr, m, hrun, hmore⟩ := idleChannels_run
    [.lock 0, .issue 0, .interrupt 1 false, .dpc, .look 0]
    (fun tr _ => ideInterrupts 0 tr < ideReleases 0 tr) (by decide +kernel)
  have hle := ((h tr m hrun).last 0).1
  exact absurd hle (not_le.mpr (of_decide_eq_true hmore))

end KaushOS
