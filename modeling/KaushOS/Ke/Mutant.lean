import KaushOS.Ke.WaitRuns

/-! # Mutants

What `KeInitializeMutant`, `KeWaitForSingleObject` and `KeReleaseMutant` promise together. The
ownership of a mutant is recorded outside the locked section when it is released, so exclusion is
followed through the window in between.

* **`Holds`** — a thread is between a wait that has returned and its release.
* **`MutantInvariant`** — who holds the mutant is who is recorded, and nobody waits.
* **`mutant_exclusion`** — exclusion in every run, and exactly when a wait goes through. -/

namespace KaushOS

open CircularList Transition

variable {τ ο : Type} [DecidableEq τ] [DecidableEq ο]

/-! ## Holding a mutant -/

/-- A wait of `t` for `o` has returned in a step: at once, or after it was blocked. -/
def Returned (o : ο) (t : τ) (l : KeLabel τ ο) : Prop :=
  l.1 = .wait t o .acquired ∨ l.2 = some (t, o)

/-- **Thread `t` is between a returned wait for `o` and its release**, or has owned `o` from the
start and not released it. -/
def Holds (owner : Option τ) (o : ο) (t : τ) : List (KeLabel τ ο) → Prop
  | [] => owner = some t
  | l :: tr => Returned o t l ∨ (Holds owner o t tr ∧ l.1 ≠ .releaseMutantBegin t o)

/-- **The invariant of a mutant**, given who holds it. Nobody is in a blocked wait for it; the
holder is the thread recorded as the owner; at most one thread is inside its release; and the
mutant is signalled only if nobody owns or releases it. -/
structure MutantInvariant (o : ο) (holds : τ → Prop) (live : Finset τ) (k : Ke τ ο) : Prop where
  type : (k.header o).type = .MutantObject
  noWait : ∀ t ∈ live, k.control t ≠ .inWait o
  owner : ∀ t, holds t ↔ k.OwnerThread o = some t
  owned : ∀ t, k.OwnerThread o = some t → (k.header o).SignalState = 0
  releasing : ∀ t ∈ live, k.control t = .inReleaseMutant o →
    k.OwnerThread o = none ∧ (k.header o).SignalState = 0
      ∧ ∀ i ∈ live, k.control i = .inReleaseMutant o → i = t
  bound : (k.header o).SignalState ≤ 1

variable {live live' : Finset τ} {k k' : Ke τ ο} {w w' : ο → List τ} {m m' : KeMachine τ ο}
  {e : KeEvent τ ο} {o i : ο} {holds : τ → Prop} {setup : ο → ObjectSetup τ}
  {tr : List (KeLabel τ ο)}

omit [DecidableEq τ] [DecidableEq ο] in
/-- Steps that do not concern the mutant: its header and owner stay, and what threads are in the
middle of changes only for others, or to something that is not this mutant. -/
theorem MutantInvariant.congr (h : MutantInvariant o holds live k)
    (htype : (k'.header o).type = (k.header o).type)
    (hsignal : (k'.header o).SignalState = (k.header o).SignalState)
    (howner : k'.OwnerThread o = k.OwnerThread o)
    (hcontrol : ∀ t ∈ live', (t ∈ live ∧ k'.control t = k.control t)
      ∨ (k'.control t ≠ .inWait o ∧ k'.control t ≠ .inReleaseMutant o)) :
    MutantInvariant o holds live' k' := by
  refine ⟨htype.trans h.type, ?_, fun t => ?_, fun t ht => ?_, ?_, hsignal ▸ h.bound⟩
  · intro t ht
    rcases hcontrol t ht with ⟨hl, hc⟩ | ⟨hc, -⟩
    · rw [hc]
      exact h.noWait t hl
    · exact hc
  · rw [howner]
    exact h.owner t
  · rw [hsignal]
    exact h.owned t (howner ▸ ht)
  · intro t ht hc
    rcases hcontrol t ht with ⟨hl, hsame⟩ | ⟨-, hne⟩
    · obtain ⟨hnone, hzero, hone⟩ := h.releasing t hl (hsame ▸ hc)
      refine ⟨howner.trans hnone, hsignal.trans hzero, fun j hj hcj => ?_⟩
      rcases hcontrol j hj with ⟨hlj, hsamej⟩ | ⟨-, hnej⟩
      · exact hone j hlj (hsamej ▸ hcj)
      · exact absurd hcj hnej
    · exact absurd hc hne

omit [DecidableEq ο] in
/-- What the running thread is in the middle of may change to anything but this mutant. -/
theorem control_of_update {c : KeControl ο}
    (hk : k'.control = Function.update k.control k.sched.CurrentThread c)
    (hwait : c ≠ .inWait o) (hrelease : c ≠ .inReleaseMutant o) :
    ∀ t ∈ live, (t ∈ live ∧ k'.control t = k.control t)
      ∨ (k'.control t ≠ .inWait o ∧ k'.control t ≠ .inReleaseMutant o) := by
  intro t ht
  by_cases htc : t = k.sched.CurrentThread
  · subst htc
    refine Or.inr ?_
    rw [hk, Function.update_self]
    exact ⟨hwait, hrelease⟩
  · exact Or.inl ⟨ht, by rw [hk, Function.update_of_ne htc]⟩

/-- The resumption of a thread concerns no mutant, as nobody is in a blocked wait for one. -/
theorem MutantInvariant.resume (h : MutantInvariant o holds live k)
    (hcur : k.sched.CurrentThread ∈ live) : MutantInvariant o holds live (keResume k) := by
  rcases keResume_cases k with ⟨heq, -⟩ | ⟨i, owner, hc, heq, howner⟩
  · rw [heq]
    exact h
  · have hio : o ≠ i := by
      rintro rfl
      exact h.noWait _ hcur hc
    rw [heq]
    exact h.congr rfl rfl (howner o hio)
      (control_of_update (c := .outside) rfl (by simp) (by simp))

omit [DecidableEq ο] in
/-- Nobody is on the wait list of a mutant. -/
theorem MutantInvariant.queue_nil (h : MutantInvariant o holds live k) (hinv : KeInvariant live k w) :
    w o = [] := by
  refine List.eq_nil_iff_forall_not_mem.mpr fun x hx => ?_
  obtain ⟨hl, -, -, -, hc⟩ := hinv.waiter o x hx
  exact h.noWait x hl hc

/-! ## Steps -/

omit [DecidableEq τ] in
/-- **Taking a mutant.** The running thread becomes the owner. -/
theorem MutantInvariant.take (h : MutantInvariant o holds live k)
    (hpos : 0 < (k.header o).SignalState) :
    MutantInvariant o (fun t => t = k.sched.CurrentThread ∨ holds t) live (takeMutant o k) := by
  have hnone : k.OwnerThread o = none := by
    refine Option.eq_none_iff_forall_ne_some.mpr fun t ht => ?_
    have hzero := h.owned t ht
    omega
  have hfree : ∀ t ∈ live, k.control t ≠ .inReleaseMutant o := by
    intro t ht hc
    have hzero := (h.releasing t ht hc).2.1
    omega
  have hsignal : ((takeMutant o k).header o).SignalState = (k.header o).SignalState - 1 := by
    simp [takeMutant, signal_setSignal]
  have howner : (takeMutant o k).OwnerThread o = some k.sched.CurrentThread :=
    Function.update_self ..
  have hbound := h.bound
  refine ⟨(type_setSignal k o o _).trans h.type, h.noWait, fun t => ?_, fun t _ => by omega,
    fun t ht hc => absurd hc (hfree t ht), by omega⟩
  rw [howner]
  constructor
  · rintro (rfl | ht)
    · rfl
    · rw [(h.owner t).mp ht] at hnone
      cases hnone
  · intro ht
    exact Or.inl (Option.some.inj ht).symm

/-- **The first part of a release.** The owner is no longer recorded; the running thread, who was
the owner, is inside the release. -/
theorem MutantInvariant.releaseBegin (h : MutantInvariant o holds live k)
    (howner : k.OwnerThread o = some k.sched.CurrentThread) :
    MutantInvariant o (fun t => holds t ∧ t ≠ k.sched.CurrentThread) live
      ({ k with OwnerThread := Function.update k.OwnerThread o none }.setControl
        k.sched.CurrentThread (.inReleaseMutant o)) := by
  have hfree : ∀ t ∈ live, k.control t ≠ .inReleaseMutant o := by
    intro t ht hc
    have hnone := (h.releasing t ht hc).1
    rw [howner] at hnone
    cases hnone
  refine ⟨h.type, fun t ht => ?_, fun t => ?_, fun t ht => ?_, fun t ht hc => ?_, h.bound⟩
  · by_cases htc : t = k.sched.CurrentThread
    · simp [Ke.setControl, htc]
    · simpa [Ke.setControl, htc] using h.noWait t ht
  · constructor
    · rintro ⟨ht, htc⟩
      rw [h.owner, howner] at ht
      exact absurd (Option.some.inj ht).symm htc
    · intro ht
      have hnone : Function.update k.OwnerThread o none o = some t := ht
      rw [Function.update_self] at hnone
      cases hnone
  · have hnone : Function.update k.OwnerThread o none o = some t := ht
    rw [Function.update_self] at hnone
    cases hnone
  · refine ⟨Function.update_self .., h.owned _ howner, ?_⟩
    -- only the running thread is inside its release
    have hone : ∀ j ∈ live, Function.update k.control k.sched.CurrentThread
        (.inReleaseMutant o) j = .inReleaseMutant o → j = k.sched.CurrentThread := by
      intro j hj hcj
      by_contra hjc
      rw [Function.update_of_ne hjc] at hcj
      exact hfree j hj hcj
    intro j hj hcj
    rw [hone j hj hcj, hone t ht hc]

/-- **The locked section of a release.** The mutant is signalled again. -/
theorem MutantInvariant.release (h : MutantInvariant o holds live k) (hinv : KeInvariant live k w)
    (hc : k.control k.sched.CurrentThread = .inReleaseMutant o) :
    kiDHeaderRelease o k = .ok (none, k.setSignal o ((k.header o).SignalState + 1))
    ∧ MutantInvariant o holds live ((k.setSignal o ((k.header o).SignalState + 1)).setControl
      k.sched.CurrentThread .outside) := by
  obtain ⟨hnone, hzero, hone⟩ := h.releasing _ hinv.current_live hc
  have hlt : (k.header o).SignalState < MAX_DISPATCH_SIGNAL_STATE := by
    rw [hzero]
    decide
  refine ⟨(kiDHeaderRelease_store_spec hinv (h.queue_nil hinv) hlt).1, ?_⟩
  have hsignal : ((k.setSignal o ((k.header o).SignalState + 1)).header o).SignalState
      = (k.header o).SignalState + 1 := by
    simp [signal_setSignal]
  refine ⟨(type_setSignal k o o _).trans h.type, fun t ht => ?_, h.owner, fun t ht => ?_,
    fun t ht hct => ?_, ?_⟩
  · by_cases htc : t = k.sched.CurrentThread
    · simp [Ke.setControl, htc]
    · simpa [Ke.setControl, Ke.setSignal, Ke.setHeader, htc] using h.noWait t ht
  · have hsome : none = some t := hnone.symm.trans ht
    cases hsome
  · exfalso
    by_cases htc : t = k.sched.CurrentThread
    · subst htc
      simp [Ke.setControl] at hct
    · have hct' : k.control t = .inReleaseMutant o := by
        simpa [Ke.setControl, Ke.setSignal, Ke.setHeader, htc] using hct
      exact htc (hone t ht hct')
  · have hle : ((k.setSignal o ((k.header o).SignalState + 1)).header o).SignalState ≤ 1 := by
      omega
    exact hle

/-- Who holds the mutant after a step, from its event. -/
def holdsAfter (o : ο) (holds : τ → Prop) (e : KeEvent τ ο) (t : τ) : Prop :=
  e = .wait t o .acquired ∨ (holds t ∧ e ≠ .releaseMutantBegin t o)

omit [DecidableEq ο] in
/-- Nothing happens to a mutant in a step of which it is not the object. -/
theorem Follows.signal_eq {h : KeInvariant live k w} {h' : KeInvariant live' k' w'}
    {op : ο → Option (HandOff.Op τ)} (hf : Follows h h' op) (ho : op o = none) :
    (k'.header o).SignalState = (k.header o).SignalState := by
  have hafter := hf.after o
  rw [ho] at hafter
  have hunits : (k.header o).SignalState.toNat = (k'.header o).SignalState.toNat :=
    congrArg HandOff.units (Option.some.inj hafter)
  have hnonneg := (h.signal o).1
  have hnonneg' := (h'.signal o).1
  omega

omit [DecidableEq τ] [DecidableEq ο] in
/-- Another way to say who holds the mutant. -/
theorem MutantInvariant.holds_congr (h : MutantInvariant o holds live k) {holds' : τ → Prop}
    (hiff : ∀ t, holds' t ↔ holds t) : MutantInvariant o holds' live k :=
  ⟨h.type, h.noWait, fun t => (hiff t).trans (h.owner t), h.owned, h.releasing, h.bound⟩

/-- A wait for something else does not concern the mutant. -/
theorem MutantInvariant.wait_other (h : MutantInvariant o holds live k)
    (hinv : KeInvariant live k w) (hio : i ≠ o) {outcome : WaitOutcome}
    (hok : keWaitForSingleObject i k = .ok (outcome, k')) : MutantInvariant o holds live k' := by
  have hsame : ∀ x, ((k.setSignal i x).header o).SignalState = (k.header o).SignalState := by
    intro x
    rw [signal_setSignal, if_neg hio.symm]
  by_cases htype : (k.header i).type = .MutantObject
  · obtain ⟨-, -, rfl, rfl⟩ := (keWaitForSingleObject_mutant_eq_ok htype).mp hok
    exact h.congr (type_setSignal k i o _) (hsame _) (Function.update_of_ne hio.symm _ _)
      fun t ht => Or.inl ⟨ht, rfl⟩
  · have hacq := keWaitForSingleObject_acquire htype hok
    have hnonneg := (hinv.signal i).1
    by_cases hs : (k.header i).SignalState = 0
    · rcases kiDHeaderAcquire_block_spec hinv hs with
        ⟨e, herr⟩ | ⟨k₁, hok₁, -, hframe, -, howner, hcontrol⟩
      · rw [hacq] at herr
        cases herr
      · rw [hacq] at hok₁
        obtain ⟨-, rfl⟩ := Prod.mk.inj (Except.ok.inj hok₁)
        exact h.congr (hframe o).2 (hframe o).1 (by rw [howner])
          (control_of_update hcontrol (by simpa using hio) (by simp))
    · rw [kiDHeaderAcquire_of_pos (by omega)] at hacq
      obtain ⟨-, rfl⟩ := Prod.mk.inj (Except.ok.inj hacq)
      exact h.congr (type_setSignal k i o _) (hsame _) rfl fun t ht => Or.inl ⟨ht, rfl⟩

/-- **Each step keeps the invariant of the mutant.** -/
theorem MutantInvariant.runs (h : MutantInvariant o holds m.live m.ke)
    (hinv : KeInvariant m.live m.ke w) (hr : e.Runs m k) :
    MutantInvariant o (holdsAfter o holds e) (e.liveAfter m.live) k := by
  obtain ⟨⟨w', hinv', hf⟩, -⟩ := KeEvent.runs_follows hinv hr
  cases e with
  | sched e =>
    obtain ⟨he, hb, sched, hrun, rfl⟩ := hr
    obtain ⟨-, -, hheader, -, howner⟩ := newThread_frame e { m.ke with sched }
    obtain ⟨hold, hnew⟩ := newThread_control he { m.ke with sched }
    refine (h.congr (by rw [hheader]) (by rw [hheader]) (by rw [howner]) fun t ht => ?_).holds_congr
      (by simp [holdsAfter])
    by_cases hl : t ∈ m.live
    · exact Or.inl ⟨hl, (hold t hl).1⟩
    · exact Or.inr (by simp [(hnew t ht hl).1])
  | wait t i outcome =>
    obtain ⟨rfl, -, hok⟩ := hr
    by_cases hio : i = o
    · subst hio
      obtain ⟨-, hpos, rfl, rfl⟩ := (keWaitForSingleObject_mutant_eq_ok h.type).mp hok
      exact (h.take hpos).holds_congr (by simp [holdsAfter, eq_comm])
    · exact (h.wait_other hinv hio hok).holds_congr (by simp [holdsAfter, hio])
  | releaseSemaphore t i handed =>
    obtain ⟨rfl, -, htype, old, hok⟩ := hr
    have hio : i ≠ o := by
      rintro rfl
      rw [h.type] at htype
      cases htype
    obtain ⟨-, -, -, howner, hcontrol⟩ :=
      kiDHeaderRelease_follows hinv (keReleaseSemaphore_release hok).2.2
    refine (h.congr (hf.type o) (hf.signal_eq (by simp [KeEvent.op, hio])) (by rw [howner])
      fun t ht => Or.inl ⟨ht, by rw [hcontrol]⟩).holds_congr (by simp [holdsAfter])
  | releaseMutantBegin t i =>
    obtain ⟨rfl, -, -, hok⟩ := hr
    obtain ⟨howner, rfl⟩ := keReleaseMutantBegin_eq_ok.mp hok
    by_cases hio : i = o
    · subst hio
      exact (h.releaseBegin howner).holds_congr (by simp [holdsAfter, eq_comm])
    · have hmut : MutantInvariant o holds m.live
          ({ m.ke with OwnerThread := Function.update m.ke.OwnerThread i none }.setControl
            m.ke.sched.CurrentThread (.inReleaseMutant i)) :=
        h.congr rfl rfl (Function.update_of_ne (Ne.symm hio) _ _)
          (control_of_update (c := .inReleaseMutant i) rfl (by simp) (by simpa using hio))
      exact hmut.holds_congr (by simp [holdsAfter, hio])
  | releaseMutant t i handed =>
    obtain ⟨rfl, hc, -, hok⟩ := hr
    obtain ⟨k₁, hrel, rfl⟩ := keReleaseMutantLocked_release hok
    by_cases hio : i = o
    · subst hio
      obtain ⟨hrel', hmut⟩ := h.release hinv hc
      rw [hrel] at hrel'
      obtain ⟨rfl, rfl⟩ := Prod.mk.inj (Except.ok.inj hrel')
      exact hmut.holds_congr (by simp [holdsAfter])
    · obtain ⟨-, -, hcur, howner, hcontrol⟩ := kiDHeaderRelease_follows hinv hrel
      refine (h.congr (hf.type o) (hf.signal_eq (by simp [KeEvent.op, hio]))
        (congrFun howner o) (control_of_update (c := .outside) ?_ (by simp) (by simp))).holds_congr
        (by simp [holdsAfter])
      show Function.update k₁.control k₁.sched.CurrentThread .outside = _
      rw [hcontrol, hcur]

/-! ## Runs -/

/-- **Runs keep the invariant of a mutant**, with the holder read off the trace. -/
theorem mutantInvariant_run {owner : Option τ} (hset : setup o = .mutant owner)
    (h : (keSystem setup).Run tr m) :
    MutantInvariant o (fun t => Holds owner o t tr) m.live m.ke := by
  refine h.invariant (I := fun tr m => MutantInvariant o (fun t => Holds owner o t tr) m.live m.ke)
    ?_ ?_
  · rintro m ⟨-, hthreads, hobjects⟩
    obtain ⟨hheader, -, howner⟩ := ObjectSetup.done_spec (hobjects o).2
    have hout : ∀ t ∈ m.live, m.ke.control t = .outside := fun t ht => (hthreads t ht).1
    rw [hset] at hheader
    have howner₀ := howner owner hset
    refine ⟨by rw [hheader]; rfl, fun t ht => by simp [hout t ht], fun t => ?_, fun t ht => ?_,
      fun t ht hc => by simp [hout t ht] at hc, ?_⟩
    · rw [howner₀]
      exact Iff.rfl
    · rw [howner₀] at ht
      simp [hheader, ObjectSetup.units, ht]
    · rw [hheader]
      simp only [ObjectSetup.units]
      split <;> decide
  · rintro tr m l m' hrun ih ⟨k, hr, hl, rfl⟩
    obtain ⟨w, hinv, -⟩ := keSystem_refines hrun
    obtain ⟨⟨w', hinv', -⟩, -⟩ := KeEvent.runs_follows hinv hr
    have hmut := ih.runs hinv hr
    refine (hmut.resume hinv'.current_live).holds_congr fun t => ?_
    -- nobody returns from a blocked wait for the mutant
    have hnot : l.2 ≠ some (t, o) := by
      intro heq
      rw [hl, returning] at heq
      split at heq
      · rename_i i hc
        obtain ⟨-, rfl⟩ := Prod.mk.inj (Option.some.inj heq)
        exact hmut.noWait _ hinv'.current_live hc
      · cases heq
    simp [Holds, Returned, holdsAfter, hnot]

/-- **What a wait for a mutant is to do**: return with the running thread as the owner, or put it
on the wait list and to sleep. -/
def WaitAsClaimed (o : ο) (k : Ke τ ο) : Prop :=
  ∃ outcome k', keWaitForSingleObject o k = .ok (outcome, k') ∧
    match outcome with
    | .acquired => k'.OwnerThread o = some k.sched.CurrentThread
    | .blocked => k.sched.CurrentThread ∈ waitQueue o k'
      ∧ (k'.sched.tcb k.sched.CurrentThread).State = .WAITING

/-- Thread `t` holds the mutant or is inside its release. -/
def InSection (owner : Option τ) (o : ο) (tr : List (KeLabel τ ο)) (m : KeMachine τ ο) (t : τ) :
    Prop :=
  Holds owner o t tr ∨ (t ∈ m.live ∧ m.ke.control t = .inReleaseMutant o)

/-- **Mutual exclusion of mutants.** In every state of every run at most one thread holds the
mutant or is inside its release; the owner recorded is the thread that holds it; the threads that
blocked get it in the order in which they blocked; a release never fails. A wait by a thread that
does not hold the mutant goes through, or blocks, exactly when the mutant is signalled: there is
no contended path. -/
theorem mutant_exclusion {owner : Option τ} (hset : setup o = .mutant owner)
    (h : (keSystem setup).Run tr m) :
    (∀ t i, InSection owner o tr m t → InSection owner o tr m i → t = i)
    ∧ (∀ t, m.ke.OwnerThread o = some t ↔ Holds owner o t tr)
    ∧ HandOff.joined (keOps o tr) = HandOff.passed (keOps o tr) ++ waitQueue o m.ke
    ∧ (Holds owner o m.ke.sched.CurrentThread tr → ∃ k, keReleaseMutantBegin o m.ke = .ok k)
    ∧ (m.ke.control m.ke.sched.CurrentThread = .inReleaseMutant o →
        ∃ r, keReleaseMutantLocked o m.ke = .ok r)
    ∧ (¬ Holds owner o m.ke.sched.CurrentThread tr →
        (WaitAsClaimed o m.ke ↔ (m.ke.header o).SignalState ≠ 0)) := by
  have hmut := mutantInvariant_run hset h
  obtain ⟨w, hinv, -⟩ := keSystem_refines h
  refine ⟨?_, fun t => (hmut.owner t).symm, (keSystem_balance h o).2, ?_, ?_, ?_⟩
  · rintro t i (ht | ⟨htl, htc⟩) (hi | ⟨hil, hic⟩)
    · have heq := ((hmut.owner t).mp ht).symm.trans ((hmut.owner i).mp hi)
      exact Option.some.inj heq
    · have hnone := (hmut.releasing i hil hic).1
      rw [(hmut.owner t).mp ht] at hnone
      cases hnone
    · have hnone := (hmut.releasing t htl htc).1
      rw [(hmut.owner i).mp hi] at hnone
      cases hnone
    · exact (hmut.releasing i hil hic).2.2 t htl htc
  · intro hheld
    exact ⟨_, keReleaseMutantBegin_eq_ok.mpr ⟨(hmut.owner _).mp hheld, rfl⟩⟩
  · intro hc
    obtain ⟨hrel, -⟩ := hmut.release hinv hc
    exact ⟨_, by rw [keReleaseMutantLocked, hrel, kernel_ok_bind]; rfl⟩
  · intro hnot
    have howner : m.ke.OwnerThread o ≠ some m.ke.sched.CurrentThread :=
      fun heq => hnot ((hmut.owner _).mpr heq)
    have hnonneg := (hinv.signal o).1
    constructor
    · rintro ⟨outcome, k', hok, -⟩
      obtain ⟨-, hpos, -⟩ := (keWaitForSingleObject_mutant_eq_ok hmut.type).mp hok
      exact ne_of_gt hpos
    · intro hs
      have hpos : 0 < (m.ke.header o).SignalState := by omega
      exact ⟨.acquired, _, (keWaitForSingleObject_mutant_eq_ok hmut.type).mpr
        ⟨howner, hpos, rfl, rfl⟩, Function.update_self ..⟩

/-- Thread `false` takes the mutant, and thread `true` gets the processor. -/
def contendedTrace : List (KeLabel Bool Unit) :=
  [(.sched .schedule, none), (.sched (.setPriority false 1), none), (.wait false () .acquired, none)]

/-- The run in which the mutant becomes contended. -/
theorem contendedTrace_run : ∃ m, (keSystem fun _ : Unit => .mutant none).Run contendedTrace m
    ∧ m.ke.sched.CurrentThread = true ∧ m.ke.OwnerThread () = some false
    ∧ (m.ke.header ()).SignalState = 0
    ∧ keWaitForSingleObject () m.ke = .error (.assertion "0") := by
  have h₀ := System.Run.start (M := keSystem fun _ : Unit => .mutant none)
    (twoThreadsKe_init trivial rfl)
  have h₁ := h₀.step (e := (KeEvent.wait false () .acquired, none)) (u := ⟨_, _⟩)
    ⟨_, ⟨rfl, rfl, rfl⟩, rfl, rfl⟩
  have h₂ := h₁.step (e := (KeEvent.sched (.setPriority false 1), none)) (u := ⟨_, _⟩)
    ⟨_, ⟨⟨by decide, by decide, by decide⟩, trivial, _, rfl, rfl⟩, rfl, rfl⟩
  have h₃ := h₂.step (e := (KeEvent.sched .schedule, none)) (u := ⟨_, _⟩)
    ⟨_, ⟨trivial, trivial, _, rfl, rfl⟩, rfl, rfl⟩
  exact ⟨_, h₃, rfl, rfl, rfl, rfl⟩

/-- The owner of the contended mutant holds it, and nobody else does. -/
theorem mutant_exclusion_two : ∃ m, (keSystem fun _ : Unit => .mutant none).Run contendedTrace m
    ∧ Holds none () false contendedTrace := by
  obtain ⟨m, hrun, -, howner, -⟩ := contendedTrace_run
  exact ⟨m, hrun, ((mutant_exclusion (o := ()) (by rfl) hrun).2.1 false).mp howner⟩

/-- **A contended wait stops the machine** instead of joining the wait list. -/
theorem mutant_contention_fails :
    ∃ m, (keSystem fun _ : Unit => .mutant none).Run contendedTrace m
      ∧ m.ke.sched.CurrentThread = true ∧ m.ke.OwnerThread () = some false
      ∧ keWaitForSingleObject () m.ke = .error (.assertion "0") ∧ ¬ WaitAsClaimed () m.ke := by
  obtain ⟨m, hrun, hcur, howner, -, herr⟩ := contendedTrace_run
  refine ⟨m, hrun, hcur, howner, herr, ?_⟩
  rintro ⟨outcome, k', hok, -⟩
  rw [herr] at hok
  cases hok

end KaushOS
