import KaushOS.Ke.Dpc

/-! # The arguments of a DPC

`KeInsertQueueDpc` stores the two arguments into the object before it looks whether the object is on the
list, and `KiProcessDpcQueue` reads them when it calls the routine, after it has taken the object off and
released the lock.

* **`dispatchSystem`** — the DPC queue with the call of the routines as a step of its own.
* **`acceptedCall`, `lastCall`** — the arguments of the latest call that was accepted for an object, and
  of the latest call at all.
* **`DispatchMachine.Inv`** — an object holds the arguments of the latest call.
* **`dpc_arguments_iff`** — routines get the arguments of the calls that were accepted, and refused calls
  change nothing, if and only if the callers agree on the arguments. -/

namespace KaushOS

open CircularList Transition

variable {ι : Type} [DecidableEq ι]

/-! ## Taking an object off and calling its routine -/

/-- **The DPC queue, what has happened to it, and `DpcElement`** of `KiProcessDpcQueue`: the object that
has been taken off and whose routine has not been called yet. -/
structure DispatchMachine (ι : Type) where
  dpc : DpcState ι
  history : List (DpcEvent ι)
  DpcElement : Option ι

/-- The steps of the machine. -/
inductive DispatchEvent (ι : Type)
  /-- A locked section. -/
  | queue (e : DpcEvent ι)
  /-- The call of a routine, with what is passed to it. -/
  | call (d : ι) (routine context arg1 arg2 : UInt32)

/-- The end of a round of the loop of `KiProcessDpcQueue`:
`DpcElement->DeferredRoutine(DpcElement, ...)`. -/
def kiCallDpc (d : ι) (m : DispatchMachine ι) : DispatchEvent ι × DispatchMachine ι :=
  let dpc := m.dpc.dpc d
  (.call d dpc.DeferredRoutine dpc.DeferredContext dpc.SystemArgument1 dpc.SystemArgument2,
    { m with DpcElement := none })

/-- A step, with the machine before and after it. -/
structure DispatchStep (ι : Type) where
  event : DispatchEvent ι
  before : DispatchMachine ι
  after : DispatchMachine ι

/-- `DpcElement` after a locked section. -/
def DpcEvent.element (e : DpcEvent ι) (element : Option ι) : Option ι :=
  match e with
  | .dequeue d => d
  | _ => element

/-- **The DPC queue with the calls of the routines.** Between a dequeue and the call of the routine
interrupts may insert objects; the next object is taken off after the call. -/
def dispatchSystem (ι : Type) [DecidableEq ι] : System (DispatchStep ι) (DispatchMachine ι) where
  init m := (dpcSystem ι).init m.dpc ∧ m.history = [] ∧ m.DpcElement = none
  step _ m l m' := l.before = m ∧ l.after = m' ∧
    match l.event with
    | .queue e => (dpcSystem ι).step m.history m.dpc e m'.dpc ∧ m'.history = e :: m.history
        ∧ m'.DpcElement = e.element m.DpcElement ∧ (∀ d, e = .dequeue d → m.DpcElement = none)
    | .call d _ _ _ _ => m.DpcElement = some d ∧ (l.event, m') = kiCallDpc d m

/-! ## Which call the arguments come from -/

/-- **The arguments of the latest call** of `KeInsertQueueDpc` for an object, accepted or refused. -/
def lastCall (d : ι) : List (DpcEvent ι) → Option (UInt32 × UInt32)
  | [] => none
  | .insert d' arg1 arg2 _ _ :: t => if d' = d then some (arg1, arg2) else lastCall d t
  | _ :: t => lastCall d t

/-- **The arguments of the latest call that was accepted** for an object. -/
def acceptedCall (d : ι) : List (DpcEvent ι) → Option (UInt32 × UInt32)
  | [] => none
  | .insert d' arg1 arg2 _ true :: t => if d' = d then some (arg1, arg2) else acceptedCall d t
  | _ :: t => acceptedCall d t

/-- What a function of the history was when an object was taken off last. -/
def whenTakenOff {α : Type} (f : ι → List (DpcEvent ι) → Option α) : List (DpcEvent ι) → Option α
  | [] => none
  | .dequeue (some d) :: t => f d t
  | _ :: t => whenTakenOff f t

/-- The arguments that an object holds. -/
def KDPC.arguments (r : KDPC ι) : UInt32 × UInt32 := (r.SystemArgument1, r.SystemArgument2)

/-- **A routine gets the arguments of the call that was accepted for this run.** -/
def RoutinesGetAccepted (t : List (DispatchStep ι)) : Prop :=
  ∀ l ∈ t, ∀ d routine context arg1 arg2, l.event = .call d routine context arg1 arg2 →
    whenTakenOff acceptedCall l.before.history = some (arg1, arg2)

/-- **A call that is refused changes neither the queue nor any arguments.** -/
def RefusalsChangeNothing (t : List (DispatchStep ι)) : Prop :=
  ∀ l ∈ t, ∀ d arg1 arg2 importance, l.event = .queue (.insert d arg1 arg2 importance false) →
    dpcQueue keGetCurrentProcessorNumber l.after.dpc
        = dpcQueue keGetCurrentProcessorNumber l.before.dpc
      ∧ ∀ x, (l.after.dpc.dpc x).arguments = (l.before.dpc.dpc x).arguments

/-- **Who inserts an object that is on the list** passes the arguments of the call before. -/
def QueuedAgree (t : List (DispatchStep ι)) : Prop :=
  ∀ l ∈ t, ∀ d arg1 arg2 importance accepted,
    l.event = .queue (.insert d arg1 arg2 importance accepted) →
    d ∈ dpcQueue keGetCurrentProcessorNumber l.before.dpc →
    lastCall d l.before.history = some (arg1, arg2)

/-- **When a routine is called**, the latest call for its object had the arguments of the latest one when
the object was taken off. -/
def TakenAgree (t : List (DispatchStep ι)) : Prop :=
  ∀ l ∈ t, ∀ d routine context arg1 arg2, l.event = .call d routine context arg1 arg2 →
    lastCall d l.before.history = whenTakenOff lastCall l.before.history

/-! ## What the routines do to the arguments -/

section Arguments

variable {s s' : DpcState ι} {d : ι} {arg1 arg2 : UInt32} {f : ι → UInt32 × UInt32}

/-- Link writes do not touch the arguments. -/
theorem setLink_arguments (dpc : ι → KDPC ι) (a : ι) (e : KListEntry ι)
    (h : ∀ i, (dpc i).arguments = f i) (i : ι) :
    (Function.update dpc a ((KDPC.entry ι).set (dpc a) e) i).arguments = f i := by
  by_cases hi : i = a
  · subst hi
    rw [Function.update_self]
    exact h i
  · rw [Function.update_of_ne hi]
    exact h i

/-- Stores to other members do not touch the arguments. -/
theorem DpcState.modify_arguments (s : DpcState ι) (d : ι) {g : KDPC ι → KDPC ι}
    (hg : ∀ r, (g r).arguments = r.arguments) (i : ι) :
    ((s.modify d g).dpc i).arguments = (s.dpc i).arguments := by
  by_cases hi : i = d
  · subst hi
    simp [DpcState.modify, hg]
  · simp [DpcState.modify, hi]

/-- `KeInitializeDpc` does not touch the arguments. -/
theorem keInitializeDpc_arguments (s : DpcState ι) (d : ι) (routine context : UInt32) (i : ι) :
    ((keInitializeDpc d routine context s).dpc i).arguments = (s.dpc i).arguments := by
  unfold keInitializeDpc
  dsimp only
  rw [DpcState.modify_arguments, DpcState.modify_arguments]
  · exact fun _ => rfl
  · exact fun _ => rfl

/-- **`KeInsertQueueDpc`** stores the arguments, also when it refuses the object. -/
theorem keInsertQueueDpc_arguments {accepted : Bool}
    (hrun : keInsertQueueDpc d arg1 arg2 s = .ok (accepted, s')) (i : ι) :
    (s'.dpc i).arguments = if i = d then (arg1, arg2) else (s.dpc i).arguments := by
  have hstored : ∀ i, ((s.modify d fun dpc =>
      { dpc with SystemArgument1 := arg1, SystemArgument2 := arg2 }).dpc i).arguments
      = if i = d then (arg1, arg2) else (s.dpc i).arguments := by
    intro i
    by_cases hi : i = d
    · subst hi
      simp [DpcState.modify, KDPC.arguments]
    · simp [DpcState.modify, hi]
  obtain ⟨u, -, hrun⟩ := kernel_bind_eq_ok.mp hrun
  obtain ⟨found, -, hrun⟩ := kernel_bind_eq_ok.mp hrun
  cases found with
  | true =>
    cases hrun
    exact hstored i
  | false =>
    obtain ⟨⟨head, dpc⟩, hinsert, hrun⟩ := kernel_bind_eq_ok.mp hrun
    cases hrun
    have hset := fun (dpc : ι → KDPC ι) (a : ι) (e : KListEntry ι) => setLink_arguments
      (f := fun i => if i = d then (arg1, arg2) else (s.dpc i).arguments) dpc a e
    split at hinsert
    · exact listInsertHead_keeps (P := fun dpc => ∀ i, (dpc i).arguments = _)
        (fun dpc a o h => hset dpc a _ h) (fun dpc a o h => hset dpc a _ h) hinsert hstored i
    · exact listInsertTail_keeps (P := fun dpc => ∀ i, (dpc i).arguments = _)
        (fun dpc a o h => hset dpc a _ h) (fun dpc a o h => hset dpc a _ h) hinsert hstored i

/-- `KeRemoveQueueDpc` does not touch the arguments. -/
theorem keRemoveQueueDpc_arguments {removed : Bool} (hrun : keRemoveQueueDpc d s = .ok (removed, s'))
    (i : ι) : (s'.dpc i).arguments = (s.dpc i).arguments := by
  obtain ⟨u, -, hrun⟩ := kernel_bind_eq_ok.mp hrun
  obtain ⟨found, -, hrun⟩ := kernel_bind_eq_ok.mp hrun
  cases found with
  | false =>
    cases hrun
    rfl
  | true =>
    obtain ⟨⟨head, dpc⟩, hremove, hrun⟩ := kernel_bind_eq_ok.mp hrun
    cases hrun
    refine listRemove_keeps (P := fun dpc => ∀ i, (dpc i).arguments = (s.dpc i).arguments) ?_ ?_
      hremove (fun _ => rfl) i
    · exact fun dpc a o h => setLink_arguments dpc a _ h
    · exact fun dpc a o h => setLink_arguments dpc a _ h

/-- The dequeue step does not touch the arguments. -/
theorem kiDequeueDpc_arguments {r : Option ι} (hrun : kiDequeueDpc s = .ok (r, s')) (i : ι) :
    (s'.dpc i).arguments = (s.dpc i).arguments := by
  obtain ⟨⟨d, head, dpc⟩, hremove, hrun⟩ := kernel_bind_eq_ok.mp hrun
  cases hrun
  refine listRemoveHead_keeps (P := fun dpc => ∀ i, (dpc i).arguments = (s.dpc i).arguments) ?_ ?_
    hremove (fun _ => rfl) i
  · exact fun dpc a o h => setLink_arguments dpc a _ h
  · exact fun dpc a o h => setLink_arguments dpc a _ h

end Arguments

/-! ## Histories of the queue -/

section History

variable {t : List (DpcEvent ι)} {s s' : DpcState ι} {e : DpcEvent ι} {d : ι} {p : UInt32 × UInt32}

/-- **An object holds the arguments of the latest call.** -/
theorem holds_lastCall (h : (dpcSystem ι).Run t s) :
    ∀ d p, lastCall d t = some p → (s.dpc d).arguments = p := by
  refine h.invariant (I := fun t s => ∀ d p, lastCall d t = some p → (s.dpc d).arguments = p) ?_ ?_
  · intro s _ d p hp
    cases hp
  · intro t s e s' _ ih hs d p hp
    cases e with
    | init d' routine context =>
      obtain ⟨-, rfl⟩ := hs
      exact (keInitializeDpc_arguments s d' routine context d).trans (ih d p hp)
    | setImportance d' importance =>
      obtain ⟨u, -, hrun⟩ := kernel_bind_eq_ok.mp hs.2
      cases hrun
      refine Eq.trans ?_ (ih d p hp)
      apply DpcState.modify_arguments
      exact fun _ => rfl
    | insert d' arg1 arg2 importance accepted =>
      rw [keInsertQueueDpc_arguments hs.2.2 d]
      rw [lastCall] at hp
      by_cases hd : d' = d
      · rw [if_pos hd] at hp
        rw [if_pos hd.symm]
        exact Option.some.inj hp
      · rw [if_neg hd] at hp
        rw [if_neg (Ne.symm hd)]
        exact ih d p hp
    | remove d' removed => exact (keRemoveQueueDpc_arguments hs.2 d).trans (ih d p hp)
    | dequeue r => exact (kiDequeueDpc_arguments hs d).trans (ih d p hp)

/-- Insertion accepts exactly the objects that are absent. -/
theorem insert_accepted {arg1 arg2 : UInt32} {importance : UInt8} {accepted : Bool}
    (h : (dpcSystem ι).Run t s)
    (hs : (dpcSystem ι).step t s (.insert d arg1 arg2 importance accepted) s') :
    accepted = decide (d ∉ (dpcOrder t).queue) := by
  have hinv := dpcInvariant_run h
  obtain ⟨htype, hnumber⟩ := hinv.initialized d hs.1
  obtain ⟨s₁, hrun, -⟩ := keInsertQueueDpc_spec hinv.pending htype hnumber arg1 arg2
  exact (Prod.mk.inj (Except.ok.inj (hs.2.2.symm.trans hrun))).1

/-- **Who is on the list after an event** was on it before, or has just been accepted. -/
theorem mem_queue_after (o : DpcOrder ι) (h : o.queue.Nodup) (hd : d ∈ (o.after e).queue) :
    d ∈ o.queue ∨ ∃ arg1 arg2 importance, e = .insert d arg1 arg2 importance true := by
  cases e with
  | init d' routine context => exact Or.inl hd
  | setImportance d' importance => exact Or.inl hd
  | insert d' arg1 arg2 importance accepted =>
    cases accepted with
    | false => exact Or.inl hd
    | true =>
      rw [o.queue_insert d' arg1 arg2 importance] at hd
      split at hd
      · rcases List.mem_cons.mp hd with rfl | hd
        · exact Or.inr ⟨arg1, arg2, importance, rfl⟩
        · exact Or.inl hd
      · rcases List.mem_append.mp hd with hd | hd
        · exact Or.inl hd
        · obtain rfl := List.mem_singleton.mp hd
          exact Or.inr ⟨arg1, arg2, importance, rfl⟩
  | remove d' removed =>
    cases removed with
    | false => exact Or.inl hd
    | true =>
      rw [DpcOrder.queue_remove h d'] at hd
      exact Or.inl (List.mem_of_mem_erase hd)
  | dequeue r =>
    cases r with
    | none => exact Or.inl hd
    | some d' =>
      rw [o.queue_dequeue d'] at hd
      exact Or.inl (List.mem_of_mem_tail hd)

/-- An event keeps the latest call for an object, unless it is a call itself. -/
theorem lastCall_cons :
    lastCall d (e :: t) = lastCall d t
      ∨ ∃ arg1 arg2 importance accepted, e = .insert d arg1 arg2 importance accepted
        ∧ lastCall d (e :: t) = some (arg1, arg2) := by
  cases e with
  | insert d' arg1 arg2 importance accepted =>
    by_cases hd : d' = d
    · subst hd
      exact Or.inr ⟨arg1, arg2, importance, accepted, rfl, by simp [lastCall]⟩
    · exact Or.inl (by simp [lastCall, hd])
  | init _ _ _ | setImportance _ _ | remove _ _ | dequeue _ => exact Or.inl rfl

/-- **An object that is on the list** has been inserted. -/
theorem queued_called (h : (dpcSystem ι).Run t s) :
    ∀ d ∈ (dpcOrder t).queue, ∃ p, lastCall d t = some p := by
  refine h.invariant (I := fun t _ => ∀ d ∈ (dpcOrder t).queue, ∃ p, lastCall d t = some p) ?_ ?_
  · exact fun s _ d hd => absurd hd List.not_mem_nil
  · intro t s e s' hrun ih _ d hd
    rcases lastCall_cons (e := e) (t := t) (d := d) with hsame | ⟨arg1, arg2, -, -, -, hlast⟩
    · rcases mem_queue_after _ (dpcInvariant_run hrun).pending.nodup hd with hd | hnew
      · obtain ⟨p, hp⟩ := ih d hd
        exact ⟨p, hsame.trans hp⟩
      · obtain ⟨arg1, arg2, importance, rfl⟩ := hnew
        exact ⟨(arg1, arg2), by simp [lastCall]⟩
    · exact ⟨_, hlast⟩

/-- **Refused calls that agree with the call before** leave the accepted call the latest one. -/
theorem accepted_last_step (h : (dpcSystem ι).Run t s) (hs : (dpcSystem ι).step t s e s')
    (ih : ∀ d ∈ (dpcOrder t).queue, acceptedCall d t = lastCall d t)
    (hagree : ∀ d arg1 arg2 importance accepted, e = .insert d arg1 arg2 importance accepted →
      d ∈ (dpcOrder t).queue → lastCall d t = some (arg1, arg2)) :
    ∀ d ∈ (dpcOrder (e :: t)).queue, acceptedCall d (e :: t) = lastCall d (e :: t) := by
  intro d hd
  have hbefore := mem_queue_after _ (dpcInvariant_run h).pending.nodup hd
  cases e with
  | insert d' arg1 arg2 importance accepted =>
    have haccepted := insert_accepted h hs
    by_cases hdd : d' = d
    · subst hdd
      cases accepted with
      | true => simp [acceptedCall, lastCall]
      | false =>
        have hmem : d' ∈ (dpcOrder t).queue := by simpa using haccepted
        have hlast := hagree d' arg1 arg2 importance false rfl hmem
        show acceptedCall d' t = _
        rw [ih d' hmem, hlast]
        simp [lastCall]
    · have hmem : d ∈ (dpcOrder t).queue := by
        rcases hbefore with hmem | ⟨_, _, _, heq⟩
        · exact hmem
        · exact absurd (DpcEvent.insert.inj heq).1 hdd
      cases accepted with
      | true => simpa [acceptedCall, lastCall, hdd] using ih d hmem
      | false => simpa [acceptedCall, lastCall, hdd] using ih d hmem
  | init _ _ _ | setImportance _ _ | remove _ _ | dequeue _ =>
    have hmem : d ∈ (dpcOrder t).queue := hbefore.resolve_right (by simp)
    exact ih d hmem

end History

/-! ## Runs -/

section Runs

variable {t : List (DispatchStep ι)} {m m' : DispatchMachine ι} {l : DispatchStep ι}

/-- **The invariant of the dispatch**: an object whose routine is called next has been inserted. -/
structure DispatchMachine.Inv (m : DispatchMachine ι) : Prop where
  queue : (dpcSystem ι).Run m.history m.dpc
  element : ∀ d, m.DpcElement = some d → ∃ p, lastCall d m.history = some p

omit [DecidableEq ι] in
/-- Something that was so when an object was taken off, if the event is not a dequeue. -/
theorem whenTakenOff_cons {α : Type} {f : ι → List (DpcEvent ι) → Option α} {e : DpcEvent ι}
    {h : List (DpcEvent ι)} (he : ∀ d, e ≠ .dequeue (some d)) :
    whenTakenOff f (e :: h) = whenTakenOff f h := by
  cases e with
  | dequeue r =>
    cases r with
    | none => rfl
    | some d => exact absurd rfl (he d)
  | init _ _ _ | setImportance _ _ | remove _ _ | insert _ _ _ _ _ => rfl

/-- The object that a dequeue returns was on the list. -/
theorem dequeued_mem {h : List (DpcEvent ι)} {s s' : DpcState ι} {d : ι}
    (hrun : (dpcSystem ι).Run h s) (hs : (dpcSystem ι).step h s (.dequeue (some d)) s') :
    d ∈ (dpcOrder h).queue := by
  obtain ⟨s₁, hspec, -⟩ := kiDequeueDpc_spec (dpcInvariant_run hrun).pending
  have hhead := (Prod.mk.inj (Except.ok.inj (hspec.symm.trans hs))).1
  obtain ⟨rest, hrest⟩ := List.head?_eq_some_iff.mp hhead
  rw [hrest]
  exact List.mem_cons_self

/-- Every step keeps the invariant. -/
theorem DispatchMachine.Inv.step (h : m.Inv) (hs : (dispatchSystem ι).step t m l m') : m'.Inv := by
  obtain ⟨event, before, after⟩ := l
  obtain ⟨-, -, hs⟩ := hs
  cases event with
  | queue e =>
    obtain ⟨hstep, hhistory, helement, -⟩ := hs
    refine ⟨?_, fun d hd => ?_⟩
    · rw [hhistory]
      exact h.queue.step hstep
    · rw [hhistory]
      rcases lastCall_cons (e := e) (t := m.history) (d := d) with hsame | ⟨_, _, _, _, -, hlast⟩
      · rw [hsame]
        rw [helement] at hd
        cases e with
        | dequeue r =>
          obtain rfl : r = some d := hd
          exact queued_called h.queue d (dequeued_mem h.queue hstep)
        | init _ _ _ | setImportance _ _ | remove _ _ | insert _ _ _ _ _ => exact h.element d hd
      · exact ⟨_, hlast⟩
  | call d routine context arg1 arg2 =>
    obtain ⟨-, hcall⟩ := hs
    have hm' : m' = { m with DpcElement := none } := (Prod.mk.inj hcall).2
    subst hm'
    exact ⟨h.queue, fun d hd => (by cases hd)⟩

/-- The invariant holds in every state that a run reaches. -/
theorem dispatchMachine_inv (h : (dispatchSystem ι).Run t m) : m.Inv := by
  refine h.invariant (I := fun _ m => m.Inv) ?_ fun t m l m' _ ih hs => ih.step hs
  rintro m ⟨hdpc, hhistory, helement⟩
  refine ⟨?_, fun d hd => ?_⟩
  · rw [hhistory]
    exact System.Run.start hdpc
  · rw [helement] at hd
    cases hd

/-- **The accepted call is the latest one**, for objects on the list and for an object that has been taken
off, if the callers agree. -/
theorem accepted_last (h : (dispatchSystem ι).Run t m) : QueuedAgree t →
    (∀ d ∈ (dpcOrder m.history).queue, acceptedCall d m.history = lastCall d m.history)
      ∧ (m.DpcElement ≠ none →
        whenTakenOff acceptedCall m.history = whenTakenOff lastCall m.history) := by
  induction h with
  | @start m hm =>
    obtain ⟨-, hhistory, helement⟩ := hm
    refine fun _ => ⟨fun d hd => ?_, fun hne => absurd helement hne⟩
    rw [hhistory] at hd
    exact absurd hd List.not_mem_nil
  | @step t m l m' hrun hs ih =>
    intro hagree
    obtain ⟨hqueued, htaken⟩ := ih fun l' hl' => hagree l' (List.mem_cons_of_mem l hl')
    have hinv := dispatchMachine_inv hrun
    obtain ⟨event, before, after⟩ := l
    obtain ⟨hbefore, -, hs⟩ := hs
    dsimp only at hbefore
    subst hbefore
    cases event with
    | queue e =>
      obtain ⟨hstep, hhistory, helement, -⟩ := hs
      rw [hhistory]
      constructor
      · refine accepted_last_step hinv.queue hstep hqueued fun d a b i r he hd => ?_
        refine hagree _ List.mem_cons_self d a b i r (by rw [he]) ?_
        rw [(dpcInvariant_run hinv.queue).pending.dpcQueue_eq]
        exact hd
      · intro hne
        by_cases he : ∃ d, e = .dequeue (some d)
        · obtain ⟨d, rfl⟩ := he
          exact hqueued d (dequeued_mem hinv.queue hstep)
        · have he' : ∀ d, e ≠ .dequeue (some d) := fun d hd => he ⟨d, hd⟩
          rw [whenTakenOff_cons he', whenTakenOff_cons he']
          refine htaken fun hnone => hne ?_
          rw [helement]
          cases e with
          | dequeue r =>
            cases r with
            | none => rfl
            | some d => exact absurd rfl (he' d)
          | init _ _ _ | setImportance _ _ | remove _ _ | insert _ _ _ _ _ => exact hnone
    | call d routine context arg1 arg2 =>
      obtain ⟨-, hcall⟩ := hs
      obtain rfl : m' = { before with DpcElement := none } := (Prod.mk.inj hcall).2
      exact ⟨hqueued, fun hne => absurd rfl hne⟩

/-- **A refused call changes nothing** if and only if it has the arguments of the call before. -/
theorem refused_iff (h : m.Inv) (hs : (dispatchSystem ι).step t m l m') :
    RefusalsChangeNothing [l] ↔ QueuedAgree [l] := by
  obtain ⟨event, before, after⟩ := l
  obtain ⟨hbefore, hafter, hs⟩ := hs
  dsimp only at hbefore hafter
  subst hbefore hafter
  have hqueue : dpcQueue keGetCurrentProcessorNumber before.dpc = (dpcOrder before.history).queue :=
    (dpcInvariant_run h.queue).pending.dpcQueue_eq
  constructor
  · intro hrefused l' hl' d arg1 arg2 importance accepted he hd
    obtain rfl := List.mem_singleton.mp hl'
    dsimp only at he hd ⊢
    subst he
    rw [hqueue] at hd
    obtain ⟨hstep, -⟩ := hs
    have haccepted : accepted = false := by simpa [hd] using insert_accepted h.queue hstep
    subst haccepted
    obtain ⟨p, hp⟩ := queued_called h.queue d hd
    have hsame := (hrefused _ List.mem_cons_self d arg1 arg2 importance rfl).2 d
    rw [keInsertQueueDpc_arguments hstep.2.2 d, if_pos rfl, holds_lastCall h.queue d p hp] at hsame
    rw [hp, ← hsame]
  · intro hagree l' hl' d arg1 arg2 importance he
    obtain rfl := List.mem_singleton.mp hl'
    dsimp only at he ⊢
    subst he
    obtain ⟨hstep, hhistory, -⟩ := hs
    have hd : d ∈ (dpcOrder before.history).queue := by simpa using insert_accepted h.queue hstep
    have hlast := hagree _ List.mem_cons_self d arg1 arg2 importance false rfl (by rw [hqueue]; exact hd)
    refine ⟨?_, fun x => ?_⟩
    · rw [hqueue]
      exact (dpcInvariant_run (h.queue.step hstep)).pending.dpcQueue_eq
    · rw [keInsertQueueDpc_arguments hstep.2.2 x]
      split
      · rename_i hx
        rw [hx, holds_lastCall h.queue d _ hlast]
      · rfl

/-- **A routine gets the arguments of the latest call.** -/
theorem called_with_last (h : m.Inv) (hs : (dispatchSystem ι).step t m l m') {d : ι}
    {routine context arg1 arg2 : UInt32} (he : l.event = .call d routine context arg1 arg2) :
    m.DpcElement = some d ∧ lastCall d m.history = some (arg1, arg2) := by
  obtain ⟨-, -, hs⟩ := hs
  rw [he] at hs
  obtain ⟨helement, hcall⟩ := hs
  obtain ⟨p, hp⟩ := h.element d helement
  have hheld := holds_lastCall h.queue d p hp
  obtain ⟨-, -, -, rfl, rfl⟩ := DispatchEvent.call.inj (Prod.mk.inj hcall).1
  exact ⟨helement, hp.trans (congrArg some hheld.symm)⟩

/-- **Refusals change nothing** if and only if those who are refused agree with the call before. -/
theorem refusals_iff (h : (dispatchSystem ι).Run t m) : RefusalsChangeNothing t ↔ QueuedAgree t := by
  induction h with
  | start h => simp [RefusalsChangeNothing, QueuedAgree]
  | @step t m l m' hrun hs ih =>
    have hlast := refused_iff (dispatchMachine_inv hrun) hs
    simp only [RefusalsChangeNothing, QueuedAgree, List.forall_mem_cons, List.not_mem_nil,
      false_imp_iff, implies_true, and_true] at hlast ih ⊢
    exact and_congr hlast ih

/-- **Routines get what was accepted** if and only if nothing else is passed before they are called. -/
theorem routines_iff (h : (dispatchSystem ι).Run t m) :
    QueuedAgree t → (RoutinesGetAccepted t ↔ TakenAgree t) := by
  induction h with
  | start h => simp [RoutinesGetAccepted, TakenAgree]
  | @step t m l m' hrun hs ih =>
    intro hagree
    have hagree' : QueuedAgree t := fun l' hl' => hagree l' (List.mem_cons_of_mem l hl')
    have htaken := (accepted_last hrun hagree').2
    simp only [RoutinesGetAccepted, TakenAgree, List.forall_mem_cons]
    refine and_congr ?_ (ih hagree')
    obtain rfl : l.before = m := hs.1
    constructor
    · intro hget d routine context arg1 arg2 he
      obtain ⟨helement, hlast⟩ := called_with_last (dispatchMachine_inv hrun) hs he
      rw [hlast, ← htaken (by simp [helement]), hget d routine context arg1 arg2 he]
    · intro hsame d routine context arg1 arg2 he
      obtain ⟨helement, hlast⟩ := called_with_last (dispatchMachine_inv hrun) hs he
      rw [htaken (by simp [helement]), ← hsame d routine context arg1 arg2 he, hlast]

/-- **The arguments of a DPC.** In a run of insertions, removals, dequeues and calls of routines: every
routine gets the arguments of the call that was accepted for its run, and refused calls change neither the
queue nor any arguments, if and only if whoever inserts an object that is on the list passes the arguments
of the call before, and no call between the dequeue and the call of the routine passes others. -/
theorem dpc_arguments_iff (h : (dispatchSystem ι).Run t m) :
    RoutinesGetAccepted t ∧ RefusalsChangeNothing t ↔ QueuedAgree t ∧ TakenAgree t := by
  constructor
  · rintro ⟨hget, hnothing⟩
    have hagree := (refusals_iff h).mp hnothing
    exact ⟨hagree, (routines_iff h hagree).mp hget⟩
  · rintro ⟨hagree, htaken⟩
    exact ⟨(routines_iff h hagree).mpr htaken, (refusals_iff h).mpr hagree⟩

end Runs

/-! ## One object, inserted twice -/

/-- One object, in cleared memory. -/
def oneDpc : DispatchMachine Unit :=
  ⟨⟨fun _ => ⟨0, 0, 0, ⟨none, none⟩, 0, 0, 0, 0⟩, fun _ => listInit⟩, [], none⟩

/-- **An object is inserted, inserted again with other arguments, and its routine is called.** -/
theorem oneDpc_run (arg1 arg2 : UInt32) :
    ∃ (m₀ m₁ m₂ m₃ m₄ m₅ : DispatchMachine Unit),
      (dispatchSystem Unit).Run
        [⟨.call () 0 0 arg1 arg2, m₄, m₅⟩, ⟨.queue (.dequeue (some ())), m₃, m₄⟩,
          ⟨.queue (.insert () arg1 arg2 0 false), m₂, m₃⟩, ⟨.queue (.insert () 1 2 0 true), m₁, m₂⟩,
          ⟨.queue (.init () 0 0), m₀, m₁⟩] m₅
      ∧ dpcQueue keGetCurrentProcessorNumber m₁.dpc = []
      ∧ m₂.history = [.insert () 1 2 0 true, .init () 0 0]
      ∧ m₄.history = [.dequeue (some ()), .insert () arg1 arg2 0 false, .insert () 1 2 0 true,
        .init () 0 0] := by
  have h₀ : (dispatchSystem Unit).Run [] oneDpc := System.Run.start ⟨rfl, rfl, rfl⟩
  have h₁ := h₀.step (e := (⟨.queue (.init () 0 0), oneDpc, ⟨_, _, _⟩⟩ : DispatchStep Unit))
    ⟨rfl, rfl, ⟨by decide, rfl⟩, rfl, rfl, by simp⟩
  have h₂ := h₁.step (e := (⟨.queue (.insert () 1 2 0 true), _, ⟨_, _, _⟩⟩ : DispatchStep Unit))
    ⟨rfl, rfl, ⟨⟨0, 0, List.mem_cons_self⟩, rfl, rfl⟩, rfl, rfl, by simp⟩
  have h₃ := h₂.step
    (e := (⟨.queue (.insert () arg1 arg2 0 false), _, ⟨_, _, _⟩⟩ : DispatchStep Unit))
    ⟨rfl, rfl, ⟨⟨0, 0, by simp⟩, rfl, rfl⟩, rfl, rfl, by simp⟩
  have h₄ := h₃.step (e := (⟨.queue (.dequeue (some ())), _, ⟨_, _, _⟩⟩ : DispatchStep Unit))
    ⟨rfl, rfl, rfl, rfl, rfl, fun _ _ => rfl⟩
  have h₅ := h₄.step (e := (⟨.call () 0 0 arg1 arg2, _, _⟩ : DispatchStep Unit))
    ⟨rfl, rfl, rfl, rfl⟩
  exact ⟨_, _, _, _, _, _, h₅, by decide, rfl, rfl⟩

/-- The second call has the arguments of the first. -/
theorem dpc_arguments_iff_same : ∃ (t : List (DispatchStep Unit)) (m : DispatchMachine Unit),
    (dispatchSystem Unit).Run t m ∧ RoutinesGetAccepted t ∧ RefusalsChangeNothing t := by
  obtain ⟨m₀, m₁, m₂, m₃, m₄, m₅, hrun, hqueue₁, hhistory₂, hhistory₄⟩ := oneDpc_run 1 2
  refine ⟨_, _, hrun, (dpc_arguments_iff hrun).mpr ⟨?_, ?_⟩⟩
  · simp [QueuedAgree, hqueue₁, hhistory₂, lastCall]
  · simp [TakenAgree, hhistory₄, lastCall, whenTakenOff]

/-- **A refused call overwrites the arguments.** The routine gets those of the second call, which was
refused. -/
theorem dpc_arguments_fail : ¬ ∀ (t : List (DispatchStep Unit)) (m : DispatchMachine Unit),
    (dispatchSystem Unit).Run t m → RoutinesGetAccepted t ∧ RefusalsChangeNothing t := by
  intro hall
  obtain ⟨m₀, m₁, m₂, m₃, m₄, m₅, hrun, -, -, hhistory₄⟩ := oneDpc_run 3 4
  have hget := (hall _ _ hrun).1 _ List.mem_cons_self () 0 0 3 4 rfl
  dsimp only at hget
  rw [hhistory₄] at hget
  exact absurd hget (by decide)

end KaushOS
