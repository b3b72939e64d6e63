import KaushOS.Ke.Signals

/-! # The limit of a semaphore

`KeReleaseSemaphore` compares the count with the limit, and reads the count that it returns, before
it locks the dispatcher database.

* **`Undisturbed`** — a step that leaves the count alone while other threads are between the check
  and the locked section.
* **`semaphore_limit`** — where all steps do, the limit is kept and the value returned is the count
  at the release.
* **`semaphore_limit_fails`** — two threads that pass the check together exceed the limit. -/

namespace KaushOS

open Transition

variable {τ ο : Type} [DecidableEq τ] [DecidableEq ο]

/-- Whether a step changes the count of the semaphore `o`: a wait that takes a unit, or a release
for which nobody waits. -/
def SignalEvent.ChangesCount (o : ο) (m : SignalMachine τ ο) : SignalEvent τ ο → Prop
  | .wait i => i = o ∧ 0 < (m.ke.header o).SignalState
  | .release i => i = o ∧ listEmpty (m.ke.header o).WaitListHead = true
  | _ => False

/-- **No other thread stands between the check and the locked section** of a release of the
semaphore, when a step changes its count. -/
def Undisturbed (o : ο) (l : SignalEvent τ ο × SignalMachine τ ο) : Prop :=
  l.1.ChangesCount o l.2 → ∀ t, t ≠ l.2.current → ∀ old, l.2.releasing t ≠ some (o, old)

/-- **The invariant**: the limit is kept, and whoever has passed the check has seen the count as it
is, below the limit. -/
structure WithinLimit (o : ο) (limit : Int) (m : SignalMachine τ ο) : Prop where
  stored : m.ke.Limit o = limit
  signal : (m.ke.header o).SignalState ≤ limit
  checked : ∀ t old, m.releasing t = some (o, old) →
    old = (m.ke.header o).SignalState ∧ old < limit

variable {setup : ο → SignalSetup} {m m' : SignalMachine τ ο} {o : ο} {e : SignalEvent τ ο}
  {count limit : Int} {tr : List (SignalEvent τ ο × SignalMachine τ ο)}

omit [DecidableEq τ] [DecidableEq ο] in
/-- A step that leaves the count alone, and starts no release of the semaphore. -/
theorem WithinLimit.same (h : WithinLimit o limit m)
    (hlimit : m'.ke.Limit = m.ke.Limit)
    (hsignal : (m'.ke.header o).SignalState = (m.ke.header o).SignalState)
    (hold : ∀ t old, m'.releasing t = some (o, old) → m.releasing t = some (o, old)) :
    WithinLimit o limit m' := by
  refine ⟨by rw [hlimit, h.stored], by rw [hsignal]; exact h.signal, fun t old ht => ?_⟩
  rw [hsignal]
  exact h.checked t old (hold t old ht)

omit [DecidableEq τ] [DecidableEq ο] in
/-- A step that changes the count, while nobody else is on his way to release the semaphore. -/
theorem WithinLimit.changed {x : Int} (h : WithinLimit o limit m)
    (hlimit : m'.ke.Limit = m.ke.Limit) (hsignal : (m'.ke.header o).SignalState = x)
    (hx : x ≤ limit) (hnone : ∀ t old, m'.releasing t ≠ some (o, old)) :
    WithinLimit o limit m' :=
  ⟨by rw [hlimit, h.stored], by rw [hsignal]; exact hx, fun t old ht => absurd ht (hnone t old)⟩

/-- **Every undisturbed step keeps the limit.** -/
theorem WithinLimit.step (h : WithinLimit o limit m) (hset : (setup o).isSemaphore = true)
    (hen : e.Enabled setup m) (hrun : e.run m = .ok m') (hsafe : Undisturbed o (e, m)) :
    WithinLimit o limit m' := by
  have heffect := SignalEvent.run_effect hrun
  obtain ⟨⟨k, hruns⟩, hreleasing⟩ := SignalEvent.run_parts hrun
  cases e with
  | sched e =>
    refine h.same heffect.limit (heffect.signal o) fun t old ht => ?_
    rw [hreleasing] at ht
    exact SignalEvent.newReleasing_some ht
  | wait i =>
    have hsame : m'.releasing = m.releasing := hreleasing
    rcases heffect with ⟨-, hs⟩ | ⟨hpos, hs⟩
    · exact h.same hs.limit (hs.signal o) fun t old ht => by rwa [hsame] at ht
    · by_cases hi : i = o
      · subst hi
        refine h.changed hs.limit ((hs.signal i).trans (if_pos rfl)) ?_ fun t old ht => ?_
        · have hle := h.signal
          omega
        · rw [hsame] at ht
          by_cases htc : t = m.current
          · rw [htc, hen.2] at ht
            cases ht
          · exact hsafe ⟨rfl, hpos⟩ t htc old ht
      · refine h.same hs.limit ((hs.signal o).trans (if_neg (Ne.symm hi))) fun t old ht => ?_
        rwa [hsame] at ht
  | check i =>
    have hupdate : m'.releasing
        = Function.update m.releasing m.current (some (i, (m.ke.header i).SignalState)) := hreleasing
    refine ⟨by rw [heffect.limit, h.stored], by rw [heffect.signal o]; exact h.signal, ?_⟩
    intro t old ht
    rw [hupdate] at ht
    rw [heffect.signal o]
    by_cases htc : t = m.current
    · -- the thread has just compared the count with the limit
      rw [htc, Function.update_self] at ht
      obtain ⟨rfl, rfl⟩ := Prod.mk.inj (Option.some.inj ht)
      obtain ⟨old, hcheck, -⟩ := kernel_bind_eq_ok.mp hruns
      obtain ⟨_, hlt, -⟩ := kernel_bind_eq_ok.mp hcheck
      rw [← h.stored]
      exact ⟨rfl, assert_eq_ok.mp hlt⟩
    · rw [Function.update_of_ne htc] at ht
      exact h.checked t old ht
  | release i =>
    have hupdate : m'.releasing = Function.update m.releasing m.current none := hreleasing
    have hback : ∀ t x, m'.releasing t = some x → t ≠ m.current ∧ m.releasing t = some x := by
      intro t x ht
      rw [hupdate] at ht
      by_cases htc : t = m.current
      · rw [htc, Function.update_self] at ht
        cases ht
      · rw [Function.update_of_ne htc] at ht
        exact ⟨htc, ht⟩
    rcases heffect with ⟨-, hs⟩ | ⟨hempty, hs⟩
    · exact h.same hs.limit (hs.signal o) fun t old ht => (hback t _ ht).2
    · by_cases hi : i = o
      · subst hi
        obtain ⟨⟨j, old⟩, hold, hj⟩ := Option.map_eq_some_iff.mp hen.2
        obtain rfl : j = i := hj
        obtain ⟨hseen, hlt⟩ := h.checked m.current old hold
        refine h.changed hs.limit ((hs.signal j).trans (if_pos rfl)) (by omega) fun t old ht => ?_
        obtain ⟨htc, ht⟩ := hback t _ ht
        exact hsafe ⟨rfl, hempty⟩ t htc old ht
      · exact h.same hs.limit ((hs.signal o).trans (if_neg (Ne.symm hi)))
          fun t old ht => (hback t _ ht).2
  | setEvent i | resetEvent i | clearEvent i =>
    have hi : o ≠ i := by
      rintro rfl
      obtain ⟨-, -, hevent⟩ := hen
      cases hsetup : setup o <;> simp_all [SignalSetup.isSemaphore, SignalSetup.isEvent]
    exact h.same heffect.limit ((heffect.signal o).trans (if_neg hi))
      fun t old ht => by rwa [hreleasing] at ht
  | releaseNotification i =>
    have hi : o ≠ i := by
      rintro rfl
      obtain ⟨-, -, hheader⟩ := hen
      cases hsetup : setup o <;> simp_all [SignalSetup.isSemaphore, SignalSetup.terminates]
    exact h.same heffect.limit ((heffect.signal o).trans (if_neg hi))
      fun t old ht => by rwa [hreleasing] at ht

/-- A semaphore that has just been set up. -/
theorem withinLimit_init (hset : setup o = .semaphore count limit)
    (hinit : (signalSystem setup).init m) : WithinLimit o limit m := by
  obtain ⟨-, -, hnone, hdone⟩ := hinit
  obtain ⟨k₁, k₂, hrun, hheader, hlimit⟩ := hdone o
  rw [hset] at hrun
  obtain ⟨_, hle, hrun⟩ := kernel_bind_eq_ok.mp hrun
  cases hrun
  have hsignal : (m.ke.header o).SignalState = count := by
    rw [hheader]
    simp [keInitDispatcherHeader, Ke.setHeader]
  refine ⟨?_, ?_, fun t old ht => ?_⟩
  · rw [hlimit count limit hset]
    simp
  · rw [hsignal]
    exact assert_eq_ok.mp hle
  · rw [hnone t] at ht
    cases ht

/-- **What is expected of the semaphore `o` in a run**: the count is within the limit, and whoever
returned from a release returned the count just before it. -/
def KeepsLimit (o : ο) (limit : Int) (tr : List (SignalEvent τ ο × SignalMachine τ ο))
    (m : SignalMachine τ ο) : Prop :=
  (m.ke.header o).SignalState ≤ limit
  ∧ ∀ l ∈ tr, l.1 = .release o → ∀ old, l.2.releasing l.2.current = some (o, old) →
    old = (l.2.ke.header o).SignalState

/-- **The limit is kept in every run of undisturbed steps.** -/
theorem semaphore_limit (hset : setup o = .semaphore count limit)
    (h : (signalSystem setup).Run tr m) (hsafe : ∀ l ∈ tr, Undisturbed o l) :
    KeepsLimit o limit tr m := by
  have hkind : (setup o).isSemaphore = true := by
    rw [hset]
    rfl
  have hboth : (∀ l ∈ tr, Undisturbed o l) → WithinLimit o limit m ∧ KeepsLimit o limit tr m := by
    refine h.invariant (I := fun tr m => (∀ l ∈ tr, Undisturbed o l) →
      WithinLimit o limit m ∧ KeepsLimit o limit tr m) ?_ ?_
    · intro m hinit _
      have hwithin := withinLimit_init hset hinit
      exact ⟨hwithin, hwithin.signal, fun l hl => absurd hl List.not_mem_nil⟩
    · rintro tr m ⟨e, m₀⟩ m' - hinv ⟨hm, hen, hrun⟩ hsafe
      obtain rfl : m₀ = m := hm
      obtain ⟨hwithin, -, hreturned⟩ := hinv fun l hl => hsafe l (List.mem_cons_of_mem _ hl)
      have hnext := hwithin.step hkind hen hrun (hsafe _ List.mem_cons_self)
      refine ⟨hnext, hnext.signal, fun l hl hrelease old hold => ?_⟩
      rcases List.mem_cons.mp hl with rfl | hl
      · exact (hwithin.checked _ old hold).1
      · exact hreturned l hl hrelease old hold
  exact (hboth hsafe).2

/-- One thread releases a semaphore that nobody else uses. -/
theorem semaphore_limit_one : ∃ tr, ∃ m : SignalMachine Bool Unit,
    (signalSystem fun _ => .semaphore 0 2).Run tr m ∧ KeepsLimit () 2 tr m := by
  obtain ⟨tr, m, hrun, hquiet⟩ := twoThreadsSignal_run (.semaphore 0 2)
    (by rintro _ _ ⟨⟩; decide)
    [.check (), .release ()]
    (fun tr _ => tr.all fun l => l.2.current = false ∧ l.2.releasing true = none) (by decide +kernel)
  refine ⟨tr, m, hrun, semaphore_limit rfl hrun fun l hl _ t ht old => ?_⟩
  have hl' := of_decide_eq_true (List.all_eq_true.mp hquiet l hl)
  obtain rfl : t = true := by
    cases t with
    | true => rfl
    | false => exact absurd hl'.1.symm ht
  rw [hl'.2]
  simp

/-- Two threads pass the check of a semaphore with limit 1 one after the other, and both release it:
the count becomes 2. -/
theorem semaphore_limit_fails : ¬ ∀ (setup : Unit → SignalSetup) count limit tr
    (m : SignalMachine Bool Unit), setup () = .semaphore count limit →
    (signalSystem setup).Run tr m → KeepsLimit () limit tr m := by
  intro h
  obtain ⟨tr, m, hrun, htwo⟩ := twoThreadsSignal_run (.semaphore 0 1)
    (by rintro _ _ ⟨⟩; decide)
    [.check (), .sched .schedule, .check (), .release (), .sched .schedule, .release ()]
    (fun _ m => (m.ke.header ()).SignalState = 2) (by decide +kernel)
  have hle := (h _ 0 1 tr m rfl hrun).1
  have heq := of_decide_eq_true htwo
  rw [heq] at hle
  revert hle
  decide

end KaushOS
