import KaushOS.Ke.WaitRuns

/-! # Semaphores

What `KeInitializeSemaphore`, `KeWaitForSingleObject` and `KeReleaseSemaphore` promise together:
no unit is lost or made up, and the threads that block get the semaphore in the order in which
they blocked. -/

namespace KaushOS

open CircularList Transition

variable {τ ο : Type} [DecidableEq τ] [DecidableEq ο]

variable {m m' : KeMachine τ ο} {o : ο} {setup : ο → ObjectSetup τ} {tr : List (KeLabel τ ο)}
  {l : KeLabel τ ο} {count limit : Int}

/-- **A release below the limit** goes through. -/
theorem keReleaseSemaphore_returns (h : (keSystem setup).Run tr m)
    (hset : setup o = .semaphore count limit) (hs : (m.ke.header o).SignalState < limit) :
    ∃ handed k, keReleaseSemaphore o 0 1 m.ke = .ok ((m.ke.header o).SignalState, handed, k) := by
  obtain ⟨w, hinv, hobjects⟩ := keSystem_refines h
  obtain ⟨-, -, hlimit⟩ := hobjects o
  obtain ⟨m₀, -, -, hvalid⟩ := h.exists_init
  have hmax := (hvalid o).1
  rw [hset] at hmax
  have hlt : (m.ke.header o).SignalState < MAX_DISPATCH_SIGNAL_STATE := lt_of_lt_of_le hs hmax.2.2
  obtain ⟨handed, k, hrel⟩ : ∃ handed k, kiDHeaderRelease o m.ke = .ok (handed, k) := by
    cases hw : w o with
    | nil => exact ⟨_, _, (kiDHeaderRelease_store_spec hinv hw hlt).1⟩
    | cons x rest =>
      obtain ⟨k, hok, -⟩ := kiDHeaderRelease_handoff_spec hinv hw
      exact ⟨_, k, hok⟩
  refine ⟨handed, k, ?_⟩
  have hs' : (m.ke.header o).SignalState < m.ke.Limit o := by rwa [hlimit count limit hset]
  rw [keReleaseSemaphore, assert_of_true hs', kernel_ok_bind, assert_of_true rfl, kernel_ok_bind,
    assert_of_true rfl, kernel_ok_bind, hrel]
  rfl

/-- **Conservation and hand-off of semaphores.** In every state of every run the units that were
there at the start and those released are the ones granted and the ones left; a signalled
semaphore has no waiters; a thread on the wait list is waiting, there once and on no other list;
the threads that blocked are those that got the semaphore by hand-off and, behind them, those on
the wait list; a step takes a thread off the list only as the first one, and makes it ready; and
a release below the limit never fails. -/
theorem semaphore_conservation (hset : setup o = .semaphore count limit)
    (h : (keSystem setup).Run tr m) :
    count + HandOff.gives (keOps o tr)
      = HandOff.grants (keOps o tr) + (m.ke.header o).SignalState
    ∧ 0 ≤ (m.ke.header o).SignalState
    ∧ (0 < (m.ke.header o).SignalState → waitQueue o m.ke = [])
    ∧ ((waitQueue o m.ke).Nodup ∧ ∀ x ∈ waitQueue o m.ke, x ∈ m.live
      ∧ (m.ke.sched.tcb x).State = .WAITING ∧ ∀ i, i ≠ o → x ∉ waitQueue i m.ke)
    ∧ HandOff.joined (keOps o tr) = HandOff.passed (keOps o tr) ++ waitQueue o m.ke
    ∧ (∀ l m', (keSystem setup).step tr m l m' → ∀ x ∈ waitQueue o m.ke,
        (x ∈ waitQueue o m'.ke ∧ (m'.ke.sched.tcb x).State = .WAITING
          ∧ l.1.op o ≠ some (.pass x))
        ∨ (x ∉ waitQueue o m'.ke ∧ (m'.ke.sched.tcb x).State = .READY
          ∧ l.1.op o = some (.pass x) ∧ (waitQueue o m.ke).head? = some x))
    ∧ ((m.ke.header o).SignalState < limit → ∃ handed k,
        keReleaseSemaphore o 0 1 m.ke = .ok ((m.ke.header o).SignalState, handed, k)) := by
  obtain ⟨hbalance, horder⟩ := keSystem_balance h o
  obtain ⟨hnonneg, hidle, hnodup, hwaiting⟩ := keSystem_waiting h o
  obtain ⟨m₀, -, -, hvalid⟩ := h.exists_init
  have hcount := (hvalid o).1
  rw [hset] at hcount hbalance
  refine ⟨?_, hnonneg, hidle, ⟨hnodup, hwaiting⟩, horder, ?_, keReleaseSemaphore_returns h hset⟩
  · have hcount₀ : 0 ≤ count := hcount.1
    simp only [ObjectSetup.units] at hbalance
    omega
  · intro l m' hs x hx
    exact keSystem_waiter_step h hs hx

/-- One unit: thread `false` takes it and blocks on its second wait; thread `true` releases. -/
theorem semaphore_conservation_two :
    ∃ m, (keSystem fun _ : Unit => .semaphore 1 2).Run
        [(.releaseSemaphore true () (some false), none), (.wait false () .blocked, none),
          (.wait false () .acquired, none)] m
      ∧ (m.ke.header ()).SignalState = 0 := by
  have h₀ := System.Run.start (M := keSystem fun _ : Unit => .semaphore 1 2)
    (twoThreadsKe_init ⟨by decide, by decide, by decide⟩ rfl)
  have h₁ := h₀.step (e := (KeEvent.wait false () .acquired, none)) (u := ⟨_, _⟩)
    ⟨_, ⟨rfl, rfl, rfl⟩, rfl, rfl⟩
  have h₂ := h₁.step (e := (KeEvent.wait false () .blocked, none)) (u := ⟨_, _⟩)
    ⟨_, ⟨rfl, rfl, rfl⟩, rfl, rfl⟩
  have h₃ := h₂.step (e := (KeEvent.releaseSemaphore true () (some false), none)) (u := ⟨_, _⟩)
    ⟨_, ⟨rfl, rfl, rfl, _, rfl⟩, rfl, rfl⟩
  obtain ⟨hbalance, -⟩ := semaphore_conservation (o := ()) (by rfl) h₃
  have hunits : (1 : Int) + (1 : Nat) = (2 : Nat) + _ := hbalance
  exact ⟨_, h₃, by omega⟩

end KaushOS
