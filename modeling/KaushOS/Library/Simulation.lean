import KaushOS.Library.Transition

/-! # Simulations

One system simulates another one when it can follow each step of it, with the same label.

* **`Simulation`** — states are related at the start, and stay so.
* **`System.Run.simulated`** — the runs of a system are runs of the one that simulates it. -/

namespace Transition

variable {ε σ τ : Type*} {M : System ε σ} {A : System ε τ} {R : σ → τ → Prop} {t : List ε} {s : σ}

/-- **A simulation** of the system `M` by the system `A`, with a relation of their states. -/
structure Simulation (M : System ε σ) (A : System ε τ) (R : σ → τ → Prop) : Prop where
  init : ∀ s, M.init s → ∃ a, A.init a ∧ R s a
  step : ∀ t s e s' a, R s a → M.step t s e s' → ∃ a', A.step t a e a' ∧ R s' a'

/-- **A run is simulated**, with the same trace. -/
theorem System.Run.simulated (h : M.Run t s) (hR : Simulation M A R) : ∃ a, A.Run t a ∧ R s a := by
  induction h with
  | start h =>
    obtain ⟨a, ha, hrel⟩ := hR.init _ h
    exact ⟨a, .start ha, hrel⟩
  | step _ hs ih =>
    obtain ⟨a, hrun, hrel⟩ := ih
    obtain ⟨a', hs', hrel'⟩ := hR.step _ _ _ _ _ hrel hs
    exact ⟨a', .step hrun hs', hrel'⟩

end Transition
