import Mathlib.Init

/-! # Runs of a labelled transition system

A system takes one labelled step at a time; what a run did so far is its *trace*, the list of
labels with the latest one first. A step may depend on the trace (an environment that only uses
what it has set up before), and results may speak about it (how often something has happened).

* **`System`**, **`System.Run`** — a system and the traces and states it can reach.
* **`System.Run.invariant`** — the induction over runs, done once.
* **`play`** — events carried out one after another, and **`System.Run.play`**, the run they make. -/

namespace Transition

/-- **A labelled transition system** over states `σ` with labels `ε`. `step t s e s'`: after the
trace `t` the step labelled `e` may lead from `s` to `s'`. -/
structure System (ε σ : Type*) where
  /-- The states a run may start in. -/
  init : σ → Prop
  /-- The steps a run may take. -/
  step : List ε → σ → ε → σ → Prop

variable {ε σ : Type*} {M : System ε σ}

/-- **The runs of a system**, as pairs of a trace (latest label first) and the state reached. -/
inductive System.Run (M : System ε σ) : List ε → σ → Prop
  | start {s : σ} (h : M.init s) : M.Run [] s
  | step {t : List ε} {s : σ} {e : ε} {u : σ} (h : M.Run t s) (hs : M.step t s e u) :
      M.Run (e :: t) u

/-- A run started somewhere. -/
theorem System.Run.exists_init {t : List ε} {s : σ} (h : M.Run t s) : ∃ s₀, M.init s₀ := by
  induction h with
  | start h => exact ⟨_, h⟩
  | step _ _ ih => exact ih

/-- **Invariant rule.** What holds at the start and is kept by every step holds in every state a
run reaches, together with the trace that led there. -/
theorem System.Run.invariant {I : List ε → σ → Prop} {t : List ε} {s : σ} (h : M.Run t s)
    (hinit : ∀ s, M.init s → I [] s)
    (hstep : ∀ t s e s', M.Run t s → I t s → M.step t s e s' → I (e :: t) s') : I t s := by
  induction h with
  | start h => exact hinit _ h
  | step h hs ih => exact hstep _ _ _ _ h ih hs

/-! ## Carrying out events

A label is often an event together with the state it happens in, and what an event does is a partial
function. -/

section Play

variable {α β : Type*}

/-- **Events carried out one after another**, from a trace and a state; `none` when one of them is
not enabled or does not return. -/
def play (enabled : α → σ → Bool) (run : α → σ → Except β σ) :
    List α → List (α × σ) × σ → Option (List (α × σ) × σ)
  | [], x => some x
  | e :: events, (t, s) =>
    match enabled e s, run e s with
    | true, .ok u => play enabled run events ((e, s) :: t, u)
    | _, _ => none

/-- What has been carried out is a run. -/
theorem System.Run.play {M : System (α × σ) σ} {enabled : α → σ → Bool}
    {run : α → σ → Except β σ}
    (hM : ∀ t s e u, enabled e s = true → run e s = .ok u → M.step t s (e, s) u)
    {events : List α} {t t' : List (α × σ)} {s u : σ} (h : M.Run t s)
    (hplay : Transition.play enabled run events (t, s) = some (t', u)) : M.Run t' u := by
  induction events generalizing t s with
  | nil =>
    cases hplay
    exact h
  | cons e events ih =>
    rw [Transition.play] at hplay
    split at hplay
    · rename_i v hen hrun
      exact ih (h.step (hM t s e v hen hrun)) hplay
    · cases hplay

/-- Something that has been observed of what was carried out holds of a run. -/
theorem System.Run.play_observed {M : System (α × σ) σ} (enabled : α → σ → Bool)
    (run : α → σ → Except β σ)
    (hM : ∀ t s e u, enabled e s = true → run e s = .ok u → M.step t s (e, s) u)
    (events : List α) {t : List (α × σ)} {s : σ} (observe : List (α × σ) → σ → Bool) (h : M.Run t s)
    (hplay : (Transition.play enabled run events (t, s)).map (fun x => observe x.1 x.2) = some true) :
    ∃ t u, M.Run t u ∧ observe t u = true := by
  cases hx : Transition.play enabled run events (t, s) with
  | none =>
    rw [hx] at hplay
    cases hplay
  | some x =>
    rw [hx] at hplay
    exact ⟨x.1, x.2, System.Run.play hM h hx, Option.some.inj hplay⟩

end Play

end Transition
