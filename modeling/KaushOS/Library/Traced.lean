import Mathlib.Tactic.Common

/-! # Computations with a record of their accesses

A computation that returns a value or fails, with the list of the accesses that it makes until then. The
record is kept when the computation fails, so that one can say what a program does before it is
stopped.

* **`Traced`** — the computations, a monad.
* **`Traced.Keeps`** — all accesses satisfy a predicate, and so does what is returned; the rule for
  sequences is **`Traced.Keeps.bind`**.
* **`Traced.Returned`** — a computation has returned a value and made only such accesses;
  **`Traced.returned_bind`** takes a sequence apart. -/

/-- **A computation with a record of its accesses.** -/
structure Traced (β ε α : Type) where
  log : List β
  result : Except ε α

namespace Traced

variable {β ε α γ : Type} {x : Traced β ε α} {f : α → Traced β ε γ} {P : β → Prop} {Q Q' : α → Prop}
  {R : γ → Prop} {a : α} {b : β} {c : γ} {e : ε} {k : Except ε α}

instance : Monad (Traced β ε) where
  pure a := ⟨[], .ok a⟩
  bind x f :=
    match x.result with
    | .error e => ⟨x.log, .error e⟩
    | .ok a => ⟨x.log ++ (f a).log, (f a).result⟩

/-- One access. -/
def access (b : β) : Traced β ε Unit := ⟨[b], .ok ()⟩

/-- A computation that makes no access of its own. -/
def lift (k : Except ε α) : Traced β ε α := ⟨[], k⟩

/-! ## Sequences -/

@[simp] theorem pure_log (a : α) : (pure a : Traced β ε α).log = [] := rfl

@[simp] theorem pure_result (a : α) : (pure a : Traced β ε α).result = .ok a := rfl

/-- A sequence whose first part fails. -/
theorem bind_of_error (h : x.result = .error e) : x >>= f = ⟨x.log, .error e⟩ := by
  simp only [Bind.bind, h]

/-- A sequence whose first part returns. -/
theorem bind_of_ok (h : x.result = .ok a) : x >>= f = ⟨x.log ++ (f a).log, (f a).result⟩ := by
  simp only [Bind.bind, h]

/-- **The result of a sequence** is the sequence of the results. -/
theorem bind_result (x : Traced β ε α) (f : α → Traced β ε γ) :
    (x >>= f).result = x.result >>= fun a => (f a).result := by
  cases h : x.result with
  | error e =>
    rw [bind_of_error h]
    rfl
  | ok a =>
    rw [bind_of_ok h]
    rfl

/-! ## What a computation keeps to -/

/-- **All accesses satisfy `P`**, whether the computation returns or not, and what it returns
satisfies `Q`. -/
def Keeps (P : β → Prop) (x : Traced β ε α) (Q : α → Prop) : Prop :=
  (∀ b ∈ x.log, P b) ∧ ∀ a, x.result = .ok a → Q a

theorem Keeps.pure (h : Q a) : Keeps P (pure a : Traced β ε α) Q := by
  refine ⟨fun b hb => absurd hb List.not_mem_nil, ?_⟩
  intro a' ha
  cases ha
  exact h

theorem Keeps.lift (h : ∀ a, k = .ok a → Q a) : Keeps P (lift k : Traced β ε α) Q :=
  ⟨fun _ hb => absurd hb List.not_mem_nil, h⟩

theorem Keeps.access (h : P b) : Keeps P (access b : Traced β ε Unit) fun _ => True :=
  ⟨fun _ hb => List.mem_singleton.mp hb ▸ h, fun _ _ => trivial⟩

/-- Sequencing. -/
theorem Keeps.bind (hx : x.Keeps P Q) (hf : ∀ a, Q a → (f a).Keeps P R) : (x >>= f).Keeps P R := by
  cases h : x.result with
  | error e =>
    rw [bind_of_error h]
    refine ⟨hx.1, ?_⟩
    intro c hc
    cases hc
  | ok a =>
    obtain ⟨hlog, hresult⟩ := hf a (hx.2 a h)
    rw [bind_of_ok h]
    refine ⟨?_, hresult⟩
    intro b hb
    exact (List.mem_append.mp hb).elim (hx.1 b) (hlog b)

/-- A weaker statement about what is returned. -/
theorem Keeps.mono (hx : x.Keeps P Q) (h : ∀ a, Q a → Q' a) : x.Keeps P Q' :=
  ⟨hx.1, fun a ha => h a (hx.2 a ha)⟩

/-! ## What has been returned -/

/-- **A computation has returned `a`**, and all its accesses satisfy `P`. -/
def Returned (P : β → Prop) (x : Traced β ε α) (a : α) : Prop :=
  x.result = .ok a ∧ ∀ b ∈ x.log, P b

theorem returned_pure {a' : α} : Returned P (pure a : Traced β ε α) a' ↔ a = a' := by
  constructor
  · rintro ⟨h, -⟩
    exact Except.ok.inj h
  · rintro rfl
    exact ⟨rfl, fun b hb => absurd hb List.not_mem_nil⟩

theorem returned_lift : Returned P (lift k : Traced β ε α) a ↔ k = .ok a :=
  ⟨And.left, fun h => ⟨h, fun _ hb => absurd hb List.not_mem_nil⟩⟩

theorem returned_access {u : Unit} : Returned P (access b : Traced β ε Unit) u ↔ P b := by
  constructor
  · rintro ⟨-, h⟩
    exact h b (List.mem_singleton_self b)
  · intro h
    exact ⟨rfl, fun _ hb => List.mem_singleton.mp hb ▸ h⟩

/-- **A sequence has returned** when both parts have. -/
theorem returned_bind : (x >>= f).Returned P c ↔ ∃ a, x.Returned P a ∧ (f a).Returned P c := by
  cases h : x.result with
  | error e =>
    rw [bind_of_error h]
    constructor
    · rintro ⟨hc, -⟩
      cases hc
    · rintro ⟨a, ⟨ha, -⟩, -⟩
      rw [h] at ha
      cases ha
  | ok a =>
    rw [bind_of_ok h]
    constructor
    · rintro ⟨hc, hlog⟩
      exact ⟨a, ⟨h, fun b hb => hlog b (List.mem_append_left _ hb)⟩, hc,
        fun b hb => hlog b (List.mem_append_right _ hb)⟩
    · rintro ⟨a', ⟨ha, hlog⟩, hc, hlog'⟩
      obtain rfl := Except.ok.inj (h.symm.trans ha)
      exact ⟨hc, fun b hb => (List.mem_append.mp hb).elim (hlog b) (hlog' b)⟩

/-- What has returned has kept to it. -/
theorem Returned.keeps (h : x.Returned P a) : x.Keeps P (· = a) :=
  ⟨h.2, fun _ ha => Except.ok.inj (ha.symm.trans h.1)⟩

end Traced
