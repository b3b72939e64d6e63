import Mathlib.Data.List.Nodup

/-! # A counted resource with hand-off

A number of units and a queue of clients that wait for one. A client takes a unit when there is
one and joins the end of the queue otherwise; a unit that is given back goes to the first client
of the queue, and is stored only when nobody waits.

* **`HandOff`** — the states; a resource with free units has no queue, by construction.
* **`HandOff.apply`**, **`HandOff.run`** — what one operation and what a sequence of operations
  does, where it is possible.
* **`run_conservation`** — no unit is lost or made up.
* **`run_order`** — the clients that joined the queue are served in the order of joining. -/

/-- **A resource with hand-off**: free units, and the clients that wait, the first in front. -/
@[ext]
structure HandOff (τ : Type*) where
  units : Nat
  waiting : List τ
  /-- Nobody waits for a free unit. -/
  idle : 0 < units → waiting = []
  /-- Nobody waits twice. -/
  nodup : waiting.Nodup

namespace HandOff

variable {τ : Type*} [DecidableEq τ]

/-- The operations. -/
inductive Op (τ : Type*)
  /-- A client takes a free unit. -/
  | take (t : τ)
  /-- A client finds no free unit and joins the queue. -/
  | join (t : τ)
  /-- A unit is given back, and stored. -/
  | put
  /-- A unit is given back, and goes to the first client of the queue. -/
  | pass (t : τ)
  deriving DecidableEq, Repr

omit [DecidableEq τ] in
/-- A client that is not waiting yet goes to the end of a queue without duplicates. -/
theorem nodup_join {l : List τ} {t : τ} (hl : l.Nodup) (ht : t ∉ l) : (l ++ [t]).Nodup := by
  refine List.nodup_append.mpr ⟨hl, List.nodup_singleton t, ?_⟩
  intro a ha b hb
  obtain rfl := List.mem_singleton.mp hb
  exact ne_of_mem_of_not_mem ha ht

/-- **One operation**, `none` where it is not possible. -/
def apply (s : HandOff τ) : Op τ → Option (HandOff τ)
  | .take _ =>
    if h : 0 < s.units then some ⟨s.units - 1, s.waiting, fun _ => s.idle h, s.nodup⟩ else none
  | .join t =>
    if h : s.units = 0 ∧ t ∉ s.waiting then
      some ⟨s.units, s.waiting ++ [t], fun hu => absurd h.1 (Nat.ne_of_gt hu), nodup_join s.nodup h.2⟩
    else none
  | .put => if h : s.waiting = [] then some ⟨s.units + 1, s.waiting, fun _ => h, s.nodup⟩ else none
  | .pass t =>
    if s.waiting.head? = some t then
      some ⟨s.units, s.waiting.tail, fun hu => by rw [s.idle hu, List.tail_nil], s.nodup.tail⟩
    else none

/-- What an operation needs and does, in terms of units and queue. -/
def Op.Effect (s s' : HandOff τ) : Op τ → Prop
  | .take _ => s.units = s'.units + 1 ∧ s'.waiting = s.waiting
  | .join t => s.units = 0 ∧ t ∉ s.waiting ∧ s'.units = 0 ∧ s'.waiting = s.waiting ++ [t]
  | .put => s.waiting = [] ∧ s'.units = s.units + 1 ∧ s'.waiting = []
  | .pass t => s.waiting = t :: s'.waiting ∧ s'.units = s.units

/-- **The specification of an operation.** -/
theorem apply_eq_some_iff {s s' : HandOff τ} {op : Op τ} :
    s.apply op = some s' ↔ op.Effect s s' := by
  cases op with
  | take t =>
    simp only [apply, Op.Effect, Option.dite_none_right_eq_some, Option.some.injEq,
      HandOff.ext_iff]
    constructor
    · rintro ⟨hu, hunits, hw⟩
      exact ⟨by omega, hw.symm⟩
    · rintro ⟨hunits, hw⟩
      exact ⟨by omega, by omega, hw.symm⟩
  | join t =>
    simp only [apply, Op.Effect, Option.dite_none_right_eq_some, Option.some.injEq,
      HandOff.ext_iff]
    constructor
    · rintro ⟨⟨hu, ht⟩, hunits, hw⟩
      exact ⟨hu, ht, by omega, hw.symm⟩
    · rintro ⟨hu, ht, hunits, hw⟩
      exact ⟨⟨hu, ht⟩, by omega, hw.symm⟩
  | put =>
    simp only [apply, Op.Effect, Option.dite_none_right_eq_some, Option.some.injEq,
      HandOff.ext_iff]
    constructor
    · rintro ⟨hw, hunits, hw'⟩
      exact ⟨hw, hunits.symm, hw' ▸ hw⟩
    · rintro ⟨hw, hunits, hw'⟩
      exact ⟨hw, hunits.symm, hw.trans hw'.symm⟩
  | pass t =>
    simp only [apply, Op.Effect, Option.ite_none_right_eq_some, Option.some.injEq,
      HandOff.ext_iff]
    constructor
    · rintro ⟨hhead, hunits, hw⟩
      refine ⟨?_, hunits.symm⟩
      rw [List.eq_cons_of_mem_head? hhead, hw]
    · rintro ⟨hw, hunits⟩
      exact ⟨by rw [hw, List.head?_cons], hunits.symm, by rw [hw, List.tail_cons]⟩

/-- At most one operation: nothing happens to the resource when there is none. -/
def after (s : HandOff τ) : Option (Op τ) → Option (HandOff τ)
  | none => some s
  | some op => s.apply op

/-- What one operation does is given by `Op.Effect`. -/
theorem after_some_iff {s s' : HandOff τ} {op : Op τ} :
    s.after (some op) = some s' ↔ op.Effect s s' :=
  apply_eq_some_iff

/-- **A waiting client** goes on waiting, unless it is the first and gets the unit. -/
theorem after_waiting {s s' : HandOff τ} {op : Option (Op τ)} (h : s.after op = some s') {t : τ}
    (ht : t ∈ s.waiting) :
    (t ∈ s'.waiting ∧ op ≠ some (.pass t))
    ∨ (t ∉ s'.waiting ∧ op = some (.pass t) ∧ s.waiting.head? = some t) := by
  cases op with
  | none =>
    obtain rfl := Option.some.inj h
    exact Or.inl ⟨ht, by simp⟩
  | some op =>
    have heff := after_some_iff.mp h
    cases op with
    | take c =>
      obtain ⟨-, hw⟩ := heff
      exact Or.inl ⟨hw ▸ ht, by simp⟩
    | join c =>
      obtain ⟨-, -, -, hw⟩ := heff
      exact Or.inl ⟨hw ▸ List.mem_append_left _ ht, by simp⟩
    | put =>
      obtain ⟨hw, -⟩ := heff
      rw [hw] at ht
      cases ht
    | pass c =>
      obtain ⟨hw, -⟩ := heff
      by_cases hct : c = t
      · subst hct
        have hnd := s.nodup
        rw [hw] at hnd
        exact Or.inr ⟨(List.nodup_cons.mp hnd).1, rfl, by rw [hw, List.head?_cons]⟩
      · rw [hw] at ht
        exact Or.inl ⟨(List.mem_cons.mp ht).resolve_left (Ne.symm hct), by simpa using hct⟩

/-- **A sequence of operations**, the latest one first. -/
def run (s₀ : HandOff τ) : List (Op τ) → Option (HandOff τ)
  | [] => some s₀
  | op :: ops => (s₀.run ops).bind fun s => s.apply op

/-! ## The book -/

/-- Does the operation give a unit back? -/
def Op.isGive : Op τ → Bool
  | .put | .pass _ => true
  | _ => false

/-- Does the operation grant a unit to a client? -/
def Op.isGrant : Op τ → Bool
  | .take _ | .pass _ => true
  | _ => false

/-- The client that joins the queue. -/
def Op.joined : Op τ → Option τ
  | .join t => some t
  | _ => none

/-- The client that leaves the queue. -/
def Op.passed : Op τ → Option τ
  | .pass t => some t
  | _ => none

/-- The number of units given back. -/
def gives (ops : List (Op τ)) : Nat := ops.countP Op.isGive

/-- The number of units granted. -/
def grants (ops : List (Op τ)) : Nat := ops.countP Op.isGrant

/-- The clients in the order in which they joined the queue. -/
def joined (ops : List (Op τ)) : List τ := (ops.filterMap Op.joined).reverse

/-- The clients in the order in which they were served from the queue. -/
def passed (ops : List (Op τ)) : List τ := (ops.filterMap Op.passed).reverse

omit [DecidableEq τ] in
/-- Each operation joins at most one client. -/
theorem joined_cons (op : Op τ) (ops : List (Op τ)) :
    joined (op :: ops) = joined ops ++ op.joined.toList := by
  cases hop : op.joined with
  | none => simp [joined, hop]
  | some t => simp [joined, hop]

omit [DecidableEq τ] in
/-- Each operation serves at most one client. -/
theorem passed_cons (op : Op τ) (ops : List (Op τ)) :
    passed (op :: ops) = passed ops ++ op.passed.toList := by
  cases hop : op.passed with
  | none => simp [passed, hop]
  | some t => simp [passed, hop]

variable {s s' s₀ : HandOff τ} {op : Op τ} {ops : List (Op τ)}

/-- One operation keeps the balance of units. -/
theorem apply_conservation (h : s.apply op = some s') :
    s.units + gives [op] = grants [op] + s'.units := by
  have heff := apply_eq_some_iff.mp h
  cases op with
  | take t =>
    obtain ⟨hunits, -⟩ := heff
    simp [gives, grants, Op.isGive, Op.isGrant]
    omega
  | join t =>
    obtain ⟨hunits, -, hunits', -⟩ := heff
    simp [gives, grants, Op.isGive, Op.isGrant, hunits, hunits']
  | put =>
    obtain ⟨-, hunits, -⟩ := heff
    simp [gives, grants, Op.isGive, Op.isGrant, hunits]
  | pass t =>
    obtain ⟨-, hunits⟩ := heff
    simp [gives, grants, Op.isGive, Op.isGrant, hunits]
    omega

/-- One operation moves clients through the queue in order. -/
theorem apply_order (h : s.apply op = some s') :
    s.waiting ++ op.joined.toList = op.passed.toList ++ s'.waiting := by
  have heff := apply_eq_some_iff.mp h
  cases op with
  | take t =>
    obtain ⟨-, hw⟩ := heff
    simp [Op.joined, Op.passed, hw]
  | join t =>
    obtain ⟨-, -, -, hw⟩ := heff
    simp [Op.joined, Op.passed, hw]
  | put =>
    obtain ⟨hw, -, hw'⟩ := heff
    simp [Op.joined, Op.passed, hw, hw']
  | pass t =>
    obtain ⟨hw, -⟩ := heff
    simp [Op.joined, Op.passed, hw]

/-- A run goes on with at most one operation. -/
theorem run_after {op : Option (Op τ)} (h : s₀.run ops = some s) (hop : s.after op = some s') :
    s₀.run (op.toList ++ ops) = some s' := by
  cases op with
  | none => exact h.trans hop
  | some op =>
    show (s₀.run ops).bind _ = _
    rw [h]
    exact hop

/-- A run with one more operation. -/
theorem run_cons_eq_some (h : s₀.run (op :: ops) = some s') :
    ∃ s, s₀.run ops = some s ∧ s.apply op = some s' :=
  Option.bind_eq_some_iff.mp h

/-- **Conservation.** What was there at the start and what was given back has been granted or is
still there. -/
theorem run_conservation (h : s₀.run ops = some s) :
    s₀.units + gives ops = grants ops + s.units := by
  induction ops generalizing s with
  | nil =>
    obtain rfl := Option.some.inj h
    simp [gives, grants]
  | cons op ops ih =>
    obtain ⟨s₁, hs₁, hop⟩ := run_cons_eq_some h
    have hrest := ih hs₁
    have hone := apply_conservation hop
    simp only [gives, grants, List.countP_cons, List.countP_nil] at hrest hone ⊢
    omega

/-- **First in, first out.** The clients that joined the queue are those that were served and,
behind them, those that still wait, in this order. -/
theorem run_order (h : s₀.run ops = some s) :
    s₀.waiting ++ joined ops = passed ops ++ s.waiting := by
  induction ops generalizing s with
  | nil =>
    obtain rfl := Option.some.inj h
    simp [joined, passed]
  | cons op ops ih =>
    obtain ⟨s₁, hs₁, hop⟩ := run_cons_eq_some h
    rw [joined_cons, passed_cons, ← List.append_assoc, ih hs₁, List.append_assoc, apply_order hop,
      List.append_assoc]

end HandOff
