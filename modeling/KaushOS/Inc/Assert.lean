import Mathlib.Init

/-! # Kernel computations (`inc/assert.h`)

`DEBUG` is always defined, so a failed `ASSERT` calls `KeBugCheck`, which never returns. A kernel
routine is therefore a computation that either returns a value or stops the machine:

* **`BugCheck`** — the ways in which the machine stops.
* **`Kernel`** — computations that may bugcheck; `assert` is the macro `ASSERT`, `keBugCheck` the
  macro `KeBugCheck`, `deref` the use of a pointer that may be `NULL`. -/

namespace KaushOS

/-- **The ways in which the kernel stops.** -/
inductive BugCheck
  /-- `ASSERT(x)` failed: `KeBugCheck("assertion failed: %s", #x)`. -/
  | assertion (text : String)
  /-- `KeBugCheck(format, ...)`; the arguments of the format are not kept. -/
  | message (format : String)
  /-- A `NULL` pointer was dereferenced. -/
  | nullPointer
  /-- A list walk did not come back to its first element within the length of the list. -/
  | endlessLoop
  deriving DecidableEq, Repr

/-- **A kernel computation**: it returns a value or stops the machine. -/
abbrev Kernel (α : Type) := Except BugCheck α

/-- `KeBugCheck(format, ...)`. -/
def keBugCheck {α : Type} (format : String) : Kernel α := .error (.message format)

/-- `ASSERT(c)`, where `text` is the stringised condition. -/
def assert (c : Prop) [Decidable c] (text : String) : Kernel Unit :=
  if c then .ok () else .error (.assertion text)

/-- The target of a pointer that is about to be used. -/
def deref {α : Type} : Option α → Kernel α
  | some a => .ok a
  | none => .error .nullPointer

@[simp] theorem deref_some {α : Type} (a : α) : deref (some a) = .ok a := rfl

@[simp] theorem assert_of_true {c : Prop} [Decidable c] (h : c) (text : String) :
    assert c text = .ok () := if_pos h

theorem assert_of_not {c : Prop} [Decidable c] (h : ¬ c) (text : String) :
    assert c text = .error (.assertion text) := if_neg h

/-- An assertion lets the computation go on only when its condition holds. -/
theorem assert_eq_ok {c : Prop} [Decidable c] {text : String} {u : Unit} :
    assert c text = .ok u ↔ c := by
  unfold assert
  split <;> simp [*]

/-- Sequencing after a computation that returned. -/
@[simp] theorem kernel_ok_bind {α β : Type} (a : α) (f : α → Kernel β) :
    ((.ok a : Kernel α) >>= f) = f a := rfl

/-- Sequencing after a computation that stopped. -/
@[simp] theorem kernel_error_bind {α β : Type} (e : BugCheck) (f : α → Kernel β) :
    ((.error e : Kernel α) >>= f) = .error e := rfl

/-- **Inversion of sequencing.** A sequence returns only through a returned first part. -/
theorem kernel_bind_eq_ok {α β : Type} {x : Kernel α} {f : α → Kernel β} {b : β} :
    (x >>= f) = .ok b ↔ ∃ a, x = .ok a ∧ f a = .ok b := by
  cases x with
  | error e => simp
  | ok a => simp

/-- Nothing returns from behind an assertion that fails. -/
theorem kernel_assert_false_bind {α : Type} {text : String} {f : Unit → Kernel α} {b : α} :
    (assert False text >>= f) ≠ .ok b := by
  rw [assert_of_not not_false, kernel_error_bind]
  simp

/-- A result that is looked at through a function has been returned. -/
theorem kernel_map_eq_ok {α β : Type} {x : Kernel α} {f : α → β} {b : β} :
    x.map f = .ok b ↔ ∃ a, x = .ok a ∧ f a = b := by
  cases x with
  | error e => simp [Except.map]
  | ok a => simp [Except.map]

/-! ## Outcomes -/

/-- **The two outcomes of a computation**: what it returns satisfies `P`, and where it stops the
machine, `Q` holds of the way in which it does. -/
def Meets {α : Type} (k : Kernel α) (P : α → Prop) (Q : BugCheck → Prop) : Prop :=
  match k with
  | .ok a => P a
  | .error b => Q b

section Meets

variable {α β : Type} {k k' : Kernel α} {f : α → Kernel β} {P P' : α → Prop} {R : β → Prop}
  {Q : BugCheck → Prop}

theorem Meets.ok {a : α} (h : P a) : Meets (.ok a) P Q := h

theorem Meets.error {b : BugCheck} (h : Q b) : Meets (.error b : Kernel α) P Q := h

theorem Meets.of_eq_ok (h : Meets k P Q) {a : α} (hk : k = .ok a) : P a := by
  rw [hk] at h
  exact h

theorem Meets.of_eq_error (h : Meets k P Q) {b : BugCheck} (hk : k = .error b) : Q b := by
  rw [hk] at h
  exact h

/-- Sequencing. -/
theorem Meets.bind (hk : Meets k P Q) (hf : ∀ a, P a → Meets (f a) R Q) : Meets (k >>= f) R Q := by
  cases k with
  | error b => exact hk
  | ok a => exact hf a hk

theorem Meets.mono (hk : Meets k P Q) (hP : ∀ a, P a → P' a) : Meets k P' Q := by
  cases k with
  | error b => exact hk
  | ok a => exact hP a hk

/-- What is returned is known to be the result. -/
theorem Meets.returned (hk : Meets k P Q) : Meets k (fun a => k = .ok a ∧ P a) Q := by
  cases k with
  | error b => exact hk
  | ok a => exact ⟨rfl, hk⟩

theorem Meets.ite {c : Prop} [Decidable c] (hk : c → Meets k P Q) (hk' : ¬ c → Meets k' P Q) :
    Meets (if c then k else k') P Q := by
  split
  · exact hk ‹_›
  · exact hk' ‹_›

theorem Meets.assert {c : Prop} [Decidable c] {text : String} (h : Q (.assertion text)) :
    Meets (assert c text) (fun _ => c) Q := by
  by_cases hc : c
  · rw [assert_of_true hc]
    exact hc
  · rw [assert_of_not hc]
    exact h

theorem Meets.deref {o : Option α} (h : Q .nullPointer) :
    Meets (deref o) (fun a => o = some a) Q := by
  cases o with
  | none => exact h
  | some a => exact rfl

end Meets

end KaushOS
