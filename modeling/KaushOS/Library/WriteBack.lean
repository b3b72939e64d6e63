import Mathlib.Logic.Function.Basic

/-! # Write-back caches of one element

A cache in front of a store holds one element of it, which may be newer than the one in the store until
it is written back.

* **`Slot`** — the cache; `Slot.seen` is what is seen of a store through it.
* **`Slot.Coherent`** — a clean cache holds what is in the store.

Loading leaves what is seen as it is; a store into the cache is one into what is seen. -/

namespace WriteBack

variable {κ β : Type*} [DecidableEq κ]

/-- **A cache of one element**: the key that it holds, if any, the element, and whether the element has
yet to be written back. -/
structure Slot (κ β : Type*) where
  key : Option κ
  held : β
  dirty : Bool

namespace Slot

variable {c : Slot κ β} {store : κ → β} {k j : κ} {b : β}

/-- **What is seen of a store through a cache.** -/
def seen (c : Slot κ β) (store : κ → β) : κ → β :=
  match c.key with
  | none => store
  | some k => Function.update store k c.held

/-- **A clean cache holds what is in the store.** -/
def Coherent (c : Slot κ β) (store : κ → β) : Prop :=
  c.dirty = false → ∀ k, c.key = some k → store k = c.held

/-- What is held is seen. -/
theorem seen_key (hkey : c.key = some k) : c.seen store k = c.held := by
  simp only [seen, hkey, Function.update_self]

/-- The store is seen everywhere else. -/
theorem seen_of_ne (hkey : c.key ≠ some k) : c.seen store k = store k := by
  cases hj : c.key with
  | none => simp only [seen, hj]
  | some j =>
    simp only [seen, hj]
    exact Function.update_of_ne (fun h : k = j => hkey (h ▸ hj)) _ _

/-- A cache that holds nothing. -/
theorem seen_none (hkey : c.key = none) : c.seen store = store := by
  simp only [seen, hkey]

/-- Through a clean cache one sees the store. -/
theorem seen_clean (hcoherent : c.Coherent store) (hclean : c.dirty = false) : c.seen store = store := by
  cases hkey : c.key with
  | none => exact seen_none hkey
  | some k =>
    simp only [seen, hkey, ← hcoherent hclean k hkey]
    exact Function.update_eq_self k store

/-- **Loading** from a store of which everything is seen. -/
theorem seen_load (k : κ) (dirty : Bool) :
    (⟨some k, store k, dirty⟩ : Slot κ β).seen store = store :=
  Function.update_eq_self k store

/-- **A store into the cache.** -/
theorem seen_put (hkey : c.key = some k) (b : β) (dirty : Bool) :
    ({ c with held := b, dirty } : Slot κ β).seen store = Function.update (c.seen store) k b := by
  simp only [seen, hkey, Function.update_idem]

/-- A store past the cache of what it does hold is not seen. -/
theorem seen_update_self (hkey : c.key = some k) (b : β) :
    c.seen (Function.update store k b) = c.seen store := by
  simp only [seen, hkey, Function.update_idem]

end Slot

end WriteBack
