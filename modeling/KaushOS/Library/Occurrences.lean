import Mathlib.Algebra.BigOperators.Group.Finset.Basic
import Mathlib.Algebra.BigOperators.Fin
import Mathlib.Data.Fintype.Card
import Mathlib.Data.Finset.Card

/-! # Counting the slots that hold a value

A family of tables with finitely many slots each. `occurrences s f b` is the number of slots of
the tables in `s` that hold `b`. The lemmas say how it changes when one slot is stored to and when
a table comes or goes. -/

namespace Occurrences

variable {ι κ β : Type*} [DecidableEq ι] [Fintype κ] [DecidableEq κ] [DecidableEq β]

/-- The slots of one table that hold `b`. -/
def slots (row : κ → β) (b : β) : Finset κ := Finset.univ.filter fun i => row i = b

/-- **The number of slots that hold `b`**, over the tables in `s`. -/
def occurrences (s : Finset ι) (f : ι → κ → β) (b : β) : Nat := ∑ p ∈ s, (slots (f p) b).card

variable {s : Finset ι} {f g : ι → κ → β} {b c : β} {p : ι} {i : κ}

omit [DecidableEq κ] in
@[simp] theorem mem_slots {row : κ → β} : i ∈ slots row b ↔ row i = b := by
  simp [slots]

omit [DecidableEq ι] [DecidableEq κ] in
/-- Only the tables that are counted matter. -/
theorem occurrences_congr (h : ∀ p ∈ s, f p = g p) : occurrences s f b = occurrences s g b :=
  Finset.sum_congr rfl fun p hp => by rw [h p hp]

omit [DecidableEq κ] in
/-- A table without `b` may come. -/
theorem occurrences_insert (hp : p ∉ s) (h : ∀ i, f p i ≠ b) :
    occurrences (insert p s) f b = occurrences s f b := by
  have hempty : slots (f p) b = ∅ := Finset.filter_eq_empty_iff.mpr fun i _ => h i
  rw [occurrences, Finset.sum_insert hp, hempty, Finset.card_empty, Nat.zero_add]
  rfl

omit [DecidableEq κ] in
/-- A table without `b` may go. -/
theorem occurrences_erase (hp : p ∈ s) (h : ∀ i, f p i ≠ b) :
    occurrences (s.erase p) f b = occurrences s f b := by
  conv_rhs => rw [← Finset.insert_erase hp]
  exact (occurrences_insert (Finset.notMem_erase p s) h).symm

omit [DecidableEq κ] in
/-- A value that occurs in some slot is counted. -/
theorem occurrences_pos (hp : p ∈ s) (h : f p i = b) : 0 < occurrences s f b := by
  have hcard : 0 < (slots (f p) b).card := Finset.card_pos.mpr ⟨i, mem_slots.mpr h⟩
  rw [occurrences, ← Finset.add_sum_erase s _ hp]
  omega

omit [DecidableEq ι] in
/-- **The slots that hold `b`**, as a set of table and index. -/
theorem occurrences_eq_card {n : Nat} (s : Finset ι) (f : ι → Nat → β) (b : β) :
    occurrences s (fun p (i : Fin n) => f p i) b
      = ((s ×ˢ Finset.range n).filter fun x => f x.1 x.2 = b).card := by
  rw [Finset.card_filter, Finset.sum_product]
  refine Finset.sum_congr rfl fun p _ => ?_
  rw [slots, Finset.card_filter]
  exact Fin.sum_univ_eq_sum_range (fun i => if f p i = b then 1 else 0) n

/-- **A value that occurs at most once** is in one slot only. -/
theorem eq_of_occurrences_le_one {q : ι} {j : κ} (h : occurrences s f b ≤ 1) (hp : p ∈ s)
    (hq : q ∈ s) (hi : f p i = b) (hj : f q j = b) : p = q ∧ i = j := by
  have hone : (slots (f p) b).card ≤ 1 := by
    refine Nat.le_trans ?_ h
    rw [occurrences, ← Finset.add_sum_erase s _ hp]
    exact Nat.le_add_right ..
  by_cases hpq : p = q
  · subst hpq
    exact ⟨rfl, Finset.card_le_one.mp hone i (mem_slots.mpr hi) j (mem_slots.mpr hj)⟩
  · have hi' : 0 < (slots (f p) b).card := Finset.card_pos.mpr ⟨i, mem_slots.mpr hi⟩
    have hj' : 0 < occurrences (s.erase p) f b :=
      occurrences_pos (Finset.mem_erase.mpr ⟨Ne.symm hpq, hq⟩) hj
    rw [occurrences, ← Finset.add_sum_erase s _ hp] at h
    rw [occurrences] at hj'
    omega

/-- Store `c` to slot `i` of table `p`. -/
def store (f : ι → κ → β) (p : ι) (i : κ) (c : β) : ι → κ → β :=
  Function.update f p (Function.update (f p) i c)

/-- One slot counted apart from the others. -/
theorem card_slots (row : κ → β) (i : κ) (b : β) :
    (slots row b).card = ((slots row b).erase i).card + (if row i = b then 1 else 0) := by
  by_cases hr : row i = b
  · rw [if_pos hr, Finset.card_erase_add_one (mem_slots.mpr hr)]
  · have hnot : i ∉ slots row b := fun hm => hr (mem_slots.mp hm)
    rw [if_neg hr, Finset.erase_eq_of_notMem hnot, Nat.add_zero]

/-- The slots of one table after a store. -/
theorem card_slots_update (row : κ → β) (i : κ) (b c : β) :
    (slots (Function.update row i c) b).card + (if row i = b then 1 else 0)
      = (slots row b).card + (if c = b then 1 else 0) := by
  have hrest : (slots (Function.update row i c) b).erase i = (slots row b).erase i := by
    ext j
    by_cases hj : j = i
    · simp [hj]
    · simp [hj]
  have hnew := card_slots (Function.update row i c) i b
  have hold := card_slots row i b
  rw [hrest, Function.update_self] at hnew
  omega

/-- **One store** takes away one occurrence of the old value and adds one of the new value. -/
theorem occurrences_store (hp : p ∈ s) (i : κ) (b c : β) :
    occurrences s (store f p i c) b + (if f p i = b then 1 else 0)
      = occurrences s f b + (if c = b then 1 else 0) := by
  have hrow := card_slots_update (f p) i b c
  have hself : store f p i c p = Function.update (f p) i c := Function.update_self ..
  have hrest : ∑ q ∈ s.erase p, (slots (store f p i c q) b).card
      = ∑ q ∈ s.erase p, (slots (f q) b).card := by
    refine Finset.sum_congr rfl fun q hq => ?_
    have hne : q ≠ p := Finset.ne_of_mem_erase hq
    rw [show store f p i c q = f q from Function.update_of_ne hne ..]
  rw [occurrences, occurrences, ← Finset.add_sum_erase s _ hp, ← Finset.add_sum_erase s _ hp,
    hrest, hself]
  omega

end Occurrences
