import Mathlib.Data.List.Basic
import Mathlib.Data.Nat.Basic

/-! # Lists in groups

A separator stands between the groups of so many elements of a list, the last of which may be shorter.

* **`separate`** — the list with the separators, group by group.
* **`separateFrom`** — the same, element by element with a counter.
* **`separateFrom_eq`** — they agree.
* **`length_separate`** — the number of separators. -/

namespace Grouping

variable {α : Type} {g cnt : Nat} {sep : α} {l l' : List α}

/-- **A list in groups of `g` elements**, with a separator between them. -/
def separate (g : Nat) (sep : α) (l : List α) : List α :=
  if g = 0 ∨ l.length ≤ g then l else l.take g ++ sep :: separate g sep (l.drop g)
termination_by l.length
decreasing_by
  rw [List.length_drop]
  omega

/-- The list from an element on with `cnt` elements in front of it: there is a separator in front of each element
whose number is a multiple of `g`. -/
def separateFrom (g : Nat) (sep : α) : Nat → List α → List α
  | _, [] => []
  | cnt, a :: l => (if cnt > 0 ∧ cnt % g = 0 then [sep] else []) ++ a :: separateFrom g sep (cnt + 1) l

/-- A short list is one group. -/
theorem separate_of_le (h : l.length ≤ g) : separate g sep l = l := by
  rw [separate, if_pos (Or.inr h)]

/-- A long list begins with a group. -/
theorem separate_of_lt (hg : 0 < g) (h : g < l.length) :
    separate g sep l = l.take g ++ sep :: separate g sep (l.drop g) := by
  rw [separate, if_neg (by omega)]

/-- Two parts of a list. -/
theorem separateFrom_append :
    separateFrom g sep cnt (l ++ l') = separateFrom g sep cnt l ++ separateFrom g sep (cnt + l.length) l' := by
  induction l generalizing cnt with
  | nil => rfl
  | cons a l ih =>
    rw [List.cons_append, separateFrom, separateFrom, ih, List.length_cons, List.append_assoc, List.cons_append,
      Nat.add_right_comm, Nat.add_assoc]

/-- Inside of a group there are no separators. -/
theorem separateFrom_inside (h : ∀ i < l.length, (cnt + i) % g ≠ 0) : separateFrom g sep cnt l = l := by
  induction l generalizing cnt with
  | nil => rfl
  | cons a l ih =>
    have hfirst := h 0 (by simp)
    rw [separateFrom, if_neg fun hsep => hfirst hsep.2, ih fun i hi => ?_]
    · rfl
    · rw [Nat.add_assoc, Nat.add_comm 1 i]
      exact h (i + 1) (by simpa using hi)

/-- One group behind others. -/
theorem separateFrom_group (hcnt : cnt % g = 0) (h : l.length ≤ g) :
    separateFrom g sep cnt l = (if cnt > 0 ∧ l ≠ [] then [sep] else []) ++ l := by
  cases l with
  | nil => simp [separateFrom]
  | cons a l =>
    rw [List.length_cons] at h
    obtain ⟨k, rfl⟩ := Nat.dvd_of_mod_eq_zero hcnt
    have hinside : separateFrom g sep (g * k + 1) l = l := by
      refine separateFrom_inside fun i hi => ?_
      rw [Nat.add_assoc, Nat.mul_add_mod, Nat.mod_eq_of_lt (by omega)]
      omega
    rw [separateFrom, hinside]
    simp [hcnt]

/-- **Counting gives the groups.** -/
theorem separateFrom_eq (hg : 0 < g) (hcnt : cnt % g = 0) :
    separateFrom g sep cnt l = (if cnt > 0 ∧ l ≠ [] then [sep] else []) ++ separate g sep l := by
  -- induction along the groups
  induction l using separate.induct g generalizing cnt with
  | case1 l h => rw [separateFrom_group hcnt (by omega), separate_of_le (by omega)]
  | case2 l h ih =>
    have hlt : g < l.length := by omega
    have hne : l ≠ [] := List.ne_nil_of_length_pos (by omega)
    have hrest : l.drop g ≠ [] := List.ne_nil_of_length_pos (by rw [List.length_drop]; omega)
    have hfirst : (l.take g).length = g := by rw [List.length_take]; omega
    have hsplit : separateFrom g sep cnt (l.take g ++ l.drop g) = _ := separateFrom_append
    rw [List.take_append_drop, separateFrom_group hcnt (Nat.le_of_eq hfirst), hfirst,
      ih (by rw [Nat.add_mod_right]; exact hcnt)] at hsplit
    have htake : l.take g ≠ [] := List.ne_nil_of_length_pos (by omega)
    rw [hsplit, separate_of_lt hg hlt]
    simp [hne, hrest, htake, show cnt + g > 0 by omega]

/-- **Between the groups** there is one separator each. -/
theorem length_separate (hg : 0 < g) : (separate g sep l).length = l.length + (l.length - 1) / g := by
  induction l using separate.induct g with
  | case1 l h =>
    rw [separate_of_le (by omega), Nat.div_eq_of_lt (by omega), Nat.add_zero]
  | case2 l h ih =>
    have hlt : g < l.length := by omega
    rw [separate_of_lt hg hlt, List.length_append, List.length_cons, ih, List.length_take, List.length_drop,
      Nat.min_eq_left (Nat.le_of_lt hlt)]
    have hgroup : l.length - 1 = l.length - g - 1 + g := by omega
    rw [hgroup, Nat.add_div_right _ hg]
    omega

end Grouping
