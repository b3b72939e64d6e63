import Mathlib.Data.List.Basic
import Mathlib.Data.List.Chain
import Mathlib.Data.List.Pairwise

/-! # Blocks that tile an interval

Blocks stand one after another in an interval of addresses, each with a header of the same length
in front of it. `Tiles h size a l e` says that the blocks at the addresses `l` fill the interval
from `a` to `e`. Splitting a block and merging two neighbours keep this. `Coalesced f l` says that
no two neighbours in `l` are both free. -/

namespace Tiling

/-- **Blocks fill an interval.** The blocks at `l`, each with a header of length `h` and `size b`
behind it, run from `a` to `e` without gaps. -/
def Tiles (h : Nat) (size : Nat → Nat) : Nat → List Nat → Nat → Prop
  | a, [], e => a = e
  | a, b :: l, e => b = a ∧ Tiles h size (b + h + size b) l e

variable {h : Nat} {size size' : Nat → Nat} {a b c e : Nat} {l m : List Nat}

@[simp] theorem tiles_nil : Tiles h size a [] e ↔ a = e := Iff.rfl

@[simp] theorem tiles_cons :
    Tiles h size a (b :: l) e ↔ b = a ∧ Tiles h size (b + h + size b) l e := Iff.rfl

/-- The interval splits between any two blocks. -/
theorem tiles_append :
    Tiles h size a (l ++ m) e ↔ ∃ c, Tiles h size a l c ∧ Tiles h size c m e := by
  induction l generalizing a with
  | nil => simp
  | cons b l ih =>
    simp only [List.cons_append, tiles_cons, ih]
    constructor
    · rintro ⟨hb, c, hl, hm⟩
      exact ⟨c, ⟨hb, hl⟩, hm⟩
    · rintro ⟨c, ⟨hb, hl⟩, hm⟩
      exact ⟨hb, c, hl, hm⟩

/-- A block begins where the one in front of it ends. -/
theorem Tiles.next (ht : Tiles h size a (l ++ b :: c :: m) e) : c = b + h + size b := by
  obtain ⟨d, -, -, hc, -⟩ := tiles_append.mp ht
  exact hc

/-- Only the sizes of the blocks matter. -/
theorem Tiles.congr (ht : Tiles h size a l e) (hs : ∀ x ∈ l, size' x = size x) :
    Tiles h size' a l e := by
  induction l generalizing a with
  | nil => exact ht
  | cons b l ih =>
    obtain ⟨hb, ht⟩ := ht
    refine ⟨hb, ?_⟩
    rw [hs b (by simp)]
    exact ih ht fun x hx => hs x (by simp [hx])

/-- The interval does not run backwards. -/
theorem Tiles.le (ht : Tiles h size a l e) : a ≤ e := by
  induction l generalizing a with
  | nil => exact Nat.le_of_eq ht
  | cons b l ih =>
    obtain ⟨hb, ht⟩ := ht
    have hle := ih ht
    omega

/-- Every block lies inside the interval. -/
theorem Tiles.bounds (ht : Tiles h size a l e) (hb : b ∈ l) : a ≤ b ∧ b + h + size b ≤ e := by
  obtain ⟨l₁, l₂, rfl⟩ := List.append_of_mem hb
  obtain ⟨c, hl, rfl, hm⟩ := tiles_append.mp ht
  exact ⟨hl.le, hm.le⟩

/-- **The blocks come in order, each behind the end of the one in front of it.** -/
theorem Tiles.pairwise (ht : Tiles h size a l e) : l.Pairwise fun b c => b + h + size b ≤ c := by
  induction l generalizing a with
  | nil => exact .nil
  | cons b l ih =>
    obtain ⟨hb, ht⟩ := ht
    exact List.pairwise_cons.mpr ⟨fun c hc => (ht.bounds hc).1, ih ht⟩

/-- Blocks at different addresses do not meet. -/
theorem Tiles.apart (ht : Tiles h size a l e) (hb : b ∈ l) (hc : c ∈ l) (hbc : b ≠ c) :
    b + h + size b ≤ c ∨ c + h + size c ≤ b := by
  induction l generalizing a with
  | nil => cases hb
  | cons d l ih =>
    obtain ⟨hd, ht⟩ := ht
    rcases List.mem_cons.mp hb with hbd | hb <;> rcases List.mem_cons.mp hc with hcd | hc
    · exact absurd (hbd.trans hcd.symm) hbc
    · rw [hbd]
      exact Or.inl (ht.bounds hc).1
    · rw [hcd]
      exact Or.inr (ht.bounds hb).1
    · exact ih ht hb hc

/-- **A block is split**: a new block stands at its end, and both together are as long as it was. -/
theorem Tiles.split (ht : Tiles h size a (l ++ b :: m) e) (hl : ∀ x ∈ l, size' x = size x)
    (hm : ∀ x ∈ m, size' x = size x) (hc : c = b + h + size' b)
    (hlen : c + h + size' c = b + h + size b) : Tiles h size' a (l ++ b :: c :: m) e := by
  obtain ⟨d, hd, hb, ht⟩ := tiles_append.mp ht
  refine tiles_append.mpr ⟨d, hd.congr hl, hb, hc, ?_⟩
  rw [hlen]
  exact ht.congr hm

/-- **A block is merged with the one behind it**, whose header becomes part of it. -/
theorem Tiles.merge (ht : Tiles h size a (l ++ b :: c :: m) e) (hl : ∀ x ∈ l, size' x = size x)
    (hm : ∀ x ∈ m, size' x = size x) (hlen : size' b = size b + (size c + h)) :
    Tiles h size' a (l ++ b :: m) e := by
  obtain ⟨d, hd, hb, hc, ht⟩ := tiles_append.mp ht
  refine tiles_append.mpr ⟨d, hd.congr hl, hb, ?_⟩
  have hend : b + h + size' b = c + h + size c := by omega
  rw [hend]
  exact ht.congr hm

/-! ## Free blocks -/

section Coalesced

variable {α : Type*} {f f' : α → Bool} {x : α} {l m : List α}

/-- **No two neighbours are both free.** -/
def Coalesced (f : α → Bool) (l : List α) : Prop :=
  l.IsChain fun b c => ¬ (f b = true ∧ f c = true)

/-- Only which blocks are free matters. -/
theorem Coalesced.congr (hl : Coalesced f l) (hf : ∀ x ∈ l, f' x = f x) : Coalesced f' l := by
  refine List.IsChain.imp_of_mem_imp (fun b c hb hc hbc => ?_) hl
  rw [hf b hb, hf c hc]
  exact hbc

/-- Two lists in a row. -/
theorem coalesced_append : Coalesced f (l ++ m) ↔ Coalesced f l ∧ Coalesced f m
    ∧ ∀ b ∈ l.getLast?, ∀ c ∈ m.head?, ¬ (f b = true ∧ f c = true) :=
  List.isChain_append

/-- **A free block may stand between blocks that are not.** -/
theorem Coalesced.between (hl : Coalesced f l) (hm : Coalesced f m)
    (hlast : ∀ b ∈ l.getLast?, f b = false) (hhead : ∀ c ∈ m.head?, f c = false) :
    Coalesced f (l ++ x :: m) := by
  refine coalesced_append.mpr ⟨hl, ?_, fun b hb c _ hbc => ?_⟩
  · refine coalesced_append (l := [x]).mpr ⟨List.isChain_singleton x, hm, fun b _ c hc hbc => ?_⟩
    rw [hhead c hc] at hbc
    cases hbc.2
  · rw [hlast b hb] at hbc
    cases hbc.1

/-- If all blocks are free, there is at most one. -/
theorem Coalesced.length_le_one (hl : Coalesced f l) (hall : ∀ x ∈ l, f x = true) :
    l.length ≤ 1 := by
  cases l with
  | nil => exact Nat.zero_le 1
  | cons b l =>
    cases l with
    | nil => exact Nat.le_refl 1
    | cons c m =>
      have hbc := (List.isChain_cons_cons.mp hl).1
      exact absurd ⟨hall b (by simp), hall c (by simp)⟩ hbc

end Coalesced

end Tiling
