import KaushOS.Inc.Assert
import Mathlib.Data.List.Basic
import Mathlib.Logic.Function.Basic
import Mathlib.Tactic.Common

/-! # Bitmaps (`inc/bitmap.h`, `bitmap.c`)

A bitmap is a count and a pointer to the bits. The routines are translated with the assertions
that keep them inside the count; the words that hold 32 bits each are not part of the model.

* **`BITMAP`** — the bits and how many of them there are.
* **`bmBitmapSetMultiple`, `bmBitmapScan`, `bmBitmapScanAndFlip`** — storing to a range, looking for
  a free one, and the two together.
* **`bmBitmapScanAndFlip_spec`** — first fit: what the search finds, and what is set afterwards. -/

namespace KaushOS

/-- `BITMAP`, together with the bits that its member `bits` points to. -/
structure BITMAP where
  BitCount : Nat
  bits : Nat → Bool

/-! ## Single bits and ranges -/

/-- `BmBitmapSet(bitmap, idx, value)`. -/
def bmBitmapSet (b : BITMAP) (idx : Nat) (value : Bool) : Kernel BITMAP := do
  assert (idx < b.BitCount) "idx < bitmap->BitCount"
  return { b with bits := Function.update b.bits idx value }

/-- `BmBitmapTest(bitmap, idx)`. -/
def bmBitmapTest (b : BITMAP) (idx : Nat) : Kernel Bool := do
  assert (idx < b.BitCount) "idx < bitmap->BitCount"
  return b.bits idx

/-- The loop of `BmBitmapSetMultiple`. -/
def setMultipleLoop (start : Nat) (value : Bool) : Nat → BITMAP → Kernel BITMAP
  | 0, b => .ok b
  | n + 1, b => do
    let b ← bmBitmapSet b start value
    setMultipleLoop (start + 1) value n b

/-- `BmBitmapSetMultiple(bitmap, start, cnt, value)`. -/
def bmBitmapSetMultiple (b : BITMAP) (start cnt : Nat) (value : Bool) : Kernel BITMAP := do
  assert (start ≤ b.BitCount) "start <= bitmap->BitCount"
  assert (start + cnt ≤ b.BitCount) "start + cnt <= bitmap->BitCount"
  setMultipleLoop start value cnt b

/-- `BmBitmapContains(bitmap, start, cnt, value)`. -/
def bmBitmapContains (b : BITMAP) (start cnt : Nat) (value : Bool) : Kernel Bool := do
  assert (start ≤ b.BitCount) "start <= bitmap->BitCount"
  assert (start + cnt ≤ b.BitCount) "start + cnt <= bitmap->BitCount"
  return (List.range cnt).any fun i => b.bits (start + i) = value

/-! ## Searching -/

/-- The loop of `BmBitmapScan` from `i` on, for `n` more rounds. -/
def scanLoop (b : BITMAP) (cnt : Nat) (value : Bool) : Nat → Nat → Kernel (Option Nat)
  | 0, _ => .ok none
  | n + 1, i => do
    let other ← bmBitmapContains b i cnt (!value)
    if other then scanLoop b cnt value n (i + 1) else return some i

/-- `BmBitmapScan(bitmap, start, cnt, value)`; `none` is `BITMAP_ERROR`. -/
def bmBitmapScan (b : BITMAP) (start cnt : Nat) (value : Bool) : Kernel (Option Nat) := do
  assert (start ≤ b.BitCount) "start <= bitmap->BitCount"
  if cnt ≤ b.BitCount then scanLoop b cnt value (b.BitCount - cnt + 1 - start) start
  else return none

/-- `BmBitmapScanAndFlip(bitmap, start, cnt, value)`. -/
def bmBitmapScanAndFlip (b : BITMAP) (start cnt : Nat) (value : Bool) :
    Kernel (Option Nat × BITMAP) := do
  match ← bmBitmapScan b start cnt value with
  | none => return (none, b)
  | some idx =>
    let b ← bmBitmapSetMultiple b idx cnt (!value)
    return (some idx, b)

/-! ## Ranges of bits -/

/-- **The bits after a store to a range.** -/
def fillRange (bits : Nat → Bool) (start cnt : Nat) (value : Bool) : Nat → Bool :=
  fun i => if start ≤ i ∧ i < start + cnt then value else bits i

/-- **All bits of a range have the value.** -/
def AllIn (bits : Nat → Bool) (start cnt : Nat) (value : Bool) : Prop :=
  ∀ i, start ≤ i → i < start + cnt → bits i = value

section Ranges

variable {bits : Nat → Bool} {start cnt i : Nat} {value : Bool}

/-- Nothing changes outside the range. -/
theorem fillRange_of_not (h : ¬ (start ≤ i ∧ i < start + cnt)) :
    fillRange bits start cnt value i = bits i := if_neg h

/-- Inside the range stands the value. -/
theorem fillRange_of_mem (hlo : start ≤ i) (hhi : i < start + cnt) :
    fillRange bits start cnt value i = value := if_pos ⟨hlo, hhi⟩

/-- The range that was stored to has the value. -/
theorem allIn_fillRange : AllIn (fillRange bits start cnt value) start cnt value :=
  fun _ hlo hhi => fillRange_of_mem hlo hhi

/-- A range that lies apart keeps its value. -/
theorem AllIn.fillRange {start' cnt' : Nat} {value' : Bool} (h : AllIn bits start cnt value)
    (hapart : start + cnt ≤ start' ∨ start' + cnt' ≤ start) :
    AllIn (fillRange bits start' cnt' value') start cnt value := by
  intro i hlo hhi
  rw [fillRange_of_not (by omega)]
  exact h i hlo hhi

/-- An empty range leaves the bits as they are. -/
theorem fillRange_zero : fillRange bits start 0 value = bits := by
  funext i
  apply fillRange_of_not
  omega

/-- The first bit of a range, and then the others. -/
theorem fillRange_succ :
    fillRange (Function.update bits start value) (start + 1) cnt value
      = fillRange bits start (cnt + 1) value := by
  funext i
  by_cases hi : i = start
  · subst hi
    rw [fillRange_of_not (by omega), Function.update_self, fillRange_of_mem (by omega) (by omega)]
  · apply if_congr _ rfl (Function.update_of_ne hi ..)
    omega

end Ranges

/-! ## What the routines do -/

variable {b : BITMAP} {start cnt i : Nat} {value : Bool}

/-- The loop stores to the whole range. -/
theorem setMultipleLoop_eq (h : start + cnt ≤ b.BitCount) :
    setMultipleLoop start value cnt b
      = .ok { b with bits := fillRange b.bits start cnt value } := by
  induction cnt generalizing start b with
  | zero =>
    rw [fillRange_zero]
    rfl
  | succ n ih =>
    rw [setMultipleLoop, bmBitmapSet, assert_of_true (show start < b.BitCount by omega),
      ← fillRange_succ]
    exact ih (b := { b with bits := Function.update b.bits start value })
      (show start + 1 + n ≤ b.BitCount by omega)

/-- **A store to a range inside the bitmap returns.** -/
theorem bmBitmapSetMultiple_eq (h : start + cnt ≤ b.BitCount) :
    bmBitmapSetMultiple b start cnt value
      = .ok { b with bits := fillRange b.bits start cnt value } := by
  rw [bmBitmapSetMultiple, assert_of_true (show start ≤ b.BitCount by omega), kernel_ok_bind,
    assert_of_true h, kernel_ok_bind, setMultipleLoop_eq h]

/-- A range without the other value has the value everywhere. -/
theorem bmBitmapContains_spec (value : Bool) (h : start + cnt ≤ b.BitCount) :
    ∃ other, bmBitmapContains b start cnt (!value) = .ok other
      ∧ (other = false ↔ AllIn b.bits start cnt value) := by
  refine ⟨(List.range cnt).any fun i => b.bits (start + i) = (!value), ?_, ?_⟩
  · rw [bmBitmapContains, assert_of_true (show start ≤ b.BitCount by omega), kernel_ok_bind,
      assert_of_true h, kernel_ok_bind]
    rfl
  · rw [List.any_eq_false]
    constructor
    · intro hrange i hlo hhi
      have hbit := hrange (i - start) (List.mem_range.mpr (by omega))
      rw [show start + (i - start) = i by omega] at hbit
      simpa using hbit
    · intro hall k hk
      have hbit := hall (start + k) (by omega) (by have := List.mem_range.mp hk; omega)
      simp [hbit]

/-- The loop finds the first range with the value, if there is one. -/
theorem scanLoop_spec (b : BITMAP) (cnt : Nat) (value : Bool) (n start : Nat)
    (h : n = 0 ∨ start + n - 1 + cnt ≤ b.BitCount) :
    ∃ found, scanLoop b cnt value n start = .ok found
      ∧ (∀ idx, found = some idx →
        start ≤ idx ∧ idx + cnt ≤ b.BitCount ∧ AllIn b.bits idx cnt value
          ∧ ∀ j, start ≤ j → j < idx → ¬ AllIn b.bits j cnt value)
      ∧ (found = none → ∀ j, start ≤ j → j < start + n → ¬ AllIn b.bits j cnt value) := by
  induction n generalizing start with
  | zero =>
    refine ⟨none, rfl, fun idx hidx => (by cases hidx), fun _ j hlo hhi => ?_⟩
    exact absurd hhi (by omega)
  | succ n ih =>
    have hroom : start + cnt ≤ b.BitCount := by omega
    obtain ⟨other, hrun, hother⟩ := bmBitmapContains_spec value hroom
    rw [scanLoop, hrun, kernel_ok_bind]
    cases other with
    | false =>
      -- the range at `start` will do
      have hall := hother.mp rfl
      refine ⟨some start, rfl, fun idx hidx => ?_, fun hnone => (by cases hnone)⟩
      obtain rfl := Option.some.inj hidx
      exact ⟨Nat.le_refl _, hroom, hall, fun j hlo hhi => absurd hhi (by omega)⟩
    | true =>
      have hnot : ¬ AllIn b.bits start cnt value := fun hall => (by cases hother.mpr hall)
      obtain ⟨found, hfound, hsome, hnone⟩ := ih (start + 1) (by omega)
      have hfirst : ∀ j, start ≤ j → (start + 1 ≤ j → ¬ AllIn b.bits j cnt value) →
          ¬ AllIn b.bits j cnt value := by
        intro j hlo hrest
        rcases Nat.eq_or_lt_of_le hlo with rfl | hlt
        · exact hnot
        · exact hrest hlt
      refine ⟨found, hfound, fun idx hidx => ?_, fun hn j hlo hhi => ?_⟩
      · obtain ⟨hlo, hhi, hall, hmin⟩ := hsome idx hidx
        refine ⟨by omega, hhi, hall, fun j hj hji => ?_⟩
        exact hfirst j hj fun hj' => hmin j hj' hji
      · exact hfirst j hlo fun hj' => hnone hn j hj' (by omega)

/-- **First fit.** A search returns the first range from `start` on, if there is one. -/
theorem bmBitmapScan_spec (b : BITMAP) (cnt : Nat) (value : Bool) (hstart : start ≤ b.BitCount) :
    ∃ found, bmBitmapScan b start cnt value = .ok found
      ∧ (∀ idx, found = some idx →
        start ≤ idx ∧ idx + cnt ≤ b.BitCount ∧ AllIn b.bits idx cnt value
          ∧ ∀ j, start ≤ j → j < idx → ¬ AllIn b.bits j cnt value)
      ∧ (found = none → ∀ j, start ≤ j → j + cnt ≤ b.BitCount → ¬ AllIn b.bits j cnt value) := by
  unfold bmBitmapScan
  rw [assert_of_true hstart, kernel_ok_bind]
  by_cases hcnt : cnt ≤ b.BitCount
  · rw [if_pos hcnt]
    obtain ⟨found, hscan, hsome, hnone⟩ := scanLoop_spec b cnt value (b.BitCount - cnt + 1 - start)
      start (by omega)
    exact ⟨found, hscan, hsome, fun hn j hj hroom => hnone hn j hj (by omega)⟩
  · rw [if_neg hcnt]
    refine ⟨none, rfl, fun idx hidx => (by cases hidx), fun _ j _ hroom => ?_⟩
    exact absurd (Nat.le_trans (Nat.le_add_left cnt j) hroom) hcnt

/-- **First fit, and flipping.** Searching a bitmap for a range and flipping it returns. A range
that is found was all `value`, is the first such range, and is all `!value` afterwards; none is
found only if there is none. -/
theorem bmBitmapScanAndFlip_spec (b : BITMAP) (cnt : Nat) (value : Bool) :
    ∃ found b', bmBitmapScanAndFlip b 0 cnt value = .ok (found, b')
      ∧ (found = none → b' = b ∧ ∀ j, j + cnt ≤ b.BitCount → ¬ AllIn b.bits j cnt value)
      ∧ ∀ idx, found = some idx →
        idx + cnt ≤ b.BitCount ∧ AllIn b.bits idx cnt value ∧ (∀ j < idx, ¬ AllIn b.bits j cnt value)
          ∧ b' = { b with bits := fillRange b.bits idx cnt (!value) } := by
  obtain ⟨found, hrun, hsome, hnone⟩ := bmBitmapScan_spec b cnt value (Nat.zero_le b.BitCount)
  rw [bmBitmapScanAndFlip, hrun, kernel_ok_bind]
  cases found with
  | none =>
    refine ⟨none, b, rfl, fun _ => ⟨rfl, fun j hj => ?_⟩, fun idx hidx => (by cases hidx)⟩
    exact hnone rfl j (Nat.zero_le j) hj
  | some idx =>
    obtain ⟨-, hhi, hall, hmin⟩ := hsome idx rfl
    refine ⟨some idx, { b with bits := fillRange b.bits idx cnt (!value) }, ?_,
      fun hnone => (by cases hnone), ?_⟩
    · simp only [bmBitmapSetMultiple_eq hhi, kernel_ok_bind]
      rfl
    · intro i hi
      obtain rfl := Option.some.inj hi
      exact ⟨hhi, hall, fun j hj => hmin j (Nat.zero_le j) hj, rfl⟩

end KaushOS
