import KaushOS.Inc.BitmapWords
import Mathlib.Algebra.Group.Nat.Defs
import Mathlib.Data.Set.Basic
import Mathlib.Order.Bounds.Basic

/-! # Words that a bitmap search touches (`bitmap.c`, `inc/bitmap.h`)

The routines of `KaushOS.Inc.BitmapWords` once more, now with the arithmetic of `size_t`, with the
number that stands for `BITMAP_ERROR`, and with a trace of the words that are read or written.

* **`Traced`** — a bitmap and the indices of the words that have been touched.
* **`Extends`** — a call touches words with bits of the bitmap only.
* **`bmBitmapScan_words`, `bmBitmapSetMultiple_words`** — apart from the trace the routines are those
  without it.
* **`scan_and_flip`** — exactly when a search meets its description. -/

namespace KaushOS.Access

open Words (bmElementIndex bmBitMask)

/-! ## The routines -/

/-- Addition of two values of type `size_t`. -/
def sizeAdd (a b : Nat) : Nat := (a + b) % 2 ^ 32

/-- `BITMAP_ERROR`, which is -100, as a `size_t`. -/
def BITMAP_ERROR : Nat := 2 ^ 32 - 100

/-- `BmElementCount(BitCount)`: `DIV_ROUND_UP(BitCount, ELEM_BITS)`. -/
def bmElementCount (bitCount : Nat) : Nat := sizeAdd bitCount 31 / 32

/-- **A bitmap, and the words that have been read or written**, the latest first. -/
structure Traced where
  bitmap : Words.BITMAP
  accesses : List Nat

/-- A word is touched. -/
def Traced.touch (s : Traced) (idx : Nat) : Traced := { s with accesses := idx :: s.accesses }

/-- `BmBitmapSet(bitmap, idx, value)`, with `BmBitmapMark` or `BmBitmapReset`. -/
def bmBitmapSet (idx : Nat) (value : Bool) (s : Traced) : Kernel Traced := do
  assert (idx < s.bitmap.BitCount) "idx < bitmap->BitCount"
  let s := s.touch (bmElementIndex idx)
  return { s with
    bitmap := if value then Words.bmBitmapMark s.bitmap idx else Words.bmBitmapReset s.bitmap idx }

/-- `BmBitmapTest(bitmap, idx)`. -/
def bmBitmapTest (idx : Nat) (s : Traced) : Kernel (Bool × Traced) := do
  assert (idx < s.bitmap.BitCount) "idx < bitmap->BitCount"
  return (s.bitmap.bits (bmElementIndex idx) &&& bmBitMask idx ≠ 0, s.touch (bmElementIndex idx))

/-- The loop of `BmBitmapSetMultiple`, with `n` bits left from `i` on. -/
def setMultipleLoop (start : Nat) (value : Bool) : Nat → Nat → Traced → Kernel Traced
  | 0, _, s => .ok s
  | n + 1, i, s => do
    let s ← bmBitmapSet (sizeAdd start i) value s
    setMultipleLoop start value n (i + 1) s

/-- `BmBitmapSetMultiple(bitmap, start, cnt, value)`. -/
def bmBitmapSetMultiple (start cnt : Nat) (value : Bool) (s : Traced) : Kernel Traced := do
  assert (start ≤ s.bitmap.BitCount) "start <= bitmap->BitCount"
  assert (sizeAdd start cnt ≤ s.bitmap.BitCount) "start + cnt <= bitmap->BitCount"
  setMultipleLoop start value cnt 0 s

/-- The loop of `BmBitmapContains`, with `n` bits left from `i` on. -/
def containsLoop (start : Nat) (value : Bool) : Nat → Nat → Traced → Kernel (Bool × Traced)
  | 0, _, s => .ok (false, s)
  | n + 1, i, s => do
    let (bit, s) ← bmBitmapTest (sizeAdd start i) s
    if bit = value then return (true, s) else containsLoop start value n (i + 1) s

/-- `BmBitmapContains(bitmap, start, cnt, value)`. -/
def bmBitmapContains (start cnt : Nat) (value : Bool) (s : Traced) : Kernel (Bool × Traced) := do
  assert (start ≤ s.bitmap.BitCount) "start <= bitmap->BitCount"
  assert (sizeAdd start cnt ≤ s.bitmap.BitCount) "start + cnt <= bitmap->BitCount"
  containsLoop start value cnt 0 s

/-- The loop of `BmBitmapScan` from `i` on, for `n` more rounds. -/
def scanLoop (cnt : Nat) (value : Bool) : Nat → Nat → Traced → Kernel (Nat × Traced)
  | 0, _, s => .ok (BITMAP_ERROR, s)
  | n + 1, i, s => do
    let (other, s) ← bmBitmapContains i cnt (!value) s
    if other then scanLoop cnt value n (sizeAdd i 1) s else return (i, s)

/-- `BmBitmapScan(bitmap, start, cnt, value)`. -/
def bmBitmapScan (start cnt : Nat) (value : Bool) (s : Traced) : Kernel (Nat × Traced) := do
  assert (start ≤ s.bitmap.BitCount) "start <= bitmap->BitCount"
  if cnt ≤ s.bitmap.BitCount then
    scanLoop cnt value (s.bitmap.BitCount - cnt + 1 - start) start s
  else return (BITMAP_ERROR, s)

/-- `BmBitmapScanAndFlip(bitmap, start, cnt, value)`. -/
def bmBitmapScanAndFlip (start cnt : Nat) (value : Bool) (s : Traced) : Kernel (Nat × Traced) := do
  let (idx, s) ← bmBitmapScan start cnt value s
  if idx ≠ BITMAP_ERROR then
    let s ← bmBitmapSetMultiple idx cnt (!value) s
    return (idx, s)
  else return (idx, s)

/-! ## What a call touches -/

variable {s s' s'' : Traced} {start cnt i n : Nat} {value : Bool}

/-- **A call touches words with bits of the bitmap only.** -/
structure Extends (s s' : Traced) : Prop where
  count : s'.bitmap.BitCount = s.bitmap.BitCount
  accesses : ∃ log, s'.accesses = log ++ s.accesses ∧ ∀ w ∈ log, 32 * w < s.bitmap.BitCount

theorem Extends.refl (s : Traced) : Extends s s := ⟨rfl, [], rfl, List.forall_mem_nil _⟩

theorem Extends.trans (h : Extends s s') (h' : Extends s' s'') : Extends s s'' := by
  obtain ⟨log, hlog, hwords⟩ := h.accesses
  obtain ⟨log', hlog', hwords'⟩ := h'.accesses
  refine ⟨h'.count.trans h.count, log' ++ log, ?_, fun w hw => ?_⟩
  · rw [hlog', hlog, List.append_assoc]
  · rcases List.mem_append.mp hw with hw | hw
    · exact h.count ▸ hwords' w hw
    · exact hwords w hw

/-- Touching the word of a bit of the bitmap. -/
theorem Extends.touch (h : i < s.bitmap.BitCount) : Extends s (s.touch (bmElementIndex i)) := by
  refine ⟨rfl, [bmElementIndex i], rfl, fun w hw => ?_⟩
  rw [List.mem_singleton.mp hw]
  unfold bmElementIndex
  omega

/-- What has been touched stays in the trace. -/
theorem Extends.touched (h : Extends s s') (hs : s.accesses ≠ []) : s'.accesses ≠ [] := by
  obtain ⟨log, hlog, -⟩ := h.accesses
  rw [hlog]
  exact fun hnil => hs (List.append_eq_nil_iff.mp hnil).2

theorem sizeAdd_eq {a b : Nat} (h : a + b < 2 ^ 32) : sizeAdd a b = a + b := Nat.mod_eq_of_lt h

/-! ## The routines without the trace -/

/-- Storing a bit. -/
theorem bmBitmapSet_words (hi : i < s.bitmap.BitCount) (value : Bool) :
    ∃ s', bmBitmapSet i value s = .ok s' ∧ Words.bmBitmapSet s.bitmap i value = .ok s'.bitmap
      ∧ Extends s s' := by
  refine ⟨{ s.touch (bmElementIndex i) with
    bitmap := if value then Words.bmBitmapMark s.bitmap i else Words.bmBitmapReset s.bitmap i },
    ?_, ?_, ?_⟩
  · rw [bmBitmapSet, assert_of_true hi]
    rfl
  · rw [Words.bmBitmapSet, assert_of_true hi]
    rfl
  · obtain ⟨-, log, hlog, hwords⟩ := Extends.touch hi
    refine ⟨?_, log, hlog, hwords⟩
    cases value <;> rfl

/-- The loop of `BmBitmapSetMultiple`. -/
theorem setMultipleLoop_words (start i n : Nat) (value : Bool) (hB : s.bitmap.BitCount < 2 ^ 32)
    (h : start + i + n ≤ s.bitmap.BitCount) :
    ∃ s', setMultipleLoop start value n i s = .ok s'
      ∧ Words.setMultipleLoop (start + i) value n s.bitmap = .ok s'.bitmap ∧ Extends s s' := by
  induction n generalizing i s with
  | zero => exact ⟨s, rfl, rfl, .refl s⟩
  | succ n ih =>
    obtain ⟨s₁, hset, hwords, hext⟩ := bmBitmapSet_words (s := s) (i := start + i) (by omega) value
    have hcount := hext.count
    obtain ⟨s', hloop, hloop', hext'⟩ := ih (s := s₁) (i + 1) (by omega) (by omega)
    refine ⟨s', ?_, ?_, hext.trans hext'⟩
    · rw [setMultipleLoop, sizeAdd_eq (by omega), hset, kernel_ok_bind]
      exact hloop
    · rw [Words.setMultipleLoop, hwords, kernel_ok_bind]
      exact hloop'

/-- **Storing to a range.** -/
theorem bmBitmapSetMultiple_words (start cnt : Nat) (value : Bool)
    (hB : s.bitmap.BitCount < 2 ^ 32) (h : start + cnt ≤ s.bitmap.BitCount) :
    ∃ s', bmBitmapSetMultiple start cnt value s = .ok s'
      ∧ Words.bmBitmapSetMultiple s.bitmap start cnt value = .ok s'.bitmap ∧ Extends s s' := by
  obtain ⟨s', hloop, hwords, hext⟩ :=
    setMultipleLoop_words start 0 cnt value hB (by omega)
  have hstart : start ≤ s.bitmap.BitCount := by omega
  refine ⟨s', ?_, ?_, hext⟩
  · rw [bmBitmapSetMultiple, sizeAdd_eq (by omega), assert_of_true hstart, kernel_ok_bind,
      assert_of_true h]
    exact hloop
  · rw [Words.bmBitmapSetMultiple, assert_of_true hstart, kernel_ok_bind, assert_of_true h]
    exact hwords

/-- The loop of `BmBitmapContains`, which reads a word unless there is nothing to test. -/
theorem containsLoop_words (start i n : Nat) (value : Bool) (hB : s.bitmap.BitCount < 2 ^ 32)
    (h : start + i + n ≤ s.bitmap.BitCount) :
    ∃ r s', containsLoop start value n i s = .ok (r, s')
      ∧ Words.containsLoop s.bitmap value n (start + i) = .ok r
      ∧ s'.bitmap = s.bitmap ∧ Extends s s' ∧ (n ≠ 0 → s'.accesses ≠ []) := by
  induction n generalizing i s with
  | zero => exact ⟨false, s, rfl, rfl, rfl, .refl s, fun hn => absurd rfl hn⟩
  | succ n ih =>
    have hi : start + i < s.bitmap.BitCount := by omega
    have hext := Extends.touch hi
    obtain ⟨r, s', hloop, hwords, hbitmap, hext', -⟩ :=
      ih (s := s.touch (bmElementIndex (start + i))) (i + 1) hB (by
        show start + (i + 1) + n ≤ s.bitmap.BitCount
        omega)
    rw [containsLoop, Words.containsLoop, sizeAdd_eq (by omega), bmBitmapTest,
      Words.bmBitmapTest, assert_of_true hi]
    by_cases hbit :
        decide (s.bitmap.bits (bmElementIndex (start + i)) &&& bmBitMask (start + i) ≠ 0) = value
    · exact ⟨true, _, if_pos hbit, if_pos hbit, rfl, hext, fun _ => List.cons_ne_nil _ _⟩
    · exact ⟨r, s', (if_neg hbit).trans hloop, (if_neg hbit).trans hwords, hbitmap,
        hext.trans hext', fun _ => hext'.touched (List.cons_ne_nil _ _)⟩

/-- **Testing a range.** -/
theorem bmBitmapContains_words (start cnt : Nat) (value : Bool)
    (hB : s.bitmap.BitCount < 2 ^ 32) (h : start + cnt ≤ s.bitmap.BitCount) :
    ∃ r s', bmBitmapContains start cnt value s = .ok (r, s')
      ∧ Words.bmBitmapContains s.bitmap start cnt value = .ok r
      ∧ s'.bitmap = s.bitmap ∧ Extends s s' ∧ (cnt ≠ 0 → s'.accesses ≠ []) := by
  obtain ⟨r, s', hloop, hwords, hrest⟩ :=
    containsLoop_words start 0 cnt value hB (by omega)
  have hstart : start ≤ s.bitmap.BitCount := by omega
  refine ⟨r, s', ?_, ?_, hrest⟩
  · rw [bmBitmapContains, sizeAdd_eq (by omega), assert_of_true hstart, kernel_ok_bind,
      assert_of_true h]
    exact hloop
  · rw [Words.bmBitmapContains, assert_of_true hstart, kernel_ok_bind, assert_of_true h]
    exact hwords

/-- The loop of `BmBitmapScan`. -/
theorem scanLoop_words (i n : Nat) (value : Bool) (hB : s.bitmap.BitCount < 2 ^ 32)
    (h : n = 0 ∨ i + n - 1 + cnt ≤ s.bitmap.BitCount) (hcnt : cnt ≠ 0) :
    ∃ found s', scanLoop cnt value n i s = .ok (found.getD BITMAP_ERROR, s')
      ∧ Words.scanLoop s.bitmap cnt value n i = .ok found
      ∧ s'.bitmap = s.bitmap ∧ Extends s s' ∧ (n ≠ 0 → s'.accesses ≠ []) := by
  induction n generalizing i s with
  | zero => exact ⟨none, s, rfl, rfl, rfl, .refl s, fun hn => absurd rfl hn⟩
  | succ n ih =>
    obtain ⟨other, s₁, hcontains, hwords, hbitmap, hext, htouched⟩ :=
      bmBitmapContains_words i cnt (!value) hB (by omega)
    rw [scanLoop, Words.scanLoop, hcontains, hwords]
    cases other with
    | false => exact ⟨some i, s₁, rfl, rfl, hbitmap, hext, fun _ => htouched hcnt⟩
    | true =>
      obtain ⟨found, s', hloop, hloop', hbitmap', hext', -⟩ :=
        ih (s := s₁) (i + 1) (hbitmap ▸ hB) (by rw [hbitmap]; omega)
      refine ⟨found, s', ?_, ?_, hbitmap'.trans hbitmap, hext.trans hext',
        fun _ => hext'.touched (htouched hcnt)⟩
      · show scanLoop cnt value n (sizeAdd i 1) s₁ = _
        rw [sizeAdd_eq (by omega)]
        exact hloop
      · show Words.scanLoop s.bitmap cnt value n (i + 1) = _
        rw [← hbitmap]
        exact hloop'

/-- **Searching.** A word is read unless the bitmap is too short for a range. -/
theorem bmBitmapScan_words (start cnt : Nat) (value : Bool) (hB : s.bitmap.BitCount < 2 ^ 32)
    (hstart : start ≤ s.bitmap.BitCount) (hcnt : cnt ≠ 0) :
    ∃ found s', bmBitmapScan start cnt value s = .ok (found.getD BITMAP_ERROR, s')
      ∧ Words.bmBitmapScan s.bitmap start cnt value = .ok found
      ∧ s'.bitmap = s.bitmap ∧ Extends s s'
      ∧ (start + cnt ≤ s.bitmap.BitCount → s'.accesses ≠ [])
      ∧ (s.bitmap.BitCount < start + cnt → s' = s) := by
  unfold bmBitmapScan Words.bmBitmapScan
  rw [assert_of_true hstart, kernel_ok_bind, kernel_ok_bind]
  by_cases hle : cnt ≤ s.bitmap.BitCount
  · rw [if_pos hle, if_pos hle]
    obtain ⟨found, s', hloop, hwords, hbitmap, hext, htouched⟩ :=
      scanLoop_words start (s.bitmap.BitCount - cnt + 1 - start) value hB (by omega) hcnt
    refine ⟨found, s', hloop, hwords, hbitmap, hext, fun hroom => htouched (by omega), fun hno => ?_⟩
    rw [show s.bitmap.BitCount - cnt + 1 - start = 0 by omega] at hloop
    exact (Prod.mk.inj (Except.ok.inj hloop)).2.symm
  · rw [if_neg hle, if_neg hle]
    exact ⟨none, s, rfl, rfl, rfl, .refl s, fun hroom => absurd hroom (by omega), fun _ => rfl⟩

/-! ## The description -/

/-- The ranges that a search may return. -/
def Ranges (b : Words.BITMAP) (start cnt : Nat) (value : Bool) : Set Nat :=
  {i | start ≤ i ∧ i + cnt ≤ b.BitCount ∧ AllIn b.unpack.bits i cnt value}

/-- **What the search is described to do**: it returns the least range and flips exactly its bits,
or `BITMAP_ERROR` and changes nothing, and it touches only the words of the bitmap. -/
def ScansAndFlips (b : Words.BITMAP) (start cnt : Nat) (value : Bool) : Prop :=
  ∃ idx s', bmBitmapScanAndFlip start cnt value ⟨b, []⟩ = .ok (idx, s')
    ∧ (∀ i, IsLeast (Ranges b start cnt value) i → idx = i
      ∧ s'.bitmap.unpack = { b.unpack with bits := fillRange b.unpack.bits i cnt (!value) })
    ∧ (Ranges b start cnt value = ∅ → idx = BITMAP_ERROR ∧ s'.bitmap = b)
    ∧ ∀ w ∈ s'.accesses, w < bmElementCount b.BitCount

/-- **When it does so**: the number of words does not wrap around, unless no word is looked at, and
the least range does not start at the bit with the number of `BITMAP_ERROR`. -/
def ScanFits (b : Words.BITMAP) (start cnt : Nat) (value : Bool) : Prop :=
  (b.BitCount < start + cnt ∨ b.BitCount + 31 < 2 ^ 32)
    ∧ ¬ IsLeast (Ranges b start cnt value) BITMAP_ERROR

/-- A range that has been flipped is no longer what it was. -/
theorem fillRange_not_self {bits : Nat → Bool} (hcnt : cnt ≠ 0) (h : AllIn bits i cnt value) :
    fillRange bits i cnt (!value) ≠ bits := by
  intro heq
  have hflip : fillRange bits i cnt (!value) i = !value :=
    fillRange_of_mem (Nat.le_refl i) (by omega)
  rw [heq, h i (Nat.le_refl i) (by omega)] at hflip
  cases value <;> cases hflip

/-- The words with bits of the bitmap are as many as `BmElementCount` says, or it wraps around. -/
theorem lt_bmElementCount {bitCount w : Nat} (h : bitCount + 31 < 2 ^ 32) (hw : 32 * w < bitCount) :
    w < bmElementCount bitCount := by
  unfold bmElementCount
  rw [sizeAdd_eq h]
  omega

/-- Where the number of words wraps around there are none. -/
theorem bmElementCount_wraps {bitCount : Nat} (h : ¬ bitCount + 31 < 2 ^ 32)
    (hB : bitCount < 2 ^ 32) : bmElementCount bitCount = 0 := by
  unfold bmElementCount sizeAdd
  omega

/-- **The search meets its description exactly where it fits.** -/
theorem scan_and_flip {b : Words.BITMAP} (hB : b.BitCount < 2 ^ 32) (hstart : start ≤ b.BitCount)
    (hcnt : 1 ≤ cnt) : ScansAndFlips b start cnt value ↔ ScanFits b start cnt value := by
  have hcnt0 : cnt ≠ 0 := by omega
  obtain ⟨found, s, hscan, hwords, hbitmap, hext, htouched, hnone⟩ :=
    bmBitmapScan_words (s := ⟨b, []⟩) start cnt value hB hstart hcnt0
  obtain ⟨found', hscan', hsome, hno⟩ := bmBitmapScan_spec b.unpack cnt value hstart
  rw [Words.bmBitmapScan_unpack, hscan'] at hwords
  obtain rfl := Except.ok.inj hwords
  have hrun : bmBitmapScanAndFlip start cnt value ⟨b, []⟩
      = if found'.getD BITMAP_ERROR ≠ BITMAP_ERROR then (do
          let s ← bmBitmapSetMultiple (found'.getD BITMAP_ERROR) cnt (!value) s
          return (found'.getD BITMAP_ERROR, s)) else .ok (found'.getD BITMAP_ERROR, s) := by
    rw [bmBitmapScanAndFlip, hscan]
    rfl
  have hinside : ∀ {s' : Traced}, Extends ⟨b, []⟩ s' → b.BitCount + 31 < 2 ^ 32 →
      ∀ w ∈ s'.accesses, w < bmElementCount b.BitCount := by
    rintro s' ⟨-, log, hlog, hall⟩ hfits w hw
    rw [hlog, List.append_nil] at hw
    exact lt_bmElementCount hfits (hall w hw)
  have hempty : found' = none → Ranges b start cnt value = ∅ := by
    intro hfound
    refine Set.eq_empty_iff_forall_notMem.mpr fun i hi => ?_
    exact hno hfound i hi.1 hi.2.1 hi.2.2
  have hleast : ∀ i, found' = some i → IsLeast (Ranges b start cnt value) i := by
    intro i hi
    obtain ⟨hlo, hroom, hall, hmin⟩ := hsome i hi
    refine ⟨⟨hlo, hroom, hall⟩, fun j hj => ?_⟩
    by_contra hji
    exact hmin j hj.1 (by omega) hj.2.2
  constructor
  · -- what has been touched, and what has been flipped, say that the search fits
    rintro ⟨idx, s', hok, hfound, hnotFound, hall⟩
    have hext' : Extends s s' := by
      rw [hrun] at hok
      split at hok
      · obtain ⟨s₂, hset, hok⟩ := kernel_bind_eq_ok.mp hok
        cases hok
        cases hf : found' with
        | none => simp [hf] at *
        | some i =>
          obtain ⟨-, hroom, -⟩ := hsome i hf
          obtain ⟨s₃, hset', -, hext'⟩ := bmBitmapSetMultiple_words (s := s) i cnt
            (!value) (hbitmap ▸ hB) (by rw [hbitmap]; exact hroom)
          rw [hf] at hset
          cases hset.symm.trans hset'
          exact hext'
      · cases hok
        exact .refl s
    refine ⟨?_, fun herror => ?_⟩
    · by_contra hwrap
      have hroom : start + cnt ≤ b.BitCount := by omega
      obtain ⟨w, hw⟩ := List.exists_mem_of_ne_nil _ (hext'.touched (htouched hroom))
      have hlt := hall w hw
      rw [bmElementCount_wraps (by omega) hB] at hlt
      exact Nat.not_lt_zero w hlt
    · obtain ⟨hidx, hflipped⟩ := hfound _ herror
      cases hf : found' with
      | none =>
        rw [hempty hf] at herror
        exact herror.1
      | some i =>
        have hi : i = BITMAP_ERROR := (hleast i hf).unique herror
        have hgetD : found'.getD BITMAP_ERROR = BITMAP_ERROR := by
          rw [hf, hi]
          rfl
        rw [hrun, if_neg (not_not_intro hgetD)] at hok
        cases hok
        rw [hbitmap] at hflipped
        have hbits := congrArg KaushOS.BITMAP.bits hflipped
        exact fillRange_not_self hcnt0 herror.1.2.2 hbits.symm
  · rintro ⟨hfits, herror⟩
    cases hf : found' with
    | none =>
      rw [hf] at hrun
      refine ⟨BITMAP_ERROR, s, hrun.trans (if_neg (by simp)), fun i hi => ?_,
        fun _ => ⟨rfl, hbitmap⟩, fun w hw => ?_⟩
      · rw [hempty hf] at hi
        exact absurd hi.1 (Set.notMem_empty i)
      · rcases hfits with hshort | hfits
        · rw [hnone hshort] at hw
          cases hw
        · exact hinside hext hfits w hw
    | some i =>
      obtain ⟨hlo, hroom, hbits, -⟩ := hsome i hf
      have hi := hleast i hf
      have hne : i ≠ BITMAP_ERROR := fun heq => herror (heq ▸ hi)
      obtain ⟨s', hset, hset', hext'⟩ := bmBitmapSetMultiple_words (s := s) i cnt (!value)
        (hbitmap ▸ hB) (by rw [hbitmap]; exact hroom)
      rw [hf, Option.getD_some, if_pos hne, hset] at hrun
      refine ⟨i, s', hrun, fun j hj => ?_, fun hnil => ?_, fun w hw => ?_⟩
      · obtain rfl := hi.unique hj
        refine ⟨rfl, ?_⟩
        have hunpack := Words.bmBitmapSetMultiple_unpack s.bitmap i cnt (!value)
        rw [hset', hbitmap, KaushOS.bmBitmapSetMultiple_eq hroom] at hunpack
        exact Except.ok.inj hunpack
      · rw [hnil] at hi
        exact absurd hi.1 (Set.notMem_empty i)
      · have hfits' : b.BitCount + 31 < 2 ^ 32 := by
          rcases hfits with hshort | hfits
          · have hroom' : i + cnt ≤ b.BitCount := hroom
            omega
          · exact hfits
        exact hinside (hext.trans hext') hfits' w hw

/-- A bitmap of forty bits, none of which is set. -/
theorem scan_and_flip_forty : ScansAndFlips ⟨40, fun _ => 0⟩ 3 5 false
    ↔ ScanFits ⟨40, fun _ => 0⟩ 3 5 false :=
  scan_and_flip (by decide) (by decide) (by decide)

/-- **The bit with the number of `BITMAP_ERROR`** is found, and is not flipped. -/
theorem scan_and_flip_fails : ¬ ScansAndFlips ⟨2 ^ 32 - 50, fun _ => 0⟩ BITMAP_ERROR 1 false := by
  rintro ⟨idx, s', hok, hfound, -, -⟩
  have hrun : bmBitmapScanAndFlip BITMAP_ERROR 1 false ⟨⟨2 ^ 32 - 50, fun _ => 0⟩, []⟩
      = .ok (BITMAP_ERROR, ⟨⟨2 ^ 32 - 50, fun _ => 0⟩, [134217724]⟩) := by rfl
  have hzero : AllIn (Words.BITMAP.unpack ⟨2 ^ 32 - 50, fun _ => 0⟩).bits BITMAP_ERROR 1 false := by
    intro i _ _
    simp [Words.BITMAP.unpack]
  cases hok.symm.trans hrun
  have hflipped := (hfound BITMAP_ERROR ⟨⟨Nat.le_refl _, by decide, hzero⟩, fun j hj => hj.1⟩).2
  have hbits := congrArg KaushOS.BITMAP.bits hflipped
  exact fillRange_not_self (by decide) hzero hbits.symm

end KaushOS.Access
