import KaushOS.Inc.Bitmap
import Mathlib.Data.Nat.Basic

/-! # The words of a bitmap (`bitmap.c`)

The bits of a `BITMAP` are packed into words of 32 bits. The routines find the word and the bit in
it, and store with `orl` and `andl`; seen bit by bit they are the routines of `KaushOS.Inc.Bitmap`.

* **`Words.BITMAP`** — the count and the words.
* **`Words.BITMAP.unpack`** — the bits that the words hold.
* **`Words.bmBitmapScanAndFlip_unpack`, `Words.bmBitmapSetMultiple_unpack`** — what the routines do to
  the words is what those without words do to the bits. -/

namespace KaushOS.Words

/-- `BITMAP`, together with the words that its member `bits` points to. -/
structure BITMAP where
  BitCount : Nat
  bits : Nat → BitVec 32

/-! ## Single bits -/

/-- `BmElementIndex(BitIndex)`. -/
def bmElementIndex (bitIndex : Nat) : Nat := bitIndex / 32

/-- `BmBitMask(BitIndex)`. -/
def bmBitMask (bitIndex : Nat) : BitVec 32 := 1#32 <<< (bitIndex % 32)

/-- Store to a word. -/
def BITMAP.store (b : BITMAP) (idx : Nat) (word : BitVec 32) : BITMAP :=
  { b with bits := Function.update b.bits idx word }

/-- `BmBitmapMark(bitmap, BitIndex)`. -/
def bmBitmapMark (b : BITMAP) (bitIndex : Nat) : BITMAP :=
  let idx := bmElementIndex bitIndex
  b.store idx (b.bits idx ||| bmBitMask bitIndex)

/-- `BmBitmapReset(bitmap, BitIndex)`. -/
def bmBitmapReset (b : BITMAP) (bitIndex : Nat) : BITMAP :=
  let idx := bmElementIndex bitIndex
  b.store idx (b.bits idx &&& ~~~(bmBitMask bitIndex))

/-- `BmBitmapSet(bitmap, idx, value)`. -/
def bmBitmapSet (b : BITMAP) (idx : Nat) (value : Bool) : Kernel BITMAP := do
  assert (idx < b.BitCount) "idx < bitmap->BitCount"
  return if value then bmBitmapMark b idx else bmBitmapReset b idx

/-- `BmBitmapTest(bitmap, idx)`. -/
def bmBitmapTest (b : BITMAP) (idx : Nat) : Kernel Bool := do
  assert (idx < b.BitCount) "idx < bitmap->BitCount"
  return b.bits (bmElementIndex idx) &&& bmBitMask idx ≠ 0

/-! ## Ranges -/

/-- The loop of `BmBitmapSetMultiple`. -/
def setMultipleLoop (start : Nat) (value : Bool) : Nat → BITMAP → Kernel BITMAP
  | 0, b => .ok b
  | n + 1, b => do
    let b ← bmBitmapSet b start value
    setMultipleLoop (start + 1) value n b

/-- `BmBitmapSetMultiple(bitmap, start, cnt, value)`. -/
def bmBitmapSetMultiple (b : BITMAP) (start cnt : Nat) (value : Bool) : Kernel BITMAP := do
  assert (start ≤ b.BitCount) "start <= bitmap->BitCount"
  assert (start + cnt ≤ b.BitCount) "start + cnt <= bitmap->BitCount"
  setMultipleLoop start value cnt b

/-- `BmBitmapSetAll(bitmap, value)`. -/
def bmBitmapSetAll (b : BITMAP) (value : Bool) : Kernel BITMAP :=
  bmBitmapSetMultiple b 0 b.BitCount value

/-- `BmBitmapCreateInBuffer(BitCount, block, block_size)`; `block` is what the words of the buffer
happen to hold. -/
def bmBitmapCreateInBuffer (bitCount : Nat) (block : Nat → BitVec 32) : Kernel BITMAP :=
  bmBitmapSetAll ⟨bitCount, block⟩ false

/-- The loop of `BmBitmapContains`, with `n` bits left to test. -/
def containsLoop (b : BITMAP) (value : Bool) : Nat → Nat → Kernel Bool
  | 0, _ => .ok false
  | n + 1, i => do
    let bit ← bmBitmapTest b i
    if bit = value then return true else containsLoop b value n (i + 1)

/-- `BmBitmapContains(bitmap, start, cnt, value)`. -/
def bmBitmapContains (b : BITMAP) (start cnt : Nat) (value : Bool) : Kernel Bool := do
  assert (start ≤ b.BitCount) "start <= bitmap->BitCount"
  assert (start + cnt ≤ b.BitCount) "start + cnt <= bitmap->BitCount"
  containsLoop b value cnt start

/-- The loop of `BmBitmapScan` from `i` on, for `n` more rounds. -/
def scanLoop (b : BITMAP) (cnt : Nat) (value : Bool) : Nat → Nat → Kernel (Option Nat)
  | 0, _ => .ok none
  | n + 1, i => do
    let other ← bmBitmapContains b i cnt (!value)
    if other then scanLoop b cnt value n (i + 1) else return some i

/-- `BmBitmapScan(bitmap, start, cnt, value)`; `none` is `BITMAP_ERROR`. -/
def bmBitmapScan (b : BITMAP) (start cnt : Nat) (value : Bool) : Kernel (Option Nat) := do
  assert (start ≤ b.BitCount) "start <= bitmap->BitCount"
  if cnt ≤ b.BitCount then scanLoop b cnt value (b.BitCount - cnt + 1 - start) start
  else return none

/-- `BmBitmapScanAndFlip(bitmap, start, cnt, value)`. -/
def bmBitmapScanAndFlip (b : BITMAP) (start cnt : Nat) (value : Bool) :
    Kernel (Option Nat × BITMAP) := do
  match ← bmBitmapScan b start cnt value with
  | none => return (none, b)
  | some idx =>
    let b ← bmBitmapSetMultiple b idx cnt (!value)
    return (some idx, b)

/-! ## The bits in the words -/

/-- **The bits that the words hold.** -/
def BITMAP.unpack (b : BITMAP) : KaushOS.BITMAP where
  BitCount := b.BitCount
  bits i := (b.bits (bmElementIndex i)).getLsbD (i % 32)

variable {b : BITMAP} {start cnt i j : Nat} {value : Bool}

/-- The mask of a bit has this bit and no other. -/
theorem bmBitMask_getLsbD (i j : Nat) :
    (bmBitMask i).getLsbD (j % 32) = decide (j % 32 = i % 32) := by
  have hj : j % 32 < 32 := Nat.mod_lt _ (by decide)
  rw [bmBitMask, ← BitVec.twoPow_eq, BitVec.getLsbD_twoPow]
  simp [eq_comm]
  omega

/-- Two bits are in one word and at one place of it only if they are the same. -/
theorem eq_of_element_eq (hword : bmElementIndex j = bmElementIndex i) (hplace : j % 32 = i % 32) :
    j = i := by
  unfold bmElementIndex at hword
  omega

/-- **A word is stored that differs in one bit.** -/
theorem BITMAP.store_unpack {word : BitVec 32}
    (h : ∀ j, word.getLsbD (j % 32)
      = if j % 32 = i % 32 then value else (b.bits (bmElementIndex i)).getLsbD (j % 32)) :
    (b.store (bmElementIndex i) word).unpack
      = { b.unpack with bits := Function.update b.unpack.bits i value } := by
  have hbits : (b.store (bmElementIndex i) word).unpack.bits
      = Function.update b.unpack.bits i value := by
    funext j
    show (Function.update b.bits (bmElementIndex i) word (bmElementIndex j)).getLsbD (j % 32) = _
    by_cases hji : j = i
    · subst hji
      rw [Function.update_self, Function.update_self, h j, if_pos rfl]
    · rw [Function.update_of_ne hji]
      by_cases hword : bmElementIndex j = bmElementIndex i
      · have hplace : j % 32 ≠ i % 32 := fun hplace => hji (eq_of_element_eq hword hplace)
        rw [hword, Function.update_self, h j, if_neg hplace, ← hword]
        rfl
      · rw [Function.update_of_ne hword]
        rfl
  rw [← hbits]
  rfl

/-- Marking a bit. -/
theorem bmBitmapMark_unpack (b : BITMAP) (i : Nat) : (bmBitmapMark b i).unpack
    = { b.unpack with bits := Function.update b.unpack.bits i true } := by
  refine BITMAP.store_unpack fun j => ?_
  rw [BitVec.getLsbD_or, bmBitMask_getLsbD]
  by_cases hplace : j % 32 = i % 32 <;> simp [hplace]

/-- Resetting a bit. -/
theorem bmBitmapReset_unpack (b : BITMAP) (i : Nat) : (bmBitmapReset b i).unpack
    = { b.unpack with bits := Function.update b.unpack.bits i false } := by
  refine BITMAP.store_unpack fun j => ?_
  have hj : j % 32 < 32 := Nat.mod_lt _ (by decide)
  rw [BitVec.getLsbD_and, BitVec.getLsbD_not, bmBitMask_getLsbD]
  by_cases hplace : j % 32 = i % 32
  · simp [hplace]
  · simp [hplace, hj]

/-- Storing a bit. -/
theorem bmBitmapSet_unpack (b : BITMAP) (i : Nat) (value : Bool) :
    (bmBitmapSet b i value).map BITMAP.unpack = KaushOS.bmBitmapSet b.unpack i value := by
  unfold bmBitmapSet KaushOS.bmBitmapSet
  by_cases hi : i < b.BitCount
  · rw [assert_of_true hi, assert_of_true (show i < b.unpack.BitCount from hi)]
    cases value
    · exact congrArg Except.ok (bmBitmapReset_unpack b i)
    · exact congrArg Except.ok (bmBitmapMark_unpack b i)
  · rw [assert_of_not hi, assert_of_not (show ¬ i < b.unpack.BitCount from hi)]
    rfl

/-- A word has a bit in common with the mask of a bit if it has this bit. -/
theorem and_bmBitMask_ne_zero (w : BitVec 32) (i : Nat) :
    w &&& bmBitMask i ≠ 0 ↔ w.getLsbD (i % 32) = true := by
  constructor
  · intro hne
    by_contra hbit
    refine hne (BitVec.eq_of_getLsbD_eq fun k hk => ?_)
    have hmask := bmBitMask_getLsbD i k
    rw [Nat.mod_eq_of_lt hk] at hmask
    rw [BitVec.getLsbD_and, hmask]
    by_cases hplace : k = i % 32
    · rw [hplace, Bool.eq_false_iff.mpr hbit]
      simp
    · simp [hplace]
  · intro hbit hzero
    have hand : (w &&& bmBitMask i).getLsbD (i % 32) = true := by
      rw [BitVec.getLsbD_and, hbit, bmBitMask_getLsbD]
      simp
    rw [hzero] at hand
    simp at hand

/-- Testing a bit. -/
theorem bmBitmapTest_unpack (b : BITMAP) (i : Nat) :
    bmBitmapTest b i = KaushOS.bmBitmapTest b.unpack i := by
  unfold bmBitmapTest KaushOS.bmBitmapTest
  have hbit : decide (b.bits (bmElementIndex i) &&& bmBitMask i ≠ 0) = b.unpack.bits i := by
    rw [Bool.eq_iff_iff, decide_eq_true_iff]
    exact and_bmBitMask_ne_zero _ i
  rw [hbit]
  rfl

/-! ## The ranges in the words -/

/-- The loop of `BmBitmapSetMultiple`. -/
theorem setMultipleLoop_unpack (b : BITMAP) (start : Nat) (value : Bool) (n : Nat) :
    (setMultipleLoop start value n b).map BITMAP.unpack
      = KaushOS.setMultipleLoop start value n b.unpack := by
  induction n generalizing b start with
  | zero => rfl
  | succ n ih =>
    have hset := bmBitmapSet_unpack b start value
    rw [setMultipleLoop, KaushOS.setMultipleLoop, ← hset]
    cases bmBitmapSet b start value with
    | error e => rfl
    | ok b' => exact ih b' (start + 1)

/-- **Storing to a range.** -/
theorem bmBitmapSetMultiple_unpack (b : BITMAP) (start cnt : Nat) (value : Bool) :
    (bmBitmapSetMultiple b start cnt value).map BITMAP.unpack
      = KaushOS.bmBitmapSetMultiple b.unpack start cnt value := by
  unfold bmBitmapSetMultiple KaushOS.bmBitmapSetMultiple
  rw [← setMultipleLoop_unpack]
  show _ = (assert (start ≤ b.BitCount) _ >>= fun _ => assert (start + cnt ≤ b.BitCount) _ >>= _)
  cases assert (start ≤ b.BitCount) "start <= bitmap->BitCount" with
  | error e => rfl
  | ok _ =>
    cases assert (start + cnt ≤ b.BitCount) "start + cnt <= bitmap->BitCount" with
    | error e => rfl
    | ok _ => rfl

/-- **A new bitmap** has only bits that are not set. -/
theorem bmBitmapCreateInBuffer_eq (bitCount : Nat) (block : Nat → BitVec 32) :
    ∃ b, bmBitmapCreateInBuffer bitCount block = .ok b ∧ b.BitCount = bitCount
      ∧ AllIn b.unpack.bits 0 bitCount false := by
  have hset := bmBitmapSetMultiple_unpack ⟨bitCount, block⟩ 0 bitCount false
  rw [KaushOS.bmBitmapSetMultiple_eq (by simp [BITMAP.unpack])] at hset
  unfold bmBitmapCreateInBuffer bmBitmapSetAll
  simp only
  cases hrun : bmBitmapSetMultiple ⟨bitCount, block⟩ 0 bitCount false with
  | error e =>
    rw [hrun] at hset
    cases hset
  | ok b =>
    rw [hrun] at hset
    have hb := Except.ok.inj hset
    refine ⟨b, rfl, congrArg KaushOS.BITMAP.BitCount hb, ?_⟩
    rw [hb]
    exact allIn_fillRange

/-- The loop of `BmBitmapContains` goes through the bits up to the first one with the value. -/
theorem containsLoop_eq (value : Bool) {n i : Nat} (h : i + n ≤ b.BitCount) :
    containsLoop b value n i
      = .ok ((List.range n).any fun k => b.unpack.bits (i + k) = value) := by
  induction n generalizing i with
  | zero => rfl
  | succ n ih =>
    have hrest : ((List.range n).any fun k => decide (b.unpack.bits (i + 1 + k) = value))
        = (List.range n).any fun k => decide (b.unpack.bits (i + (k + 1)) = value) := by
      congr 1
      funext k
      rw [show i + 1 + k = i + (k + 1) by omega]
    have hany : ((List.range (n + 1)).any fun k => decide (b.unpack.bits (i + k) = value))
        = (decide (b.unpack.bits i = value)
          || (List.range n).any fun k => decide (b.unpack.bits (i + (k + 1)) = value)) := by
      rw [List.range_succ_eq_map, List.any_cons, List.any_map]
      rfl
    have htest : bmBitmapTest b i = .ok (b.unpack.bits i) := by
      rw [bmBitmapTest_unpack, KaushOS.bmBitmapTest,
        assert_of_true (show i < b.unpack.BitCount from Nat.lt_of_lt_of_le (by omega) h)]
      rfl
    rw [containsLoop, htest, kernel_ok_bind, hany, ih (by omega), hrest]
    by_cases hbit : b.unpack.bits i = value
    · rw [if_pos hbit, decide_eq_true hbit, Bool.true_or]
      rfl
    · rw [if_neg hbit, decide_eq_false hbit, Bool.false_or]

/-- Testing a range. -/
theorem bmBitmapContains_unpack (b : BITMAP) (start cnt : Nat) (value : Bool) :
    bmBitmapContains b start cnt value = KaushOS.bmBitmapContains b.unpack start cnt value := by
  unfold bmBitmapContains KaushOS.bmBitmapContains
  by_cases hstart : start ≤ b.BitCount
  · rw [assert_of_true hstart, assert_of_true (show start ≤ b.unpack.BitCount from hstart)]
    by_cases hcnt : start + cnt ≤ b.BitCount
    · rw [assert_of_true hcnt, assert_of_true (show start + cnt ≤ b.unpack.BitCount from hcnt)]
      exact containsLoop_eq value hcnt
    · rw [assert_of_not hcnt, assert_of_not (show ¬ start + cnt ≤ b.unpack.BitCount from hcnt)]
      rfl
  · rw [assert_of_not hstart, assert_of_not (show ¬ start ≤ b.unpack.BitCount from hstart)]
    rfl

/-- Searching. -/
theorem bmBitmapScan_unpack (b : BITMAP) (start cnt : Nat) (value : Bool) :
    bmBitmapScan b start cnt value = KaushOS.bmBitmapScan b.unpack start cnt value := by
  have hloop : ∀ n i, scanLoop b cnt value n i = KaushOS.scanLoop b.unpack cnt value n i := by
    intro n
    induction n with
    | zero => exact fun _ => rfl
    | succ n ih =>
      intro i
      rw [scanLoop, KaushOS.scanLoop, bmBitmapContains_unpack, funext fun i => ih i]
  unfold bmBitmapScan KaushOS.bmBitmapScan
  rw [hloop]
  rfl

/-- **Searching and flipping.** -/
theorem bmBitmapScanAndFlip_unpack (b : BITMAP) (start cnt : Nat) (value : Bool) :
    (bmBitmapScanAndFlip b start cnt value).map (fun r => (r.1, r.2.unpack))
      = KaushOS.bmBitmapScanAndFlip b.unpack start cnt value := by
  unfold bmBitmapScanAndFlip KaushOS.bmBitmapScanAndFlip
  rw [← bmBitmapScan_unpack]
  cases bmBitmapScan b start cnt value with
  | error e => rfl
  | ok found =>
    cases found with
    | none => rfl
    | some idx =>
      have hset := bmBitmapSetMultiple_unpack b idx cnt (!value)
      simp only [kernel_ok_bind]
      rw [← hset]
      cases bmBitmapSetMultiple b idx cnt (!value) with
      | error e => rfl
      | ok b' => rfl

end KaushOS.Words
