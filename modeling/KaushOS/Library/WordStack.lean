import Mathlib.Logic.Function.Basic
import Mathlib.Tactic.Common

/-! # Words on stacks

A memory of words at addresses four apart, and what is done to it when a stack grows downwards: words are
pushed, cleared and copied. What a routine does to the rest of the memory is said by the range that it
keeps to.

* **`words`** — the words from an address on.
* **`pushAll`** — words are pushed; **`words_pushAll`** reads them back, the last one first.
* **`Within`** — only a range of the memory has changed. -/

namespace WordStack

/-- **A memory of words**: the word at an address. -/
abbrev StackMemory := Nat → Nat

/-- **The words from an address on.** -/
def words (m : StackMemory) (a : Nat) : Nat → List Nat
  | 0 => []
  | n + 1 => m a :: words m (a + 4) n

/-- A word is stored. -/
def store (m : StackMemory) (a w : Nat) : StackMemory := Function.update m a w

/-- **Words are pushed**, the stack pointer being `sp`. -/
def pushAll : List Nat → Nat → StackMemory → StackMemory
  | [], _, m => m
  | w :: ws, sp, m => pushAll ws (sp - 4) (store m (sp - 4) w)

/-- Words are cleared. -/
def clear : Nat → Nat → StackMemory → StackMemory
  | 0, _, m => m
  | n + 1, a, m => clear n (a + 4) (store m a 0)

/-- **Words are copied**, one after the other. -/
def copy : Nat → Nat → Nat → StackMemory → StackMemory
  | 0, _, _, m => m
  | n + 1, src, dst, m => copy n (src + 4) (dst + 4) (store m dst (m src))

variable {m m' m'' : StackMemory} {a b lo hi lo' hi' n k sp src dst w x : Nat} {ws : List Nat}

/-! ## Ranges -/

/-- **Only the memory from `lo` up to `hi` has changed.** -/
def Within (lo hi : Nat) (m m' : StackMemory) : Prop := ∀ x, x < lo ∨ hi ≤ x → m' x = m x

theorem Within.refl : Within lo hi m m := fun _ _ => rfl

theorem Within.trans (h : Within lo hi m m') (h' : Within lo hi m' m'') : Within lo hi m m'' :=
  fun x hx => (h' x hx).trans (h x hx)

/-- A larger range. -/
theorem Within.mono (h : Within lo hi m m') (hlo : lo' ≤ lo) (hhi : hi ≤ hi') : Within lo' hi' m m' :=
  fun x hx => h x (by omega)

/-- A word is stored. -/
theorem within_store (hlo : lo ≤ a) (hhi : a < hi) : Within lo hi m (store m a w) := by
  intro x hx
  refine Function.update_of_ne ?_ ..
  omega

@[simp] theorem store_same : store m a w a = w := Function.update_self ..

theorem store_other (h : x ≠ a) : store m a w x = m x := Function.update_of_ne h ..

/-- Words are cleared. -/
theorem within_clear : Within a (a + 4 * n) m (clear n a m) := by
  induction n generalizing a m with
  | zero => exact Within.refl
  | succ n ih =>
    have hfirst : Within a (a + 4 * (n + 1)) m (store m a 0) := within_store (Nat.le_refl a) (by omega)
    exact hfirst.trans (ih.mono (by omega) (by omega))

/-- Words are copied. -/
theorem within_copy : Within dst (dst + 4 * n) m (copy n src dst m) := by
  induction n generalizing src dst m with
  | zero => exact Within.refl
  | succ n ih =>
    have hfirst : Within dst (dst + 4 * (n + 1)) m (store m dst (m src)) :=
      within_store (Nat.le_refl dst) (by omega)
    exact hfirst.trans (ih.mono (by omega) (by omega))

/-- **Words are pushed.** -/
theorem within_pushAll (h : a + 4 * ws.length = sp) : Within a sp m (pushAll ws sp m) := by
  induction ws generalizing sp m with
  | nil => exact Within.refl
  | cons w ws ih =>
    rw [List.length_cons] at h
    have hfirst : Within a sp m (store m (sp - 4) w) := within_store (by omega) (by omega)
    exact hfirst.trans ((ih (by omega)).mono (Nat.le_refl a) (by omega))

/-! ## Words -/

@[simp] theorem length_words : (words m a n).length = n := by
  induction n generalizing a with
  | zero => rfl
  | succ n ih => rw [words, List.length_cons, ih]

/-- A word at an index. -/
theorem getElem?_words (hk : k < n) : (words m a n)[k]? = some (m (a + 4 * k)) := by
  induction n generalizing a k with
  | zero => exact absurd hk (Nat.not_lt_zero k)
  | succ n ih =>
    cases k with
    | zero => rfl
    | succ k =>
      rw [words, List.getElem?_cons_succ, ih (by omega), show a + 4 + 4 * k = a + 4 * (k + 1) by omega]

/-- The words of two parts. -/
theorem words_add (n k : Nat) : words m a (n + k) = words m a n ++ words m (a + 4 * n) k := by
  induction n generalizing a with
  | zero => simp [words]
  | succ n ih =>
    rw [Nat.succ_add, words, words, ih, List.cons_append, show a + 4 + 4 * n = a + 4 * (n + 1) by omega]

/-- **Words that have not changed.** -/
theorem words_congr (h : ∀ x, a ≤ x → x < a + 4 * n → m' x = m x) : words m' a n = words m a n := by
  induction n generalizing a with
  | zero => rfl
  | succ n ih =>
    rw [words, words, h a (Nat.le_refl a) (by omega), ih fun x hlo hhi => h x (by omega) (by omega)]

/-- **Words out of the range.** -/
theorem Within.words (h : Within lo hi m m') (ha : a + 4 * n ≤ lo ∨ hi ≤ a) :
    words m' a n = words m a n :=
  words_congr fun x hlo hhi => h x (by omega)

/-- Words that have been cleared. -/
theorem words_clear : words (clear n a m) a n = List.replicate n 0 := by
  induction n generalizing a m with
  | zero => rfl
  | succ n ih =>
    rw [clear, words, ih, within_clear a (by omega), store_same, List.replicate_succ]

/-- **Words that have been copied** from a place of their own. -/
theorem words_copy (h : src + 4 * n ≤ dst ∨ dst + 4 * n ≤ src) :
    words (copy n src dst m) dst n = words m src n := by
  induction n generalizing src dst m with
  | zero => rfl
  | succ n ih =>
    have hrest : words (store m dst (m src)) (src + 4) n = words m (src + 4) n :=
      (within_store (Nat.le_refl dst) (Nat.lt_succ_self dst)).words (by omega)
    rw [copy, words, words, ih (by omega), hrest, within_copy dst (by omega), store_same]

/-- **Words that have been pushed**: the last one is first. -/
theorem words_pushAll (ws : List Nat) (m : StackMemory) (h : a + 4 * ws.length = sp) :
    words (pushAll ws sp m) a ws.length = ws.reverse := by
  induction ws generalizing sp m with
  | nil => rfl
  | cons w ws ih =>
    rw [List.length_cons] at h
    have hlast : words (pushAll ws (sp - 4) (store m (sp - 4) w)) (sp - 4) 1 = [w] := by
      rw [(within_pushAll (a := a) (by omega)).words (Or.inr (Nat.le_refl _))]
      simp [words]
    rw [List.length_cons, words_add, pushAll, ih _ (by omega), show a + 4 * ws.length = sp - 4 by omega,
      hlast, List.reverse_cons]

/-- **A word that has been pushed.** -/
theorem pushAll_word (ws : List Nat) (m : StackMemory) (h : a + 4 * ws.length = sp) (hk : k < ws.length) :
    ws.reverse[k]? = some (pushAll ws sp m (a + 4 * k)) := by
  rw [← words_pushAll ws m h, getElem?_words hk]

/-- **A word is stored among them.** -/
theorem words_store (hk : k < n) : words (store m (a + 4 * k) w) a n = (words m a n).set k w := by
  induction n generalizing a k with
  | zero => exact absurd hk (Nat.not_lt_zero k)
  | succ n ih =>
    cases k with
    | zero =>
      have hrest : words (store m (a + 4 * 0) w) (a + 4) n = words m (a + 4) n :=
        (within_store (Nat.le_refl _) (Nat.lt_succ_self _)).words (by omega)
      rw [words, hrest, Nat.mul_zero, Nat.add_zero, store_same, words, List.set_cons_zero]
    | succ k =>
      have hfirst : store m (a + 4 * (k + 1)) w a = m a := store_other (by omega)
      have hrest := ih (a := a + 4) (k := k) (by omega)
      rw [show a + 4 + 4 * k = a + 4 * (k + 1) by omega] at hrest
      rw [words, hfirst, hrest, words, List.set_cons_succ]

end WordStack
