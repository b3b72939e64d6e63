import Mathlib.Data.BitVec
import Mathlib.Logic.Function.Basic

/-! # Memory in frames

A memory of bytes that is divided into frames, and read and written by bytes, by little-endian words
and by whole frames.

* **`word`, `storeWord`** — the words of a frame.
* **`storeByte`, `clear`, `copy`** — a byte, and a whole frame.

A frame is a function of all offsets; a program uses those below the size of a frame. Every store is to
one frame, so that the other frames are framed by `Function.update_of_ne` alone. -/

namespace PhysicalMemory

/-- The byte at each offset of each frame. -/
abbrev Ram := Nat → Nat → BitVec 8

variable {m m' : Ram} {f g i j o : Nat} {b : BitVec 8} {v w : BitVec 32}

/-- The word with the index `i` of a frame. -/
def word (m : Ram) (f i : Nat) : BitVec 32 :=
  m f (4 * i + 3) ++ m f (4 * i + 2) ++ m f (4 * i + 1) ++ m f (4 * i)

/-- The bytes of a frame that holds the words `w`. -/
def bytes (w : Nat → BitVec 32) (o : Nat) : BitVec 8 := (w (o / 4)).extractLsb' (8 * (o % 4)) 8

/-- Store of a byte. -/
def storeByte (m : Ram) (f o : Nat) (b : BitVec 8) : Ram :=
  Function.update m f (Function.update (m f) o b)

/-- Store of a word. -/
def storeWord (m : Ram) (f i : Nat) (w : BitVec 32) : Ram :=
  Function.update m f fun o => if o / 4 = i then w.extractLsb' (8 * (o % 4)) 8 else m f o

/-- All bytes of a frame are cleared. -/
def clear (m : Ram) (f : Nat) : Ram := Function.update m f fun _ => 0

/-- A frame is copied to the frame `f`. -/
def copy (m : Ram) (f source : Nat) : Ram := Function.update m f (m source)

/-! ## Reading -/

/-- The words of a frame depend on its bytes only. -/
theorem word_congr (h : m f = m' g) (i : Nat) : word m f i = word m' g i := by
  simp only [word, h]

/-- A word is put together from its bytes. -/
theorem append_extract (w : BitVec 32) :
    w.extractLsb' 24 8 ++ w.extractLsb' 16 8 ++ w.extractLsb' 8 8 ++ w.extractLsb' 0 8 = w := by
  ext k hk
  simp only [BitVec.getElem_append, BitVec.getElem_extractLsb', Nat.zero_add]
  split
  · exact BitVec.getLsbD_eq_getElem hk
  · split
    · rw [show 8 + (k - 8) = k by omega]
      exact BitVec.getLsbD_eq_getElem hk
    · split
      · rw [show 16 + (k - 8 - 8) = k by omega]
        exact BitVec.getLsbD_eq_getElem hk
      · rw [show 24 + (k - 8 - 8 - 8) = k by omega]
        exact BitVec.getLsbD_eq_getElem hk

/-- **The words of a frame** that has been made of words. -/
theorem word_bytes {u : Nat → BitVec 32} (h : m f = bytes u) (i : Nat) : word m f i = u i := by
  have hbyte : ∀ k < 4, (4 * i + k) / 4 = i ∧ (4 * i + k) % 4 = k := by
    intro k hk
    omega
  simp only [word, h, bytes, hbyte 3 (by decide), hbyte 2 (by decide), hbyte 1 (by decide)]
  rw [show 4 * i / 4 = i by omega, show 4 * i % 4 = 0 by omega]
  exact append_extract (u i)

/-- **The word that has been stored** is read back. -/
@[simp] theorem word_storeWord_self : word (storeWord m f i w) f i = w := by
  have hbyte : ∀ k < 4, (4 * i + k) / 4 = i ∧ (4 * i + k) % 4 = k := by
    intro k hk
    omega
  simp only [word, storeWord, Function.update_self, hbyte 3 (by decide), hbyte 2 (by decide),
    hbyte 1 (by decide), if_true]
  rw [show 4 * i / 4 = i by omega, show 4 * i % 4 = 0 by omega, if_pos rfl]
  exact append_extract w

/-- A store to another frame. -/
theorem word_storeWord_of_frame (h : g ≠ f) : word (storeWord m f i w) g j = word m g j :=
  word_congr (Function.update_of_ne h ..) j

/-- **A store leaves the other words alone.** -/
theorem word_storeWord_of_ne (h : g ≠ f ∨ j ≠ i) : word (storeWord m f i w) g j = word m g j := by
  by_cases hg : g = f
  · subst hg
    have hj : j ≠ i := h.resolve_left (not_not_intro rfl)
    have hbyte : ∀ k < 4, (4 * j + k) / 4 ≠ i := by
      intro k hk
      omega
    simp only [word, storeWord, Function.update_self, if_neg (hbyte 3 (by decide)),
      if_neg (hbyte 2 (by decide)), if_neg (hbyte 1 (by decide))]
    rw [if_neg (show 4 * j / 4 ≠ i by omega)]
  · exact word_storeWord_of_frame hg

/-- The words of a frame that has been cleared. -/
@[simp] theorem word_clear_self : word (clear m f) f i = 0 := by
  simp only [word, clear, Function.update_self]
  decide

/-- Clearing another frame. -/
theorem word_clear_of_ne (h : g ≠ f) : word (clear m f) g j = word m g j :=
  word_congr (Function.update_of_ne h ..) j

/-- The words of a frame that has been copied. -/
@[simp] theorem word_copy_self : word (copy m f g) f i = word m g i :=
  word_congr (Function.update_self ..) i

end PhysicalMemory
