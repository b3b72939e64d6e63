import Mathlib.Data.List.Basic
import Mathlib.Order.Lattice
import Mathlib.Order.MinMax
import Mathlib.Order.Nat

/-! # Data with a position

What is read and written at a position of a list of data, which moves on behind it.

* **`Stream`** — the data and a position in it.
* **`Stream.taken`**, **`Stream.skip`**, **`Stream.write`**, **`Stream.truncate`** — the operations.
* **`Stream.taken_add`**, **`Stream.write_append`** — an operation in several parts is one operation.
* **`ofFun`** — the stream of the values of a function, and what its operations are. -/

namespace Streams

variable {β : Type*}

/-- **Data, and a position** that is not behind their end. -/
@[ext] structure Stream (β : Type*) where
  data : List β
  pos : Nat
  pos_le : pos ≤ data.length

namespace Stream

variable {s : Stream β} {bs cs : List β} {m n : Nat}

/-- **What is read**: up to `n` elements from the position on. -/
def taken (n : Nat) (s : Stream β) : List β := (s.data.drop s.pos).take n

/-- The position moves on, at most to the end. -/
def skip (n : Nat) (s : Stream β) : Stream β := ⟨s.data, min (s.pos + n) s.data.length, min_le_right _ _⟩

/-- **Elements are written** from the position on, over the old ones and behind them. -/
def write (bs : List β) (s : Stream β) : Stream β :=
  ⟨s.data.take s.pos ++ bs ++ s.data.drop (s.pos + bs.length), s.pos + bs.length, by
    have := s.pos_le
    simp only [List.length_append, List.length_take, List.length_drop]
    omega⟩

/-- **The data behind the position are dropped.** -/
def truncate (s : Stream β) : Stream β := ⟨s.data.take s.pos, s.pos, by simp [s.pos_le]⟩

/-- **Elements are put behind the data.** -/
def extend (bs : List β) (s : Stream β) : Stream β :=
  ⟨s.data ++ bs, s.pos, by
    have := s.pos_le
    rw [List.length_append]
    omega⟩

/-- **The position is set**, at most to the end. -/
def seek (n : Nat) (s : Stream β) : Stream β := ⟨s.data, min n s.data.length, min_le_right _ _⟩

/-- **A part is read, and then another one.** -/
theorem taken_add : s.taken (m + n) = s.taken m ++ (s.skip m).taken n := by
  simp only [taken, skip]
  rw [List.take_add, List.drop_drop]
  by_cases h : s.pos + m ≤ s.data.length
  · rw [min_eq_left h]
  · rw [min_eq_right (Nat.le_of_not_le h), List.drop_of_length_le (Nat.le_of_not_le h), List.drop_length]

theorem skip_add : s.skip (m + n) = (s.skip m).skip n := by
  unfold skip
  ext1
  · rfl
  · dsimp only
    omega

/-- Nothing is read. -/
theorem taken_zero : s.taken 0 = [] := List.take_zero

theorem skip_zero : s.skip 0 = s := by
  ext1
  · rfl
  · exact min_eq_left s.pos_le

/-- How much is read. -/
theorem length_taken : (s.taken n).length = min n (s.data.length - s.pos) := by
  rw [taken, List.length_take, List.length_drop]

/-- No more is read than there is. -/
theorem taken_min : s.taken (min n (s.data.length - s.pos)) = s.taken n := by
  rw [taken, taken, List.take_eq_take_iff, List.length_drop, min_assoc, min_self]

theorem skip_min : s.skip (min n (s.data.length - s.pos)) = s.skip n := by
  have hpos := s.pos_le
  ext1
  · rfl
  · simp only [skip]
    omega

theorem write_nil : s.write [] = s := by
  ext1
  · simp only [write, List.append_nil, List.length_nil, Nat.add_zero, List.take_append_drop]
  · rfl

/-- **A part is written, and then another one.** -/
theorem write_append : s.write (bs ++ cs) = (s.write bs).write cs := by
  have hpos := s.pos_le
  have hlen : (s.data.take s.pos ++ bs).length = s.pos + bs.length := by
    rw [List.length_append, List.length_take, min_eq_left hpos]
  ext1
  · simp only [write]
    rw [List.take_append, List.drop_append, hlen, Nat.sub_self, List.take_zero, List.append_nil,
      List.take_of_length_le hlen.le, List.drop_of_length_le (hlen.trans_le (Nat.le_add_right _ _)), List.nil_append,
      Nat.add_sub_cancel_left, List.drop_drop, List.length_append, Nat.add_assoc, List.append_assoc _ bs]
  · simp only [write, List.length_append, Nat.add_assoc]

end Stream

/-! ## Streams of functions -/

variable {f g : Nat → β} {size pos n : Nat} {bs : List β}

/-- **The first values of a function**, with a position. -/
def ofFun (f : Nat → β) (size pos : Nat) (h : pos ≤ size) : Stream β :=
  ⟨(List.range size).map f, pos, by rwa [List.length_map, List.length_range]⟩

/-- **What is read of a function.** -/
theorem ofFun_taken (h : pos ≤ size) (hn : pos + n ≤ size) :
    (ofFun f size pos h).taken n = (List.range n).map fun i => f (pos + i) := by
  refine List.ext_getElem ?_ fun i hi hi' => ?_
  · simp only [Stream.length_taken, ofFun, List.length_map, List.length_range]
    omega
  · simp only [Stream.taken, ofFun, List.getElem_take, List.getElem_drop, List.getElem_map, List.getElem_range]

/-- **What is written to a function**: the elements are among the new values, and the other values are the old ones. -/
theorem ofFun_write {size' : Nat} (h : pos ≤ size) (hsize : size' = max size (pos + bs.length))
    (h' : pos + bs.length ≤ size') (hnew : ∀ i (hi : i < bs.length), g (pos + i) = bs[i])
    (hold : ∀ i < size, i < pos ∨ pos + bs.length ≤ i → g i = f i) :
    ofFun g size' (pos + bs.length) h' = (ofFun f size pos h).write bs := by
  have hlen : (List.take pos ((List.range size).map f) ++ bs).length = pos + bs.length := by
    rw [List.length_append, List.length_take, List.length_map, List.length_range, min_eq_left h]
  ext1
  · refine List.ext_getElem ?_ fun i hi hi' => ?_
    · simp only [Stream.write, ofFun, List.length_append, List.length_take, List.length_drop, List.length_map,
        List.length_range]
      omega
    · simp only [ofFun, List.length_map, List.length_range] at hi
      simp only [Stream.write, ofFun, List.getElem_map, List.getElem_range]
      by_cases hbehind : pos + bs.length ≤ i
      · rw [List.getElem_append_right (hlen.trans_le hbehind)]
        simp only [List.getElem_drop, List.getElem_map, List.getElem_range, hlen, Nat.add_sub_cancel' hbehind]
        exact hold i (by omega) (.inr hbehind)
      · rw [List.getElem_append_left (by omega)]
        by_cases hbefore : i < pos
        · rw [List.getElem_append_left (by simp only [List.length_take, List.length_map, List.length_range]; omega)]
          simp only [List.getElem_take, List.getElem_map, List.getElem_range]
          exact hold i (by omega) (.inl hbefore)
        · rw [List.getElem_append_right (by simp only [List.length_take, List.length_map, List.length_range]; omega)]
          have hnew := hnew (i - pos) (by omega)
          rw [Nat.add_sub_cancel' (Nat.not_lt.mp hbefore)] at hnew
          simpa only [List.length_take, List.length_map, List.length_range, min_eq_left h] using hnew
  · rfl

/-- **What is extended**, and gets another position. -/
theorem ofFun_extend {size' pos' : Nat} (h : pos ≤ size) (h' : pos' ≤ size') (hle : size ≤ size')
    (hpos : pos' = min n size') (hold : ∀ i < size, g i = f i) :
    ofFun g size' pos' h'
      = ((ofFun f size pos h).extend ((List.range (size' - size)).map fun i => g (size + i))).seek n := by
  obtain ⟨k, rfl⟩ := Nat.exists_eq_add_of_le hle
  have hmap : (List.range size).map g = (List.range size).map f :=
    List.map_congr_left fun i hi => hold i (List.mem_range.mp hi)
  ext1
  · simp only [Stream.seek, Stream.extend, ofFun, Nat.add_sub_cancel_left, List.range_add, List.map_append, List.map_map,
      hmap]
    rfl
  · simp only [Stream.seek, Stream.extend, ofFun, Nat.add_sub_cancel_left, List.length_append, List.length_map,
      List.length_range, hpos]

/-- What is truncated. -/
theorem ofFun_truncate (h : pos ≤ size) : (ofFun f size pos h).truncate = ofFun f pos pos le_rfl := by
  ext1
  · simp only [Stream.truncate, ofFun, ← List.map_take, List.take_range, min_eq_left h]
  · rfl

end Streams
