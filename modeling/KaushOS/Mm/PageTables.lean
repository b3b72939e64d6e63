import KaushOS.Mm.Paging

/-! # Entries and addresses

The small facts about entries, stores and addresses on which everything about page tables rests.

* **`MMPTE.make_fields`, `MMPTE.share_fields`, `MMPTE.own_fields`** — the bit fields of an entry
  that is made or changed.
* **`entry_setEntry_of_ne`, `entry_clearFrame_self`** — which entries a store changes.
* **`pageAt`** — the address of a page, from its two indices. -/

namespace KaushOS.Paging

open PhysicalMemory

variable {p q : MMPTE} {frame perm i j : Nat} {b : Bool} {s : State}

/-! ## Bit fields -/

/-- Entries with the same word are the same. -/
theorem MMPTE.ext (h : p.Long = q.Long) : p = q := by
  cases p
  cases q
  cases h
  rfl

/-- The bits of an entry that is made. -/
theorem MMPTE.make_bit (hi : i < 12) :
    (MMPTE.make frame perm).Long.getLsbD i = (perm ||| PTE_P).testBit i := by
  have hframe : (frame <<< 12).testBit i = false := by
    rw [Nat.testBit_shiftLeft, decide_eq_false (show ¬ i ≥ 12 by omega), Bool.false_and]
  rw [MMPTE.make, BitVec.getLsbD_ofNat, decide_eq_true (show i < 32 by omega), Bool.true_and,
    Nat.testBit_or, hframe, Bool.false_or]

/-- The frame of an entry that is made. -/
theorem MMPTE.make_frame (hframe : frame < 1048576) (hperm : perm < 4096) :
    (MMPTE.make frame perm).PageFrameNumber = frame := by
  have hlow : perm ||| PTE_P < 2 ^ 12 := Nat.or_lt_two_pow hperm (by decide)
  have hsum : frame <<< 12 ||| (perm ||| PTE_P) = frame <<< 12 + (perm ||| PTE_P) :=
    (Nat.shiftLeft_add_eq_or_of_lt hlow frame).symm
  have hshift : frame <<< 12 = frame * 4096 := Nat.shiftLeft_eq frame 12
  have hbound : frame * 4096 + (perm ||| PTE_P) < 2 ^ 32 := by omega
  rw [MMPTE.PageFrameNumber, MMPTE.make, hsum, hshift, BitVec.toNat_ofNat,
    Nat.mod_eq_of_lt hbound]
  omega

/-- **The bit fields of an entry that is made.** -/
theorem MMPTE.make_fields (frame perm : Nat) : (MMPTE.make frame perm).Valid = true
    ∧ (MMPTE.make frame perm).Writable = perm.testBit 1
    ∧ (MMPTE.make frame perm).UserPriv = perm.testBit 2
    ∧ (MMPTE.make frame perm).CopyOnWrite = perm.testBit 11 := by
  have hvalid : PTE_P.testBit 0 = true := by decide
  have hbit : PTE_P.testBit 1 = false ∧ PTE_P.testBit 2 = false ∧ PTE_P.testBit 11 = false := by
    decide
  simp only [MMPTE.Valid, MMPTE.Writable, MMPTE.UserPriv, MMPTE.CopyOnWrite,
    MMPTE.make_bit (show 0 < 12 by decide), MMPTE.make_bit (show 1 < 12 by decide),
    MMPTE.make_bit (show 2 < 12 by decide), MMPTE.make_bit (show 11 < 12 by decide),
    Nat.testBit_or, hvalid, hbit.1, hbit.2.1, hbit.2.2, Bool.or_true, Bool.or_false, and_self]

/-- A bit after a store to one bit. -/
theorem MMPTE.setBit_bit (hi : i < 32) (hj : j < 32) :
    (p.setBit i b).Long.getLsbD j = if j = i then b else p.Long.getLsbD j := by
  cases b with
  | true =>
    by_cases hji : j = i
    · subst hji
      simp [MMPTE.setBit, hj]
    · simp [MMPTE.setBit, BitVec.getLsbD_twoPow, hji, Ne.symm hji]
  | false =>
    by_cases hji : j = i
    · subst hji
      simp [MMPTE.setBit, hj]
    · simp [MMPTE.setBit, hji, hj]

/-- A store to one of the low bits leaves the frame. -/
@[simp] theorem MMPTE.setBit_frame (hi : i < 12) :
    (p.setBit i b).PageFrameNumber = p.PageFrameNumber := by
  have hshift : ∀ q : MMPTE, q.PageFrameNumber = (q.Long >>> 12).toNat := by
    intro q
    rw [MMPTE.PageFrameNumber, BitVec.toNat_ushiftRight, Nat.shiftRight_eq_div_pow]
  rw [hshift, hshift]
  congr 1
  ext k hk
  rw [BitVec.getElem_ushiftRight, BitVec.getElem_ushiftRight]
  by_cases hlt : 12 + k < 32
  · rw [MMPTE.setBit_bit (by omega) hlt, if_neg (by omega)]
  · rw [BitVec.getLsbD_of_ge _ _ (by omega), BitVec.getLsbD_of_ge _ _ (by omega)]

/-- The bit fields after a store to `CopyOnWrite`. -/
theorem MMPTE.setCopyOnWrite_fields (p : MMPTE) (b : Bool) : (p.setCopyOnWrite b).Valid = p.Valid
    ∧ (p.setCopyOnWrite b).Writable = p.Writable ∧ (p.setCopyOnWrite b).UserPriv = p.UserPriv
    ∧ (p.setCopyOnWrite b).CopyOnWrite = b
    ∧ (p.setCopyOnWrite b).PageFrameNumber = p.PageFrameNumber := by
  simp only [MMPTE.Valid, MMPTE.Writable, MMPTE.UserPriv, MMPTE.CopyOnWrite, MMPTE.setCopyOnWrite,
    MMPTE.setBit_bit, MMPTE.setBit_frame, Nat.reduceLT, Nat.reduceEqDiff, OfNat.zero_ne_ofNat,
    OfNat.one_ne_ofNat, if_true, if_false, and_self]

/-- The bit fields after a store to `Writable`. -/
theorem MMPTE.setWritable_fields (p : MMPTE) (b : Bool) : (p.setWritable b).Valid = p.Valid
    ∧ (p.setWritable b).Writable = b ∧ (p.setWritable b).UserPriv = p.UserPriv
    ∧ (p.setWritable b).CopyOnWrite = p.CopyOnWrite
    ∧ (p.setWritable b).PageFrameNumber = p.PageFrameNumber := by
  simp only [MMPTE.Valid, MMPTE.Writable, MMPTE.UserPriv, MMPTE.CopyOnWrite, MMPTE.setWritable,
    MMPTE.setBit_bit, MMPTE.setBit_frame, Nat.reduceLT, OfNat.ofNat_ne_one, zero_ne_one, if_true,
    if_false, and_self]

/-- **The bit fields of a page that is shared**: it is no longer writable, but copied on a write. -/
theorem MMPTE.share_fields (p : MMPTE) : ((p.setWritable false).setCopyOnWrite true).Valid = p.Valid
    ∧ ((p.setWritable false).setCopyOnWrite true).Writable = false
    ∧ ((p.setWritable false).setCopyOnWrite true).UserPriv = p.UserPriv
    ∧ ((p.setWritable false).setCopyOnWrite true).CopyOnWrite = true
    ∧ ((p.setWritable false).setCopyOnWrite true).PageFrameNumber = p.PageFrameNumber := by
  obtain ⟨hvalid, hwritable, huser, -, hframe⟩ := p.setWritable_fields false
  obtain ⟨hvalid', hwritable', huser', hcow, hframe'⟩ :=
    (p.setWritable false).setCopyOnWrite_fields true
  exact ⟨hvalid'.trans hvalid, hwritable'.trans hwritable, huser'.trans huser, hcow,
    hframe'.trans hframe⟩

/-- **The bit fields of a page that is no longer shared.** -/
theorem MMPTE.own_fields (p : MMPTE) : ((p.setCopyOnWrite false).setWritable true).Valid = p.Valid
    ∧ ((p.setCopyOnWrite false).setWritable true).Writable = true
    ∧ ((p.setCopyOnWrite false).setWritable true).UserPriv = p.UserPriv
    ∧ ((p.setCopyOnWrite false).setWritable true).CopyOnWrite = false
    ∧ ((p.setCopyOnWrite false).setWritable true).PageFrameNumber = p.PageFrameNumber := by
  obtain ⟨hvalid, -, huser, hcow, hframe⟩ := p.setCopyOnWrite_fields false
  obtain ⟨hvalid', hwritable, huser', hcow', hframe'⟩ :=
    (p.setCopyOnWrite false).setWritable_fields true
  exact ⟨hvalid'.trans hvalid, hwritable, huser'.trans huser, hcow'.trans hcow,
    hframe'.trans hframe⟩

/-- The empty entry. -/
theorem MMPTE.zero_fields : (⟨0⟩ : MMPTE).Valid = false ∧ (⟨0⟩ : MMPTE).PageFrameNumber = 0 :=
  ⟨by decide, by decide⟩

/-- An entry that is valid is not empty. -/
theorem MMPTE.long_ne_zero (h : p.Valid = true) : p.Long ≠ 0 := by
  intro hzero
  rw [MMPTE.Valid, hzero] at h
  cases h

/-! ## Stores -/

/-- **The entry that has been stored.** -/
@[simp] theorem entry_setEntry_self : (s.setEntry frame i p).entry frame i = p := by
  simp [State.entry, State.setEntry]

/-- A store leaves the other entries alone. -/
theorem entry_setEntry_of_ne {f : Nat} (h : f ≠ frame ∨ j ≠ i) :
    (s.setEntry frame i p).entry f j = s.entry f j :=
  congrArg MMPTE.mk (word_storeWord_of_ne h)

/-- All entries after a store. -/
theorem entry_setEntry (s : State) (frame i f j : Nat) (p : MMPTE) :
    (s.setEntry frame i p).entry f j = if f = frame ∧ j = i then p else s.entry f j := by
  by_cases h : f = frame ∧ j = i
  · obtain ⟨rfl, rfl⟩ := h
    rw [if_pos ⟨rfl, rfl⟩, entry_setEntry_self]
  · rw [if_neg h, entry_setEntry_of_ne (not_and_or.mp h)]

/-- The entries of a frame that has been cleared. -/
@[simp] theorem entry_clearFrame_self : (s.clearFrame frame).entry frame i = ⟨0⟩ := by
  simp [State.entry, State.clearFrame]

/-- Clearing a frame leaves the others alone. -/
theorem entry_clearFrame_of_ne {f : Nat} (h : f ≠ frame) :
    (s.clearFrame frame).entry f i = s.entry f i :=
  congrArg MMPTE.mk (word_clear_of_ne h)

/-- The entries of a frame that has been copied. -/
@[simp] theorem entry_copyFrame_self {source : Nat} :
    (s.copyFrame frame source).entry frame i = s.entry source i := by
  simp [State.entry, State.copyFrame]

/-! ## Addresses -/

/-- The address of a page in the user half, from its two indices. -/
def pageAt (i j : Nat) : Nat := i * PTSIZE + j * PGSIZE

/-- **The indices of a page.** -/
theorem PDX_pageAt (hi : i < NPTENTRIES) (hj : j < NPTENTRIES) : PDX (pageAt i j) = i := by
  simp only [PDX, pageAt, PTSIZE, PGSIZE, NPTENTRIES] at *
  omega

theorem PTX_pageAt (hj : j < NPTENTRIES) : PTX (pageAt i j) = j := by
  simp only [PTX, pageAt, PTSIZE, PGSIZE, NPTENTRIES] at *
  omega

end KaushOS.Paging
