import KaushOS.Ob.Handle

/-! # The accounting invariant of objects

What the two counters of an object stand for, with a ghost count of the pointer references that
callers hold.

* **`ObInvariant`** — the two counters of every object are the numbers they stand for.
* **`ObInvariant.update`** — the counters of one object change; every operation on a reference or
  a handle is a case of it.
* **`ObInvariant.allocate`, `obFreeHandleTable_eq`** — handle tables into which nothing is copied
  and from which nothing is dropped. -/

namespace KaushOS

open Occurrences

variable {ω π : Type} [DecidableEq ω] [DecidableEq π]

/-! ## The invariant -/

/-- The number of handle table entries that hold an object, over the tables of `tables`. -/
def handleCount (tables : Finset π) (s : Ob ω π) (x : ω) : Nat :=
  occurrences tables s.Handle (.object x)

/-- **The invariant.** `OpenHandleCount` is the number of entries that hold the object, and
`RefCount` counts those and the references that callers hold; there is one as long as the object
is allocated, and none otherwise. -/
structure ObInvariant (s : Ob ω π) (refs : ω → Nat) (tables : Finset π) : Prop where
  valid : ∀ x ∈ s.objects, obIsValidObject x s = true
  temporary : ∀ x ∈ s.objects, (s.header x).Attributes &&& OBJ_PERMANENT = 0
  handles : ∀ x ∈ s.objects, (s.header x).OpenHandleCount = handleCount tables s x
  balance : ∀ x ∈ s.objects, (s.header x).RefCount = refs x + (s.header x).OpenHandleCount
  alive : ∀ x ∈ s.objects, 0 < (s.header x).RefCount
  dead : ∀ x, x ∉ s.objects → refs x = 0 ∧ handleCount tables s x = 0

variable {s s' : Ob ω π} {refs refs' : ω → Nat} {tables tables' : Finset π} {x y : ω} {p : π}
  {i : Fin EX_MAX_HANDLE}

/-- **What the counters are about stays the same.** -/
structure SameCounts (s s' : Ob ω π) : Prop where
  objects : s'.objects = s.objects
  handle : s'.Handle = s.Handle
  magic : ∀ x, (s'.header x).Magic = (s.header x).Magic
  attributes : ∀ x, (s'.header x).Attributes = (s.header x).Attributes
  handles : ∀ x, (s'.header x).OpenHandleCount = (s.header x).OpenHandleCount
  refs : ∀ x, (s'.header x).RefCount = (s.header x).RefCount

omit [DecidableEq ω] [DecidableEq π] in
theorem SameCounts.refl (s : Ob ω π) : SameCounts s s :=
  ⟨rfl, rfl, fun _ => rfl, fun _ => rfl, fun _ => rfl, fun _ => rfl⟩

omit [DecidableEq ω] [DecidableEq π] in
theorem SameCounts.trans {s'' : Ob ω π} (h : SameCounts s s') (h' : SameCounts s' s'') :
    SameCounts s s'' :=
  ⟨h'.objects.trans h.objects, h'.handle.trans h.handle, fun x => (h'.magic x).trans (h.magic x),
    fun x => (h'.attributes x).trans (h.attributes x),
    fun x => (h'.handles x).trans (h.handles x), fun x => (h'.refs x).trans (h.refs x)⟩

omit [DecidableEq π] in
/-- Naming an object and linking it into a directory. -/
theorem SameCounts.setHeader {h : OBJECT_HEADER} (hmagic : h.Magic = (s.header x).Magic)
    (hattributes : h.Attributes = (s.header x).Attributes)
    (hhandles : h.OpenHandleCount = (s.header x).OpenHandleCount)
    (hrefs : h.RefCount = (s.header x).RefCount) : SameCounts s (s.setHeader x h) := by
  refine ⟨rfl, rfl, fun y => ?_, fun y => ?_, fun y => ?_, fun y => ?_⟩ <;>
  · by_cases hy : y = x
    · subst hy
      rw [Ob.setHeader_self]
      assumption
    · rw [Ob.setHeader_of_ne s h hy]

omit [DecidableEq π] in
/-- The invariant is about the counters only. -/
theorem ObInvariant.congr (h : ObInvariant s refs tables) (hs : SameCounts s s') :
    ObInvariant s' refs tables := by
  have hcount : ∀ x, handleCount tables s' x = handleCount tables s x := by
    intro x
    rw [handleCount, hs.handle]
    rfl
  refine ⟨?_, ?_, ?_, ?_, ?_, ?_⟩ <;> rw [hs.objects] <;> intro x hx
  · rw [obIsValidObject, hs.magic]
    exact h.valid x hx
  · rw [hs.attributes]
    exact h.temporary x hx
  · rw [hs.handles, hcount]
    exact h.handles x hx
  · rw [hs.refs, hs.handles]
    exact h.balance x hx
  · rw [hs.refs]
    exact h.alive x hx
  · rw [hcount]
    exact h.dead x hx

/-- **Objects go exactly with their last reference**, by a caller or by a handle. -/
def RemovedAtZero (s s' : Ob ω π) (refs' : ω → Nat) (tables' : Finset π) : Prop :=
  ∀ y ∈ s.objects, y ∉ s'.objects ↔ refs' y + handleCount tables' s' y = 0

omit [DecidableEq ω] [DecidableEq π] in
/-- Something refers to every object. -/
theorem ObInvariant.referred [DecidableEq ω] (h : ObInvariant s refs tables) (hx : x ∈ s.objects) :
    0 < refs x + handleCount tables s x := by
  have hpos := h.alive x hx
  have hbalance := h.balance x hx
  have hhandles := h.handles x hx
  omega

omit [DecidableEq π] in
/-- Nothing goes where the objects stay. -/
theorem ObInvariant.removedAtZero (h : ObInvariant s' refs' tables')
    (hobjects : s.objects ⊆ s'.objects) : RemovedAtZero s s' refs' tables' := by
  intro y hy
  have hpos := h.referred (hobjects hy)
  exact ⟨fun hnot => absurd (hobjects hy) hnot, fun hzero => by omega⟩

omit [DecidableEq π] in
/-- **The counters of one object change**: it is given back exactly when nothing refers to it any
more. -/
theorem ObInvariant.update (h : ObInvariant s refs tables) (hx : x ∈ s.objects)
    (hheader : ∀ y, y ≠ x → s'.header y = s.header y)
    (hmagic : (s'.header x).Magic = (s.header x).Magic)
    (hattributes : (s'.header x).Attributes = (s.header x).Attributes)
    (hrefs : ∀ y, y ≠ x → refs' y = refs y)
    (hcount : ∀ y, y ≠ x → handleCount tables' s' y = handleCount tables s y)
    (hhandles : (s'.header x).OpenHandleCount = handleCount tables' s' x)
    (hbalance : (s'.header x).RefCount = refs' x + (s'.header x).OpenHandleCount)
    (hobjects : s'.objects = if 0 < (s'.header x).RefCount then s.objects else s.objects.erase x) :
    ObInvariant s' refs' tables' ∧ RemovedAtZero s s' refs' tables' := by
  have hmem : ∀ y, y ∈ s'.objects ↔ y ∈ s.objects ∧ (y = x → 0 < (s'.header x).RefCount) := by
    intro y
    rw [hobjects]
    split
    · rename_i hpos
      exact ⟨fun hy => ⟨hy, fun _ => hpos⟩, fun hy => hy.1⟩
    · rename_i hpos
      rw [Finset.mem_erase]
      exact ⟨fun hy => ⟨hy.2, fun heq => absurd heq hy.1⟩, fun hy => ⟨fun heq => hpos (hy.2 heq), hy.1⟩⟩
  have hzero : ¬ 0 < (s'.header x).RefCount ↔ refs' x + handleCount tables' s' x = 0 := by
    omega
  constructor
  · refine ⟨fun y hy => ?_, fun y hy => ?_, fun y hy => ?_, fun y hy => ?_, fun y hy => ?_,
      fun y hy => ?_⟩
    · by_cases hyx : y = x
      · subst hyx
        rw [obIsValidObject, hmagic]
        exact h.valid y hx
      · rw [obIsValidObject, hheader y hyx]
        exact h.valid y ((hmem y).mp hy).1
    · by_cases hyx : y = x
      · subst hyx
        rw [hattributes]
        exact h.temporary y hx
      · rw [hheader y hyx]
        exact h.temporary y ((hmem y).mp hy).1
    · by_cases hyx : y = x
      · subst hyx
        exact hhandles
      · rw [hheader y hyx, hcount y hyx]
        exact h.handles y ((hmem y).mp hy).1
    · by_cases hyx : y = x
      · subst hyx
        exact hbalance
      · rw [hheader y hyx, hrefs y hyx]
        exact h.balance y ((hmem y).mp hy).1
    · by_cases hyx : y = x
      · subst hyx
        exact ((hmem y).mp hy).2 rfl
      · rw [hheader y hyx]
        exact h.alive y ((hmem y).mp hy).1
    · by_cases hyx : y = x
      · subst hyx
        have hnot : ¬ 0 < (s'.header y).RefCount := fun hpos => hy ((hmem y).mpr ⟨hx, fun _ => hpos⟩)
        have hsum := hzero.mp hnot
        omega
      · rw [hrefs y hyx, hcount y hyx]
        exact h.dead y fun hmem' => hy ((hmem y).mpr ⟨hmem', fun heq => absurd heq hyx⟩)
  · intro y hy
    by_cases hyx : y = x
    · subst hyx
      rw [hmem, ← hzero]
      simp [hx]
    · have hpos := h.alive y hy
      have hb := h.balance y hy
      have hh := h.handles y hy
      rw [hrefs y hyx, hcount y hyx, hmem]
      simp only [hy, true_and, hyx, false_implies, not_true_eq_false, false_iff]
      omega

/-! ## References -/

omit [DecidableEq π] in
/-- **A reference more.** -/
theorem ObInvariant.reference (h : ObInvariant s refs tables) (hx : x ∈ s.objects) :
    ∃ s', obReferenceObject x s = .ok s'
      ∧ ObInvariant s' (Function.update refs x (refs x + 1)) tables
      ∧ RemovedAtZero s s' (Function.update refs x (refs x + 1)) tables := by
  have hbalance := h.balance x hx
  have halive := h.alive x hx
  refine ⟨_, obReferenceObject_eq (h.valid x hx) halive, ?_⟩
  refine h.update hx (fun y hy => Ob.setHeader_of_ne s _ hy) (by simp) (by simp)
    (fun y hy => Function.update_of_ne hy _ _) (fun y _ => rfl) ?_ ?_ ?_
  · rw [Ob.setHeader_self]
    exact h.handles x hx
  · rw [Ob.setHeader_self, Function.update_self]
    push_cast
    omega
  · rw [Ob.setHeader_self, if_pos (by show 0 < (s.header x).RefCount + 1; omega)]
    rfl

omit [DecidableEq π] in
/-- A caller that holds a reference refers to an object. -/
theorem ObInvariant.mem_of_refs (h : ObInvariant s refs tables) (href : 0 < refs x) :
    x ∈ s.objects := by
  by_contra hx
  have hzero := (h.dead x hx).1
  omega

/-- An entry of a handle table refers to an object. -/
theorem ObInvariant.mem_of_handle (h : ObInvariant s refs tables) (hp : p ∈ tables)
    (hentry : s.Handle p i = .object x) : x ∈ s.objects := by
  by_contra hx
  have hpos := occurrences_pos hp hentry
  have hzero := (h.dead x hx).2
  rw [handleCount] at hzero
  omega

omit [DecidableEq π] in
/-- **Closing an object**, together with the entries of handle tables that change with it: the
counters go down by what is taken away, so the object goes with the last reference. -/
theorem ObInvariant.close (h : ObInvariant s refs tables) (hx : x ∈ s.objects) {n : Nat}
    {H : π → HandlePage ω} (hrefs : ∀ y, y ≠ x → refs' y = refs y)
    (hcount : ∀ y, y ≠ x → occurrences tables H (.object y) = handleCount tables s y)
    (hhandles : (closedHeader n (s.header x)).OpenHandleCount
      = occurrences tables H (.object x))
    (hbalance : (closedHeader n (s.header x)).RefCount
      = refs' x + (closedHeader n (s.header x)).OpenHandleCount) :
    ∃ s', obCloseObject x n s = .ok s' ∧ s'.Handle = s.Handle
      ∧ ObInvariant { s' with Handle := H } refs' tables
      ∧ RemovedAtZero s { s' with Handle := H } refs' tables := by
  have halive := h.alive x hx
  have hok := obCloseObject_eq (s := s) (x := x) (n := n) (by omega) (h.temporary x hx)
    (fun hle => by omega)
  refine ⟨_, hok, rfl, ?_⟩
  have hself : (s.setHeader x (closedHeader n (s.header x))).header x
      = closedHeader n (s.header x) := Ob.setHeader_self ..
  refine h.update hx (fun y hy => Ob.setHeader_of_ne s _ hy) ?_ ?_ hrefs hcount ?_ ?_ ?_
  · show ((s.setHeader x (closedHeader n (s.header x))).header x).Magic = _
    rw [hself, closedHeader_magic]
  · show ((s.setHeader x (closedHeader n (s.header x))).header x).Attributes = _
    rw [hself, closedHeader_attributes]
  · show ((s.setHeader x (closedHeader n (s.header x))).header x).OpenHandleCount = _
    rw [hself]
    exact hhandles
  · show ((s.setHeader x (closedHeader n (s.header x))).header x).RefCount
      = refs' x + ((s.setHeader x (closedHeader n (s.header x))).header x).OpenHandleCount
    rw [hself]
    exact hbalance
  · show (if 0 < (closedHeader n (s.header x)).RefCount then s.objects else s.objects.erase x)
      = if 0 < ((s.setHeader x (closedHeader n (s.header x))).header x).RefCount then s.objects
        else s.objects.erase x
    rw [hself]

omit [DecidableEq π] in
/-- **A reference less.** -/
theorem ObInvariant.dereference (h : ObInvariant s refs tables) (href : 0 < refs x) :
    ∃ s', obDereferenceObject x s = .ok s'
      ∧ ObInvariant s' (Function.update refs x (refs x - 1)) tables
      ∧ RemovedAtZero s s' (Function.update refs x (refs x - 1)) tables := by
  have hx := h.mem_of_refs href
  have hbalance := h.balance x hx
  have hderef : obDereferenceObject x s = obCloseObject x 0 s := by
    rw [obDereferenceObject, assert_of_true (h.valid x hx), kernel_ok_bind]
  obtain ⟨s', hok, hhandle, hinv, hremoved⟩ := h.close (n := 0) (H := s.Handle) hx
    (fun y hy => Function.update_of_ne hy (refs x - 1) refs) (fun y _ => rfl) (h.handles x hx) (by
      rw [Function.update_self]
      show (s.header x).RefCount - 1 = ((refs x - 1 : Nat) : Int) + (s.header x).OpenHandleCount
      omega)
  rw [← hhandle] at hinv hremoved
  exact ⟨s', hderef.trans hok, hinv, hremoved⟩

/-! ## Handles -/

/-- A store to one entry, as the other objects see it. -/
theorem handleCount_setEntry (hp : p ∈ tables) {e : HANDLE_TABLE_ENTRY ω} (x : ω) :
    handleCount tables (s.setEntry p i e) x + (if s.Handle p i = .object x then 1 else 0)
      = handleCount tables s x + (if e = .object x then 1 else 0) := by
  have hstore := occurrences_store (f := s.Handle) hp i (.object x) e
  exact hstore

/-- **A handle less**, and the reference that it has adopted. -/
theorem ObInvariant.closeHandle (h : ObInvariant s refs tables) (hp : p ∈ tables)
    (hentry : s.Handle p i = .object x) :
    ∃ s', (obCloseObject x 1 s >>= fun s => obRemoveHandle i p x s) = .ok s'
      ∧ ObInvariant s' refs tables ∧ RemovedAtZero s s' refs tables := by
  have hx := h.mem_of_handle hp hentry
  have hbalance := h.balance x hx
  have hhandles := h.handles x hx
  have hstore := fun y => handleCount_setEntry (s := s) (i := i) (e := .invalid) hp y
  obtain ⟨s', hok, hhandle, hinv, hremoved⟩ := h.close (n := 1) (H := store s.Handle p i .invalid)
    hx (fun y _ => rfl) (fun y hy => by
      have hcount := hstore y
      have hne : ¬ s.Handle p i = .object y := by
        rw [hentry]
        simpa using Ne.symm hy
      have hsame : handleCount tables (s.setEntry p i .invalid) y = handleCount tables s y := by
        simpa [hne] using hcount
      exact hsame) (by
      have hcount := hstore x
      have hopen : ((closedHeader 1 (s.header x)).OpenHandleCount : Int)
          = (s.header x).OpenHandleCount - (1 : Nat) := rfl
      have hone : handleCount tables (s.setEntry p i .invalid) x + 1 = handleCount tables s x := by
        simpa [hentry] using hcount
      have heq : occurrences tables (store s.Handle p i .invalid) (.object x)
          = handleCount tables (s.setEntry p i .invalid) x := rfl
      rw [hopen, heq]
      omega) (by
      show (s.header x).RefCount - (1 : Nat) = refs x + ((s.header x).OpenHandleCount - (1 : Nat))
      omega)
  refine ⟨s'.setEntry p i .invalid, ?_, ?_, ?_⟩
  · rw [hok, kernel_ok_bind, obRemoveHandle, hhandle, assert_of_true hentry, kernel_ok_bind]
    rfl
  · rw [Ob.setEntry, hhandle]
    exact hinv
  · rw [Ob.setEntry, hhandle]
    exact hremoved

/-- **A handle more**: it adopts a reference of the caller. -/
theorem ObInvariant.insertObject (h : ObInvariant s refs tables) (hp : p ∈ tables) (href : 0 < refs x) :
    (freeHandle (s.Handle p) = none
      ∧ obInsertObject x p s = .ok (.STATUS_TOO_MANY_OPENED_FILES, none, s))
    ∨ ∃ i s', obInsertObject x p s = .ok (.STATUS_SUCCESS, some i, s')
      ∧ ObInvariant s' (Function.update refs x (refs x - 1)) tables
      ∧ RemovedAtZero s s' (Function.update refs x (refs x - 1)) tables := by
  cases hfree : freeHandle (s.Handle p) with
  | none =>
    refine Or.inl ⟨rfl, ?_⟩
    rw [obInsertObject, obInsertHandle, hfree]
    rfl
  | some i =>
    have hinvalid : s.Handle p i = .invalid := by
      simpa using List.find?_some hfree
    have hx := h.mem_of_refs href
    have hbalance := h.balance x hx
    have hhandles := h.handles x hx
    have halive := h.alive x hx
    let s₁ := s.setEntry p i (.object x)
    let s' := s₁.setHeader x { s.header x with
      OpenHandleCount := (s.header x).OpenHandleCount + 1 }
    have hself : s'.header x = { s.header x with
        OpenHandleCount := (s.header x).OpenHandleCount + 1 } := Ob.setHeader_self ..
    have hcount : ∀ y, handleCount tables s' y
        = handleCount tables s y
          + (if (.object x : HANDLE_TABLE_ENTRY ω) = .object y then 1 else 0) := by
      intro y
      have hstore := handleCount_setEntry (s := s) (i := i) (e := .object x) hp y
      rw [hinvalid, if_neg (by simp), Nat.add_zero] at hstore
      exact hstore
    refine Or.inr ⟨i, s', ?_, ?_⟩
    · rw [obInsertObject, obInsertHandle, hfree]
      have hpos : (s₁.header x).RefCount > 0 := halive
      show (do
        let s ← obIncrementHandleCount x s₁
        return (KSTATUS.STATUS_SUCCESS, some i, s) : Kernel _) = _
      rw [obIncrementHandleCount, assert_of_true hpos, kernel_ok_bind]
      rfl
    · refine h.update hx (fun y hy => Ob.setHeader_of_ne s₁ _ hy) (by rw [hself]) (by rw [hself])
        (fun y hy => Function.update_of_ne hy _ _) (fun y hy => ?_) ?_ ?_ ?_
      · rw [hcount, if_neg (by simpa using Ne.symm hy), Nat.add_zero]
      · rw [hself, hcount, if_pos rfl]
        push_cast
        omega
      · rw [hself, Function.update_self]
        show (s.header x).RefCount
          = ((refs x - 1 : Nat) : Int) + ((s.header x).OpenHandleCount + 1)
        omega
      · rw [hself, if_pos halive]
        rfl

/-! ## Handle tables -/

/-- The entry holds no object. -/
def HANDLE_TABLE_ENTRY.Vacant (e : HANDLE_TABLE_ENTRY ω) : Prop := ∀ x, e ≠ .object x

/-- The table of process `p` is stored anew. -/
def Ob.setTable (s : Ob ω π) (p : π) (row : HandlePage ω) : Ob ω π :=
  { s with Handle := Function.update s.Handle p row }

omit [DecidableEq ω] in
/-- Two stores to a table are one. -/
theorem setTable_setEntry (s : Ob ω π) (p : π) (row : HandlePage ω) (i : Fin EX_MAX_HANDLE)
    (e : HANDLE_TABLE_ENTRY ω) :
    (s.setTable p row).setEntry p i e = s.setTable p (Function.update row i e) := by
  simp [Ob.setTable, Ob.setEntry, store]

/-- What filling a table leaves in it where nothing is inherited: entries of the parent that hold
an object leave a free entry, the others leave what was there. -/
def notInherited (parentRow row : HandlePage ω) : HandlePage ω := fun i =>
  match parentRow i with
  | .object _ => .invalid
  | _ => row i

/-- **Which entries of the parent a new table copies.** -/
def CopiesEntry (s : Ob ω π) (isClone : Bool) (e : HANDLE_TABLE_ENTRY ω) : Prop :=
  ∃ x, e = .object x ∧ (isClone = true ∨ (s.header x).Attributes &&& OBJ_INHERIT ≠ 0)

/-- The loop that fills a table, over entries that are not copied. -/
theorem inheritEntry_loop {q : π} (hqp : q ≠ p) {isClone : Bool}
    (hvalid : ∀ i x, s.Handle q i = .object x → obIsValidObject x s = true)
    (hnot : ∀ i, ¬ CopiesEntry s isClone (s.Handle q i)) (l : List (Fin EX_MAX_HANDLE))
    (row : HandlePage ω) :
    ∃ row', l.foldlM (inheritEntry p q isClone) (s.setTable p row) = .ok (s.setTable p row')
      ∧ ∀ i, row' i = if i ∈ l then notInherited (s.Handle q) row i else row i := by
  induction l generalizing row with
  | nil => exact ⟨row, rfl, fun i => by simp⟩
  | cons j l ih =>
    have hparent : (s.setTable p row).Handle q = s.Handle q := Function.update_of_ne hqp ..
    obtain ⟨row₁, hround, hrow₁⟩ : ∃ row₁, inheritEntry p q isClone (s.setTable p row) j
        = .ok (s.setTable p row₁)
        ∧ ∀ i, row₁ i = if i = j then notInherited (s.Handle q) row i else row i := by
      unfold inheritEntry
      rw [hparent]
      cases hentry : s.Handle q j with
      | invalid =>
        refine ⟨row, rfl, fun i => ?_⟩
        by_cases hi : i = j
        · simp [hi, notInherited, hentry]
        · simp [hi]
      | null =>
        refine ⟨row, rfl, fun i => ?_⟩
        by_cases hi : i = j
        · simp [hi, notInherited, hentry]
        · simp [hi]
      | object x =>
        have hcopy := hnot j
        rw [hentry] at hcopy
        obtain ⟨hclone, hinherit⟩ : isClone = false
            ∧ (s.header x).Attributes &&& OBJ_INHERIT = 0 := by
          by_contra hcon
          refine hcopy ⟨x, rfl, ?_⟩
          cases isClone with
          | true => exact Or.inl rfl
          | false => exact Or.inr fun h => hcon ⟨rfl, h⟩
        subst hclone
        have hask : obIsObjectInheritable x (s.setTable p row) = .ok false := by
          have hx : obIsValidObject x (s.setTable p row) = true := hvalid j x hentry
          rw [obIsObjectInheritable, assert_of_true hx, kernel_ok_bind]
          exact congrArg Except.ok (decide_eq_false (not_not_intro hinherit))
        refine ⟨Function.update row j .invalid, ?_, fun i => ?_⟩
        · simp only [Bool.false_eq_true, if_false]
          rw [hask, kernel_ok_bind, if_neg (by simp), setTable_setEntry]
          rfl
        · by_cases hi : i = j
          · subst hi
            simp [notInherited, hentry]
          · simp [hi]
    obtain ⟨row', hloop, hrow'⟩ := ih row₁
    refine ⟨row', ?_, fun i => ?_⟩
    · rw [List.foldlM_cons, hround, kernel_ok_bind, hloop]
    · rw [hrow' i]
      by_cases hi : i = j
      · subst hi
        by_cases hl : i ∈ l
        · simp only [hl, if_true, List.mem_cons, true_or]
          unfold notInherited
          cases hentry : s.Handle q i with
          | object x => rfl
          | invalid => simp [hrow₁, notInherited, hentry]
          | null => simp [hrow₁, notInherited, hentry]
        · simp [hl, hrow₁]
      · simp only [List.mem_cons, hi, false_or]
        by_cases hl : i ∈ l
        · simp only [hl, if_true]
          unfold notInherited
          rw [hrow₁ i, if_neg hi]
        · simp [hl, hrow₁, hi]

omit [DecidableEq ω] in
/-- The loop that frees all entries of a new table. -/
theorem invalid_loop (l : List (Fin EX_MAX_HANDLE)) (row : HandlePage ω) :
    ∃ row', l.foldl (fun s i => s.setEntry p i .invalid) (s.setTable p row) = s.setTable p row'
      ∧ ∀ i, row' i = if i ∈ l then .invalid else row i := by
  induction l generalizing row with
  | nil => exact ⟨row, rfl, fun i => by simp⟩
  | cons j l ih =>
    obtain ⟨row', hloop, hrow'⟩ := ih (Function.update row j .invalid)
    refine ⟨row', ?_, fun i => ?_⟩
    · rw [List.foldl_cons, setTable_setEntry, hloop]
    · rw [hrow' i]
      by_cases hi : i = j
      · subst hi
        simp
      · simp [hi]

/-- A table without objects comes. -/
theorem ObInvariant.addTable (h : ObInvariant s refs tables) (hp : p ∉ tables)
    {row : HandlePage ω} (hrow : ∀ i, (row i).Vacant) :
    ObInvariant (s.setTable p row) refs (insert p tables)
      ∧ RemovedAtZero s (s.setTable p row) refs (insert p tables) := by
  have hcount : ∀ x, handleCount (insert p tables) (s.setTable p row) x
      = handleCount tables s x := by
    intro x
    have hself : (s.setTable p row).Handle p = row := Function.update_self ..
    have hinsert := occurrences_insert (f := (s.setTable p row).Handle) (b := .object x) hp
      (fun i => by rw [hself]; exact hrow i x)
    refine hinsert.trans (occurrences_congr fun q hq => ?_)
    exact Function.update_of_ne (ne_of_mem_of_not_mem hq hp) ..
  have hinv : ObInvariant (s.setTable p row) refs (insert p tables) := by
    refine ⟨h.valid, h.temporary, fun x hx => ?_, h.balance, h.alive, fun x hx => ?_⟩
    · rw [hcount]
      exact h.handles x hx
    · rw [hcount]
      exact h.dead x hx
  exact ⟨hinv, hinv.removedAtZero subset_rfl⟩

/-- A table without objects goes. -/
theorem ObInvariant.removeTable (h : ObInvariant s refs tables) (hp : p ∈ tables)
    (hrow : ∀ i, (s.Handle p i).Vacant) :
    ObInvariant s refs (tables.erase p) ∧ RemovedAtZero s s refs (tables.erase p) := by
  have hcount : ∀ x, handleCount (tables.erase p) s x = handleCount tables s x :=
    fun x => occurrences_erase hp fun i => hrow i x
  have hinv : ObInvariant s refs (tables.erase p) := by
    refine ⟨h.valid, h.temporary, fun x hx => ?_, h.balance, h.alive, fun x hx => ?_⟩
    · rw [hcount]
      exact h.handles x hx
    · rw [hcount]
      exact h.dead x hx
  exact ⟨hinv, hinv.removedAtZero subset_rfl⟩

/-- There is no memory for a new table. -/
theorem obAllocateHandleTable_noMemory {parent : Option π} {isClone : Bool}
    (hclone : isClone = true → parent ≠ none) :
    obAllocateHandleTable p parent isClone none s = .ok (.STATUS_INSUFFICIENT_RESOURCES, s) := by
  cases isClone with
  | true =>
    rw [obAllocateHandleTable, if_pos rfl, assert_of_true (hclone rfl), kernel_ok_bind]
    rfl
  | false => rfl

/-- **A new table into which nothing is copied**, and in which nothing is left over from the page
it was made of, goes through. -/
theorem ObInvariant.allocate (h : ObInvariant s refs tables) (hp : p ∉ tables)
    {parent : Option π} {isClone : Bool} {page : HandlePage ω}
    (hclone : isClone = true → parent ≠ none) (hparent : ∀ q, parent = some q → q ∈ tables)
    (hnot : ∀ q, parent = some q → ∀ i, ¬ CopiesEntry s isClone (s.Handle q i))
    (hleft : ∀ q, parent = some q → ∀ i, (s.Handle q i).Vacant → (page i).Vacant) :
    ∃ s', obAllocateHandleTable p parent isClone (some page) s = .ok (.STATUS_SUCCESS, s')
      ∧ ObInvariant s' refs (insert p tables) ∧ RemovedAtZero s s' refs (insert p tables) := by
  have hstart : obAllocateHandleTable p parent isClone (some page) s
      = match parent with
        | some q => do
          let s ← (List.finRange EX_MAX_HANDLE).foldlM (inheritEntry p q isClone) (s.setTable p page)
          return (.STATUS_SUCCESS, s)
        | none => .ok (.STATUS_SUCCESS, (List.finRange EX_MAX_HANDLE).foldl
            (fun s i => s.setEntry p i .invalid) (s.setTable p page)) := by
    cases isClone with
    | true =>
      rw [obAllocateHandleTable, if_pos rfl, assert_of_true (hclone rfl), kernel_ok_bind]
      cases parent <;> rfl
    | false => cases parent <;> rfl
  cases parent with
  | none =>
    obtain ⟨row, hloop, hrow⟩ := invalid_loop (s := s) (p := p) (List.finRange EX_MAX_HANDLE) page
    refine ⟨s.setTable p row, ?_, h.addTable hp fun i x => ?_⟩
    · rw [hstart]
      exact congrArg (fun s => Except.ok (KSTATUS.STATUS_SUCCESS, s)) hloop
    · rw [hrow i, if_pos (List.mem_finRange i)]
      simp
  | some q =>
    have hq := hparent q rfl
    have hqp : q ≠ p := ne_of_mem_of_not_mem hq hp
    obtain ⟨row, hloop, hrow⟩ := inheritEntry_loop hqp
      (fun i x hentry => h.valid x (h.mem_of_handle hq hentry)) (hnot q rfl)
      (List.finRange EX_MAX_HANDLE) page
    refine ⟨s.setTable p row, ?_, h.addTable hp fun i => ?_⟩
    · rw [hstart]
      show ((List.finRange EX_MAX_HANDLE).foldlM (inheritEntry p q isClone) (s.setTable p page)
        >>= fun s => Except.ok (KSTATUS.STATUS_SUCCESS, s)) = _
      rw [hloop, kernel_ok_bind]
    · rw [hrow i, if_pos (List.mem_finRange i)]
      unfold notInherited
      cases hentry : s.Handle q i with
      | object x => simp [HANDLE_TABLE_ENTRY.Vacant]
      | invalid => exact hleft q rfl i (by simp [HANDLE_TABLE_ENTRY.Vacant, hentry])
      | null => exact hleft q rfl i (by simp [HANDLE_TABLE_ENTRY.Vacant, hentry])

/-- **A table without objects** is given back without further effect, or the walk over its entries
runs into a `NULL`. -/
theorem obFreeHandleTable_vacant (hrow : ∀ i, (s.Handle p i).Vacant) :
    obFreeHandleTable p s = .ok s ∨ obFreeHandleTable p s = .error .nullPointer := by
  have hloop : ∀ l : List (Fin EX_MAX_HANDLE), l.foldlM (derefEntry p) s = .ok s
      ∨ l.foldlM (derefEntry p) s = .error .nullPointer := by
    intro l
    induction l with
    | nil => exact Or.inl rfl
    | cons i l ih =>
      rw [List.foldlM_cons]
      cases hentry : s.Handle p i with
      | object x => exact absurd hentry (hrow i x)
      | null =>
        have hround : derefEntry p s i = .error .nullPointer := by
          rw [derefEntry, hentry]
        rw [hround]
        exact Or.inr rfl
      | invalid =>
        have hround : derefEntry p s i = .ok s := by
          rw [derefEntry, hentry]
        rw [hround, kernel_ok_bind]
        exact ih
  exact hloop _

/-- **The last handle of an object is dropped with its table**, and nothing else refers to the
object: the reference goes, the handle is not counted down, and the object is not removed. -/
theorem obFreeHandleTable_last_handle (hentry : s.Handle p i = .object x)
    (hfree : ∀ j, j ≠ i → s.Handle p j = .invalid) (hvalid : obIsValidObject x s = true)
    (htemporary : (s.header x).Attributes &&& OBJ_PERMANENT = 0) (href : (s.header x).RefCount = 1)
    (hopen : (s.header x).OpenHandleCount ≠ 0) :
    obFreeHandleTable p s = .error (.assertion "ObjectHeader->OpenHandleCount == 0") := by
  have hclosed : ((s.setHeader x (closedHeader 0 (s.header x))).header x).RefCount = 0 := by
    rw [Ob.setHeader_self]
    show (s.header x).RefCount - 1 = 0
    omega
  have hstill : ((s.setHeader x (closedHeader 0 (s.header x))).header x).OpenHandleCount ≠ 0 := by
    rw [Ob.setHeader_self]
    exact hopen
  have hclose : obDereferenceObject x s
      = .error (.assertion "ObjectHeader->OpenHandleCount == 0") := by
    rw [obDereferenceObject, assert_of_true hvalid, kernel_ok_bind, obCloseObject,
      assert_of_true (by omega), kernel_ok_bind, if_neg (not_not_intro htemporary)]
    simp only
    rw [if_neg (by omega), obRemoveObject, assert_of_true hclosed, kernel_ok_bind,
      assert_of_not hstill]
    rfl
  have hround : derefEntry p s i = .error (.assertion "ObjectHeader->OpenHandleCount == 0") := by
    rw [derefEntry, hentry]
    simp only
    rw [hclose]
    rfl
  -- the rounds in front of the entry find nothing
  have hloop : ∀ l : List (Fin EX_MAX_HANDLE), i ∈ l → l.foldlM (derefEntry p) s
      = .error (.assertion "ObjectHeader->OpenHandleCount == 0") := by
    intro l hl
    induction l with
    | nil => cases hl
    | cons j l ih =>
      rw [List.foldlM_cons]
      by_cases hj : j = i
      · rw [hj, hround]
        rfl
      · have hskip : derefEntry p s j = .ok s := by
          rw [derefEntry, hfree j hj]
        rw [hskip, kernel_ok_bind]
        exact ih ((List.mem_cons.mp hl).resolve_left (Ne.symm hj))
  exact hloop _ (List.mem_finRange i)

end KaushOS
