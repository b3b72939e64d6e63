import KaushOS.Ob.HandleLookup

/-! # Inheriting a handle table (`kern/ob/obhandle.c`)

`ObAllocateHandleTable` fills the table of a new process from the one of its parent, entry by entry, into a
page as the memory manager hands it out.

* **`inheritedEntry`** — what an entry of the child is to hold, for an entry of the parent.
* **`inheritLoop_eq`** — what the loop leaves: a copy, a free entry, or what was in the page.
* **`handle_inheritance_iff`** — the child inherits as it is to exactly if the page happens to hold the mark
  of a free entry wherever the parent has none in use. -/

namespace KaushOS

variable {ω π : Type} [DecidableEq ω] [DecidableEq π]

/-! ## What is inherited -/

omit [DecidableEq ω] [DecidableEq π] in
/-- **The object is inherited**: by a clone always, and else if it says so. -/
def inherits (s : Ob ω π) (isClone : Bool) (x : ω) : Bool :=
  isClone || (s.header x).Attributes &&& OBJ_INHERIT ≠ 0

/-- **What an entry of the child is to hold**, for the entry of the parent. -/
def inheritedEntry (s : Ob ω π) (isClone : Bool) : HANDLE_TABLE_ENTRY ω → HANDLE_TABLE_ENTRY ω
  | .object x => if inherits s isClone x then .object x else .invalid
  | .invalid | .null => .invalid

/-- What the loop leaves in an entry of the child: it writes nothing where the parent's is not in use. -/
def filledEntry (s : Ob ω π) (isClone : Bool) (old : HANDLE_TABLE_ENTRY ω) :
    HANDLE_TABLE_ENTRY ω → HANDLE_TABLE_ENTRY ω
  | .object x => if inherits s isClone x then .object x else .invalid
  | .invalid | .null => old

/-- **The number of entries copied** for an object, among the entries `l` of the parent. -/
def copiedEntries (s : Ob ω π) (parent : π) (isClone : Bool) (l : List (Fin EX_MAX_HANDLE)) (x : ω) : Nat :=
  l.countP fun i => s.Handle parent i = .object x && inherits s isClone x

/-- References are added. -/
def Ob.addReferences (s : Ob ω π) (n : ω → Nat) : Ob ω π :=
  { s with header := fun x => { s.header x with RefCount := (s.header x).RefCount + n x } }

/-- **The child has inherited as it is to**: its entries are copies or free, each object has been
referenced once for each copy, and nothing else has changed. -/
structure InheritsTable (s s' : Ob ω π) (p parent : π) (isClone : Bool) : Prop where
  entry : ∀ i, s'.Handle p i = inheritedEntry s isClone (s.Handle parent i)
  header : s'.header = (s.addReferences (copiedEntries s parent isClone (List.finRange EX_MAX_HANDLE))).header
  objects : s'.objects = s.objects
  tables : ∀ q, q ≠ p → s'.Handle q = s.Handle q

/-! ## The loop -/

variable {s s' : Ob ω π} {p parent : π} {isClone : Bool} {x : ω}

omit [DecidableEq ω] [DecidableEq π] in
/-- No reference is added. -/
theorem addReferences_zero : s.addReferences (fun _ => 0) = s := by
  simp [Ob.addReferences]

/-- **One more reference** on top of others. -/
theorem obReferenceObject_addReferences {n : ω → Nat} {row : HandlePage ω}
    (hvalid : obIsValidObject x s = true) (href : 0 < (s.header x).RefCount) :
    obReferenceObject x ((s.addReferences n).setTable p row)
      = .ok ((s.addReferences (Function.update n x (n x + 1))).setTable p row) := by
  have hpos : 0 < (((s.addReferences n).setTable p row).header x).RefCount := by
    show 0 < (s.header x).RefCount + n x
    omega
  have hmagic : obIsValidObject x ((s.addReferences n).setTable p row) = true := hvalid
  rw [obReferenceObject_eq hmagic hpos]
  have hheader : (((s.addReferences n).setTable p row).setHeader x
      { ((s.addReferences n).setTable p row).header x with
        RefCount := (((s.addReferences n).setTable p row).header x).RefCount + 1 }).header
      = (s.addReferences (Function.update n x (n x + 1))).header := by
    funext y
    by_cases hy : y = x
    · subst hy
      rw [Ob.setHeader_self]
      simp only [Ob.addReferences, Ob.setTable, Function.update_self]
      rw [Int.natCast_add, Int.add_assoc]
      rfl
    · rw [Ob.setHeader_of_ne _ _ hy]
      simp only [Ob.addReferences, Ob.setTable, Function.update_of_ne hy]
  exact congrArg (fun h => Except.ok { s with header := h, Handle := Function.update s.Handle p row }) hheader

/-- A round at an entry that is in use. -/
theorem inheritEntry_object {q : π} {i : Fin EX_MAX_HANDLE} (hentry : s.Handle q i = .object x)
    (hvalid : obIsValidObject x s = true) :
    inheritEntry p q isClone s i
      = if inherits s isClone x then obReferenceObject x s >>= fun s => .ok (s.setEntry p i (.object x))
        else .ok (s.setEntry p i .invalid) := by
  unfold inheritEntry
  rw [hentry]
  cases isClone with
  | true => rfl
  | false =>
    simp only
    rw [if_neg (by decide), obIsObjectInheritable, assert_of_true hvalid, kernel_ok_bind]
    rfl

/-- **One round** of the loop. -/
theorem inheritEntry_eq {q : π} (hqp : q ≠ p) {n : ω → Nat} {row : HandlePage ω} (i : Fin EX_MAX_HANDLE)
    (hlive : ∀ x, s.Handle q i = .object x → obIsValidObject x s = true ∧ 0 < (s.header x).RefCount) :
    inheritEntry p q isClone ((s.addReferences n).setTable p row) i
      = .ok ((s.addReferences fun x => n x + copiedEntries s q isClone [i] x).setTable p
          (Function.update row i (filledEntry s isClone (row i) (s.Handle q i)))) := by
  have hparent : ((s.addReferences n).setTable p row).Handle q = s.Handle q := Function.update_of_ne hqp ..
  cases hentry : s.Handle q i with
  | invalid | null =>
    have hcopied : copiedEntries s q isClone [i] = fun _ => 0 := by
      funext x
      simp [copiedEntries, hentry]
    rw [inheritEntry, hparent, hentry]
    simp [filledEntry, hcopied]
  | object x =>
    obtain ⟨hvalid, href⟩ := hlive x hentry
    have hround : inheritEntry p q isClone ((s.addReferences n).setTable p row) i
        = if inherits s isClone x then
            obReferenceObject x ((s.addReferences n).setTable p row) >>= fun s =>
              .ok (s.setEntry p i (.object x))
          else .ok (((s.addReferences n).setTable p row).setEntry p i .invalid) :=
      inheritEntry_object ((congrFun hparent i).trans hentry) hvalid
    by_cases hinherits : inherits s isClone x = true
    · have hcopied : (fun y => n y + copiedEntries s q isClone [i] y) = Function.update n x (n x + 1) := by
        funext y
        by_cases hy : y = x
        · subst hy
          simp [copiedEntries, hentry, hinherits]
        · simp [copiedEntries, hentry, hy, Ne.symm hy]
      rw [hround, if_pos hinherits, obReferenceObject_addReferences hvalid href, kernel_ok_bind, hcopied,
        filledEntry, if_pos hinherits, setTable_setEntry]
    · have hcopied : (fun y => n y + copiedEntries s q isClone [i] y) = n := by
        funext y
        by_cases hy : y = x
        · subst hy
          simp [copiedEntries, hinherits]
        · simp [copiedEntries, hentry, Ne.symm hy]
      rw [hround, if_neg hinherits, hcopied, filledEntry, if_neg hinherits, setTable_setEntry]

/-- **The loop** over the entries `l`. -/
theorem inheritLoop_eq {q : π} (hqp : q ≠ p) {n : ω → Nat} {row : HandlePage ω} (l : List (Fin EX_MAX_HANDLE))
    (hlive : ∀ i x, s.Handle q i = .object x → obIsValidObject x s = true ∧ 0 < (s.header x).RefCount) :
    l.foldlM (inheritEntry p q isClone) ((s.addReferences n).setTable p row)
      = .ok ((s.addReferences fun x => n x + copiedEntries s q isClone l x).setTable p
          fun i => if i ∈ l then filledEntry s isClone (row i) (s.Handle q i) else row i) := by
  induction l generalizing n row with
  | nil =>
    show Except.ok _ = _
    simp [copiedEntries]
  | cons j l ih =>
    rw [List.foldlM_cons, inheritEntry_eq hqp j (hlive j), kernel_ok_bind, ih]
    have hcount : (fun x => n x + copiedEntries s q isClone [j] x + copiedEntries s q isClone l x)
        = fun x => n x + copiedEntries s q isClone (j :: l) x := by
      funext x
      simp only [copiedEntries, List.countP_cons, List.countP_nil]
      omega
    have hrow : (fun i => if i ∈ l then filledEntry s isClone
          (Function.update row j (filledEntry s isClone (row j) (s.Handle q j)) i) (s.Handle q i)
        else Function.update row j (filledEntry s isClone (row j) (s.Handle q j)) i)
        = fun i => if i ∈ j :: l then filledEntry s isClone (row i) (s.Handle q i) else row i := by
      funext i
      by_cases hij : i = j
      · subst hij
        -- an entry that is filled twice is filled with the same
        cases hentry : s.Handle q i <;> simp [filledEntry]
      · simp [hij]
    rw [hcount, hrow]

/-! ## The table of a child -/

/-- **The table of a child** is filled from a page that holds anything. -/
theorem obAllocateHandleTable_inherits {page : HandlePage ω} (hqp : parent ≠ p)
    (hlive : ∀ i x, s.Handle parent i = .object x → obIsValidObject x s = true ∧ 0 < (s.header x).RefCount) :
    obAllocateHandleTable p (some parent) isClone (some page) s
      = .ok (.STATUS_SUCCESS,
          (s.addReferences (copiedEntries s parent isClone (List.finRange EX_MAX_HANDLE))).setTable p
            fun i => filledEntry s isClone (page i) (s.Handle parent i)) := by
  have hloop : (List.finRange EX_MAX_HANDLE).foldlM (inheritEntry p parent isClone)
      ((s.addReferences fun _ => 0).setTable p page) = _ :=
    inheritLoop_eq hqp (List.finRange EX_MAX_HANDLE) hlive
  simp only [addReferences_zero, Nat.zero_add, List.mem_finRange, if_true] at hloop
  have hstart : obAllocateHandleTable p (some parent) isClone (some page) s
      = ((List.finRange EX_MAX_HANDLE).foldlM (inheritEntry p parent isClone) (s.setTable p page)
        >>= fun s => .ok (.STATUS_SUCCESS, s)) := by
    cases isClone <;> rfl
  rw [hstart, hloop, kernel_ok_bind]

/-- A child that inherits as it is to has found the mark of a free entry wherever the parent's entry is not
in use. -/
theorem page_of_inherits {page : HandlePage ω} (hqp : parent ≠ p)
    (hlive : ∀ i x, s.Handle parent i = .object x → obIsValidObject x s = true ∧ 0 < (s.header x).RefCount)
    (h : ∃ s', obAllocateHandleTable p (some parent) isClone (some page) s = .ok (.STATUS_SUCCESS, s')
      ∧ InheritsTable s s' p parent isClone) {i : Fin EX_MAX_HANDLE} (hvacant : (s.Handle parent i).Vacant) :
    page i = .invalid := by
  obtain ⟨s', hok, hinherits⟩ := h
  rw [obAllocateHandleTable_inherits hqp hlive] at hok
  obtain ⟨-, rfl⟩ := Prod.mk.inj (Except.ok.inj hok)
  have hentry := hinherits.entry i
  rw [setTable_self] at hentry
  cases hparent : s.Handle parent i with
  | object x => exact absurd hparent (hvacant x)
  | invalid | null =>
    rw [hparent] at hentry
    exact hentry

/-- **The child inherits as it is to if and only if the page holds the mark of a free entry wherever the
parent's entry is not in use.** -/
theorem handle_inheritance_iff {page : HandlePage ω} (hqp : parent ≠ p)
    (hlive : ∀ i x, s.Handle parent i = .object x → obIsValidObject x s = true ∧ 0 < (s.header x).RefCount) :
    (∃ s', obAllocateHandleTable p (some parent) isClone (some page) s = .ok (.STATUS_SUCCESS, s')
      ∧ InheritsTable s s' p parent isClone)
    ↔ ∀ i, (s.Handle parent i).Vacant → page i = .invalid := by
  refine ⟨fun h i => page_of_inherits hqp hlive h, fun hpage => ?_⟩
  refine ⟨_, obAllocateHandleTable_inherits hqp hlive, fun i => ?_, rfl, rfl,
    fun q hq => Function.update_of_ne hq ..⟩
  rw [setTable_self]
  cases hparent : s.Handle parent i with
  | object x => rfl
  | invalid | null =>
    refine hpage i fun x => ?_
    rw [hparent]
    simp

/-- A process whose handle 0 is the one reference to a file, and a process to come. -/
def parentWithFile : Ob Unit Bool where
  header := oneHandle.header
  objects := {()}
  Head _ := []
  Flags _ := 0
  ObRootDirectory := none
  Handle _ i := if i.val = 0 then .object () else .invalid

/-- The file exists. -/
theorem parentWithFile_live (i : Fin EX_MAX_HANDLE) (x : Unit)
    (_ : parentWithFile.Handle false i = .object x) :
    obIsValidObject x parentWithFile = true ∧ 0 < (parentWithFile.header x).RefCount :=
  ⟨rfl, Int.one_pos⟩

/-- A clone gets the file, in a page of free entries. -/
theorem handle_inheritance_iff_clone :
    ∃ s', obAllocateHandleTable true (some false) true (some fun _ => .invalid) parentWithFile
        = .ok (.STATUS_SUCCESS, s')
      ∧ InheritsTable parentWithFile s' true false true :=
  (handle_inheritance_iff (by simp) parentWithFile_live).mpr fun _ _ => rfl

/-- **In a page of zeros** the clone has an entry that is not free where the parent's is. -/
theorem handle_inheritance_fails :
    ¬ ∃ s', obAllocateHandleTable true (some false) true (some fun _ => .null) parentWithFile
        = .ok (.STATUS_SUCCESS, s')
      ∧ InheritsTable parentWithFile s' true false true := by
  intro h
  have hlt : 1 < EX_MAX_HANDLE := by
    unfold EX_MAX_HANDLE
    decide
  have hvacant : (parentWithFile.Handle false ⟨1, hlt⟩).Vacant := by
    simp [HANDLE_TABLE_ENTRY.Vacant, parentWithFile]
  have hpage := page_of_inherits (by simp) parentWithFile_live h hvacant
  cases hpage

end KaushOS
