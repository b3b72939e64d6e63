import KaushOS.Ob.HandleRuns
import KaushOS.Ob.Resolution

/-! # Handle values (`kern/ob/obhandle.c`, `kern/ob/ob.c`)

A `HANDLE` is a number of 32 bits that a program passes in. `ObLookupObjectByHandle` takes the pointer out
of its entry of the handle table, whatever that is, and the functions on top of it read the header in front
of the pointer.

* **`ByHandle.obReferenceObjectByHandle`** — from a number to an object with one reference more.
* **`ByHandle.obClose`** — what `KCloseFile` calls.
* **`handle_dereference_iff`** — a number is dereferenced as it is to be exactly if its entry holds an object
  that exists.
* **`close_handle_never`** — no handle is ever closed. -/

namespace KaushOS

variable {ω π : Type} [DecidableEq ω]

namespace ByHandle

/-- `ObLookupObjectByHandle(Handle, HandleTable, Object)`: the pointer in the entry. -/
def obLookupObjectByHandle (handle : UInt32) (row : HandlePage ω) :
    Kernel (KSTATUS × HANDLE_TABLE_ENTRY ω) := do
  assert (handle.toNat < EX_MAX_HANDLE) "Handle < EX_MAX_HANDLE"
  assert (handle.toNat ≠ OB_INVALID_HANDLE) "Handle != OB_INVALID_HANDLE"
  let object ← loadEntry row handle.toNat
  return (.STATUS_SUCCESS, object)

/-- **The header in front of a pointer.** `wild` is the memory in front of `OB_INVALID_HANDLE` and of `NULL`,
where that is mapped. -/
def headerOf (wild : HANDLE_TABLE_ENTRY ω → Option OBJECT_HEADER) (object : HANDLE_TABLE_ENTRY ω)
    (s : Ob ω π) : Kernel OBJECT_HEADER :=
  match object with
  | .object x => .ok (s.header x)
  | .invalid | .null => deref (wild object)

/-- `ObReferenceObject(Object)`, for any pointer. What is counted up in front of a pointer that is no object
is none of the headers. -/
def obReferencePointer (wild : HANDLE_TABLE_ENTRY ω → Option OBJECT_HEADER)
    (object : HANDLE_TABLE_ENTRY ω) (s : Ob ω π) : Kernel (Ob ω π) :=
  match object with
  | .object x => obReferenceObject x s
  | .invalid | .null => do
    let header ← deref (wild object)
    assert (header.RefCount ≠ 0) "ObjectHeader->RefCount != 0"
    assert (header.Magic = OBJECT_HEADER_MAGIC) "ObIsValidObject(Object)"
    return s

/-- `ObReferenceObjectByPointer(Object, DesiredAccess, ObjectType, AccessMode)`. -/
def obReferenceObjectByPointer (wild : HANDLE_TABLE_ENTRY ω → Option OBJECT_HEADER)
    (object : HANDLE_TABLE_ENTRY ω) (objectType : Option OBJECT_TYPE_INDEX) (s : Ob ω π) :
    Kernel (KSTATUS × Ob ω π) := do
  let header ← headerOf wild object s
  assert (header.ObjectType = objectType) "ObjectHeader->ObjectType == ObjectType"
  assert (header.RefCount ≠ 0) "ObjectHeader->RefCount"
  let s ← obReferencePointer wild object s
  return (.STATUS_SUCCESS, s)

/-- `ObReferenceObjectByHandle(Handle, DesiredAccess, ObjectType, AccessMode, Object)` in process `p`. -/
def obReferenceObjectByHandle (wild : HANDLE_TABLE_ENTRY ω → Option OBJECT_HEADER) (handle : UInt32)
    (p : π) (objectType : Option OBJECT_TYPE_INDEX) (s : Ob ω π) :
    Kernel (KSTATUS × HANDLE_TABLE_ENTRY ω × Ob ω π) := do
  let (status, object) ← obLookupObjectByHandle handle (s.Handle p)
  if ¬ K_SUCCESS status then keBugCheck "Failed to get the object from handle\n"
  else
    let (status, s) ← obReferenceObjectByPointer wild object objectType s
    if ¬ K_SUCCESS status then
      assert False "0"
      return (status, object, s)
    else return (.STATUS_SUCCESS, object, s)

/-- **`ObClose(Handle)`** in process `p`; nothing is mapped in front of `OB_INVALID_HANDLE` and `NULL`. -/
def obClose (handle : UInt32) (p : π) (s : Ob ω π) : Kernel (Ob ω π) := do
  let (status, object, s) ← obReferenceObjectByHandle (fun _ => none) handle p none s
  assert (K_SUCCESS status) "K_SUCCESS(Status)"
  match object with
  | .object x => do
    let s ← obDereferenceObject x s
    if ¬ K_SUCCESS status then return s
    else obCloseObject x 1 s
  | .invalid | .null => .error .nullPointer

end ByHandle

open ByHandle

variable {wild : HANDLE_TABLE_ENTRY ω → Option OBJECT_HEADER} {handle : UInt32} {p : π}
  {objectType : Option OBJECT_TYPE_INDEX} {s s' : Ob ω π} {x : ω} {status : KSTATUS}
  {object : HANDLE_TABLE_ENTRY ω}

/-! ## Looking up -/

/-- The status of a success is one. -/
theorem status_success : K_SUCCESS .STATUS_SUCCESS := rfl

omit [DecidableEq ω] in
/-- The number of an entry is looked up. -/
theorem obLookupObjectByHandle_eq {row : HandlePage ω} (h : handle.toNat < EX_MAX_HANDLE) :
    obLookupObjectByHandle handle row = .ok (.STATUS_SUCCESS, row ⟨handle.toNat, h⟩) := by
  rw [obLookupObjectByHandle, assert_of_true h, kernel_ok_bind,
    assert_of_true (ne_OB_INVALID_HANDLE h), kernel_ok_bind, loadEntry_of_lt h, kernel_ok_bind]
  rfl

omit [DecidableEq ω] in
/-- A lookup that returns has found an entry of that number. -/
theorem obLookupObjectByHandle_eq_ok {row : HandlePage ω}
    (h : obLookupObjectByHandle handle row = .ok (status, object)) :
    status = .STATUS_SUCCESS ∧ ∃ hlt : handle.toNat < EX_MAX_HANDLE, row ⟨handle.toNat, hlt⟩ = object := by
  obtain ⟨_, hlt, -⟩ := kernel_bind_eq_ok.mp h
  have hlt := assert_eq_ok.mp hlt
  rw [obLookupObjectByHandle_eq hlt] at h
  cases h
  exact ⟨rfl, hlt, rfl⟩

/-! ## Referencing -/

/-- A reference to any pointer leaves the handle tables alone. -/
theorem obReferencePointer_handle (h : obReferencePointer wild object s = .ok s') :
    s'.Handle = s.Handle := by
  cases object with
  | object x =>
    obtain ⟨_, -, h⟩ := kernel_bind_eq_ok.mp h
    obtain ⟨_, -, h⟩ := kernel_bind_eq_ok.mp h
    cases h
    rfl
  | invalid | null =>
    obtain ⟨_, -, h⟩ := kernel_bind_eq_ok.mp h
    obtain ⟨_, -, h⟩ := kernel_bind_eq_ok.mp h
    obtain ⟨_, -, h⟩ := kernel_bind_eq_ok.mp h
    cases h
    rfl

/-- A reference to a pointer is a success where it returns. -/
theorem obReferenceObjectByPointer_eq_ok
    (h : obReferenceObjectByPointer wild object objectType s = .ok (status, s')) :
    status = .STATUS_SUCCESS ∧ obReferencePointer wild object s = .ok s' := by
  obtain ⟨_, -, h⟩ := kernel_bind_eq_ok.mp h
  obtain ⟨_, -, h⟩ := kernel_bind_eq_ok.mp h
  obtain ⟨_, -, h⟩ := kernel_bind_eq_ok.mp h
  obtain ⟨_, href, h⟩ := kernel_bind_eq_ok.mp h
  cases h
  exact ⟨rfl, href⟩

/-- **A dereference of a handle is a success where it returns**: what is in the entry is referenced. -/
theorem obReferenceObjectByHandle_eq_ok
    (h : ByHandle.obReferenceObjectByHandle wild handle p objectType s = .ok (status, object, s')) :
    status = .STATUS_SUCCESS ∧ obReferencePointer wild object s = .ok s'
      ∧ ∃ hlt : handle.toNat < EX_MAX_HANDLE, s.Handle p ⟨handle.toNat, hlt⟩ = object := by
  obtain ⟨⟨status₁, object₁⟩, hlookup, h⟩ := kernel_bind_eq_ok.mp h
  obtain ⟨rfl, hlt, rfl⟩ := obLookupObjectByHandle_eq_ok hlookup
  simp only [if_neg (not_not_intro status_success)] at h
  obtain ⟨⟨status₂, s₂⟩, href, h⟩ := kernel_bind_eq_ok.mp h
  obtain ⟨rfl, hcount⟩ := obReferenceObjectByPointer_eq_ok href
  simp only [if_neg (not_not_intro status_success)] at h
  cases h
  exact ⟨rfl, hcount, hlt, rfl⟩

/-- The dereference of an entry by its index is the one of a handle value, where an object type is asked
for and nothing is mapped in front of the pointers that are no objects. -/
theorem obReferenceObjectByHandle_index (i : Fin EX_MAX_HANDLE) (hi : i.val = handle.toNat) (p : π)
    (type : OBJECT_TYPE_INDEX) (s : Ob ω π) :
    ByHandle.obReferenceObjectByHandle (fun _ => none) handle p (some type) s
      = (KaushOS.obReferenceObjectByHandle i p type s).map fun r =>
          (.STATUS_SUCCESS, .object r.1, r.2) := by
  have hlt : handle.toNat < EX_MAX_HANDLE := hi ▸ i.isLt
  obtain rfl : i = ⟨handle.toNat, hlt⟩ := Fin.ext hi
  rw [ByHandle.obReferenceObjectByHandle, obLookupObjectByHandle_eq hlt, kernel_ok_bind]
  simp only [if_neg (not_not_intro status_success)]
  rw [KaushOS.obReferenceObjectByHandle, obReferenceObjectByPointer]
  cases s.Handle p ⟨handle.toNat, hlt⟩ with
  | invalid | null => rfl
  | object x =>
    simp only [headerOf, obReferencePointer, kernel_ok_bind]
    by_cases htype : (s.header x).ObjectType = some type
    · rw [assert_of_true htype, kernel_ok_bind]
      by_cases href : (s.header x).RefCount ≠ 0
      · rw [assert_of_true href, kernel_ok_bind]
        cases obReferenceObject x s with
        | error e => rfl
        | ok s' => rfl
      · rw [assert_of_not href]
        rfl
    · rw [assert_of_not htype]
      rfl

/-! ## Dereferencing a handle -/

/-- **A handle value resolves to `x`**: it is the number of an entry that holds the object `x`, and that
exists. -/
def Resolves (s : Ob ω π) (p : π) (handle : UInt32) (x : ω) : Prop :=
  x ∈ s.objects ∧ ∃ h : handle.toNat < EX_MAX_HANDLE, s.Handle p ⟨handle.toNat, h⟩ = .object x

/-- **What dereferencing a handle value is to do.** It is a success only for a value that resolves to an
object, which is returned with one reference more; for all other values it returns an error status, and
nothing has changed. -/
structure DereferencesHandle (wild : HANDLE_TABLE_ENTRY ω → Option OBJECT_HEADER) (handle : UInt32)
    (p : π) (objectType : Option OBJECT_TYPE_INDEX) (s : Ob ω π) : Prop where
  success : ∀ status object s',
    ByHandle.obReferenceObjectByHandle wild handle p objectType s = .ok (status, object, s') →
    K_SUCCESS status → ∃ x, Resolves s p handle x ∧ object = .object x
      ∧ s' = s.setHeader x { s.header x with RefCount := (s.header x).RefCount + 1 }
  failure : (¬ ∃ x, Resolves s p handle x) → ∃ status object,
    ByHandle.obReferenceObjectByHandle wild handle p objectType s = .ok (status, object, s)
      ∧ ¬ K_SUCCESS status

/-- No error status is ever returned, so a handle value that is dereferenced as it is to be resolves to an
object. -/
theorem DereferencesHandle.resolves (h : DereferencesHandle wild handle p objectType s) :
    ∃ x, Resolves s p handle x := by
  by_contra hnot
  obtain ⟨status, object, hok, hstatus⟩ := h.failure hnot
  exact hstatus (obReferenceObjectByHandle_eq_ok hok).1

/-- **A handle value is dereferenced as it is to be if and only if it resolves to an object.** -/
theorem handle_dereference_iff (wild : HANDLE_TABLE_ENTRY ω → Option OBJECT_HEADER) (handle : UInt32)
    (p : π) (objectType : Option OBJECT_TYPE_INDEX) (s : Ob ω π) :
    DereferencesHandle wild handle p objectType s ↔ ∃ x, Resolves s p handle x := by
  refine ⟨DereferencesHandle.resolves, ?_⟩
  rintro ⟨x, hx, hlt, hentry⟩
  refine ⟨fun status object s' hok hstatus => ⟨x, ⟨hx, hlt, hentry⟩, ?_⟩,
    fun hnot => absurd ⟨x, hx, hlt, hentry⟩ hnot⟩
  obtain ⟨-, href, _, hobject⟩ := obReferenceObjectByHandle_eq_ok hok
  obtain rfl : object = .object x := hobject.symm.trans hentry
  obtain ⟨_, -, href⟩ := kernel_bind_eq_ok.mp href
  obtain ⟨_, -, href⟩ := kernel_bind_eq_ok.mp href
  cases href
  exact ⟨rfl, rfl⟩

omit [DecidableEq ω] in
/-- A table that has been stored. -/
@[simp] theorem setTable_self [DecidableEq π] (s : Ob ω π) (p : π) (row : HandlePage ω) :
    (s.setTable p row).Handle p = row :=
  Function.update_self ..

/-- **The first entry of a new table** is free, and dereferencing its number is no error. -/
theorem handle_dereference_fails : ∃ s', obAllocateHandleTable () none false (some fun _ => .null) emptyRoot
      = .ok (.STATUS_SUCCESS, s')
    ∧ ¬ DereferencesHandle (fun _ => none) 0 () (some .OBJECT_TYPE_FILE) s' := by
  refine ⟨_, rfl, fun h => ?_⟩
  obtain ⟨x, -, hlt, hentry⟩ := h.resolves
  obtain ⟨row, hloop, hrow⟩ :=
    invalid_loop (s := emptyRoot) (p := ()) (List.finRange EX_MAX_HANDLE) fun _ => .null
  have hfree : row ⟨0, hlt⟩ = .invalid := by
    rw [hrow, if_pos (List.mem_finRange _)]
  have hobject : (emptyRoot.setTable () row).Handle () ⟨0, hlt⟩ = .object x := by
    rw [← hloop]
    exact hentry
  rw [setTable_self, hfree] at hobject
  cases hobject

/-! ## Closing a handle -/

/-- `ObCloseObject` leaves the handle tables alone. -/
theorem obCloseObject_handle {n : Nat} (h : obCloseObject x n s = .ok s') : s'.Handle = s.Handle := by
  obtain ⟨_, -, h⟩ := kernel_bind_eq_ok.mp h
  split at h
  · obtain ⟨_, -, h⟩ := kernel_bind_eq_ok.mp h
    cases h
    rfl
  · dsimp only at h
    split at h
    · cases h
      rfl
    · obtain ⟨_, -, h⟩ := kernel_bind_eq_ok.mp h
      obtain ⟨_, -, h⟩ := kernel_bind_eq_ok.mp h
      obtain ⟨_, -, h⟩ := kernel_bind_eq_ok.mp h
      cases h
      rfl

/-- **`ObClose` leaves the handle tables alone**, whatever the handle. -/
theorem obClose_handle (h : obClose handle p s = .ok s') : s'.Handle = s.Handle := by
  obtain ⟨⟨status, object, s₁⟩, href, h⟩ := kernel_bind_eq_ok.mp h
  obtain ⟨rfl, hcount, -⟩ := obReferenceObjectByHandle_eq_ok href
  have hrow := obReferencePointer_handle hcount
  obtain ⟨_, -, h⟩ := kernel_bind_eq_ok.mp h
  cases object with
  | object x =>
    obtain ⟨s₂, hderef, h⟩ := kernel_bind_eq_ok.mp h
    obtain ⟨_, -, hderef⟩ := kernel_bind_eq_ok.mp hderef
    have hrow₂ := obCloseObject_handle hderef
    rw [if_neg (not_not_intro status_success)] at h
    exact (obCloseObject_handle h).trans (hrow₂.trans hrow)
  | invalid | null => cases h

/-- **What closing a handle is to do** to its entry `i`, to the object `x` in it, and to the rest. -/
structure ClosesHandle (s s' : Ob ω π) (p : π) (i : Fin EX_MAX_HANDLE) (x : ω) : Prop where
  free : s'.Handle p i = .invalid
  entries : ∀ q j, q ≠ p ∨ j ≠ i → s'.Handle q j = s.Handle q j
  handles : (s'.header x).OpenHandleCount = (s.header x).OpenHandleCount - 1
  refs : (s'.header x).RefCount = (s.header x).RefCount - 1
  destroyed : x ∉ s'.objects ↔ (s'.header x).RefCount = 0
  headers : ∀ y, y ≠ x → s'.header y = s.header y
  objects : ∀ y, y ≠ x → (y ∈ s'.objects ↔ y ∈ s.objects)

/-- **Closing a handle fails an assertion**: `ObClose` asks for an object without a type. -/
theorem obClose_of_type {i : Fin EX_MAX_HANDLE} (hi : i.val = handle.toNat)
    (hentry : s.Handle p i = .object x) (htype : (s.header x).ObjectType ≠ none) :
    obClose handle p s = .error (.assertion "ObjectHeader->ObjectType == ObjectType") := by
  have hlt : handle.toNat < EX_MAX_HANDLE := hi ▸ i.isLt
  obtain rfl : i = ⟨handle.toNat, hlt⟩ := Fin.ext hi
  rw [obClose, ByHandle.obReferenceObjectByHandle, obLookupObjectByHandle_eq hlt, kernel_ok_bind]
  simp only [if_neg (not_not_intro status_success), hentry, obReferenceObjectByPointer, headerOf,
    kernel_ok_bind, assert_of_not htype]
  rfl

/-- **No handle is ever closed.** An assertion fails for every object that has a type; and where it does
not, the entry is still not free afterwards. -/
theorem close_handle_never {i : Fin EX_MAX_HANDLE} (hi : i.val = handle.toNat)
    (hentry : s.Handle p i = .object x) :
    (¬ ∃ s', obClose handle p s = .ok s' ∧ ClosesHandle s s' p i x)
    ∧ ((s.header x).ObjectType ≠ none →
      obClose handle p s = .error (.assertion "ObjectHeader->ObjectType == ObjectType")) := by
  refine ⟨?_, obClose_of_type hi hentry⟩
  rintro ⟨s', hok, hclosed⟩
  have hfree := hclosed.free
  rw [obClose_handle hok, hentry] at hfree
  cases hfree

/-- A process whose handle 0 is the one reference to a file. -/
def oneHandle : Ob Unit Unit where
  header _ :=
    { Magic := OBJECT_HEADER_MAGIC, DirEntryLinked := false, ObjectType := some .OBJECT_TYPE_FILE
      OpenHandleCount := 1, RefCount := 1, ObjectName := ⟨0, 0, none⟩, Attributes := OBJ_INHERIT }
  objects := {()}
  Head _ := []
  Flags _ := 0
  ObRootDirectory := none
  Handle _ i := if i.val = 0 then .object () else .invalid

/-- A handle table has entries. -/
theorem EX_MAX_HANDLE_pos : 0 < EX_MAX_HANDLE := by
  unfold EX_MAX_HANDLE
  decide

/-- The first entry of a handle table. -/
def handleZero : Fin EX_MAX_HANDLE := ⟨0, EX_MAX_HANDLE_pos⟩

/-- The handle value 0 is the number of the first entry. -/
theorem handleZero_val : handleZero.val = (0 : UInt32).toNat := rfl

/-- The handle of the file is not closed. -/
theorem close_handle_never_file :
    (¬ ∃ s', obClose 0 () oneHandle = .ok s' ∧ ClosesHandle oneHandle s' () handleZero ())
    ∧ ((oneHandle.header ()).ObjectType ≠ none →
      obClose 0 () oneHandle = .error (.assertion "ObjectHeader->ObjectType == ObjectType")) :=
  close_handle_never handleZero_val rfl

/-- **Closing the one handle of a file** fails an assertion. -/
theorem close_handle_fails :
    obClose 0 () oneHandle = .error (.assertion "ObjectHeader->ObjectType == ObjectType")
    ∧ ¬ ∃ s', obClose 0 () oneHandle = .ok s' ∧ ClosesHandle oneHandle s' () handleZero () := by
  have hfails := obClose_of_type (s := oneHandle) (p := ()) handleZero_val rfl (by simp [oneHandle])
  refine ⟨hfails, ?_⟩
  rintro ⟨s', hok, -⟩
  rw [hfails] at hok
  cases hok

end KaushOS
