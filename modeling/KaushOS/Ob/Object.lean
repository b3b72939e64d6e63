import KaushOS.Inc.Assert
import Mathlib.Data.Finset.Basic

/-! # Objects (`kern/ob/ob.h`, `kern/ob/ob.c`)

An object has a header with two counters: `RefCount` counts the references to it, those by open
handles included, and `OpenHandleCount` the open handles. Objects are named by their addresses
`ω`, processes by `π`.

* **`Ob`** — the headers, the directories and the handle tables.
* **`obReferenceObject`, `obDereferenceObject`, `obCloseObject`, `obRemoveObject`** — the two
  counters going up and down.

Locks, logging and the lists of objects by type are not part of the model; the objects on those
lists are the ones in `objects`. The procedures of an object type do nothing to the counters of
the object they are called for. -/

namespace KaushOS

/-! ## Status codes -/

/-- The `KSTATUS` codes that the object manager returns. -/
inductive KSTATUS
  | STATUS_SUCCESS
  | STATUS_INVALID_PARAMETER
  | STATUS_OBJECT_NAME_NOT_FOUND
  | STATUS_OBJECT_NAME_COLLISION
  | STATUS_OBJECT_PATH_NOT_FOUND
  | STATUS_INSUFFICIENT_RESOURCES
  | STATUS_TOO_MANY_OPENED_FILES
  deriving DecidableEq, Repr

/-- `K_SUCCESS(Status)`: the other codes are negative. -/
def K_SUCCESS (status : KSTATUS) : Prop := status = .STATUS_SUCCESS

instance (status : KSTATUS) : Decidable (K_SUCCESS status) :=
  inferInstanceAs (Decidable (status = .STATUS_SUCCESS))

/-! ## Object headers -/

/-- `OBJECT_TYPE_INDEX`. -/
inductive OBJECT_TYPE_INDEX
  | OBJECT_TYPE_FILE
  | OBJECT_TYPE_DIRECTORY
  | OBJECT_TYPE_SYMLINK
  | OBJECT_TYPE_DEVICE
  | OBJECT_TYPE_DRIVER
  | OBJECT_TYPE_PROCESS
  | OBJECT_TYPE_THREAD
  | OBJECT_TYPE_SECTION
  | OBJECT_TYPE_EVENT
  | OBJECT_TYPE_MUTEX
  | OBJECT_TYPE_SEMAPHORE
  | OBJECT_TYPE_TIMER
  deriving DecidableEq, Repr

/-- `OBJECT_HEADER_MAGIC`. -/
def OBJECT_HEADER_MAGIC : UInt32 := 0x12121212

/-- `OBJ_INHERIT`. -/
def OBJ_INHERIT : UInt32 := 0x00000002

/-- `OBJ_PERMANENT`. -/
def OBJ_PERMANENT : UInt32 := 0x00000010

/-- `OBJ_OPENIF`. -/
def OBJ_OPENIF : UInt32 := 0x00000080

/-- `MAX_OBJECT_NAME_SIZE`. -/
def MAX_OBJECT_NAME_SIZE : Nat := 128

/-- `MAX_OBJECT_PATH`. -/
def MAX_OBJECT_PATH : Nat := 1024

/-- `EX_MAX_HANDLE`, the number of entries of a handle table. Nothing is to unfold it and go
through a table entry by entry. -/
@[irreducible] def EX_MAX_HANDLE : Nat := 1024

/-- `UNICODE_STRING`; `Buffer` is the string it points to, up to its `'\0'`. -/
structure UNICODE_STRING where
  Length : Nat
  MaximumLength : Nat
  Buffer : Option (List Char)
  deriving DecidableEq, Repr

/-- `OBJECT_HEADER`; `DirEntryLinked` says that the member `DirectoryEntry` is on a list. The type
is `NULL` while the object is being created. -/
structure OBJECT_HEADER where
  Magic : UInt32
  DirEntryLinked : Bool
  ObjectType : Option OBJECT_TYPE_INDEX
  OpenHandleCount : Int
  RefCount : Int
  ObjectName : UNICODE_STRING
  Attributes : UInt32
  deriving DecidableEq, Repr

/-- `HANDLE_TABLE_ENTRY`: the pointer it holds. -/
inductive HANDLE_TABLE_ENTRY (ω : Type)
  /-- `OB_INVALID_HANDLE`, the mark of a free entry. -/
  | invalid
  /-- `NULL`. -/
  | null
  /-- Any other pointer. -/
  | object (x : ω)
  deriving DecidableEq, Repr

/-- A page of handle table entries. -/
abbrev HandlePage (ω : Type) := Fin EX_MAX_HANDLE → HANDLE_TABLE_ENTRY ω

/-- **The state of the object manager.** `header` is the memory in front of each address, `objects`
the addresses at which an object is allocated. `Head` and `Flags` are the members of directory
objects, `Handle` the handle table of each process. -/
structure Ob (ω π : Type) where
  header : ω → OBJECT_HEADER
  objects : Finset ω
  Head : ω → List ω
  Flags : ω → UInt32
  ObRootDirectory : Option ω
  Handle : π → HandlePage ω

variable {ω π : Type} [DecidableEq ω]

/-- Store to the header of an object. -/
def Ob.setHeader (s : Ob ω π) (x : ω) (h : OBJECT_HEADER) : Ob ω π :=
  { s with header := Function.update s.header x h }

@[simp] theorem Ob.setHeader_self (s : Ob ω π) (x : ω) (h : OBJECT_HEADER) :
    (s.setHeader x h).header x = h :=
  Function.update_self ..

theorem Ob.setHeader_of_ne (s : Ob ω π) {x y : ω} (h : OBJECT_HEADER) (hy : y ≠ x) :
    (s.setHeader x h).header y = s.header y :=
  Function.update_of_ne hy ..

omit [DecidableEq ω] in
/-- `ObIsValidObject(Object)`. -/
def obIsValidObject (x : ω) (s : Ob ω π) : Bool :=
  (s.header x).Magic = OBJECT_HEADER_MAGIC

/-- `ObIsObjectInheritable(Object)`. -/
def obIsObjectInheritable (x : ω) (s : Ob ω π) : Kernel Bool := do
  assert (obIsValidObject x s = true) "ObIsValidObject(Object)"
  return (s.header x).Attributes &&& OBJ_INHERIT ≠ 0

/-- `ObIsDirectoryObject(Object)`. -/
def obIsDirectoryObject (x : ω) (s : Ob ω π) : Kernel Bool := do
  assert (obIsValidObject x s = true) "ObIsValidObject(Object)"
  return (s.header x).ObjectType = some .OBJECT_TYPE_DIRECTORY

/-- Objects at three addresses are enough for the runs that are played step by step. -/
instance (priority := 2000) threeAddresses : @NeZero Nat Zero.ofOfNat0 3 := ⟨by decide⟩

/-! ## Counting references -/

/-- `ObRemoveObject(Object)`. -/
def obRemoveObject (x : ω) (s : Ob ω π) : Kernel (Ob ω π) := do
  assert ((s.header x).RefCount = 0) "ObjectHeader->RefCount == 0"
  assert ((s.header x).OpenHandleCount = 0) "ObjectHeader->OpenHandleCount == 0"
  assert ((s.header x).Attributes &&& OBJ_PERMANENT = 0)
    "(ObjectHeader->Attributes & OBJ_PERMANENT) == 0"
  return { s with objects := s.objects.erase x }

/-- The counters in `ObCloseObject`: a handle goes together with the reference it has adopted. -/
def closedHeader (handleCount : Nat) (h : OBJECT_HEADER) : OBJECT_HEADER :=
  if handleCount ≠ 0 then
    { h with OpenHandleCount := h.OpenHandleCount - handleCount, RefCount := h.RefCount - handleCount }
  else { h with RefCount := h.RefCount - 1 }

/-- `ObCloseObject(Object, HandleCount)`. -/
def obCloseObject (x : ω) (handleCount : Nat) (s : Ob ω π) : Kernel (Ob ω π) := do
  assert ((s.header x).RefCount ≥ 1) "ObjectHeader->RefCount >= 1"
  if (s.header x).Attributes &&& OBJ_PERMANENT ≠ 0 then
    assert ((s.header x).ObjectName.Buffer ≠ none) "ObjectHeader->ObjectName.Buffer != NULL"
    return s
  else
    let s := s.setHeader x (closedHeader handleCount (s.header x))
    if (s.header x).RefCount > 0 then return s
    else obRemoveObject x s

/-- `ObReferenceObject(Object)`. -/
def obReferenceObject (x : ω) (s : Ob ω π) : Kernel (Ob ω π) := do
  assert ((s.header x).RefCount ≠ 0) "ObjectHeader->RefCount != 0"
  assert (obIsValidObject x s = true) "ObIsValidObject(Object)"
  return s.setHeader x { s.header x with RefCount := (s.header x).RefCount + 1 }

/-- `ObDereferenceObject(Object)`. -/
def obDereferenceObject (x : ω) (s : Ob ω π) : Kernel (Ob ω π) := do
  assert (obIsValidObject x s = true) "ObIsValidObject(Object)"
  obCloseObject x 0 s

/-- `ObIncrementHandleCount(Object)`. -/
def obIncrementHandleCount (x : ω) (s : Ob ω π) : Kernel (Ob ω π) := do
  assert ((s.header x).RefCount > 0) "ObjectHeader->RefCount > 0"
  return s.setHeader x { s.header x with OpenHandleCount := (s.header x).OpenHandleCount + 1 }

/-! ## What the operations do -/

variable {s : Ob ω π} {x : ω}

/-- A reference to an object that is in use. -/
theorem obReferenceObject_eq (hvalid : obIsValidObject x s = true)
    (href : 0 < (s.header x).RefCount) :
    obReferenceObject x s
      = .ok (s.setHeader x { s.header x with RefCount := (s.header x).RefCount + 1 }) := by
  rw [obReferenceObject, assert_of_true (ne_of_gt href), kernel_ok_bind, assert_of_true hvalid,
    kernel_ok_bind]
  rfl

/-- Removing an object without references. -/
theorem obRemoveObject_eq (href : (s.header x).RefCount = 0)
    (hopen : (s.header x).OpenHandleCount = 0)
    (hperm : (s.header x).Attributes &&& OBJ_PERMANENT = 0) :
    obRemoveObject x s = .ok { s with objects := s.objects.erase x } := by
  rw [obRemoveObject, assert_of_true href, kernel_ok_bind, assert_of_true hopen, kernel_ok_bind,
    assert_of_true hperm, kernel_ok_bind]
  rfl

/-- Counting down leaves the rest of a header alone. -/
@[simp] theorem closedHeader_attributes (n : Nat) (h : OBJECT_HEADER) :
    (closedHeader n h).Attributes = h.Attributes := by
  unfold closedHeader
  split <;> rfl

@[simp] theorem closedHeader_magic (n : Nat) (h : OBJECT_HEADER) :
    (closedHeader n h).Magic = h.Magic := by
  unfold closedHeader
  split <;> rfl

/-- **Closing an object that is not permanent** counts down, and removes the object when no
reference is left, provided that the last reference goes together with the last handle. -/
theorem obCloseObject_eq {n : Nat} (href : 1 ≤ (s.header x).RefCount)
    (hperm : (s.header x).Attributes &&& OBJ_PERMANENT = 0)
    (hlast : (closedHeader n (s.header x)).RefCount ≤ 0 →
      (closedHeader n (s.header x)).RefCount = 0
        ∧ (closedHeader n (s.header x)).OpenHandleCount = 0) :
    obCloseObject x n s = .ok
      { s.setHeader x (closedHeader n (s.header x)) with
        objects := if 0 < (closedHeader n (s.header x)).RefCount then s.objects
          else s.objects.erase x } := by
  rw [obCloseObject, assert_of_true href, kernel_ok_bind, if_neg (not_not_intro hperm)]
  by_cases hpos : 0 < (closedHeader n (s.header x)).RefCount
  · simp only [Ob.setHeader_self]
    rw [if_pos hpos, if_pos hpos]
    rfl
  · obtain ⟨hzero, hopen⟩ := hlast (not_lt.mp hpos)
    simp only [Ob.setHeader_self]
    rw [if_neg hpos, if_neg hpos,
      obRemoveObject_eq (by simpa using hzero) (by simpa using hopen) (by simpa using hperm)]
    rfl

end KaushOS
