import KaushOS.Library.Occurrences
import KaushOS.Ob.Name

/-! # Handle tables and the creation of objects (`kern/ob/obhandle.c`, `kern/ob/ob.c`)

A process has a page of handle table entries; a handle is the index of an entry. Inserting a
handle adopts a reference that the caller holds.

* **`obInsertObject`, `obRemoveHandle`** — one handle comes and goes.
* **`obAllocateHandleTable`, `obFreeHandleTable`** — a whole table comes, empty or filled from the
  table of the parent process, and goes.
* **`obCreateObject`** — a new object, with or without a name. -/

namespace KaushOS

open Occurrences

variable {ω π : Type} [DecidableEq ω] [DecidableEq π]

/-- Store to one entry of the handle table of a process. -/
def Ob.setEntry (s : Ob ω π) (p : π) (i : Fin EX_MAX_HANDLE) (e : HANDLE_TABLE_ENTRY ω) : Ob ω π :=
  { s with Handle := store s.Handle p i e }

/-! ## One handle -/

/-- The loop of `ObInsertHandle`: the first free entry. -/
def freeHandle (row : HandlePage ω) : Option (Fin EX_MAX_HANDLE) :=
  (List.finRange EX_MAX_HANDLE).find? fun i => row i = .invalid

/-- `ObInsertHandle(Object, HandleTable, Handle)`. -/
def obInsertHandle (x : ω) (p : π) (s : Ob ω π) : KSTATUS × Option (Fin EX_MAX_HANDLE) × Ob ω π :=
  match freeHandle (s.Handle p) with
  | some i => (.STATUS_SUCCESS, some i, s.setEntry p i (.object x))
  | none => (.STATUS_TOO_MANY_OPENED_FILES, none, s)

/-- `ObInsertObject(Object, ...)` for the handle table of process `p`. -/
def obInsertObject (x : ω) (p : π) (s : Ob ω π) :
    Kernel (KSTATUS × Option (Fin EX_MAX_HANDLE) × Ob ω π) := do
  let (status, handle, s) := obInsertHandle x p s
  if ¬ K_SUCCESS status then return (status, handle, s)
  else
    let s ← obIncrementHandleCount x s
    return (.STATUS_SUCCESS, handle, s)

/-- `ObRemoveHandle(Handle, HandleTable, Object)`. -/
def obRemoveHandle (i : Fin EX_MAX_HANDLE) (p : π) (x : ω) (s : Ob ω π) : Kernel (Ob ω π) := do
  assert (s.Handle p i = .object x) "HandleTable->Handle[Handle].Object == Object"
  return s.setEntry p i .invalid

/-- `ObReferenceObjectByHandle(Handle, ...)` in process `p`, for an object of the given type. -/
def obReferenceObjectByHandle (i : Fin EX_MAX_HANDLE) (p : π) (type : OBJECT_TYPE_INDEX)
    (s : Ob ω π) : Kernel (ω × Ob ω π) :=
  match s.Handle p i with
  | .object x => do
    assert ((s.header x).ObjectType = some type) "ObjectHeader->ObjectType == ObjectType"
    assert ((s.header x).RefCount ≠ 0) "ObjectHeader->RefCount"
    let s ← obReferenceObject x s
    return (x, s)
  | _ => .error .nullPointer

/-! ## Handle tables -/

/-- One round of the loop of `ObDerefAllHandleTableObjects`. -/
def derefEntry (p : π) (s : Ob ω π) (i : Fin EX_MAX_HANDLE) : Kernel (Ob ω π) :=
  match s.Handle p i with
  | .invalid => .ok s
  | .null => .error .nullPointer
  | .object x => do
    let s ← obDereferenceObject x s
    return s.setEntry p i .invalid

/-- `ObDerefAllHandleTableObjects(HandleTable)`. -/
def obDerefAllHandleTableObjects (p : π) (s : Ob ω π) : Kernel (Ob ω π) :=
  (List.finRange EX_MAX_HANDLE).foldlM (derefEntry p) s

/-- `ObFreeHandleTable(HandleTable)`; the page itself goes back to the memory manager. -/
def obFreeHandleTable (p : π) (s : Ob ω π) : Kernel (Ob ω π) :=
  obDerefAllHandleTableObjects p s

/-- One round of the loop that fills a table from the one of the parent. An entry of the child is
left as it is where the parent has a free one. -/
def inheritEntry (p parent : π) (isClone : Bool) (s : Ob ω π) (i : Fin EX_MAX_HANDLE) :
    Kernel (Ob ω π) :=
  match s.Handle parent i with
  | .invalid | .null => .ok s
  | .object x => do
    let inherit ← if isClone then pure true else obIsObjectInheritable x s
    if inherit then
      let s ← obReferenceObject x s
      return s.setEntry p i (.object x)
    else return s.setEntry p i .invalid

/-- `ObAllocateHandleTable(HandleTable, InheritHandleTable, IsClone)` for process `p`. `memory` is
the page that the memory manager hands out, with what it happens to hold, or `NULL`. -/
def obAllocateHandleTable (p : π) (inheritHandleTable : Option π) (isClone : Bool)
    (memory : Option (HandlePage ω)) (s : Ob ω π) : Kernel (KSTATUS × Ob ω π) := do
  if isClone then assert (inheritHandleTable ≠ none) "InheritHandleTable"
  match memory with
  | none => return (.STATUS_INSUFFICIENT_RESOURCES, s)
  | some page => do
    let s := { s with Handle := Function.update s.Handle p page }
    match inheritHandleTable with
    | some parent => do
      let s ← (List.finRange EX_MAX_HANDLE).foldlM (inheritEntry p parent isClone) s
      return (.STATUS_SUCCESS, s)
    | none =>
      return (.STATUS_SUCCESS,
        (List.finRange EX_MAX_HANDLE).foldl (fun s i => s.setEntry p i .invalid) s)

/-! ## Creating objects -/

/-- `OBJ_VALID_ATTRIBUTES`. -/
def OBJ_VALID_ATTRIBUTES : UInt32 := 0x000007F2

/-- `OBJECT_ATTRIBUTES`: the members that `ObCreateObject` reads. -/
structure OBJECT_ATTRIBUTES where
  RootDirectory : Option (Fin EX_MAX_HANDLE)
  ObjectName : Option (List Char)
  Attributes : UInt32

/-- What `ObCreateObject` gets from outside: the address of the caller's variable for the result,
the memory from the pool, and whether the two name buffers can be allocated. -/
structure CreateResources (ω : Type) where
  result : ω
  memory : Option ω
  lookupBuffer : Bool
  insertBuffer : Bool

/-- The directory from which the name of a new object is looked up. -/
def rootDirectory (attributes : OBJECT_ATTRIBUTES) (p : π) (s : Ob ω π) : Kernel (ω × Ob ω π) :=
  match attributes.RootDirectory with
  | none => do
    assert (s.ObRootDirectory ≠ none) "ObRootDirectory"
    let root ← deref s.ObRootDirectory
    return (root, s)
  | some handle => obReferenceObjectByHandle handle p .OBJECT_TYPE_DIRECTORY s

/-- The header of an object whose memory has just been cleared. -/
def clearedHeader : OBJECT_HEADER where
  Magic := OBJECT_HEADER_MAGIC
  DirEntryLinked := false
  ObjectType := none
  OpenHandleCount := 0
  RefCount := 0
  ObjectName := ⟨0, 0, none⟩
  Attributes := 0

/-- A named object `x` is inserted into the directory of its path. -/
def insertName (x : ω) (name : Option (ω × List Char × OBP_LOOKUP_CONTEXT ω)) (buffer : Bool)
    (s : Ob ω π) : Kernel (KSTATUS × Ob ω π) :=
  match name with
  | none => .ok (.STATUS_SUCCESS, s)
  | some (root, path, context) => do
    assert (path.length ≤ MAX_OBJECT_PATH)
      "ObjectAttributes->ObjectName->Length <= MAX_OBJECT_PATH"
    let (status, _, s) ← obpLookupObjectByName (some root) path context (some x) buffer s
    return (status, s)

/-- The second half of `ObCreateObject`: the object does not exist yet. `name` is the directory,
the path and the lookup context of a named object. -/
def createNewObject (type : OBJECT_TYPE_INDEX) (attributes : Option OBJECT_ATTRIBUTES)
    (name : Option (ω × List Char × OBP_LOOKUP_CONTEXT ω)) (resources : CreateResources ω)
    (s : Ob ω π) : Kernel (KSTATUS × Option ω × Ob ω π) :=
  match resources.memory with
  | none => .ok (.STATUS_INSUFFICIENT_RESOURCES, none, s)
  | some x => do
    let s := s.setHeader x clearedHeader
    let (status, s) ← insertName x name resources.insertBuffer s
    if ¬ K_SUCCESS status then return (status, none, s)
    else
      let s := s.setHeader x { s.header x with
        Attributes := (attributes.map OBJECT_ATTRIBUTES.Attributes).getD 0
        ObjectType := some type, OpenHandleCount := 0, RefCount := 1 }
      return (.STATUS_SUCCESS, some x, { s with objects := insert x s.objects })

/-- `ObCreateObject(ProbeMode, ObjectType, ObjectAttributes, ObjectSize, Object)` in process `p`;
the second component is what is stored to `*Object`. An object that exists already and may be
opened is returned, and a reference is taken on `Object`, the variable, in place of `*Object`. -/
def obCreateObject (type : OBJECT_TYPE_INDEX) (attributes : Option OBJECT_ATTRIBUTES) (p : π)
    (resources : CreateResources ω) (s : Ob ω π) : Kernel (KSTATUS × Option ω × Ob ω π) :=
  match attributes with
  | none => createNewObject type attributes none resources s
  | some attr => do
    assert (attr.Attributes &&& ~~~OBJ_VALID_ATTRIBUTES = 0)
      "(ObjectAttributes->Attributes & ~OBJ_VALID_ATTRIBUTES) == 0"
    match attr.ObjectName with
    | none => createNewObject type attributes none resources s
    | some path => do
      let (root, s) ← rootDirectory attr p s
      let (status, context, s) ← obpLookupObjectByName (some root) path
        obInitializeLookupContext none resources.lookupBuffer s
      if K_SUCCESS status then
        if attr.Attributes &&& OBJ_OPENIF ≠ 0 then
          let x ← deref context.Object
          assert (obIsValidObject x s = true) "ObIsValidObject(Context.Object)"
          let s ← obReferenceObject resources.result s
          return (status, some x, s)
        else return (.STATUS_OBJECT_NAME_COLLISION, none, s)
      else if status ≠ .STATUS_OBJECT_NAME_NOT_FOUND then return (status, none, s)
      else createNewObject type attributes (some (root, path, context)) resources s

end KaushOS
