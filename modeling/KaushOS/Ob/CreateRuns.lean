import KaushOS.Library.Transition
import KaushOS.Ob.Handle

/-! # Threads create and look up named objects (`kern/ob/ob.c`, `kern/ob/obdir.c`, `kern/ob/obsym.c`)

`ObCreateObject` looks its name up, allocates the object, and looks the name up once more to insert
it; each look into a directory takes and drops the lock of that directory. Here every section with a
directory locked and every group of statements between two of them is a step of its own, and any
number of calls `θ` are under way at the same time.

* **`NameCall`** — what a thread has called: a lookup or one of the three functions that create.
* **`NamePoint`**, **`NameCall.step`** — where a call stands, and what it does next.
* **`NameMachine`**, **`nameSystem`** — all calls and the memory they share.
* **`NameStep`**, **`NameCall.step_cases`** — the transitions of a call, one by one. -/

namespace KaushOS

open Transition

/-! ## Memory -/

/-- **The object manager and the bodies of named objects.** `HeadInitialized` says that
`InitializeListHead` has been called for the list of a directory; while its two links are `NULL`,
the list cannot be used. `LinkTargetObject` is the member of symbolic links. -/
structure NameSpace (ω π : Type) where
  ob : Ob ω π
  HeadInitialized : ω → Bool
  LinkTargetObject : ω → Option ω

/-- The characters that a `char *` points to, up to its `'\0'`. -/
def CString := { path : List Char // ∀ c ∈ path, c.toNat ≠ 0 }

/-! ## Calls -/

/-- **What is created.** -/
inductive CreateKind (ω : Type)
  /-- `ObCreateObject(..., ObjectType, ...)` is called itself. -/
  | object (type : OBJECT_TYPE_INDEX)
  /-- `ObCreateDirectoryObject`; with a handle if `DirectoryHandle` is not `NULL`. -/
  | directory (handle : Bool)
  /-- `ObpCreateSymbolicLinkObject`; with a handle if `Handle` is not `NULL`. -/
  | symbolicLink (target : ω) (handle : Bool)

/-- The `ObjectType` with which `ObCreateObject` is called. -/
def CreateKind.type {ω : Type} : CreateKind ω → OBJECT_TYPE_INDEX
  | .object type => type
  | .directory _ => .OBJECT_TYPE_DIRECTORY
  | .symbolicLink _ _ => .OBJECT_TYPE_SYMLINK

/-- **A call that creates a named object**, with its `OBJECT_ATTRIBUTES`, in process `process`;
`result` is the address of the variable for the result. -/
structure CreateCall (ω π : Type) where
  kind : CreateKind ω
  process : π
  result : ω
  RootDirectory : Option (Fin EX_MAX_HANDLE)
  ObjectName : CString
  Attributes : UInt32

/-- The `OBJECT_ATTRIBUTES` of a call. -/
def CreateCall.attributes {ω π : Type} (c : CreateCall ω π) : OBJECT_ATTRIBUTES :=
  ⟨c.RootDirectory, some c.ObjectName.val, c.Attributes⟩

/-- **A call.** -/
inductive NameCall (ω π : Type)
  /-- `ObpLookupObjectByName(Parent, Name, &Context, NULL)`. -/
  | lookup (parent : ω) (path : CString)
  /-- One of the functions that create. -/
  | create (c : CreateCall ω π)

/-- The path of a call. -/
def NameCall.path {ω π : Type} : NameCall ω π → List Char
  | .lookup _ path => path.val
  | .create c => c.ObjectName.val

/-- The local variables of `ObpLookupObjectByName`. -/
structure LookupLocals (ω : Type) where
  namePtr : List Char
  dirName : UNICODE_STRING
  directory : Option ω
  context : OBP_LOOKUP_CONTEXT ω
  status : KSTATUS

/-- **Where a call stands.** `root` is the directory its lookup has started from, and `insert` the
parameter `InsertObjectHeader`, which is `NULL` in the first lookup of `ObCreateObject`. -/
inductive NamePoint (ω : Type)
  /-- Nothing has been done yet. -/
  | start
  /-- At the head of the loop of `ObpLookupObjectByName`. -/
  | loop (root : ω) (insert : Option ω) (l : LookupLocals ω)
  /-- In front of the locked section of `ObpLookupEntryDirectory`. -/
  | entry (root : ω) (insert : Option ω) (l : LookupLocals ω)
  /-- `ObpLookupEntryDirectory` has returned. -/
  | entered (root : ω) (insert : Option ω) (l : LookupLocals ω)
  /-- In front of the locked section of `ObpInsertEntryDirectory`. -/
  | link (root x directory : ω) (context : OBP_LOOKUP_CONTEXT ω)
  /-- The name exists, and the caller wants to open the object. -/
  | openIf (object : Option ω)
  /-- The name has not been found: the object is about to be allocated. -/
  | allocate (root : ω) (context : OBP_LOOKUP_CONTEXT ω)
  /-- The object has been allocated and cleared. -/
  | insert (root x : ω) (context : OBP_LOOKUP_CONTEXT ω)
  /-- The second lookup has succeeded: `ObCreateObject` fills the header. -/
  | fillHeader (x : ω)
  /-- `ObCreateObject` has returned to the function that initialises the body. -/
  | construct (x : ω)
  /-- In front of `ObInsertObject`. -/
  | insertHandle (x : ω)
  /-- The call has returned a status and, for a lookup, `Context->Object`, otherwise what has been
  stored to `*Object`. -/
  | returned (status : KSTATUS) (object : Option ω)

/-- What the pool answers in a step that asks it for memory, and whether it has a buffer in a step
that asks for one. -/
structure PoolAnswer (ω : Type) where
  memory : Option ω
  buffer : Bool

/-! ## Steps -/

section Steps

variable {ω π : Type} [DecidableEq ω] [DecidableEq π]

/-- The memory of a new object, cleared but for `Magic`. -/
def NameSpace.clear (s : NameSpace ω π) (x : ω) : NameSpace ω π where
  ob :=
    { s.ob.setHeader x clearedHeader with
      objects := insert x s.ob.objects
      Head := Function.update s.ob.Head x []
      Flags := Function.update s.ob.Flags x 0 }
  HeadInitialized := Function.update s.HeadInitialized x false
  LinkTargetObject := Function.update s.LinkTargetObject x none

/-- `ExFreePoolWithTag(ObjectHeader, 'tjbo')`. -/
def NameSpace.free (s : NameSpace ω π) (x : ω) : NameSpace ω π :=
  { s with ob := { s.ob with objects := s.ob.objects.erase x } }

/-- **`ObpLookupObjectByName` has returned** to its caller. -/
def lookupReturned (call : NameCall ω π) (root : ω) (insert : Option ω) (status : KSTATUS)
    (context : OBP_LOOKUP_CONTEXT ω) (s : NameSpace ω π) : NamePoint ω × NameSpace ω π :=
  match call, insert with
  | .lookup _ _, _ => (.returned status context.Object, s)
  | .create c, none =>
    if K_SUCCESS status then
      if c.Attributes &&& OBJ_OPENIF ≠ 0 then (.openIf context.Object, s)
      else (.returned .STATUS_OBJECT_NAME_COLLISION none, s)
    else if status ≠ .STATUS_OBJECT_NAME_NOT_FOUND then (.returned status none, s)
    else (.allocate root context, s)
  | .create _, some x =>
    if K_SUCCESS status then (.fillHeader x, s) else (.returned status none, s.free x)

/-- `ObpLookupObjectByName` up to its loop. -/
def lookupBegins (call : NameCall ω π) (root : ω) (insert : Option ω)
    (context : OBP_LOOKUP_CONTEXT ω) (buffer : Bool) (s : NameSpace ω π) :
    Kernel (NamePoint ω × NameSpace ω π) :=
  if s.ob.ObRootDirectory = none then
    keBugCheck "Performing named Object Operation before initailizing Root Directory\n"
  else if buffer = false then
    .ok (lookupReturned call root insert .STATUS_INSUFFICIENT_RESOURCES context s)
  else .ok (.loop root insert
    { namePtr := call.path
      dirName := { Length := 0, MaximumLength := MAX_OBJECT_NAME_SIZE, Buffer := some [] }
      directory := some root
      context := context
      status := .STATUS_SUCCESS }, s)

/-- The locked section of `ObpLookupEntryDirectory`: a list whose links are `NULL` is not walked. -/
def NameSpace.lookupEntryDirectory (s : NameSpace ω π) (directory : ω) (name : UNICODE_STRING)
    (context : OBP_LOOKUP_CONTEXT ω) : Kernel (KSTATUS × OBP_LOOKUP_CONTEXT ω) :=
  if s.HeadInitialized directory = false then .error .nullPointer
  else obpLookupEntryDirectory directory name context s.ob

/-- `ObpInsertEntryDirectory`: the new entry is linked behind the last one. -/
def NameSpace.insertEntryDirectory (s : NameSpace ω π) (directory : ω)
    (context : OBP_LOOKUP_CONTEXT ω) (x : ω) : Kernel (NameSpace ω π) := do
  let ob ← obpInsertEntryDirectory directory context x s.ob
  if s.HeadInitialized directory = false then .error .nullPointer
  else return { s with ob := ob }

/-- The stores of `ObCreateObject` behind the second lookup. -/
def NameSpace.initializeHeader (s : NameSpace ω π) (c : CreateCall ω π) (x : ω) : NameSpace ω π :=
  { s with ob := s.ob.setHeader x { s.ob.header x with
      Attributes := c.Attributes
      ObjectType := some c.kind.type
      OpenHandleCount := 0
      RefCount := 1 } }

/-- `Object->Flags = 0` and `InitializeListHead(&Object->Head.DirEntryLink)`. -/
def NameSpace.initializeDirectory (s : NameSpace ω π) (x : ω) : NameSpace ω π :=
  { s with
    ob := { s.ob.setHead x [] with Flags := Function.update s.ob.Flags x 0 }
    HeadInitialized := Function.update s.HeadInitialized x true }

/-- What is left to do when the body of the object is initialised. -/
def afterConstruct (handle : Bool) (x : ω) : NamePoint ω :=
  if handle then .insertHandle x else .returned .STATUS_SUCCESS (some x)

/-- A round of the loop of `ObpLookupObjectByName` up to the lock of the directory. -/
def loopStep (call : NameCall ω π) (root : ω) (insert : Option ω) (l : LookupLocals ω)
    (s : NameSpace ω π) : Kernel (NamePoint ω × NameSpace ω π) := do
  let context := { l.context with ParsedTill := some l.namePtr }
  let directory ← deref l.directory
  let isDirectory ← obIsDirectoryObject directory s.ob
  if isDirectory = false then
    return lookupReturned call root insert .STATUS_OBJECT_PATH_NOT_FOUND
      { context with Directory := some directory, Object := none } s
  else
    let next ← obParseDirectoryPath l.namePtr l.dirName
    match next with
    | none => return lookupReturned call root insert l.status context s
    | some (dirName, parsedTill) =>
      return (.entry root insert
        { l with namePtr := parsedTill, dirName := dirName, context := context }, s)

/-- A round of the loop of `ObpLookupObjectByName` behind the lookup of the entry. -/
def enteredStep (call : NameCall ω π) (root : ω) (insert : Option ω) (l : LookupLocals ω)
    (s : NameSpace ω π) : Kernel (NamePoint ω × NameSpace ω π) :=
  if l.status = .STATUS_OBJECT_NAME_NOT_FOUND then do
    let directory ← deref l.directory
    let context := { l.context with Directory := some directory, Object := none }
    -- look ahead, into the same buffer: is this the last component?
    let next ← obParseDirectoryPath l.namePtr l.dirName
    match next, insert with
    | some _, _ => return lookupReturned call root insert .STATUS_OBJECT_PATH_NOT_FOUND context s
    | none, some x =>
      return (.link root x directory context,
        { s with ob := s.ob.setHeader x { s.ob.header x with ObjectName := l.dirName } })
    | none, none => return lookupReturned call root insert l.status context s
  else if l.namePtr = [] then return lookupReturned call root insert l.status l.context s
  else return (.loop root insert { l with directory := l.context.Object }, s)

/-- **The next step of a call.** -/
def NameCall.step (call : NameCall ω π) (a : PoolAnswer ω) (s : NameSpace ω π) :
    NamePoint ω → Kernel (NamePoint ω × NameSpace ω π)
  | .start =>
    match call with
    | .lookup parent _ => lookupBegins call parent none obInitializeLookupContext a.buffer s
    | .create c => do
      assert (c.Attributes &&& ~~~OBJ_VALID_ATTRIBUTES = 0)
        "(ObjectAttributes->Attributes & ~OBJ_VALID_ATTRIBUTES) == 0"
      let (root, ob) ← rootDirectory c.attributes c.process s.ob
      lookupBegins call root none obInitializeLookupContext a.buffer { s with ob := ob }
  | .loop root insert l => loopStep call root insert l s
  | .entry root insert l => do
    let directory ← deref l.directory
    let (status, context) ← s.lookupEntryDirectory directory l.dirName l.context
    return (.entered root insert { l with status := status, context := context }, s)
  | .entered root insert l => enteredStep call root insert l s
  | .link root x directory context => do
    let s ← s.insertEntryDirectory directory context x
    return lookupReturned call root (some x) .STATUS_SUCCESS context s
  | .allocate root context =>
    match a.memory with
    | none => return (.returned .STATUS_INSUFFICIENT_RESOURCES none, s)
    | some x => return (.insert root x context, s.clear x)
  | .insert root x context => do
    assert (call.path.length ≤ MAX_OBJECT_PATH)
      "ObjectAttributes->ObjectName->Length <= MAX_OBJECT_PATH"
    lookupBegins call root (some x) context a.buffer s
  | .openIf object =>
    match call with
    | .lookup _ _ => return (.openIf object, s)
    | .create c => do
      let x ← deref object
      assert (obIsValidObject x s.ob = true) "ObIsValidObject(Context.Object)"
      let ob ← obReferenceObject c.result s.ob
      return (.returned .STATUS_SUCCESS (some x), { s with ob := ob })
  | .fillHeader x =>
    match call with
    | .lookup _ _ => return (.fillHeader x, s)
    | .create c =>
      match c.kind with
      | .object _ => return (.returned .STATUS_SUCCESS (some x), s.initializeHeader c x)
      | _ => return (.construct x, s.initializeHeader c x)
  | .construct x =>
    match call with
    | .lookup _ _ => return (.construct x, s)
    | .create c =>
      match c.kind with
      | .object _ => return (.construct x, s)
      | .directory handle => return (afterConstruct handle x, s.initializeDirectory x)
      | .symbolicLink target handle => do
        let ob ← obReferenceObject target s.ob
        return (afterConstruct handle x,
          { s with
            ob := ob
            LinkTargetObject := Function.update s.LinkTargetObject x (some target) })
  | .insertHandle x =>
    match call with
    | .lookup _ _ => return (.insertHandle x, s)
    | .create c => do
      let (status, _, ob) ← obInsertObject x c.process s.ob
      if K_SUCCESS status then return (.returned status (some x), { s with ob := ob })
      else do
        let ob ← obDereferenceObject x ob
        return (.returned status (some x), { s with ob := ob })
  | .returned status object => return (.returned status object, s)

end Steps

/-! ## Runs -/

/-- **All calls and the memory they share.** -/
structure NameMachine (ω π θ : Type) where
  space : NameSpace ω π
  point : θ → NamePoint ω

/-- **What happens**: a call takes its next step, and the pool answers if it is asked. -/
structure NameEvent (ω θ : Type) where
  thread : θ
  answer : PoolAnswer ω

variable {ω π θ : Type} [DecidableEq ω] [DecidableEq π] [DecidableEq θ]

/-- A call goes on until it has returned; the pool hands out memory that is free. -/
def NameEvent.Enabled (m : NameMachine ω π θ) (e : NameEvent ω θ) : Prop :=
  (match m.point e.thread with
    | .returned _ _ => False
    | _ => True)
  ∧ ∀ x ∈ e.answer.memory, x ∉ m.space.ob.objects

/-- What an event does. -/
def NameEvent.run (call : θ → NameCall ω π) (m : NameMachine ω π θ) (e : NameEvent ω θ) :
    Kernel (NameMachine ω π θ) := do
  let (p, s) ← (call e.thread).step e.answer m.space (m.point e.thread)
  return ⟨s, Function.update m.point e.thread p⟩

/-- A linked object is complete. -/
structure Complete (s : NameSpace ω π) (x : ω) : Prop where
  refCount : 1 ≤ (s.ob.header x).RefCount
  objectType : (s.ob.header x).ObjectType ≠ none
  directory : (s.ob.header x).ObjectType = some .OBJECT_TYPE_DIRECTORY →
    s.HeadInitialized x = true
  symbolicLink : (s.ob.header x).ObjectType = some .OBJECT_TYPE_SYMLINK →
    s.LinkTargetObject x ≠ none

/-- **The start**: no call has begun; the root directory, the entries of all directories and the
objects behind the handles are complete objects, and the entries have names that differ from one
another. -/
structure NameMachine.Start (m : NameMachine ω π θ) : Prop where
  point : ∀ u, m.point u = .start
  root : ∀ d ∈ m.space.ob.ObRootDirectory, d ∈ m.space.ob.objects
    ∧ (m.space.ob.header d).ObjectType = some .OBJECT_TYPE_DIRECTORY
  entry : ∀ d, ∀ x ∈ m.space.ob.Head d, x ∈ m.space.ob.objects
    ∧ obIsValidObject x m.space.ob = true ∧ Complete m.space x
  name : ∀ d, ∀ x ∈ m.space.ob.Head d, ∃ c : CString,
    (m.space.ob.header x).ObjectName.Buffer = some c.val
      ∧ (m.space.ob.header x).ObjectName.Length = c.val.length
  unique : ∀ d, ((m.space.ob.Head d).map fun x =>
    (m.space.ob.header x).ObjectName.Buffer).Nodup
  handle : ∀ p i x, m.space.ob.Handle p i = .object x →
    x ∈ m.space.ob.objects ∧ (m.space.ob.header x).ObjectType ≠ none

/-- **The calls and their memory as a transition system**; a label is an event and the state it
happens in. -/
def nameSystem (call : θ → NameCall ω π) :
    System (NameEvent ω θ × NameMachine ω π θ) (NameMachine ω π θ) where
  init m := m.Start
  step _ m l m' := l.2 = m ∧ l.1.Enabled m ∧ l.1.run call m = .ok m'

/-! ## An empty root directory -/

instance NameEvent.decidableEnabled (m : NameMachine ω π θ) (e : NameEvent ω θ) :
    Decidable (e.Enabled m) :=
  @instDecidableAnd _ _
    (match m.point e.thread with
      | .returned _ _ => .isFalse id
      | .start | .loop .. | .entry .. | .entered .. | .link .. | .openIf _ | .allocate .. | .insert ..
      | .fillHeader _ | .construct _ | .insertHandle _ => .isTrue trivial)
    inferInstance

/-- The next steps of a thread; the pool is not asked for memory. -/
def stepsOf {θ : Type} (u : θ) (n : Nat) : List (NameEvent (Fin 3) θ) :=
  List.replicate n ⟨u, ⟨none, true⟩⟩

/-- A name of one letter. -/
def oneLetter : CString := ⟨['a'], by simp⟩

/-- Two threads and an empty root directory, which is at address 0. -/
def onlyRoot : NameMachine (Fin 3) Unit Bool where
  space :=
    { ob :=
        { header := fun _ =>
            { Magic := OBJECT_HEADER_MAGIC
              DirEntryLinked := false
              ObjectType := some .OBJECT_TYPE_DIRECTORY
              OpenHandleCount := 0
              RefCount := 1
              ObjectName := ⟨1, 1, some ['\\']⟩
              Attributes := 0 }
          objects := {0}
          Head := fun _ => []
          Flags := fun _ => 0
          ObRootDirectory := some 0
          Handle := fun _ _ => .invalid }
      HeadInitialized := fun _ => true
      LinkTargetObject := fun _ => none }
  point _ := .start

theorem onlyRoot_run (call : Bool → NameCall (Fin 3) Unit) : (nameSystem call).Run [] onlyRoot :=
  .start
    { point := fun _ => rfl
      root := by
        rintro d ⟨⟩
        exact ⟨Finset.mem_singleton_self _, rfl⟩
      entry := fun _ => nofun
      name := fun _ => nofun
      unique := fun _ => List.nodup_nil
      handle := fun _ _ _ => nofun }

/-! ## The transitions of a call -/

section Transitions

variable {call : NameCall ω π} {a : PoolAnswer ω} {s s' : NameSpace ω π} {p p' : NamePoint ω}
  {ob ob' : Ob ω π}

/-- **Counters go up, handles are added**: `ob'` differs from `ob` in the counters of headers, none of
which starts from 0 or comes down to it, and in handles to `added`. -/
structure Counts (added : Option ω) (ob ob' : Ob ω π) : Prop where
  header : ∀ x, ob'.header x = { ob.header x with
    OpenHandleCount := (ob'.header x).OpenHandleCount
    RefCount := (ob'.header x).RefCount }
  zero : ∀ x, (ob.header x).RefCount = 0 → (ob'.header x).RefCount = 0
  pos : ∀ x, 1 ≤ (ob.header x).RefCount → 1 ≤ (ob'.header x).RefCount
  objects : ob'.objects = ob.objects
  Head : ob'.Head = ob.Head
  root : ob'.ObRootDirectory = ob.ObRootDirectory
  handle : ∀ p i x, ob'.Handle p i = .object x → ob.Handle p i = .object x ∨ added = some x
  kept : ∀ p i x, ob.Handle p i = .object x → ob'.Handle p i = .object x

omit [DecidableEq ω] [DecidableEq π] in
theorem Counts.refl (ob : Ob ω π) : Counts none ob ob :=
  ⟨fun _ => rfl, fun _ h => h, fun _ h => h, rfl, rfl, rfl, fun _ _ _ h => Or.inl h, fun _ _ _ h => h⟩

omit [DecidableEq π] in
/-- Counting at one object. -/
theorem Counts.setHeader {x : ω} {h : OBJECT_HEADER}
    (hheader : h = { ob.header x with OpenHandleCount := h.OpenHandleCount, RefCount := h.RefCount })
    (hzero : (ob.header x).RefCount = 0 → h.RefCount = 0)
    (hpos : 1 ≤ (ob.header x).RefCount → 1 ≤ h.RefCount) : Counts none ob (ob.setHeader x h) := by
  have hself : (ob.setHeader x h).header x = h := ob.setHeader_self x h
  have hother : ∀ y, y ≠ x → (ob.setHeader x h).header y = ob.header y :=
    fun y => ob.setHeader_of_ne h
  refine ⟨fun y => ?_, fun y hy => ?_, fun y hy => ?_, rfl, rfl, rfl, fun _ _ _ h => Or.inl h,
    fun _ _ _ h => h⟩
  · by_cases hyx : y = x
    · rw [hyx, hself]
      exact hheader
    · rw [hother y hyx]
  · by_cases hyx : y = x
    · rw [hyx, hself]
      exact hzero (hyx ▸ hy)
    · rwa [hother y hyx]
  · by_cases hyx : y = x
    · rw [hyx, hself]
      exact hpos (hyx ▸ hy)
    · rwa [hother y hyx]

omit [DecidableEq π] in
/-- Taking a reference. -/
theorem Counts.reference {x : ω} (h : obReferenceObject x ob = .ok ob') : Counts none ob ob' := by
  obtain ⟨_, href, h⟩ := kernel_bind_eq_ok.mp h
  obtain ⟨_, -, h⟩ := kernel_bind_eq_ok.mp h
  cases h
  have hne := assert_eq_ok.mp href
  refine .setHeader rfl (fun hzero => absurd hzero hne) fun hpos => ?_
  show 1 ≤ (ob.header x).RefCount + 1
  omega

omit [DecidableEq π] in
/-- Taking a reference to the directory that a lookup starts from. -/
theorem Counts.rootDirectory {attributes : OBJECT_ATTRIBUTES} {process : π} {root : ω}
    (h : rootDirectory attributes process ob = .ok (root, ob')) : Counts none ob ob' := by
  unfold KaushOS.rootDirectory at h
  split at h
  · obtain ⟨_, -, h⟩ := kernel_bind_eq_ok.mp h
    obtain ⟨_, -, h⟩ := kernel_bind_eq_ok.mp h
    cases h
    exact .refl ob
  · unfold obReferenceObjectByHandle at h
    split at h
    · obtain ⟨_, -, h⟩ := kernel_bind_eq_ok.mp h
      obtain ⟨_, -, h⟩ := kernel_bind_eq_ok.mp h
      obtain ⟨_, href, h⟩ := kernel_bind_eq_ok.mp h
      cases h
      exact .reference href
    · cases h

/-- Inserting an object for which there is a free handle. -/
theorem Counts.insertObject {x : ω} {process : π} {status : KSTATUS}
    {handle : Option (Fin EX_MAX_HANDLE)} (hfree : freeHandle (ob.Handle process) ≠ none)
    (h : obInsertObject x process ob = .ok (status, handle, ob')) :
    K_SUCCESS status ∧ Counts (some x) ob ob' := by
  obtain ⟨i, hi⟩ := Option.ne_none_iff_exists'.mp hfree
  unfold obInsertObject obInsertHandle at h
  rw [hi] at h
  obtain ⟨ob₁, hcount, h⟩ := kernel_bind_eq_ok.mp h
  cases h
  obtain ⟨_, href, hcount⟩ := kernel_bind_eq_ok.mp hcount
  cases hcount
  have hentry : ∀ p j y, (ob.setEntry process i (.object x)).Handle p j = .object y →
      ob.Handle p j = .object y ∨ some x = some y := by
    intro p j y hy
    by_cases hp : p = process
    · subst hp
      by_cases hj : j = i
      · subst hj
        simp only [Ob.setEntry, Occurrences.store, Function.update_self] at hy
        exact Or.inr (congrArg some (HANDLE_TABLE_ENTRY.object.inj hy))
      · simp only [Ob.setEntry, Occurrences.store, Function.update_self,
          Function.update_of_ne hj] at hy
        exact Or.inl hy
    · simp only [Ob.setEntry, Occurrences.store, Function.update_of_ne hp] at hy
      exact Or.inl hy
  have h : Counts none (ob.setEntry process i (.object x))
      ((ob.setEntry process i (.object x)).setHeader x
        { ob.header x with OpenHandleCount := (ob.header x).OpenHandleCount + 1 }) :=
    .setHeader rfl (fun h => h) fun h => h
  have hkept : ∀ p j y, ob.Handle p j = .object y →
      (ob.setEntry process i (.object x)).Handle p j = .object y := by
    intro p j y hy
    by_cases hp : p = process
    · subst hp
      have hj : j ≠ i := by
        rintro rfl
        have hinvalid := List.find?_some hi
        rw [hy] at hinvalid
        cases of_decide_eq_true hinvalid
      simp only [Ob.setEntry, Occurrences.store, Function.update_self, Function.update_of_ne hj]
      exact hy
    · simp only [Ob.setEntry, Occurrences.store, Function.update_of_ne hp]
      exact hy
  exact ⟨rfl, h.header, h.zero, h.pos, h.objects, h.Head, h.root, hentry, hkept⟩

/-- What may follow when `ObpLookupObjectByName` has returned `status`. -/
inductive LookupReturns (call : NameCall ω π) (s : NameSpace ω π) (root : ω) :
    Option ω → KSTATUS → NamePoint ω → NameSpace ω π → Prop
  /-- A lookup is done. -/
  | lookup {insert : Option ω} {status : KSTATUS} {object : Option ω} {parent : ω} {path : CString}
      (hc : call = .lookup parent path) :
      LookupReturns call s root insert status (.returned status object) s
  /-- The name exists, and the object may be opened. -/
  | openIf {c : CreateCall ω π} {object : Option ω} (hc : call = .create c)
      (hopen : c.Attributes &&& OBJ_OPENIF ≠ 0) :
      LookupReturns call s root none .STATUS_SUCCESS (.openIf object) s
  /-- `ObCreateObject` returns an error. -/
  | failed {c : CreateCall ω π} {status status' : KSTATUS} (hc : call = .create c)
      (hstatus : ¬ K_SUCCESS status') :
      LookupReturns call s root none status (.returned status' none) s
  /-- The name does not exist yet. -/
  | missing {c : CreateCall ω π} {context : OBP_LOOKUP_CONTEXT ω} (hc : call = .create c) :
      LookupReturns call s root none .STATUS_OBJECT_NAME_NOT_FOUND (.allocate root context) s
  /-- The second lookup has succeeded. -/
  | fillHeader {c : CreateCall ω π} {x : ω} (hc : call = .create c) :
      LookupReturns call s root (some x) .STATUS_SUCCESS (.fillHeader x) s
  /-- The second lookup has failed: the object is freed. -/
  | freed {c : CreateCall ω π} {x : ω} {status : KSTATUS} (hc : call = .create c)
      (hstatus : ¬ K_SUCCESS status) :
      LookupReturns call s root (some x) status (.returned status none) (s.free x)

omit [DecidableEq π] in
theorem lookupReturned_cases (call : NameCall ω π) (root : ω) (insert : Option ω) (status : KSTATUS)
    (context : OBP_LOOKUP_CONTEXT ω) (s : NameSpace ω π) :
    LookupReturns call s root insert status (lookupReturned call root insert status context s).1
      (lookupReturned call root insert status context s).2 := by
  cases hcall : call with
  | lookup parent path => exact .lookup rfl
  | create c =>
    cases insert with
    | none =>
      unfold lookupReturned
      simp only
      split
      · rename_i hstatus
        cases hstatus
        split
        · rename_i hopen
          exact .openIf rfl hopen
        · exact .failed rfl nofun
      · rename_i hstatus
        split
        · exact .failed rfl hstatus
        · rename_i hfound
          rw [not_not.mp hfound]
          exact .missing rfl
    | some x =>
      unfold lookupReturned
      simp only
      split
      · rename_i hstatus
        cases hstatus
        exact .fillHeader rfl
      · rename_i hstatus
        exact .freed rfl hstatus

/-- The locals of `ObpLookupObjectByName` in front of its loop. -/
structure LookupLocals.Begin (l : LookupLocals ω) (path : List Char) (root : ω) : Prop where
  namePtr : l.namePtr = path
  directory : l.directory = some root
  status : l.status = .STATUS_SUCCESS

/-- **The transitions of a call.** -/
inductive NameStep (call : NameCall ω π) (a : PoolAnswer ω) (s : NameSpace ω π) :
    NamePoint ω → NamePoint ω → NameSpace ω π → Prop
  /-- A lookup begins. -/
  | startLookup {parent : ω} {path : CString} {l : LookupLocals ω}
      (hc : call = .lookup parent path) (hl : l.Begin call.path parent) :
      NameStep call a s .start (.loop parent none l) s
  /-- The first lookup of a call that creates. -/
  | startCreate {c : CreateCall ω π} {root : ω} {ob : Ob ω π} {l : LookupLocals ω}
      (hc : call = .create c) (hroot : rootDirectory c.attributes c.process s.ob = .ok (root, ob))
      (hl : l.Begin call.path root) :
      NameStep call a s .start (.loop root none l) { s with ob := ob }
  /-- There is no buffer for the names. -/
  | startFails {ob : Ob ω π} {status : KSTATUS} {object : Option ω} (hob : Counts none s.ob ob)
      (hstatus : ¬ K_SUCCESS status) :
      NameStep call a s .start (.returned status object) { s with ob := ob }
  /-- The second lookup begins. -/
  | insert {root x : ω} {context : OBP_LOOKUP_CONTEXT ω} {l : LookupLocals ω}
      (hl : l.Begin call.path root) :
      NameStep call a s (.insert root x context) (.loop root (some x) l) s
  /-- There is no buffer for the second lookup. -/
  | insertFails {root x : ω} {context : OBP_LOOKUP_CONTEXT ω} {p' : NamePoint ω}
      {s' : NameSpace ω π}
      (h : LookupReturns call s root (some x) .STATUS_INSUFFICIENT_RESOURCES p' s') :
      NameStep call a s (.insert root x context) p' s'
  /-- The loop ends in front of something that is no directory, or at the end of the path. -/
  | loopReturns {root : ω} {insert : Option ω} {l : LookupLocals ω} {status : KSTATUS}
      {p' : NamePoint ω} {s' : NameSpace ω π}
      (hd : l.directory ≠ none)
      (hstatus : status = .STATUS_OBJECT_PATH_NOT_FOUND
        ∨ status = l.status ∧ obParseDirectoryPath l.namePtr l.dirName = .ok none)
      (h : LookupReturns call s root insert status p' s') :
      NameStep call a s (.loop root insert l) p' s'
  /-- The next component is looked up. -/
  | loop {root d : ω} {insert : Option ω} {l l' : LookupLocals ω} {dirName : UNICODE_STRING}
      {parsedTill : List Char} (hd : l.directory = some d)
      (hdirectory : obIsDirectoryObject d s.ob = .ok true)
      (hparse : obParseDirectoryPath l.namePtr l.dirName = .ok (some (dirName, parsedTill)))
      (hl : l'.namePtr = parsedTill ∧ l'.dirName = dirName ∧ l'.directory = some d) :
      NameStep call a s (.loop root insert l) (.entry root insert l') s
  /-- The locked section of `ObpLookupEntryDirectory`. -/
  | entry {root d : ω} {insert : Option ω} {l : LookupLocals ω} {status : KSTATUS}
      {context : OBP_LOOKUP_CONTEXT ω} (hd : l.directory = some d)
      (hlookup : s.lookupEntryDirectory d l.dirName l.context = .ok (status, context)) :
      NameStep call a s (.entry root insert l)
        (.entered root insert { l with status := status, context := context }) s
  /-- The loop ends behind the lookup of an entry. -/
  | enteredReturns {root : ω} {insert : Option ω} {l : LookupLocals ω} {status : KSTATUS}
      {p' : NamePoint ω} {s' : NameSpace ω π}
      (hstatus : status = .STATUS_OBJECT_PATH_NOT_FOUND
        ∨ status = l.status ∧ l.status ≠ .STATUS_OBJECT_NAME_NOT_FOUND ∧ l.namePtr = []
        ∨ status = l.status ∧ l.status = .STATUS_OBJECT_NAME_NOT_FOUND ∧ insert = none
          ∧ obParseDirectoryPath l.namePtr l.dirName = .ok none)
      (h : LookupReturns call s root insert status p' s') :
      NameStep call a s (.entered root insert l) p' s'
  /-- The lookup goes on in the directory found. -/
  | entered {root : ω} {insert : Option ω} {l : LookupLocals ω}
      (hstatus : l.status ≠ .STATUS_OBJECT_NAME_NOT_FOUND) :
      NameStep call a s (.entered root insert l)
        (.loop root insert { l with directory := l.context.Object }) s
  /-- The last component is missing: the object gets its name. -/
  | name {root x d : ω} {l : LookupLocals ω} {context : OBP_LOOKUP_CONTEXT ω}
      (hstatus : l.status = .STATUS_OBJECT_NAME_NOT_FOUND) (hd : l.directory = some d)
      (hparse : obParseDirectoryPath l.namePtr l.dirName = .ok none) :
      NameStep call a s (.entered root (some x) l) (.link root x d context)
        { s with ob := s.ob.setHeader x { s.ob.header x with ObjectName := l.dirName } }
  /-- The object is linked. -/
  | link {root x d : ω} {context : OBP_LOOKUP_CONTEXT ω} {s₁ s' : NameSpace ω π} {p' : NamePoint ω}
      (hlink : s.insertEntryDirectory d context x = .ok s₁)
      (h : LookupReturns call s₁ root (some x) .STATUS_SUCCESS p' s') :
      NameStep call a s (.link root x d context) p' s'
  /-- There is no memory. -/
  | allocateFails {root : ω} {context : OBP_LOOKUP_CONTEXT ω} :
      NameStep call a s (.allocate root context)
        (.returned .STATUS_INSUFFICIENT_RESOURCES none) s
  /-- The object is allocated. -/
  | allocate {root x : ω} {context : OBP_LOOKUP_CONTEXT ω} (hx : x ∈ a.memory) :
      NameStep call a s (.allocate root context) (.insert root x context) (s.clear x)
  /-- A reference is taken on the variable. -/
  | openIf {c : CreateCall ω π} {object : Option ω} {x : ω} {ob : Ob ω π} (hc : call = .create c)
      (hob : Counts none s.ob ob) :
      NameStep call a s (.openIf object) (.returned .STATUS_SUCCESS (some x)) { s with ob := ob }
  /-- The header is filled. -/
  | fillHeader {c : CreateCall ω π} {x : ω} {p' : NamePoint ω} (hc : call = .create c)
      (hp : (∃ type, c.kind = .object type) ∧ p' = .returned .STATUS_SUCCESS (some x)
        ∨ (∀ type, c.kind ≠ .object type) ∧ p' = .construct x) :
      NameStep call a s (.fillHeader x) p' (s.initializeHeader c x)
  /-- The list of a directory is initialised. -/
  | constructDirectory {c : CreateCall ω π} {x : ω} {handle : Bool} (hc : call = .create c)
      (hkind : c.kind = .directory handle) :
      NameStep call a s (.construct x) (afterConstruct handle x) (s.initializeDirectory x)
  /-- The target of a symbolic link is stored. -/
  | constructLink {c : CreateCall ω π} {x target : ω} {handle : Bool} {ob : Ob ω π}
      (hc : call = .create c) (hkind : c.kind = .symbolicLink target handle)
      (hob : Counts none s.ob ob) :
      NameStep call a s (.construct x) (afterConstruct handle x)
        { s with
          ob := ob
          LinkTargetObject := Function.update s.LinkTargetObject x (some target) }
  /-- `ObInsertObject` is called. -/
  | insertHandle {c : CreateCall ω π} {x : ω} {status : KSTATUS} {ob : Ob ω π}
      (hc : call = .create c)
      (hob : freeHandle (s.ob.Handle c.process) ≠ none →
        K_SUCCESS status ∧ Counts (some x) s.ob ob) :
      NameStep call a s (.insertHandle x) (.returned status (some x)) { s with ob := ob }
  /-- A point that a lookup does not get to. -/
  | idle {p : NamePoint ω} : NameStep call a s p p s

omit [DecidableEq π] in
/-- How `ObpLookupObjectByName` begins. -/
theorem lookupBegins_cases {root : ω} {insert : Option ω} {context : OBP_LOOKUP_CONTEXT ω}
    {buffer : Bool} (h : lookupBegins call root insert context buffer s = .ok (p', s')) :
    (∃ l, l.Begin call.path root ∧ p' = .loop root insert l ∧ s' = s)
    ∨ LookupReturns call s root insert .STATUS_INSUFFICIENT_RESOURCES p' s' := by
  unfold lookupBegins at h
  split at h
  · cases h
  · split at h
    · have hreturns := lookupReturned_cases call root insert .STATUS_INSUFFICIENT_RESOURCES context s
      rw [Except.ok.inj h] at hreturns
      exact Or.inr hreturns
    · cases h
      exact Or.inl ⟨_, ⟨rfl, rfl, rfl⟩, rfl, rfl⟩

omit [DecidableEq ω] in
/-- A pointer that was used is not `NULL`. -/
theorem eq_some_of_deref {o : Option ω} {x : ω} (h : deref o = .ok x) : o = some x := by
  cases o with
  | none => cases h
  | some y => exact congrArg some (Except.ok.inj h)

omit [DecidableEq π] in
/-- What `lookupReturned` returns is what may follow. -/
theorem lookupReturns_of_eq {root : ω} {insert : Option ω} {status : KSTATUS}
    {context : OBP_LOOKUP_CONTEXT ω}
    (h : (Except.ok (lookupReturned call root insert status context s) :
      Kernel (NamePoint ω × NameSpace ω π)) = .ok (p', s')) :
    LookupReturns call s root insert status p' s' := by
  have hreturns := lookupReturned_cases call root insert status context s
  rwa [Except.ok.inj h] at hreturns

omit [DecidableEq π] in
/-- **A round of the loop** up to the lock. -/
theorem loopStep_cases {root : ω} {insert : Option ω} {l : LookupLocals ω}
    (h : loopStep call root insert l s = .ok (p', s')) :
    NameStep call a s (.loop root insert l) p' s' := by
  unfold loopStep at h
  obtain ⟨d, hd, h⟩ := kernel_bind_eq_ok.mp h
  obtain ⟨isDirectory, hdirectory, h⟩ := kernel_bind_eq_ok.mp h
  have hsome : l.directory ≠ none := by
    rw [eq_some_of_deref hd]
    exact Option.some_ne_none _
  split at h
  · exact .loopReturns hsome (Or.inl rfl) (lookupReturns_of_eq h)
  · rename_i htrue
    obtain ⟨next, hparse, h⟩ := kernel_bind_eq_ok.mp h
    cases next with
    | none => exact .loopReturns hsome (Or.inr ⟨rfl, hparse⟩) (lookupReturns_of_eq h)
    | some r =>
      cases h
      rw [Bool.not_eq_false] at htrue
      exact .loop (eq_some_of_deref hd) (htrue ▸ hdirectory) hparse ⟨rfl, rfl, eq_some_of_deref hd⟩

omit [DecidableEq π] in
/-- **A round of the loop** behind the lookup of the entry. -/
theorem enteredStep_cases {root : ω} {insert : Option ω} {l : LookupLocals ω}
    (h : enteredStep call root insert l s = .ok (p', s')) :
    NameStep call a s (.entered root insert l) p' s' := by
  unfold enteredStep at h
  split at h
  · rename_i hstatus
    obtain ⟨d, hd, h⟩ := kernel_bind_eq_ok.mp h
    obtain ⟨next, hparse, h⟩ := kernel_bind_eq_ok.mp h
    cases next with
    | some r => exact .enteredReturns (Or.inl rfl) (lookupReturns_of_eq h)
    | none =>
      cases insert with
      | none =>
        exact .enteredReturns (Or.inr (Or.inr ⟨rfl, hstatus, rfl, hparse⟩)) (lookupReturns_of_eq h)
      | some x =>
        cases h
        exact .name hstatus (eq_some_of_deref hd) hparse
  · rename_i hstatus
    split at h
    · rename_i hend
      exact .enteredReturns (Or.inr (Or.inl ⟨rfl, hstatus, hend⟩)) (lookupReturns_of_eq h)
    · cases h
      exact .entered hstatus

/-- **A call begins.** -/
theorem startStep_cases (h : call.step a s .start = .ok (p', s')) :
    NameStep call a s .start p' s' := by
  cases hcall : call with
  | lookup parent path =>
    subst hcall
    rcases lookupBegins_cases h with ⟨l, hl, rfl, rfl⟩ | hreturns
    · exact .startLookup rfl hl
    · cases hreturns with
      | lookup hc => exact .startFails (.refl s.ob) nofun
      | failed hc hstatus => cases hc
  | create c =>
    subst hcall
    obtain ⟨_, -, h⟩ := kernel_bind_eq_ok.mp h
    obtain ⟨⟨root, ob⟩, hroot, h⟩ := kernel_bind_eq_ok.mp h
    rcases lookupBegins_cases h with ⟨l, hl, rfl, rfl⟩ | hreturns
    · exact .startCreate rfl hroot hl
    · cases hreturns with
      | lookup hc => cases hc
      | failed hc hstatus => exact .startFails (.rootDirectory hroot) hstatus

/-- **The body of an object is initialised.** -/
theorem constructStep_cases {x : ω} (h : call.step a s (.construct x) = .ok (p', s')) :
    NameStep call a s (.construct x) p' s' := by
  cases hcall : call with
  | lookup parent path =>
    subst hcall
    cases h
    exact .idle
  | create c =>
    subst hcall
    cases hkind : c.kind with
    | object type =>
      unfold NameCall.step at h
      simp only [hkind] at h
      cases h
      exact .idle
    | directory handle =>
      unfold NameCall.step at h
      simp only [hkind] at h
      cases h
      exact .constructDirectory rfl hkind
    | symbolicLink target handle =>
      unfold NameCall.step at h
      simp only [hkind] at h
      obtain ⟨ob, href, h⟩ := kernel_bind_eq_ok.mp h
      cases h
      exact .constructLink rfl hkind (.reference href)

/-- **What a call can do next.** -/
theorem NameCall.step_cases (h : call.step a s p = .ok (p', s')) : NameStep call a s p p' s' := by
  cases p with
  | start => exact startStep_cases h
  | loop root insert l => exact loopStep_cases h
  | entry root insert l =>
    obtain ⟨d, hd, h⟩ := kernel_bind_eq_ok.mp h
    obtain ⟨⟨status, context⟩, hlookup, h⟩ := kernel_bind_eq_ok.mp h
    cases h
    exact .entry (eq_some_of_deref hd) hlookup
  | entered root insert l => exact enteredStep_cases h
  | link root x d context =>
    obtain ⟨s₁, hlink, h⟩ := kernel_bind_eq_ok.mp h
    exact .link hlink (lookupReturns_of_eq h)
  | openIf object =>
    cases hcall : call with
    | lookup parent path =>
      subst hcall
      cases h
      exact .idle
    | create c =>
      subst hcall
      obtain ⟨x, -, h⟩ := kernel_bind_eq_ok.mp h
      obtain ⟨_, -, h⟩ := kernel_bind_eq_ok.mp h
      obtain ⟨ob, href, h⟩ := kernel_bind_eq_ok.mp h
      cases h
      exact .openIf rfl (.reference href)
  | allocate root context =>
    unfold NameCall.step at h
    cases hmemory : a.memory with
    | none =>
      simp only [hmemory] at h
      cases h
      exact .allocateFails
    | some x =>
      simp only [hmemory] at h
      cases h
      exact .allocate hmemory
  | insert root x context =>
    obtain ⟨_, -, h⟩ := kernel_bind_eq_ok.mp h
    rcases lookupBegins_cases h with ⟨l, hl, rfl, rfl⟩ | hreturns
    · exact .insert hl
    · exact .insertFails hreturns
  | fillHeader x =>
    cases hcall : call with
    | lookup parent path =>
      subst hcall
      cases h
      exact .idle
    | create c =>
      subst hcall
      unfold NameCall.step at h
      cases hkind : c.kind with
      | object type =>
        simp only [hkind] at h
        cases h
        exact .fillHeader rfl (Or.inl ⟨⟨type, hkind⟩, rfl⟩)
      | directory handle =>
        simp only [hkind] at h
        cases h
        exact .fillHeader rfl (Or.inr ⟨by rw [hkind]; nofun, rfl⟩)
      | symbolicLink target handle =>
        simp only [hkind] at h
        cases h
        exact .fillHeader rfl (Or.inr ⟨by rw [hkind]; nofun, rfl⟩)
  | construct x => exact constructStep_cases h
  | insertHandle x =>
    cases hcall : call with
    | lookup parent path =>
      subst hcall
      cases h
      exact .idle
    | create c =>
      subst hcall
      obtain ⟨⟨status, handle, ob⟩, hinsert, h⟩ := kernel_bind_eq_ok.mp h
      simp only at h
      split at h
      · cases h
        exact .insertHandle rfl fun hfree => Counts.insertObject hfree hinsert
      · rename_i hstatus
        obtain ⟨ob', -, h⟩ := kernel_bind_eq_ok.mp h
        cases h
        exact .insertHandle rfl fun hfree =>
          absurd (Counts.insertObject hfree hinsert).1 hstatus
  | returned status object =>
    cases h
    exact .idle

end Transitions

end KaushOS
