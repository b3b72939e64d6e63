import KaushOS.Ob.HandleLookup
import KaushOS.Ob.LookupEnds

/-! # The early returns of `ObCreateObject` (`kern/ob/ob.c`, `kern/ob/ob.h`, `kern/mm/pool.c`)

`ObCreateObject` allocates the new header, and each lookup a name buffer, from the pool; each of its early
returns gives back what it has taken so far. Here the pool is part of the state.

* **`Pooled.obCreateObject`** — the whole function, with the pool and the `OpenProcedure` of the type.
* **`CreateCause`**, **`ObjectCreation.FailsBy`** — the ways in which a creation fails, and when it does.
* **`failed_creation_atomic_iff`** — which of them leave everything as it was. -/

namespace KaushOS

open Paths

variable {ω π : Type} [DecidableEq ω]

/-! ## The pool -/

/-- **A block of the pool**: the one of the object `x`, or the name buffer number `b`. -/
inductive PoolBlock (ω : Type)
  | header (x : ω)
  | name (b : Nat)
  deriving DecidableEq, Repr

/-- The tag `'tjbo'`, with which `ObCreateObject` frees a header. -/
def TAG_tjbo : UInt32 := 0x746A626F

/-- The tag `'mNbO'` of name buffers. -/
def TAG_mNbO : UInt32 := 0x6D4E624F

/-- `OBJECT_TYPE`: the members that `ObCreateObject` reads. -/
structure OBJECT_TYPE (ω : Type) where
  PoolTag : UInt32
  OpenProcedure : Option (ω → KSTATUS)

/-- **The object manager and its pool**: `block` is the tag of each block that is allocated. -/
structure Objects (ω π : Type) where
  ob : Ob ω π
  block : PoolBlock ω → Option UInt32

/-- **What `ObCreateObject` gets from outside**: the address of the caller's variable for the result, and the
blocks that the pool hands out for the header and for the name buffers of the two lookups. -/
structure CreateBlocks (ω : Type) where
  result : ω
  memory : Option ω
  lookupBuffer : Option Nat
  insertBuffer : Option Nat

namespace Pooled

/-- `ExAllocatePoolWithTag(..., Tag)`, for the block that is handed out. -/
def exAllocatePoolWithTag (b : PoolBlock ω) (tag : UInt32) (s : Objects ω π) : Objects ω π :=
  { s with block := Function.update s.block b (some tag) }

/-- `ExFreePoolWithTag(P, Tag)`, for a tag other than 0. -/
def exFreePoolWithTag (b : PoolBlock ω) (tag : UInt32) (s : Objects ω π) : Kernel (Objects ω π) :=
  if s.block b ≠ some tag then
    keBugCheck " Verification Failed Status 0x%x pooltype 0x%x oldtag %s newtag %s\n"
  else .ok { s with block := Function.update s.block b none }

/-- `ObpAllocateObjectNameBuffer`, at the start of a lookup. -/
def obpAllocateObjectNameBuffer (buffer : Option Nat) (s : Objects ω π) : Objects ω π :=
  match buffer with
  | none => s
  | some b => exAllocatePoolWithTag (.name b) TAG_mNbO s

/-- The end of a lookup: the name buffer is freed unless it has become the name of an object. -/
def exitObpLookupObjectByName (insert : Option ω) (buffer : Option Nat) (status : KSTATUS)
    (s : Objects ω π) : Kernel (Objects ω π) :=
  match buffer with
  | none => .ok s
  | some b =>
    if insert = none ∨ status ≠ .STATUS_SUCCESS then exFreePoolWithTag (.name b) TAG_mNbO s else .ok s

/-- **`ObpLookupObjectByName(Parent, Name, Context, InsertObjectHeader)`**, with its name buffer. -/
def obpLookupObjectByName (parent : ω) (name : List Char) (context : OBP_LOOKUP_CONTEXT ω)
    (insert : Option ω) (buffer : Option Nat) (s : Objects ω π) :
    Kernel (KSTATUS × OBP_LOOKUP_CONTEXT ω × Objects ω π) := do
  let s := obpAllocateObjectNameBuffer buffer s
  let (status, context, ob) ←
    KaushOS.obpLookupObjectByName (some parent) name context insert buffer.isSome s.ob
  let s ← exitObpLookupObjectByName insert buffer status { s with ob }
  return (status, context, s)

/-- The end of `ObCreateObject`: the header is filled in, the type's `OpenProcedure` is called, and the object
goes on the list of its type. -/
def openObject (types : OBJECT_TYPE_INDEX → OBJECT_TYPE ω) (type : OBJECT_TYPE_INDEX)
    (attributes : Option OBJECT_ATTRIBUTES) (x : ω) (s : Objects ω π) :
    Kernel (KSTATUS × Option ω × Objects ω π) := do
  let s := { s with ob := s.ob.setHeader x { s.ob.header x with
    Attributes := (attributes.map OBJECT_ATTRIBUTES.Attributes).getD 0
    ObjectType := some type, OpenHandleCount := 0, RefCount := 1 } }
  let status := ((types type).OpenProcedure.map fun f => f x).getD .STATUS_SUCCESS
  if ¬ K_SUCCESS status then
    let s ← exFreePoolWithTag (.header x) TAG_tjbo s
    return (status, none, s)
  else return (.STATUS_SUCCESS, some x, { s with ob := { s.ob with objects := insert x s.ob.objects } })

/-- The second half of `ObCreateObject`: the object does not exist yet. `name` is the directory, the path and
the lookup context of a named object. -/
def createNewObject (types : OBJECT_TYPE_INDEX → OBJECT_TYPE ω) (type : OBJECT_TYPE_INDEX)
    (attributes : Option OBJECT_ATTRIBUTES) (name : Option (ω × List Char × OBP_LOOKUP_CONTEXT ω))
    (blocks : CreateBlocks ω) (s : Objects ω π) : Kernel (KSTATUS × Option ω × Objects ω π) :=
  match blocks.memory with
  | none => .ok (.STATUS_INSUFFICIENT_RESOURCES, none, s)
  | some x => do
    let s := exAllocatePoolWithTag (.header x) (types type).PoolTag s
    let s := { s with ob := s.ob.setHeader x clearedHeader }
    match name with
    | none => openObject types type attributes x s
    | some (root, path, context) => do
      assert (path.length ≤ MAX_OBJECT_PATH)
        "ObjectAttributes->ObjectName->Length <= MAX_OBJECT_PATH"
      let (status, _, s) ← obpLookupObjectByName root path context (some x) blocks.insertBuffer s
      if ¬ K_SUCCESS status then
        let s ← exFreePoolWithTag (.header x) TAG_tjbo s
        return (status, none, s)
      else openObject types type attributes x s

/-- `ObCreateObject` for an object with a name, from the directory that its path starts in. -/
def createNamedObject (types : OBJECT_TYPE_INDEX → OBJECT_TYPE ω) (type : OBJECT_TYPE_INDEX)
    (attributes : OBJECT_ATTRIBUTES) (root : ω) (path : List Char) (blocks : CreateBlocks ω)
    (s : Objects ω π) : Kernel (KSTATUS × Option ω × Objects ω π) := do
  let (status, context, s) ←
    obpLookupObjectByName root path obInitializeLookupContext none blocks.lookupBuffer s
  if K_SUCCESS status then
    if attributes.Attributes &&& OBJ_OPENIF ≠ 0 then
      let x ← deref context.Object
      assert (obIsValidObject x s.ob = true) "ObIsValidObject(Context.Object)"
      -- the reference is taken on the caller's variable
      let ob ← obReferenceObject blocks.result s.ob
      return (status, some x, { s with ob })
    else return (.STATUS_OBJECT_NAME_COLLISION, none, s)
  else if status ≠ .STATUS_OBJECT_NAME_NOT_FOUND then return (status, none, s)
  else createNewObject types type (some attributes) (some (root, path, context)) blocks s

/-- **`ObCreateObject(ProbeMode, ObjectType, ObjectAttributes, ObjectSize, Object)`** in process `p`; the
second component is what is stored to `*Object`. -/
def obCreateObject (types : OBJECT_TYPE_INDEX → OBJECT_TYPE ω) (type : OBJECT_TYPE_INDEX)
    (attributes : Option OBJECT_ATTRIBUTES) (p : π) (blocks : CreateBlocks ω) (s : Objects ω π) :
    Kernel (KSTATUS × Option ω × Objects ω π) :=
  match attributes with
  | none => createNewObject types type attributes none blocks s
  | some attr => do
    assert (attr.Attributes &&& ~~~OBJ_VALID_ATTRIBUTES = 0)
      "(ObjectAttributes->Attributes & ~OBJ_VALID_ATTRIBUTES) == 0"
    match attr.ObjectName with
    | none => createNewObject types type attributes none blocks s
    | some path => do
      let (root, ob) ← rootDirectory attr p s.ob
      createNamedObject types type attr root path blocks { s with ob }

end Pooled

/-! ## Calls -/

/-- **A call of `ObCreateObject`**, with what the pool will hand out. -/
structure ObjectCreation (ω π : Type) where
  type : OBJECT_TYPE_INDEX
  attributes : Option OBJECT_ATTRIBUTES
  process : π
  blocks : CreateBlocks ω

/-- The call is made. -/
def ObjectCreation.run (call : ObjectCreation ω π) (types : OBJECT_TYPE_INDEX → OBJECT_TYPE ω)
    (s : Objects ω π) : Kernel (KSTATUS × Option ω × Objects ω π) :=
  Pooled.obCreateObject types call.type call.attributes call.process call.blocks s

/-- The directory that a path starts from. -/
def startDirectory (attr : OBJECT_ATTRIBUTES) (p : π) (s : Ob ω π) : Option ω :=
  match attr.RootDirectory with
  | none => s.ObRootDirectory
  | some i =>
    match s.Handle p i with
    | .object x => some x
    | .invalid | .null => none

/-- The call names the object by `path`, from the directory `root`. -/
structure ObjectCreation.Names (call : ObjectCreation ω π) (s : Objects ω π) (attr : OBJECT_ATTRIBUTES)
    (root : ω) (path : List Char) : Prop where
  attributes : call.attributes = some attr
  name : attr.ObjectName = some path
  start : startDirectory attr call.process s.ob = some root

/-- The call gives no name. -/
def ObjectCreation.Unnamed (call : ObjectCreation ω π) : Prop :=
  ∀ attr, call.attributes = some attr → attr.ObjectName = none

/-- **What is promised to `ObCreateObject`**: the attributes are valid, a path starts in a directory that exists
and is in use, all entries of directories are objects with names, and the pool hands out free blocks. -/
structure ObjectCreation.Promised (call : ObjectCreation ω π) (s : Objects ω π) : Prop where
  directories : DirectoriesValid s.ob
  attributes : ∀ attr, call.attributes = some attr → attr.Attributes &&& ~~~OBJ_VALID_ATTRIBUTES = 0
  path : ∀ attr, call.attributes = some attr → ∀ path, attr.ObjectName = some path →
    (∀ c ∈ path, c.toNat ≠ 0) ∧ ∃ root, startDirectory attr call.process s.ob = some root
  root : ∀ attr root path, call.Names s attr root path → root ∈ s.ob.objects
    ∧ obIsValidObject root s.ob = true ∧ IsDirectory s.ob root ∧ 0 < (s.ob.header root).RefCount
  memory : ∀ x, call.blocks.memory = some x →
    x ∉ s.ob.objects ∧ (∀ d, x ∉ s.ob.Head d) ∧ s.block (.header x) = none
  lookupBuffer : ∀ b, call.blocks.lookupBuffer = some b → s.block (.name b) = none
  insertBuffer : ∀ b, call.blocks.insertBuffer = some b → s.block (.name b) = none

/-- The state after the reference that is taken on a directory given by a handle. -/
def rootReferenced (attr : OBJECT_ATTRIBUTES) (root : ω) (s : Objects ω π) : Objects ω π :=
  match attr.RootDirectory with
  | none => s
  | some _ =>
    { s with ob := s.ob.setHeader root { s.ob.header root with RefCount := (s.ob.header root).RefCount + 1 } }

/-! ## Looking up, with the name buffer -/

variable {types : OBJECT_TYPE_INDEX → OBJECT_TYPE ω} {s s' : Objects ω π} {root x : ω} {path : List Char}
  {context : OBP_LOOKUP_CONTEXT ω} {insert : Option ω} {b : Nat}

open Pooled

/-- Without a name buffer the lookup fails. -/
theorem pooledLookup_noBuffer (hroot : s.ob.ObRootDirectory ≠ none) :
    Pooled.obpLookupObjectByName root path context insert none s
      = .ok (.STATUS_INSUFFICIENT_RESOURCES, context, s) := by
  rw [Pooled.obpLookupObjectByName, KaushOS.obpLookupObjectByName, Pooled.obpAllocateObjectNameBuffer,
    if_neg hroot]
  rfl

/-- A block that is allocated and freed again. -/
theorem update_block_free {f : PoolBlock ω → Option UInt32} {b : PoolBlock ω} {t : UInt32}
    (hfree : f b = none) : Function.update (Function.update f b (some t)) b none = f := by
  rw [Function.update_idem, ← hfree, Function.update_eq_self]

/-- **With a name buffer the lookup goes on**, and gives the buffer back unless it has inserted. -/
theorem pooledLookup_buffer (hfree : s.block (.name b) = none) :
    Pooled.obpLookupObjectByName root path context insert (some b) s
      = (KaushOS.obpLookupObjectByName (some root) path context insert true s.ob).map fun r =>
          (r.1, r.2.1,
            { ob := r.2.2
              block := if insert = none ∨ r.1 ≠ .STATUS_SUCCESS then s.block
                else Function.update s.block (.name b) (some TAG_mNbO) }) := by
  rw [Pooled.obpLookupObjectByName, Pooled.obpAllocateObjectNameBuffer, Pooled.exAllocatePoolWithTag]
  simp only [Option.isSome_some]
  cases KaushOS.obpLookupObjectByName (some root) path context insert true s.ob with
  | error e => rfl
  | ok r =>
    rw [kernel_ok_bind, exitObpLookupObjectByName]
    by_cases hfreed : insert = none ∨ r.1 ≠ .STATUS_SUCCESS
    · have hblock : Function.update s.block (.name b) (some TAG_mNbO) (.name b) = some TAG_mNbO :=
        Function.update_self ..
      simp only [if_pos hfreed, exFreePoolWithTag, hblock, Except.map]
      rw [if_neg (not_not_intro rfl), kernel_ok_bind, update_block_free hfree]
      rfl
    · simp only [if_neg hfreed, Except.map]
      rfl

/-- **The status of a lookup that inserts nothing**, by the way it ends. A component that is too long is
stopped by an assertion. -/
def LookupEnd.status : LookupEnd ω → Option KSTATUS
  | .blocked _ _ | .gap _ _ => some .STATUS_OBJECT_PATH_NOT_FOUND
  | .trailing _ _ | .last _ _ _ => some .STATUS_SUCCESS
  | .missing _ _ _ => some .STATUS_OBJECT_NAME_NOT_FOUND
  | .tooLong => none

variable {finish : LookupEnd ω} {status : KSTATUS}

/-- **The first lookup** changes nothing. -/
theorem pooledLookup_ends (hs : DirectoriesValid s.ob) (hpath : ∀ c ∈ path, c.toNat ≠ 0)
    (hvalid : obIsValidObject root s.ob = true) (hroot : IsDirectory s.ob root)
    (hfree : s.block (.name b) = none) (hends : EndsAt s.ob root path finish)
    (hstatus : finish.status = some status) :
    ∃ context, Pooled.obpLookupObjectByName root path obInitializeLookupContext none (some b) s
      = .ok (status, context, s) := by
  have hlookup : ∃ context, KaushOS.obpLookupObjectByName (some root) path obInitializeLookupContext none
      true s.ob = .ok (status, context, s.ob) := by
    by_cases hcomponent : pathComponents path = []
    · obtain rfl := hends.eq_trailing hroot hcomponent
      cases hstatus
      exact ⟨_, lookup_no_component hs hvalid hroot ⟨hpath, by simp [hcomponent]⟩ hcomponent⟩
    · have hanswer : LookupAnswer s.ob none finish
          (KaushOS.obpLookupObjectByName (some root) path obInitializeLookupContext none true s.ob) :=
        lookup_ends hs (by simp) hends hpath hvalid hcomponent
      generalize KaushOS.obpLookupObjectByName (some root) path obInitializeLookupContext none true s.ob = r
        at hanswer
      cases hanswer with
      | inserted hinsert => cases hinsert
      | tooLong => cases hstatus
      | blocked | trailing | last | missing | gap =>
        cases hstatus
        exact ⟨_, rfl⟩
  obtain ⟨context, hlookup⟩ := hlookup
  refine ⟨context, ?_⟩
  rw [pooledLookup_buffer hfree, hlookup]
  simp only [Except.map, true_or, if_true]

/-! ## The directory that the path starts from -/

variable {attr : OBJECT_ATTRIBUTES} {call : ObjectCreation ω π}

/-- A reference changes one counter. -/
theorem rootReferenced_header (attr : OBJECT_ATTRIBUTES) (root : ω) (s : Objects ω π) (y : ω) :
    ∃ n, (rootReferenced attr root s).ob.header y = { s.ob.header y with RefCount := n } := by
  unfold rootReferenced
  cases attr.RootDirectory with
  | none => exact ⟨_, rfl⟩
  | some i =>
    by_cases hy : y = root
    · subst hy
      exact ⟨_, Ob.setHeader_self ..⟩
    · exact ⟨_, Ob.setHeader_of_ne _ _ hy⟩

/-- A reference leaves the rest of the state alone. -/
theorem rootReferenced_rest (attr : OBJECT_ATTRIBUTES) (root : ω) (s : Objects ω π) :
    (rootReferenced attr root s).ob.Head = s.ob.Head
      ∧ (rootReferenced attr root s).ob.objects = s.ob.objects
      ∧ (rootReferenced attr root s).ob.ObRootDirectory = s.ob.ObRootDirectory
      ∧ (rootReferenced attr root s).block = s.block := by
  unfold rootReferenced
  cases attr.RootDirectory <;> exact ⟨rfl, rfl, rfl, rfl⟩

/-- **A state in which a path can be looked up and an object be created**, with the blocks of the pool. -/
structure Prepared (s : Objects ω π) (root : ω) (path : List Char) (blocks : CreateBlocks ω) : Prop where
  directories : DirectoriesValid s.ob
  char : ∀ c ∈ path, c.toNat ≠ 0
  valid : obIsValidObject root s.ob = true
  directory : IsDirectory s.ob root
  object : root ∈ s.ob.objects
  memory : ∀ x, blocks.memory = some x →
    x ∉ s.ob.objects ∧ (∀ d, x ∉ s.ob.Head d) ∧ s.block (.header x) = none
  lookupBuffer : ∀ b, blocks.lookupBuffer = some b → s.block (.name b) = none
  insertBuffer : ∀ b, blocks.insertBuffer = some b → s.block (.name b) = none

/-- The state with the reference is one. -/
theorem ObjectCreation.Promised.prepared (hcall : call.Promised s) (hnames : call.Names s attr root path) :
    Prepared (rootReferenced attr root s) root path call.blocks := by
  obtain ⟨hobject, hvalid, hdirectory, -⟩ := hcall.root attr root path hnames
  obtain ⟨hHead, hobjects, hroot, hblock⟩ := rootReferenced_rest attr root s
  have htype : ∀ y, ((rootReferenced attr root s).ob.header y).ObjectType = (s.ob.header y).ObjectType := by
    intro y
    obtain ⟨n, hy⟩ := rootReferenced_header attr root s y
    rw [hy]
  have hmagic : ∀ y, obIsValidObject y (rootReferenced attr root s).ob = obIsValidObject y s.ob := by
    intro y
    obtain ⟨n, hy⟩ := rootReferenced_header attr root s y
    rw [obIsValidObject, obIsValidObject, hy]
  have hname : ∀ y, ((rootReferenced attr root s).ob.header y).ObjectName = (s.ob.header y).ObjectName := by
    intro y
    obtain ⟨n, hy⟩ := rootReferenced_header attr root s y
    rw [hy]
  refine ⟨⟨hroot ▸ hcall.directories.root, ?_⟩, (hcall.path attr hnames.attributes path hnames.name).1,
    (hmagic root).trans hvalid, (htype root).trans hdirectory, hobjects ▸ hobject, ?_, ?_, ?_⟩
  · intro d hd x hx
    rw [hmagic, hname]
    exact hcall.directories.entry d ((htype d).symm.trans hd) x (hHead ▸ hx)
  · rw [hobjects, hHead, hblock]
    exact hcall.memory
  · rw [hblock]
    exact hcall.lookupBuffer
  · rw [hblock]
    exact hcall.insertBuffer

/-- Paths lead to the same objects. -/
theorem EndsAt.rootReferenced {d : ω} (h : EndsAt s.ob d path finish) (attr : OBJECT_ATTRIBUTES) (root : ω) :
    EndsAt (KaushOS.rootReferenced attr root s).ob d path finish := by
  refine h.congr (P := fun _ => True) trivial (fun _ _ _ _ => trivial) (fun d _ => ?_) (fun d _ => ?_)
    fun d _ => ?_
  · rw [(rootReferenced_rest attr root s).1]
  · obtain ⟨n, hd⟩ := rootReferenced_header attr root s d
    rw [hd]
  · obtain ⟨n, hd⟩ := rootReferenced_header attr root s d
    rw [hd]

/-- The directory is referenced if it is given by a handle. -/
theorem rootDirectory_promised (hcall : call.Promised s) (hnames : call.Names s attr root path) :
    rootDirectory attr call.process s.ob = .ok (root, (KaushOS.rootReferenced attr root s).ob) := by
  obtain ⟨-, hvalid, hdirectory, href⟩ := hcall.root attr root path hnames
  have hstart := hnames.start
  unfold startDirectory at hstart
  unfold rootDirectory KaushOS.rootReferenced
  cases hhandle : attr.RootDirectory with
  | none =>
    rw [hhandle] at hstart
    simp only at hstart ⊢
    rw [hstart, assert_of_true (by simp), kernel_ok_bind, deref_some, kernel_ok_bind]
    rfl
  | some i =>
    rw [hhandle] at hstart
    simp only at hstart ⊢
    cases hentry : s.ob.Handle call.process i with
    | object x =>
      rw [hentry] at hstart
      obtain rfl := Option.some.inj hstart
      rw [KaushOS.obReferenceObjectByHandle, hentry]
      simp only
      have htype : (s.ob.header x).ObjectType = some .OBJECT_TYPE_DIRECTORY := hdirectory
      rw [assert_of_true htype, kernel_ok_bind, assert_of_true (ne_of_gt href), kernel_ok_bind,
        obReferenceObject_eq hvalid href, kernel_ok_bind]
      rfl
    | invalid | null =>
      rw [hentry] at hstart
      cases hstart

/-- **A call with a name** starts in the directory. -/
theorem ObjectCreation.run_named (hcall : call.Promised s) (hnames : call.Names s attr root path) :
    call.run types s
      = createNamedObject types call.type attr root path call.blocks (KaushOS.rootReferenced attr root s) := by
  rw [ObjectCreation.run, hnames.attributes]
  unfold Pooled.obCreateObject
  simp only
  rw [assert_of_true (hcall.attributes attr hnames.attributes), kernel_ok_bind, hnames.name]
  simp only
  rw [rootDirectory_promised hcall hnames, kernel_ok_bind]
  unfold KaushOS.rootReferenced
  cases attr.RootDirectory <;> rfl

/-- **A call without a name** creates. -/
theorem ObjectCreation.run_unnamed (hcall : call.Promised s) (hunnamed : call.Unnamed) :
    call.run types s = Pooled.createNewObject types call.type call.attributes none call.blocks s := by
  unfold ObjectCreation.run Pooled.obCreateObject
  cases hattributes : call.attributes with
  | none => rfl
  | some attr =>
    simp only
    rw [assert_of_true (hcall.attributes attr hattributes), kernel_ok_bind, hunnamed attr hattributes]

/-! ## Creating -/

variable {blocks : CreateBlocks ω} {type : OBJECT_TYPE_INDEX} {attributes : Option OBJECT_ATTRIBUTES}
  {name : Option (ω × List Char × OBP_LOOKUP_CONTEXT ω)} {tag : UInt32} {e : ω} {rest c : List Char}

/-- The status of the type's `OpenProcedure`. -/
def OBJECT_TYPE.openStatus (type : OBJECT_TYPE ω) (x : ω) : KSTATUS :=
  (type.OpenProcedure.map fun f => f x).getD .STATUS_SUCCESS

/-- The state with a new header, which is cleared. -/
def withHeader (tag : UInt32) (x : ω) (s : Objects ω π) : Objects ω π :=
  { ob := s.ob.setHeader x clearedHeader, block := Function.update s.block (.header x) (some tag) }

/-- The header of an object that is complete. -/
def openedHeader (type : OBJECT_TYPE_INDEX) (attributes : Option OBJECT_ATTRIBUTES) (h : OBJECT_HEADER) :
    OBJECT_HEADER :=
  { h with
    Attributes := (attributes.map OBJECT_ATTRIBUTES.Attributes).getD 0
    ObjectType := some type, OpenHandleCount := 0, RefCount := 1 }

/-- Without memory for the header nothing is done. -/
theorem createNewObject_noHeader (hmemory : blocks.memory = none) :
    Pooled.createNewObject types type attributes name blocks s
      = .ok (.STATUS_INSUFFICIENT_RESOURCES, none, s) := by
  rw [Pooled.createNewObject, hmemory]

/-- An object without a name goes straight to its `OpenProcedure`. -/
theorem createNewObject_unnamed (hmemory : blocks.memory = some x) :
    Pooled.createNewObject types type attributes none blocks s
      = openObject types type attributes x (withHeader (types type).PoolTag x s) := by
  rw [Pooled.createNewObject, hmemory]
  rfl

/-- **Freeing the header** takes the tag that it was allocated with. -/
theorem freeHeader_eq (hblock : s.block (.header x) = some tag) :
    exFreePoolWithTag (.header x) TAG_tjbo s
      = if tag = TAG_tjbo then .ok { s with block := Function.update s.block (.header x) none }
        else keBugCheck " Verification Failed Status 0x%x pooltype 0x%x oldtag %s newtag %s\n" := by
  rw [exFreePoolWithTag, hblock]
  by_cases htag : tag = TAG_tjbo
  · rw [if_pos htag, htag, if_neg (not_not_intro rfl)]
  · rw [if_neg htag, if_pos fun h => htag (Option.some.inj h)]

/-- The object that cannot be opened is freed. -/
theorem openObject_fails (hblock : s.block (.header x) = some tag)
    (hopen : ¬ K_SUCCESS ((types type).openStatus x)) :
    openObject types type attributes x s
      = if tag = TAG_tjbo then
          .ok ((types type).openStatus x, none,
            { ob := s.ob.setHeader x (openedHeader type attributes (s.ob.header x))
              block := Function.update s.block (.header x) none })
        else keBugCheck " Verification Failed Status 0x%x pooltype 0x%x oldtag %s newtag %s\n" := by
  rw [OBJECT_TYPE.openStatus] at hopen ⊢
  have hfree := freeHeader_eq (s := ⟨s.ob.setHeader x (openedHeader type attributes (s.ob.header x)), s.block⟩)
    hblock
  rw [openedHeader] at hfree ⊢
  rw [openObject]
  simp only [if_pos hopen]
  rw [hfree]
  by_cases htag : tag = TAG_tjbo
  · rw [if_pos htag, if_pos htag]
    rfl
  · rw [if_neg htag, if_neg htag]
    rfl

/-- The object that can be opened is there. -/
theorem openObject_succeeds (hopen : K_SUCCESS ((types type).openStatus x)) :
    openObject types type attributes x s
      = .ok (.STATUS_SUCCESS, some x,
          { s with ob :=
            { s.ob.setHeader x (openedHeader type attributes (s.ob.header x)) with
              objects := Insert.insert x s.ob.objects } }) := by
  rw [OBJECT_TYPE.openStatus] at hopen
  rw [openObject]
  simp only [if_neg (not_not_intro hopen)]
  rfl

namespace Prepared

/-- Clearing the new header changes no directory. -/
theorem withHeader_ends (hs : Prepared s root path blocks) (hmemory : blocks.memory = some x)
    (hends : EndsAt s.ob root path finish) (tag : UInt32) :
    EndsAt (withHeader tag x s).ob root path finish := by
  obtain ⟨hobject, hHead, -⟩ := hs.memory x hmemory
  refine hends.congr (P := fun y => y ≠ x) (fun h => hobject (h ▸ hs.object))
    (fun d _ y hy h => hHead d (h ▸ hy)) (fun _ _ => rfl) (fun d hd => ?_) fun d hd => ?_
  · rw [withHeader, Ob.setHeader_of_ne _ _ hd]
  · rw [withHeader, Ob.setHeader_of_ne _ _ hd]

/-- The directories stay in order. -/
theorem withHeader_directories (hs : Prepared s root path blocks) (hmemory : blocks.memory = some x)
    (tag : UInt32) : DirectoriesValid (withHeader tag x s).ob := by
  obtain ⟨-, hHead, -⟩ := hs.memory x hmemory
  refine ⟨hs.directories.root, fun d hd y hy => ?_⟩
  have hdx : d ≠ x := by
    rintro rfl
    rw [IsDirectory, withHeader, Ob.setHeader_self] at hd
    cases hd
  have hyx : y ≠ x := fun h => hHead d (h ▸ hy)
  rw [IsDirectory, withHeader, Ob.setHeader_of_ne _ _ hdx] at hd
  rw [obIsValidObject, withHeader, Ob.setHeader_of_ne _ _ hyx]
  exact hs.directories.entry d hd y hy

/-- The starting directory is still valid. -/
theorem withHeader_valid (hs : Prepared s root path blocks) (hmemory : blocks.memory = some x)
    (tag : UInt32) : obIsValidObject root (withHeader tag x s).ob = true := by
  have hroot : root ≠ x := fun h => (hs.memory x hmemory).1 (h ▸ hs.object)
  rw [obIsValidObject, withHeader, Ob.setHeader_of_ne _ _ hroot]
  exact hs.valid

/-- **Without a name buffer for the second lookup** the header is freed again. -/
theorem createNewObject_notInserted (hs : Prepared s root path blocks) (hmemory : blocks.memory = some x)
    (hlength : path.length ≤ MAX_OBJECT_PATH) (hbuffer : blocks.insertBuffer = none) :
    Pooled.createNewObject types type attributes (some (root, path, context)) blocks s
      = if (types type).PoolTag = TAG_tjbo then
          .ok (.STATUS_INSUFFICIENT_RESOURCES, none, { s with ob := s.ob.setHeader x clearedHeader })
        else keBugCheck " Verification Failed Status 0x%x pooltype 0x%x oldtag %s newtag %s\n" := by
  have hlookup : Pooled.obpLookupObjectByName root path context (some x) none
      (withHeader (types type).PoolTag x s)
      = .ok (.STATUS_INSUFFICIENT_RESOURCES, context, withHeader (types type).PoolTag x s) :=
    pooledLookup_noBuffer hs.directories.root
  have hfree : exFreePoolWithTag (.header x) TAG_tjbo (withHeader (types type).PoolTag x s) = _ :=
    freeHeader_eq (Function.update_self ..)
  have hfailed : ¬ K_SUCCESS .STATUS_INSUFFICIENT_RESOURCES := by decide
  rw [withHeader] at hlookup hfree
  rw [Pooled.createNewObject, hmemory]
  simp only [exAllocatePoolWithTag]
  rw [assert_of_true hlength, kernel_ok_bind, hbuffer, hlookup, kernel_ok_bind]
  simp only [if_pos hfailed]
  rw [hfree]
  by_cases htag : (types type).PoolTag = TAG_tjbo
  · rw [if_pos htag, if_pos htag, kernel_ok_bind, update_block_free (hs.memory x hmemory).2.2]
    rfl
  · rw [if_neg htag, if_neg htag]
    rfl

/-- **With a name buffer** the object is linked into the directory before it is opened. -/
theorem createNewObject_inserted (hs : Prepared s root path blocks) (hmemory : blocks.memory = some x)
    (hlength : path.length ≤ MAX_OBJECT_PATH) (hbuffer : blocks.insertBuffer = some b)
    (hends : EndsAt s.ob root path (.missing e rest c)) :
    Pooled.createNewObject types type attributes (some (root, path, context)) blocks s
      = openObject types type attributes x
          { ob := insertEntry (withHeader (types type).PoolTag x s).ob e x c
            block := Function.update (withHeader (types type).PoolTag x s).block (.name b) (some TAG_mNbO) } := by
  have hanswer : LookupAnswer (withHeader (types type).PoolTag x s).ob (some x) (.missing e rest c)
      (KaushOS.obpLookupObjectByName (some root) path context (some x) true
        (withHeader (types type).PoolTag x s).ob) := by
    refine lookup_ends (hs.withHeader_directories hmemory _) ?_ (hs.withHeader_ends hmemory hends _) hs.char
      (hs.withHeader_valid hmemory _) hends.component
    intro o ho
    obtain rfl := Option.some.inj ho
    rw [withHeader, Ob.setHeader_self]
    rfl
  have hother : (PoolBlock.name b : PoolBlock ω) ≠ .header x := by simp
  have hfree : (withHeader (types type).PoolTag x s).block (.name b) = none :=
    (Function.update_of_ne hother (some (types type).PoolTag) s.block).trans (hs.insertBuffer b hbuffer)
  have hlookup : ∃ context', Pooled.obpLookupObjectByName root path context (some x) (some b)
      (withHeader (types type).PoolTag x s)
      = .ok (.STATUS_SUCCESS, context',
          { ob := insertEntry (withHeader (types type).PoolTag x s).ob e x c
            block := Function.update (withHeader (types type).PoolTag x s).block (.name b)
              (some TAG_mNbO) }) := by
    rw [pooledLookup_buffer hfree]
    generalize KaushOS.obpLookupObjectByName (some root) path context (some x) true
      (withHeader (types type).PoolTag x s).ob = r at hanswer
    cases hanswer with
    | missing hinsert => cases hinsert
    | @inserted _ _ _ _ context' hinsert =>
      obtain rfl := Option.some.inj hinsert
      exact ⟨context', by simp [Except.map]⟩
  obtain ⟨context', hlookup⟩ := hlookup
  rw [Pooled.createNewObject, hmemory]
  simp only [exAllocatePoolWithTag]
  rw [assert_of_true hlength, kernel_ok_bind, hbuffer]
  rw [withHeader] at hlookup ⊢
  rw [hlookup, kernel_ok_bind]
  simp only [if_neg (not_not_intro status_success)]

/-! ## The first lookup decides -/

/-- Without a name buffer for the first lookup nothing is done. -/
theorem createNamedObject_noNameBuffer (hs : Prepared s root path blocks)
    (hbuffer : blocks.lookupBuffer = none) :
    createNamedObject types type attr root path blocks s = .ok (.STATUS_INSUFFICIENT_RESOURCES, none, s) := by
  have hfailed : ¬ K_SUCCESS .STATUS_INSUFFICIENT_RESOURCES := by decide
  rw [createNamedObject, hbuffer, pooledLookup_noBuffer hs.directories.root, kernel_ok_bind]
  simp only [if_neg hfailed]
  rfl

/-- The path denotes an object that is not to be opened. -/
theorem createNamedObject_collision (hs : Prepared s root path blocks)
    (hbuffer : blocks.lookupBuffer = some b) (hends : EndsAt s.ob root path finish)
    (hstatus : finish.status = some .STATUS_SUCCESS) (hopenIf : attr.Attributes &&& OBJ_OPENIF = 0) :
    createNamedObject types type attr root path blocks s = .ok (.STATUS_OBJECT_NAME_COLLISION, none, s) := by
  obtain ⟨context, hlookup⟩ := pooledLookup_ends hs.directories hs.char hs.valid hs.directory
    (hs.lookupBuffer b hbuffer) hends hstatus
  rw [createNamedObject, hbuffer, hlookup, kernel_ok_bind]
  simp only [if_pos status_success]
  rw [if_neg (not_not_intro hopenIf)]
  rfl

/-- The path leads nowhere. -/
theorem createNamedObject_pathNotFound (hs : Prepared s root path blocks)
    (hbuffer : blocks.lookupBuffer = some b) (hends : EndsAt s.ob root path finish)
    (hstatus : finish.status = some .STATUS_OBJECT_PATH_NOT_FOUND) :
    createNamedObject types type attr root path blocks s = .ok (.STATUS_OBJECT_PATH_NOT_FOUND, none, s) := by
  obtain ⟨context, hlookup⟩ := pooledLookup_ends hs.directories hs.char hs.valid hs.directory
    (hs.lookupBuffer b hbuffer) hends hstatus
  have hfailed : ¬ K_SUCCESS .STATUS_OBJECT_PATH_NOT_FOUND := by decide
  rw [createNamedObject, hbuffer, hlookup, kernel_ok_bind]
  simp only [if_neg hfailed]
  rfl

/-- **The name is free**, and the object is created. -/
theorem createNamedObject_creates (types : OBJECT_TYPE_INDEX → OBJECT_TYPE ω) (type : OBJECT_TYPE_INDEX)
    (hs : Prepared s root path blocks) (hbuffer : blocks.lookupBuffer = some b)
    (hends : EndsAt s.ob root path (.missing e rest c)) :
    ∃ context, ∀ attr : OBJECT_ATTRIBUTES, createNamedObject types type attr root path blocks s
      = Pooled.createNewObject types type (some attr) (some (root, path, context)) blocks s := by
  obtain ⟨context, hlookup⟩ := pooledLookup_ends hs.directories hs.char hs.valid hs.directory
    (hs.lookupBuffer b hbuffer) hends rfl
  have hfailed : ¬ K_SUCCESS .STATUS_OBJECT_NAME_NOT_FOUND := by decide
  refine ⟨context, fun attr => ?_⟩
  rw [createNamedObject, hbuffer, hlookup, kernel_ok_bind]
  simp only [if_neg hfailed]
  rw [if_neg (by simp)]

/-- A component is too long. -/
theorem createNamedObject_tooLong (hs : Prepared s root path blocks)
    (hbuffer : blocks.lookupBuffer = some b) (hends : EndsAt s.ob root path .tooLong) :
    createNamedObject types type attr root path blocks s
      = .error (.assertion "Length <= DirName->MaximumLength") := by
  have hcomponent : pathComponents path ≠ [] := by
    intro hnil
    cases hends.eq_trailing hs.directory hnil
  have hanswer : LookupAnswer s.ob none .tooLong
      (KaushOS.obpLookupObjectByName (some root) path obInitializeLookupContext none true s.ob) :=
    lookup_ends hs.directories (by simp) hends hs.char hs.valid hcomponent
  rw [createNamedObject, hbuffer, pooledLookup_buffer (hs.lookupBuffer b hbuffer)]
  generalize KaushOS.obpLookupObjectByName (some root) path obInitializeLookupContext none true s.ob = r
    at hanswer
  cases hanswer
  rfl

/-- **The object is opened**: a call that returns has taken the reference on the caller's variable. -/
theorem createNamedObject_opened (hs : Prepared s root path blocks)
    (hbuffer : blocks.lookupBuffer = some b) (hends : EndsAt s.ob root path finish)
    (hstatus : finish.status = some .STATUS_SUCCESS) (hopenIf : attr.Attributes &&& OBJ_OPENIF ≠ 0)
    {status : KSTATUS} {object : Option ω}
    (h : createNamedObject types type attr root path blocks s = .ok (status, object, s')) :
    K_SUCCESS status ∧ ∃ ob, obReferenceObject blocks.result s.ob = .ok ob ∧ s' = { s with ob } := by
  obtain ⟨context, hlookup⟩ := pooledLookup_ends hs.directories hs.char hs.valid hs.directory
    (hs.lookupBuffer b hbuffer) hends hstatus
  rw [createNamedObject, hbuffer, hlookup, kernel_ok_bind] at h
  simp only [if_pos status_success] at h
  rw [if_pos hopenIf] at h
  obtain ⟨x, -, h⟩ := kernel_bind_eq_ok.mp h
  obtain ⟨_, -, h⟩ := kernel_bind_eq_ok.mp h
  obtain ⟨ob, hob, h⟩ := kernel_bind_eq_ok.mp h
  cases h
  exact ⟨status_success, ob, hob, rfl⟩

end Prepared

/-! ## Failed creations -/

/-- **Why a creation fails.** -/
inductive CreateCause
  /-- There is no name buffer for the first lookup. -/
  | noNameBuffer
  /-- The path denotes an object already, which is not to be opened. -/
  | nameCollision
  /-- The path leads nowhere. -/
  | pathNotFound
  /-- The path or one of its components is too long. -/
  | pathTooLong
  /-- There is no memory for the object. -/
  | noHeader
  /-- There is no name buffer for the second lookup. -/
  | notInserted
  /-- The `OpenProcedure` of the type fails. -/
  | openFailed
  deriving DecidableEq, Repr

/-- **The name is free**: the last component of the path is missing from the directory `e`. -/
structure ObjectCreation.FindsFree (call : ObjectCreation ω π) (s : Objects ω π) (attr : OBJECT_ATTRIBUTES)
    (root : ω) (path : List Char) (e : ω) : Prop where
  names : call.Names s attr root path
  buffer : call.blocks.lookupBuffer ≠ none
  ends : ∃ rest c, EndsAt s.ob root path (.missing e rest c)

/-- **When a creation fails**, and why. -/
inductive ObjectCreation.FailsBy (types : OBJECT_TYPE_INDEX → OBJECT_TYPE ω) (call : ObjectCreation ω π)
    (s : Objects ω π) : CreateCause → Prop
  | noNameBuffer {attr : OBJECT_ATTRIBUTES} {root : ω} {path : List Char}
      (hnames : call.Names s attr root path) (hbuffer : call.blocks.lookupBuffer = none) :
      FailsBy types call s .noNameBuffer
  | nameCollision {attr : OBJECT_ATTRIBUTES} {root : ω} {path : List Char} {finish : LookupEnd ω}
      (hnames : call.Names s attr root path) (hbuffer : call.blocks.lookupBuffer ≠ none)
      (hends : EndsAt s.ob root path finish) (hstatus : finish.status = some .STATUS_SUCCESS)
      (hopenIf : attr.Attributes &&& OBJ_OPENIF = 0) : FailsBy types call s .nameCollision
  | pathNotFound {attr : OBJECT_ATTRIBUTES} {root : ω} {path : List Char} {finish : LookupEnd ω}
      (hnames : call.Names s attr root path) (hbuffer : call.blocks.lookupBuffer ≠ none)
      (hends : EndsAt s.ob root path finish) (hstatus : finish.status = some .STATUS_OBJECT_PATH_NOT_FOUND) :
      FailsBy types call s .pathNotFound
  | componentTooLong {attr : OBJECT_ATTRIBUTES} {root : ω} {path : List Char}
      (hnames : call.Names s attr root path) (hbuffer : call.blocks.lookupBuffer ≠ none)
      (hends : EndsAt s.ob root path .tooLong) : FailsBy types call s .pathTooLong
  | noHeader (hunnamed : call.Unnamed) (hmemory : call.blocks.memory = none) : FailsBy types call s .noHeader
  | noNamedHeader {attr : OBJECT_ATTRIBUTES} {root e : ω} {path : List Char}
      (hfree : call.FindsFree s attr root path e) (hmemory : call.blocks.memory = none) :
      FailsBy types call s .noHeader
  | pathTooLong {attr : OBJECT_ATTRIBUTES} {root e x : ω} {path : List Char}
      (hfree : call.FindsFree s attr root path e) (hmemory : call.blocks.memory = some x)
      (hlong : MAX_OBJECT_PATH < path.length) : FailsBy types call s .pathTooLong
  | notInserted {attr : OBJECT_ATTRIBUTES} {root e x : ω} {path : List Char}
      (hfree : call.FindsFree s attr root path e) (hmemory : call.blocks.memory = some x)
      (hlength : path.length ≤ MAX_OBJECT_PATH) (hbuffer : call.blocks.insertBuffer = none) :
      FailsBy types call s .notInserted
  | openFailed {x : ω} (hunnamed : call.Unnamed) (hmemory : call.blocks.memory = some x)
      (hopen : ¬ K_SUCCESS ((types call.type).openStatus x)) : FailsBy types call s .openFailed
  | namedOpenFailed {attr : OBJECT_ATTRIBUTES} {root e x : ω} {path : List Char}
      (hfree : call.FindsFree s attr root path e) (hmemory : call.blocks.memory = some x)
      (hlength : path.length ≤ MAX_OBJECT_PATH) (hbuffer : call.blocks.insertBuffer ≠ none)
      (hopen : ¬ K_SUCCESS ((types call.type).openStatus x)) : FailsBy types call s .openFailed

/-- **Nothing has happened**: no entry of a directory and no object has come or gone, the same blocks are
allocated, and no reference has been counted. -/
structure LeftAlone (s s' : Objects ω π) : Prop where
  Head : s'.ob.Head = s.ob.Head
  objects : s'.ob.objects = s.ob.objects
  block : s'.block = s.block
  count : ∀ x ∈ s.ob.objects, (s'.ob.header x).RefCount = (s.ob.header x).RefCount

/-- **The creation fails and leaves everything as it was.** -/
def ObjectCreation.FailsAtomically (types : OBJECT_TYPE_INDEX → OBJECT_TYPE ω) (call : ObjectCreation ω π)
    (s : Objects ω π) : Prop :=
  ∃ status s', call.run types s = .ok (status, none, s') ∧ ¬ K_SUCCESS status ∧ LeftAlone s s'

/-- A path does not start from a handle, whose reference would never be given back. -/
def ObjectCreation.TakesNoReference (call : ObjectCreation ω π) : Prop :=
  ∀ attr, call.attributes = some attr → attr.ObjectName ≠ none → attr.RootDirectory = none

/-- **The failures that are cleaned up behind.** -/
def ObjectCreation.CleansUp (types : OBJECT_TYPE_INDEX → OBJECT_TYPE ω) (call : ObjectCreation ω π) :
    CreateCause → Prop
  | .noNameBuffer | .nameCollision | .pathNotFound | .noHeader => call.TakesNoReference
  | .notInserted => call.TakesNoReference ∧ (types call.type).PoolTag = TAG_tjbo
  | .openFailed => call.Unnamed ∧ (types call.type).PoolTag = TAG_tjbo
  | .pathTooLong => False

omit [DecidableEq ω] in
/-- A state is left alone as it is. -/
theorem LeftAlone.same (s : Objects ω π) : LeftAlone s s := ⟨rfl, rfl, rfl, fun _ _ => rfl⟩

/-- Memory that is no object does not matter. -/
theorem leftAlone_setHeader {h : OBJECT_HEADER} {ob : Ob ω π} {block : PoolBlock ω → Option UInt32}
    (hx : x ∉ s.ob.objects) : LeftAlone s ⟨ob.setHeader x h, block⟩ ↔ LeftAlone s ⟨ob, block⟩ := by
  have hheader : ∀ y ∈ s.ob.objects, (ob.setHeader x h).header y = ob.header y :=
    fun y hy => Ob.setHeader_of_ne _ _ fun hyx => hx (hyx ▸ hy)
  constructor
  · rintro ⟨hHead, hobjects, hblock, hcount⟩
    exact ⟨hHead, hobjects, hblock, fun y hy => by rw [← hcount y hy, hheader y hy]⟩
  · rintro ⟨hHead, hobjects, hblock, hcount⟩
    exact ⟨hHead, hobjects, hblock, fun y hy => by rw [← hcount y hy, hheader y hy]⟩

/-- The reference to the directory of a handle is one that stays. -/
theorem leftAlone_rootReferenced_iff (hobject : root ∈ s.ob.objects) :
    LeftAlone s (rootReferenced attr root s) ↔ attr.RootDirectory = none := by
  unfold rootReferenced
  cases attr.RootDirectory with
  | none => simpa using LeftAlone.same s
  | some i =>
    refine iff_of_false (fun h => ?_) (by simp)
    have hcount := h.count root hobject
    rw [Ob.setHeader_self] at hcount
    have hcount : (s.ob.header root).RefCount + 1 = (s.ob.header root).RefCount := hcount
    omega

omit [DecidableEq ω] in
/-- A call with a name takes a reference if it has a handle. -/
theorem ObjectCreation.Names.takesNoReference_iff (h : call.Names s attr root path) :
    call.TakesNoReference ↔ attr.RootDirectory = none := by
  refine ⟨fun hcall => hcall attr h.attributes (by simp [h.name]), fun hnone attr' hattr' _ => ?_⟩
  obtain rfl := Option.some.inj (h.attributes.symm.trans hattr')
  exact hnone

omit [DecidableEq ω] in
/-- A call without a name takes none. -/
theorem ObjectCreation.Unnamed.takesNoReference (h : call.Unnamed) : call.TakesNoReference :=
  fun attr hattr hname => absurd (h attr hattr) hname

/-- **What becomes of a failure**: it returns an error, having left everything alone or not, or it does not
return. -/
def ObjectCreation.EndsIn (types : OBJECT_TYPE_INDEX → OBJECT_TYPE ω) (call : ObjectCreation ω π)
    (s : Objects ω π) (atomic : Prop) : Prop :=
  (∃ status s', call.run types s = .ok (status, none, s') ∧ ¬ K_SUCCESS status ∧ (LeftAlone s s' ↔ atomic))
    ∨ (∃ e, call.run types s = .error e) ∧ ¬ atomic

/-- A name that is taken, or leads nowhere, or cannot be looked up. -/
theorem ObjectCreation.Names.endsIn (hcall : call.Promised s) (hnames : call.Names s attr root path)
    {status : KSTATUS} (hfailed : ¬ K_SUCCESS status)
    (hrun : createNamedObject types call.type attr root path call.blocks (rootReferenced attr root s)
      = .ok (status, none, rootReferenced attr root s)) : call.EndsIn types s call.TakesNoReference :=
  Or.inl ⟨status, _, (call.run_named hcall hnames).trans hrun, hfailed,
    (leftAlone_rootReferenced_iff (hcall.root attr root path hnames).1).trans hnames.takesNoReference_iff.symm⟩

/-- **A name that is free** goes on to the creation of the object. -/
theorem ObjectCreation.FindsFree.run (types : OBJECT_TYPE_INDEX → OBJECT_TYPE ω) (hcall : call.Promised s)
    (hfree : call.FindsFree s attr root path e) :
    ∃ rest c context, EndsAt (rootReferenced attr root s).ob root path (.missing e rest c)
      ∧ call.run types s = Pooled.createNewObject types call.type (some attr) (some (root, path, context))
        call.blocks (rootReferenced attr root s) := by
  obtain ⟨hnames, hbuffer, rest, c, hends⟩ := hfree
  obtain ⟨b, hb⟩ := Option.ne_none_iff_exists'.mp hbuffer
  have hends' := hends.rootReferenced attr root
  obtain ⟨context, hcreates⟩ := (hcall.prepared hnames).createNamedObject_creates types call.type hb hends'
  exact ⟨rest, c, context, hends', (call.run_named hcall hnames).trans (hcreates attr)⟩

/-- **Each failure ends in its own way.** -/
theorem ObjectCreation.FailsBy.endsIn {cause : CreateCause} (hcall : call.Promised s)
    (h : call.FailsBy types s cause) : call.EndsIn types s (call.CleansUp types cause) := by
  cases h with
  | noNameBuffer hnames hbuffer =>
    exact hnames.endsIn hcall (by decide) ((hcall.prepared hnames).createNamedObject_noNameBuffer hbuffer)
  | nameCollision hnames hbuffer hends hstatus hopenIf =>
    obtain ⟨b, hb⟩ := Option.ne_none_iff_exists'.mp hbuffer
    exact hnames.endsIn hcall (by decide) ((hcall.prepared hnames).createNamedObject_collision hb
      (hends.rootReferenced _ _) hstatus hopenIf)
  | pathNotFound hnames hbuffer hends hstatus =>
    obtain ⟨b, hb⟩ := Option.ne_none_iff_exists'.mp hbuffer
    exact hnames.endsIn hcall (by decide) ((hcall.prepared hnames).createNamedObject_pathNotFound hb
      (hends.rootReferenced _ _) hstatus)
  | componentTooLong hnames hbuffer hends =>
    obtain ⟨b, hb⟩ := Option.ne_none_iff_exists'.mp hbuffer
    exact Or.inr ⟨⟨_, (call.run_named hcall hnames).trans
      ((hcall.prepared hnames).createNamedObject_tooLong hb (hends.rootReferenced _ _))⟩, not_false⟩
  | noHeader hunnamed hmemory =>
    exact Or.inl ⟨_, _, (call.run_unnamed hcall hunnamed).trans (createNewObject_noHeader hmemory), by decide,
      iff_of_true (.same s) hunnamed.takesNoReference⟩
  | noNamedHeader hfree hmemory =>
    obtain ⟨rest, c, context, -, hrun⟩ := hfree.run types hcall
    exact Or.inl ⟨_, _, hrun.trans (createNewObject_noHeader hmemory), by decide,
      (leftAlone_rootReferenced_iff (hcall.root _ _ _ hfree.names).1).trans
        hfree.names.takesNoReference_iff.symm⟩
  | pathTooLong hfree hmemory hlong =>
    obtain ⟨rest, c, context, -, hrun⟩ := hfree.run types hcall
    refine Or.inr ⟨⟨.assertion "ObjectAttributes->ObjectName->Length <= MAX_OBJECT_PATH", hrun.trans ?_⟩,
      not_false⟩
    rw [Pooled.createNewObject, hmemory]
    simp only [assert_of_not (Nat.not_le.mpr hlong), kernel_error_bind]
  | @notInserted attr root e x path hfree hmemory hlength hbuffer =>
    obtain ⟨rest, c, context, -, hrun⟩ := hfree.run types hcall
    rw [(hcall.prepared hfree.names).createNewObject_notInserted hmemory hlength hbuffer] at hrun
    have halone : LeftAlone s { rootReferenced attr root s with
        ob := (rootReferenced attr root s).ob.setHeader x clearedHeader } ↔ call.TakesNoReference :=
      (leftAlone_setHeader (hcall.memory x hmemory).1).trans
        ((leftAlone_rootReferenced_iff (hcall.root _ _ _ hfree.names).1).trans
          hfree.names.takesNoReference_iff.symm)
    by_cases htag : (types call.type).PoolTag = TAG_tjbo
    · rw [if_pos htag] at hrun
      exact Or.inl ⟨_, _, hrun, by decide, halone.trans (and_iff_left htag).symm⟩
    · rw [if_neg htag] at hrun
      exact Or.inr ⟨⟨_, hrun⟩, fun h => htag h.2⟩
  | @openFailed x hunnamed hmemory hopen =>
    obtain ⟨hobject, -, hfree⟩ := hcall.memory x hmemory
    have hrun : call.run types s = _ := (call.run_unnamed hcall hunnamed).trans
      ((createNewObject_unnamed hmemory).trans (openObject_fails (Function.update_self ..) hopen))
    by_cases htag : (types call.type).PoolTag = TAG_tjbo
    · rw [if_pos htag] at hrun
      refine Or.inl ⟨_, _, hrun, hopen, iff_of_true ?_ ⟨hunnamed, htag⟩⟩
      refine (leftAlone_setHeader hobject).mpr ((leftAlone_setHeader hobject).mpr ?_)
      have hblock : Function.update (withHeader (types call.type).PoolTag x s).block (.header x) none = s.block :=
        update_block_free hfree
      rw [hblock]
      exact .same s
    · rw [if_neg htag] at hrun
      exact Or.inr ⟨⟨_, hrun⟩, fun h => htag h.2⟩
  | @namedOpenFailed attr root e x path hfree hmemory hlength hbuffer hopen =>
    obtain ⟨b, hb⟩ := Option.ne_none_iff_exists'.mp hbuffer
    obtain ⟨rest, c, context, hends, hrun⟩ := hfree.run types hcall
    have hnamed : ¬ call.Unnamed := by
      intro hunnamed
      have hname := hfree.names.name
      rw [hunnamed attr hfree.names.attributes] at hname
      cases hname
    have hblock : Function.update (withHeader (types call.type).PoolTag x (rootReferenced attr root s)).block
        (.name b) (some TAG_mNbO) (.header x) = some (types call.type).PoolTag :=
      (Function.update_of_ne (by simp) _ _).trans (Function.update_self ..)
    rw [(hcall.prepared hfree.names).createNewObject_inserted hmemory hlength hb hends] at hrun
    have hrun := hrun.trans (openObject_fails hblock hopen)
    by_cases htag : (types call.type).PoolTag = TAG_tjbo
    · rw [if_pos htag] at hrun
      refine Or.inl ⟨_, _, hrun, hopen, iff_of_false (fun h => ?_) fun h => hnamed h.1⟩
      -- the new entry is still there
      have hHead : Function.update (rootReferenced attr root s).ob.Head e
          ((rootReferenced attr root s).ob.Head e ++ [x]) e = s.ob.Head e := congrFun h.Head e
      rw [Function.update_self, (rootReferenced_rest attr root s).1] at hHead
      simp at hHead
    · rw [if_neg htag] at hrun
      exact Or.inr ⟨⟨_, hrun⟩, fun h => hnamed h.1⟩

/-- **An error has one of the causes.** -/
theorem ObjectCreation.failsBy_of_error {status : KSTATUS} {object : Option ω} (hcall : call.Promised s)
    (hrun : call.run types s = .ok (status, object, s')) (hfailed : ¬ K_SUCCESS status) :
    ∃ cause, call.FailsBy types s cause := by
  by_contra hnone
  have hcause : ∀ cause, ¬ call.FailsBy types s cause := fun cause h => hnone ⟨cause, h⟩
  have hmemory : ∀ x, call.blocks.memory = some x →
      K_SUCCESS ((types call.type).openStatus x) → ∀ attributes t,
      call.run types s = openObject types call.type attributes x t → False := by
    intro x _ hopen attributes t h
    rw [h.trans (openObject_succeeds hopen)] at hrun
    cases hrun
    exact hfailed status_success
  by_cases hunnamed : call.Unnamed
  · cases hx : call.blocks.memory with
    | none => exact hcause _ (.noHeader hunnamed hx)
    | some x =>
      have hopen := not_not.mp fun h => hcause _ (.openFailed hunnamed hx h)
      exact hmemory x hx hopen _ _ ((call.run_unnamed hcall hunnamed).trans (createNewObject_unnamed hx))
  · obtain ⟨attr, hattr, hname⟩ : ∃ attr, call.attributes = some attr ∧ attr.ObjectName ≠ none := by
      simpa [ObjectCreation.Unnamed] using hunnamed
    obtain ⟨path, hpath⟩ := Option.ne_none_iff_exists'.mp hname
    obtain ⟨-, root, hstart⟩ := hcall.path attr hattr path hpath
    have hnames : call.Names s attr root path := ⟨hattr, hpath, hstart⟩
    have hprepared := hcall.prepared hnames
    have hbuffer : call.blocks.lookupBuffer ≠ none := fun h => hcause _ (.noNameBuffer hnames h)
    obtain ⟨b, hb⟩ := Option.ne_none_iff_exists'.mp hbuffer
    obtain ⟨finish, hends⟩ := exists_endsAt s.ob root path
    cases finish with
    | tooLong => exact hcause _ (.componentTooLong hnames hbuffer hends)
    | blocked | gap => exact hcause _ (.pathNotFound hnames hbuffer hends rfl)
    | trailing | last =>
      by_cases hopenIf : attr.Attributes &&& OBJ_OPENIF = 0
      · exact hcause _ (.nameCollision hnames hbuffer hends rfl hopenIf)
      · rw [call.run_named hcall hnames] at hrun
        exact hfailed (hprepared.createNamedObject_opened hb (hends.rootReferenced attr root) rfl hopenIf hrun).1
    | missing e rest c =>
      have hfree : call.FindsFree s attr root path e := ⟨hnames, hbuffer, rest, c, hends⟩
      obtain ⟨rest', c', context, hends', hcreates⟩ := hfree.run types hcall
      cases hx : call.blocks.memory with
      | none => exact hcause _ (.noNamedHeader hfree hx)
      | some x =>
        have hlength : path.length ≤ MAX_OBJECT_PATH :=
          not_lt.mp fun h => hcause _ (.pathTooLong hfree hx h)
        have hinsert : call.blocks.insertBuffer ≠ none := fun h => hcause _ (.notInserted hfree hx hlength h)
        obtain ⟨b', hb'⟩ := Option.ne_none_iff_exists'.mp hinsert
        have hopen := not_not.mp fun h => hcause _ (.namedOpenFailed hfree hx hlength hinsert h)
        exact hmemory x hx hopen _ _
          (hcreates.trans (hprepared.createNewObject_inserted hx hlength hb' hends'))

/-- A root directory without entries, which all handles stand for. -/
def rootHandle : Objects Unit Unit where
  ob := { emptyRoot with Handle := fun _ _ => .object () }
  block _ := none

/-- Objects are allocated with the tag `'eliF'` of files. -/
def fileTypes : OBJECT_TYPE_INDEX → OBJECT_TYPE Unit := fun _ => ⟨0x656C6946, none⟩

/-- The file `a` is to be created, without memory for it. -/
def fileWithoutMemory (handle : Option (Fin EX_MAX_HANDLE)) : ObjectCreation Unit Unit where
  type := .OBJECT_TYPE_FILE
  attributes := some ⟨handle, some ['a'], 0⟩
  process := ()
  blocks := ⟨(), none, some 0, some 0⟩

/-- The name starts in the root directory. -/
theorem fileWithoutMemory_names (handle : Option (Fin EX_MAX_HANDLE)) :
    (fileWithoutMemory handle).Names rootHandle ⟨handle, some ['a'], 0⟩ () ['a'] :=
  ⟨rfl, rfl, by cases handle <;> rfl⟩

/-- The call is as promised. -/
theorem fileWithoutMemory_promised (handle : Option (Fin EX_MAX_HANDLE)) :
    (fileWithoutMemory handle).Promised rootHandle where
  directories := ⟨by simp [rootHandle, emptyRoot], fun _ _ x hx => absurd hx List.not_mem_nil⟩
  attributes attr hattr := by
    obtain rfl := Option.some.inj hattr
    exact UInt32.zero_and
  path attr hattr path hpath := by
    obtain rfl := Option.some.inj hattr
    obtain rfl := Option.some.inj hpath
    exact ⟨by simp, (), (fileWithoutMemory_names handle).start⟩
  root _ root _ _ := ⟨Finset.mem_singleton.mpr rfl, rfl, rfl, one_pos⟩
  memory x hx := by cases hx
  lookupBuffer _ _ := rfl
  insertBuffer _ _ := rfl

/-- It fails for want of memory. -/
theorem fileWithoutMemory_failsBy (handle : Option (Fin EX_MAX_HANDLE)) :
    (fileWithoutMemory handle).FailsBy fileTypes rootHandle .noHeader := by
  have hdirectory : IsDirectory rootHandle.ob () := rfl
  have hends : EndsAt rootHandle.ob () ['a'] (.missing () ['a'] ['a']) :=
    .missing hdirectory rfl (by decide) rfl rfl
  exact .noNamedHeader ⟨fileWithoutMemory_names handle, by simp [fileWithoutMemory], _, _, hends⟩ rfl

end KaushOS
