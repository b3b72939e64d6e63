import KaushOS.Library.Transition
import KaushOS.Ob.DeviceResolution

/-! # Building the name space (`kern/ob/obdir.c`, `kern/ob/obsym.c`, `kern/io/iodevice.c`)

From the root directory and the global directory on, directories, devices and symbolic links are created one
after another, and file systems are mounted.

* **`DeviceEvent`**, **`deviceSystem`** — the operations, and what they build.
* **`TreeValid`** — what holds of every name space that is built.
* **`device_resolution_iff`** — which paths are resolved in such a name space. -/

namespace KaushOS

open Paths Transition Pooled

variable {ω π : Type} [DecidableEq ω]

/-! ## Operations -/

/-- Directories, symbolic links and devices have the pool tag `NonPagedPool` and no `OpenProcedure`. -/
def nameSpaceTypes : OBJECT_TYPE_INDEX → OBJECT_TYPE ω := fun _ => ⟨1, none⟩

/-- The memory of a new object has been cleared. -/
def DeviceSpace.clearBody (s : DeviceSpace ω π) (memory object : Option ω) : DeviceSpace ω π :=
  match memory with
  | none => s
  | some x =>
    if object = some x then
      { s with
        DeviceObject := Function.update s.DeviceObject x none
        LinkTargetObject := Function.update s.LinkTargetObject x none }
    else s

/-- `ObCreateObject`, and what it does to the bodies. -/
def DeviceSpace.createObject (call : ObjectCreation ω π) (s : DeviceSpace ω π) :
    Kernel (KSTATUS × Option ω × DeviceSpace ω π) := do
  let (status, object, objects) ← call.run nameSpaceTypes s.toObjects
  return (status, object, ({ s with toObjects := objects } : DeviceSpace ω π).clearBody call.blocks.memory object)

/-- **`ObCreateDirectoryObject(NULL, &DirectoryObject, DesiredAccess, ObjectAttributes)`**, when there is a root
directory. -/
def obCreateDirectoryObject (attributes : OBJECT_ATTRIBUTES) (p : π) (blocks : CreateBlocks ω)
    (s : DeviceSpace ω π) : Kernel (DeviceSpace ω π) := do
  assert (attributes.ObjectName ≠ none) "(ObjectAttributes) && (ObjectAttributes->ObjectName)"
  let (status, object, s) ← s.createObject ⟨.OBJECT_TYPE_DIRECTORY, some attributes, p, blocks⟩
  if ¬ K_SUCCESS status then return s
  else
    let x ← deref object
    return { s with ob := { s.ob.setHead x [] with Flags := Function.update s.ob.Flags x 0 } }

/-- `ObpCreateSymbolicLinkObject(NULL, NULL, TargetObject, 0, ObjectAttributes)`. -/
def obpCreateSymbolicLinkObject (target : Option ω) (attributes : OBJECT_ATTRIBUTES) (p : π)
    (blocks : CreateBlocks ω) (s : DeviceSpace ω π) : Kernel (DeviceSpace ω π) := do
  assert (attributes.ObjectName ≠ none) "(ObjectAttributes) && (ObjectAttributes->ObjectName)"
  let (status, object, s) ← s.createObject ⟨.OBJECT_TYPE_SYMLINK, some attributes, p, blocks⟩
  if ¬ K_SUCCESS status then return s
  else
    let target ← deref target
    let ob ← obReferenceObject target s.ob
    let x ← deref object
    return { s with ob, LinkTargetObject := Function.update s.LinkTargetObject x (some target) }

/-- **`ObCreateSymbolicLink(SymbolicLinkName, TargetName)`**; `buffer` says whether the name buffer for the target
can be allocated. -/
def obCreateSymbolicLink (name target : List Char) (p : π) (buffer : Bool) (blocks : CreateBlocks ω)
    (s : DeviceSpace ω π) : Kernel (DeviceSpace ω π) := do
  let (status, context, _) ←
    KaushOS.obpLookupObjectByName s.ob.ObRootDirectory target obInitializeLookupContext none buffer s.ob
  if ¬ K_SUCCESS status then
    assert False "0"
    return s
  else obpCreateSymbolicLinkObject context.Object ⟨none, some name, 0⟩ p blocks s

/-- `ObMountFileSystem` when it has found the device. -/
def mountOn (mountPoint : List Char) (device : ω) (buffer : Bool) (s : DeviceSpace ω π) :
    Kernel (DeviceSpace ω π) := do
  let (status, context, _) ←
    KaushOS.obpLookupObjectByName s.ob.ObRootDirectory mountPoint obInitializeLookupContext none buffer s.ob
  if ¬ K_SUCCESS status then
    assert False "0"
    return s
  else
    let directory ← deref context.Object
    let isMountpoint ← obIsMountpointObject directory s.ob
    if isMountpoint then return s
    else
      return { s with
        ob := { s.ob with
          Flags := Function.update s.ob.Flags directory (s.ob.Flags directory ||| OB_DIRECTORY_MOUNTPOINT) }
        DeviceObject := Function.update s.DeviceObject directory (some device) }

/-- **`ObMountFileSystem(MountPoint, TargetName)`**. -/
def obMountFileSystem (mountPoint target : List Char) (targetBuffer mountBuffer : Bool) (s : DeviceSpace ω π) :
    Kernel (DeviceSpace ω π) := do
  let (status, context, _) ←
    KaushOS.obpLookupObjectByName s.ob.ObRootDirectory target obInitializeLookupContext none targetBuffer s.ob
  if ¬ K_SUCCESS status then
    assert False "0"
    return s
  else
    let device ← deref context.Object
    let isDevice ← obIsDeviceObject device s.ob
    if isDevice then mountOn mountPoint device mountBuffer s else return s

/-! ## Building -/

/-- **What is done to the name space.** -/
inductive DeviceEvent (ω π : Type)
  /-- `ObCreateDirectoryObject`. -/
  | directory (attributes : OBJECT_ATTRIBUTES) (p : π) (blocks : CreateBlocks ω)
  /-- `ObCreateSymbolicLink`. -/
  | symbolicLink (name target : CString) (p : π) (buffer : Bool) (blocks : CreateBlocks ω)
  /-- `ObMountFileSystem`. -/
  | mount (mountPoint target : CString) (targetBuffer mountBuffer : Bool)
  /-- `IoCreateDevice`, with a name. -/
  | device (name : CString) (p : π) (blocks : CreateBlocks ω)

/-- The object that is created. -/
def DeviceEvent.creation : DeviceEvent ω π → Option (ObjectCreation ω π)
  | .directory attributes p blocks => some ⟨.OBJECT_TYPE_DIRECTORY, some attributes, p, blocks⟩
  | .symbolicLink name _ p _ blocks => some ⟨.OBJECT_TYPE_SYMLINK, some ⟨none, some name.val, 0⟩, p, blocks⟩
  | .mount _ _ _ _ => none
  | .device name p blocks => some ⟨.OBJECT_TYPE_DEVICE, some ⟨none, some name.val, 0⟩, p, blocks⟩

/-- The operation is carried out. -/
def DeviceEvent.run (s : DeviceSpace ω π) : DeviceEvent ω π → Kernel (DeviceSpace ω π)
  | .directory attributes p blocks => obCreateDirectoryObject attributes p blocks s
  | .symbolicLink name target p buffer blocks => obCreateSymbolicLink name.val target.val p buffer blocks s
  | .mount mountPoint target targetBuffer mountBuffer =>
    obMountFileSystem mountPoint.val target.val targetBuffer mountBuffer s
  | .device name p blocks => do
    let (_, _, s) ← s.createObject ⟨.OBJECT_TYPE_DEVICE, some ⟨none, some name.val, 0⟩, p, blocks⟩
    return s

/-- **What a caller sees to**: the attributes are valid, a name is a string, and a handle is one of a
directory; and the pool hands out free blocks. -/
structure ObjectCreation.Allowed (call : ObjectCreation ω π) (s : Objects ω π) : Prop where
  attributes : ∀ attr, call.attributes = some attr → attr.Attributes &&& ~~~OBJ_VALID_ATTRIBUTES = 0
  name : ∀ attr, call.attributes = some attr → ∀ path, attr.ObjectName = some path → ∀ c ∈ path, c.toNat ≠ 0
  handle : ∀ attr, call.attributes = some attr → ∀ i, attr.RootDirectory = some i →
    ∃ d, s.ob.Handle call.process i = .object d ∧ IsDirectory s.ob d
  memory : ∀ x, call.blocks.memory = some x → x ∉ s.ob.objects ∧ s.block (.header x) = none
  lookupBuffer : ∀ b, call.blocks.lookupBuffer = some b → s.block (.name b) = none
  insertBuffer : ∀ b, call.blocks.insertBuffer = some b → s.block (.name b) = none

/-- **The name space that `ObInit` begins with**: the root directory and, as its entry, the global directory,
which is empty. -/
structure DeviceSpace.Start (s : DeviceSpace ω π) (r g : ω) : Prop where
  ne : r ≠ g
  root : s.ob.ObRootDirectory = some r
  global : s.ObGlobalDirectory = some g
  objects : s.ob.objects = {r, g}
  Head : ∀ d, s.ob.Head d = if d = r then [g] else []
  object : ∀ x ∈ s.ob.objects, obIsValidObject x s.ob = true ∧ (s.ob.header x).ObjectName.Buffer ≠ none
    ∧ 0 < (s.ob.header x).RefCount
  directory : ∀ d, IsDirectory s.ob d ↔ d = r ∨ d = g

/-- **Name spaces being built.** -/
def deviceSystem (ω π : Type) [DecidableEq ω] :
    System (DeviceEvent ω π × DeviceSpace ω π) (DeviceSpace ω π) where
  init s := ∃ r g, s.Start r g
  step _ s e s' := e.2 = s ∧ (∀ call, e.1.creation = some call → call.Allowed s.toObjects) ∧ e.1.run s = .ok s'

/-! ## What is built -/

/-- **A name space in order**: entries of directories are objects with names, directories are objects, and all
objects are valid and in use. -/
structure TreeValid (ob : Ob ω π) : Prop where
  root : ∃ r, ob.ObRootDirectory = some r ∧ IsDirectory ob r
  entry : ∀ d, ∀ x ∈ ob.Head d, x ∈ ob.objects ∧ (ob.header x).ObjectName.Buffer ≠ none
  directory : ∀ d, IsDirectory ob d → d ∈ ob.objects
  object : ∀ x ∈ ob.objects, obIsValidObject x ob = true ∧ 0 < (ob.header x).RefCount

/-- **A name space goes over into another one** in order, and directories stay directories. -/
def BuildsOn (ob ob' : Ob ω π) : Prop :=
  TreeValid ob → TreeValid ob' ∧ ∀ d, IsDirectory ob d → IsDirectory ob' d

/-- **Nothing but counters** has changed, which have gone up. -/
structure CountedUp (ob ob' : Ob ω π) : Prop where
  Head : ob'.Head = ob.Head
  objects : ob'.objects = ob.objects
  root : ob'.ObRootDirectory = ob.ObRootDirectory
  header : ∀ y, ∃ n, (ob.header y).RefCount ≤ n ∧ ob'.header y = { ob.header y with RefCount := n }

variable {ob ob' ob'' : Ob ω π} {s s' : DeviceSpace ω π} {d e x y : ω} {c : List Char}

omit [DecidableEq ω] in
/-- The directories are in order. -/
theorem TreeValid.directories (h : TreeValid ob) : DirectoriesValid ob := by
  obtain ⟨r, hr, -⟩ := h.root
  exact ⟨by simp [hr], fun d _ x hx => ⟨(h.object x (h.entry d x hx).1).1, (h.entry d x hx).2⟩⟩

omit [DecidableEq ω] in
/-- One after the other. -/
theorem BuildsOn.trans (h : BuildsOn ob ob') (h' : BuildsOn ob' ob'') : BuildsOn ob ob'' := by
  intro hob
  obtain ⟨hob', hdirectory⟩ := h hob
  obtain ⟨hob'', hdirectory'⟩ := h' hob'
  exact ⟨hob'', fun d hd => hdirectory' d (hdirectory d hd)⟩

omit [DecidableEq ω] in
/-- Nothing is done. -/
theorem BuildsOn.refl (ob : Ob ω π) : BuildsOn ob ob := fun h => ⟨h, fun _ hd => hd⟩

omit [DecidableEq ω] in
/-- Counters do not matter, as long as they do not go down. -/
theorem CountedUp.buildsOn (h : CountedUp ob ob') : BuildsOn ob ob' := by
  have htype : ∀ y, (ob'.header y).ObjectType = (ob.header y).ObjectType := by
    intro y
    obtain ⟨n, -, hy⟩ := h.header y
    rw [hy]
  intro hob
  refine ⟨⟨?_, fun d y hy => ?_, fun d hd => ?_, fun y hy => ?_⟩, fun d hd => (htype d).trans hd⟩
  · obtain ⟨r, hr, hd⟩ := hob.root
    exact ⟨r, h.root.trans hr, (htype r).trans hd⟩
  · obtain ⟨hobject, hname⟩ := hob.entry d y (h.Head ▸ hy)
    obtain ⟨n, -, hheader⟩ := h.header y
    rw [h.objects, hheader]
    exact ⟨hobject, hname⟩
  · rw [h.objects]
    exact hob.directory d ((htype d).symm.trans hd)
  · obtain ⟨hvalid, hcount⟩ := hob.object y (h.objects ▸ hy)
    obtain ⟨n, hn, hheader⟩ := h.header y
    rw [obIsValidObject, hheader]
    exact ⟨hvalid, lt_of_lt_of_le hcount hn⟩

/-- A reference is counted up. -/
theorem countedUp_reference (x : ω) (ob : Ob ω π) :
    CountedUp ob (ob.setHeader x { ob.header x with RefCount := (ob.header x).RefCount + 1 }) := by
  refine ⟨rfl, rfl, rfl, fun y => ?_⟩
  by_cases hy : y = x
  · subst hy
    exact ⟨(ob.header y).RefCount + 1, by omega, Ob.setHeader_self ..⟩
  · exact ⟨(ob.header y).RefCount, le_rfl, Ob.setHeader_of_ne _ _ hy⟩

/-- The header of an object that has been created under a name. -/
def namedHeader (type : OBJECT_TYPE_INDEX) (attributes : Option OBJECT_ATTRIBUTES) (c : List Char) :
    OBJECT_HEADER :=
  openedHeader type attributes { clearedHeader with ObjectName := bufferName c, DirEntryLinked := true }

/-- **A new object** `x` in directory `e`, under the name `c`. -/
def withObject (type : OBJECT_TYPE_INDEX) (attributes : Option OBJECT_ATTRIBUTES) (e x : ω) (c : List Char)
    (ob : Ob ω π) : Ob ω π :=
  { (ob.setHead e (ob.Head e ++ [x])).setHeader x (namedHeader type attributes c) with
    objects := insert x ob.objects }

/-- The stores that create it, one after the other. -/
theorem withObject_eq {type : OBJECT_TYPE_INDEX} {attributes : Option OBJECT_ATTRIBUTES} :
    withObject type attributes e x c ob
      = { (insertEntry (ob.setHeader x clearedHeader) e x c).setHeader x (openedHeader type attributes
            ((insertEntry (ob.setHeader x clearedHeader) e x c).header x)) with
          objects := insert x ob.objects } := by
  simp [withObject, namedHeader, insertEntry, Ob.setHeader, Ob.setHead, clearedHeader]

/-- A new object is linked. -/
theorem buildsOn_withObject {type : OBJECT_TYPE_INDEX} {attributes : Option OBJECT_ATTRIBUTES}
    (hx : x ∉ ob.objects) : BuildsOn ob (withObject type attributes e x c ob) := by
  intro hob
  have hself : (withObject type attributes e x c ob).header x = namedHeader type attributes c :=
    Ob.setHeader_self ..
  have hother : ∀ y, y ≠ x → (withObject type attributes e x c ob).header y = ob.header y :=
    fun y hy => Ob.setHeader_of_ne _ _ hy
  have hold : ∀ y ∈ ob.objects, y ≠ x := fun y hy hyx => hx (hyx ▸ hy)
  have hdirectory : ∀ d, IsDirectory ob d → IsDirectory (withObject type attributes e x c ob) d := by
    intro d hd
    rw [IsDirectory, hother d (hold d (hob.directory d hd))]
    exact hd
  refine ⟨⟨?_, fun d y hy => ?_, fun d hd => ?_, fun y hy => ?_⟩, hdirectory⟩
  · obtain ⟨r, hr, hd⟩ := hob.root
    exact ⟨r, hr, hdirectory r hd⟩
  · have hentry : y ∈ ob.Head d ∨ y = x := by
      have hy : y ∈ Function.update ob.Head e (ob.Head e ++ [x]) d := hy
      by_cases hde : d = e
      · subst hde
        rw [Function.update_self] at hy
        simpa using hy
      · rw [Function.update_of_ne hde] at hy
        exact Or.inl hy
    rcases hentry with hy | rfl
    · obtain ⟨hobject, hname⟩ := hob.entry d y hy
      rw [hother y (hold y hobject)]
      exact ⟨Finset.mem_insert_of_mem hobject, hname⟩
    · rw [hself]
      exact ⟨Finset.mem_insert_self _ _, by simp [namedHeader, openedHeader, bufferName]⟩
  · by_cases hdx : d = x
    · subst hdx
      exact Finset.mem_insert_self _ _
    · rw [IsDirectory, hother d hdx] at hd
      exact Finset.mem_insert_of_mem (hob.directory d hd)
  · rcases Finset.mem_insert.mp hy with rfl | hy
    · rw [obIsValidObject, hself]
      exact ⟨by simp [namedHeader, openedHeader, clearedHeader], one_pos⟩
    · rw [obIsValidObject, hother y (hold y hy)]
      exact hob.object y hy

/-- A directory is emptied. -/
theorem buildsOn_directory (x : ω) (flags : ω → UInt32) (ob : Ob ω π) :
    BuildsOn ob { ob.setHead x [] with Flags := flags } := by
  intro hob
  refine ⟨⟨hob.root, fun d y hy => ?_, hob.directory, hob.object⟩, fun d hd => hd⟩
  have hy : y ∈ Function.update ob.Head x [] d := hy
  by_cases hdx : d = x
  · subst hdx
    rw [Function.update_self] at hy
    cases hy
  · rw [Function.update_of_ne hdx] at hy
    exact hob.entry d y hy

omit [DecidableEq ω] in
/-- A flag is set. -/
theorem buildsOn_flags (flags : ω → UInt32) (ob : Ob ω π) : BuildsOn ob { ob with Flags := flags } :=
  fun hob => ⟨⟨hob.root, hob.entry, hob.directory, hob.object⟩, fun _ hd => hd⟩

/-! ## Creating -/

variable {call : ObjectCreation ω π} {attr : OBJECT_ATTRIBUTES} {root : ω} {path : List Char} {t t' : Objects ω π}
  {status : KSTATUS} {object : Option ω}

omit [DecidableEq ω] in
/-- **What a caller sees to, in a name space in order**, is what is promised. -/
theorem ObjectCreation.Allowed.promised (h : call.Allowed t) (ht : TreeValid t.ob) : call.Promised t := by
  obtain ⟨r, hr, hdirectory⟩ := ht.root
  have hstart : ∀ attr, call.attributes = some attr →
      ∃ root, startDirectory attr call.process t.ob = some root ∧ IsDirectory t.ob root := by
    intro attr hattr
    unfold startDirectory
    cases hhandle : attr.RootDirectory with
    | none => exact ⟨r, hr, hdirectory⟩
    | some i =>
      obtain ⟨d, hd, hdir⟩ := h.handle attr hattr i hhandle
      exact ⟨d, by simp [hd], hdir⟩
  refine ⟨ht.directories, h.attributes, fun attr hattr path hpath => ?_, fun attr root path hnames => ?_,
    fun x hx => ?_, h.lookupBuffer, h.insertBuffer⟩
  · obtain ⟨root, hroot, -⟩ := hstart attr hattr
    exact ⟨h.name attr hattr path hpath, root, hroot⟩
  · obtain ⟨root', hroot', hdir⟩ := hstart attr hnames.attributes
    obtain rfl := Option.some.inj (hnames.start.symm.trans hroot')
    have hobject := ht.directory root hdir
    exact ⟨hobject, (ht.object root hobject).1, hdir, (ht.object root hobject).2⟩
  · obtain ⟨hobject, hblock⟩ := h.memory x hx
    exact ⟨hobject, fun d hd => hobject (ht.entry d x hd).1, hblock⟩

/-- The reference on the directory of a handle. -/
theorem countedUp_rootReferenced (attr : OBJECT_ATTRIBUTES) (root : ω) (t : Objects ω π) :
    CountedUp t.ob (rootReferenced attr root t).ob := by
  unfold rootReferenced
  cases attr.RootDirectory with
  | none => exact ⟨rfl, rfl, rfl, fun y => ⟨_, le_rfl, rfl⟩⟩
  | some i => exact countedUp_reference root t.ob

/-- A reference that is taken. -/
theorem countedUp_of_obReferenceObject (h : obReferenceObject x ob = .ok ob') : CountedUp ob ob' := by
  obtain ⟨_, -, h⟩ := kernel_bind_eq_ok.mp h
  obtain ⟨_, -, h⟩ := kernel_bind_eq_ok.mp h
  cases h
  exact countedUp_reference x ob

/-- **A creation that returns** has built on the name space. -/
theorem ObjectCreation.run_buildsOn (hcall : call.Promised t) (hnames : call.Names t attr root path)
    (hrun : call.run nameSpaceTypes t = .ok (status, object, t')) : BuildsOn t.ob t'.ob := by
  have hprepared := hcall.prepared hnames
  have hreferenced := (countedUp_rootReferenced attr root t).buildsOn
  refine hreferenced.trans ?_
  have hrun' := (call.run_named hcall hnames).symm.trans hrun
  cases hb : call.blocks.lookupBuffer with
  | none =>
    cases hrun'.symm.trans (hprepared.createNamedObject_noNameBuffer hb)
    exact .refl _
  | some b =>
    obtain ⟨finish, hends⟩ := exists_endsAt t.ob root path
    have hends' := hends.rootReferenced attr root
    cases finish with
    | tooLong => cases hrun'.symm.trans (hprepared.createNamedObject_tooLong hb hends')
    | blocked | gap =>
      cases hrun'.symm.trans (hprepared.createNamedObject_pathNotFound hb hends' rfl)
      exact .refl _
    | trailing | last =>
      by_cases hopenIf : attr.Attributes &&& OBJ_OPENIF = 0
      · cases hrun'.symm.trans (hprepared.createNamedObject_collision hb hends' rfl hopenIf)
        exact .refl _
      · obtain ⟨-, ob, hob, rfl⟩ := hprepared.createNamedObject_opened hb hends' rfl hopenIf hrun'
        exact (countedUp_of_obReferenceObject hob).buildsOn
    | missing e rest c =>
      obtain ⟨context, hcreates⟩ := hprepared.createNamedObject_creates nameSpaceTypes call.type hb hends'
      have hrun'' := (hcreates attr).symm.trans hrun'
      cases hx : call.blocks.memory with
      | none =>
        cases hrun''.symm.trans (createNewObject_noHeader hx)
        exact .refl _
      | some x =>
        by_cases hlength : path.length ≤ MAX_OBJECT_PATH
        · cases hb' : call.blocks.insertBuffer with
          | none =>
            have hfails := hrun''.symm.trans (hprepared.createNewObject_notInserted hx hlength hb')
            have htag : (nameSpaceTypes call.type : OBJECT_TYPE ω).PoolTag ≠ TAG_tjbo :=
              (by decide : (1 : UInt32) ≠ TAG_tjbo)
            rw [if_neg htag] at hfails
            cases hfails
          | some b' =>
            have hinserted := hrun''.symm.trans (hprepared.createNewObject_inserted hx hlength hb' hends')
            cases hinserted.trans (openObject_succeeds status_success)
            have hbuilds : BuildsOn (rootReferenced attr root t).ob
                (withObject call.type (some attr) e x c (rootReferenced attr root t).ob) :=
              buildsOn_withObject (hprepared.memory x hx).1
            rw [withObject_eq] at hbuilds
            exact hbuilds
        · rw [Pooled.createNewObject, hx] at hrun''
          simp only [assert_of_not hlength, kernel_error_bind] at hrun''
          cases hrun''

/-! ## The operations -/

/-- **An operation builds on a name space**, and leaves the global directory where it is. -/
def Builds (s s' : DeviceSpace ω π) : Prop := BuildsOn s.ob s'.ob ∧ s'.ObGlobalDirectory = s.ObGlobalDirectory

omit [DecidableEq ω] in
/-- One after the other. -/
theorem Builds.trans {s'' : DeviceSpace ω π} (h : Builds s s') (h' : Builds s' s'') : Builds s s'' :=
  ⟨h.1.trans h'.1, h'.2.trans h.2⟩

omit [DecidableEq ω] in
/-- Nothing is done. -/
theorem Builds.refl (s : DeviceSpace ω π) : Builds s s := ⟨.refl _, rfl⟩

/-- Clearing the body of an object changes no name. -/
theorem builds_clearBody (memory object : Option ω) (s : DeviceSpace ω π) : Builds s (s.clearBody memory object) := by
  unfold DeviceSpace.clearBody
  cases memory with
  | none => exact .refl s
  | some x =>
    by_cases hobject : object = some x
    · simp only [if_pos hobject]
      exact ⟨.refl _, rfl⟩
    · simp only [if_neg hobject]
      exact .refl s

/-- **An object is created under a name.** -/
theorem builds_createObject (hs : TreeValid s.ob) (hcall : call.Allowed s.toObjects)
    (hattr : call.attributes = some attr) (hname : attr.ObjectName ≠ none)
    (h : s.createObject call = .ok (status, object, s')) : Builds s s' := by
  obtain ⟨⟨status', object', objects⟩, hrun, h⟩ := kernel_bind_eq_ok.mp h
  have hpromised := hcall.promised hs
  obtain ⟨path, hpath⟩ := Option.ne_none_iff_exists'.mp hname
  obtain ⟨-, root, hroot⟩ := hpromised.path attr hattr path hpath
  have hbuilds := ObjectCreation.run_buildsOn hpromised ⟨hattr, hpath, hroot⟩ hrun
  cases h
  have hcleared := builds_clearBody call.blocks.memory object ({ s with toObjects := objects } : DeviceSpace ω π)
  exact ⟨hbuilds.trans hcleared.1, hcleared.2⟩

/-- A directory is created. -/
theorem builds_directory {p : π} {blocks : CreateBlocks ω} (hs : TreeValid s.ob)
    (hcall : ObjectCreation.Allowed ⟨.OBJECT_TYPE_DIRECTORY, some attr, p, blocks⟩ s.toObjects)
    (h : obCreateDirectoryObject attr p blocks s = .ok s') : Builds s s' := by
  obtain ⟨_, hname, h⟩ := kernel_bind_eq_ok.mp h
  obtain ⟨⟨status, object, s₁⟩, hcreate, h⟩ := kernel_bind_eq_ok.mp h
  have hbuilds := builds_createObject hs hcall rfl (assert_eq_ok.mp hname) hcreate
  refine hbuilds.trans ?_
  dsimp only at h
  by_cases hfailed : K_SUCCESS status
  · rw [if_neg (not_not_intro hfailed)] at h
    obtain ⟨x, -, h⟩ := kernel_bind_eq_ok.mp h
    cases h
    exact ⟨buildsOn_directory x _ s₁.ob, rfl⟩
  · rw [if_pos hfailed] at h
    cases h
    exact .refl _

/-- A symbolic link is created. -/
theorem builds_symbolicLink {name target : List Char} {p : π} {buffer : Bool} {blocks : CreateBlocks ω}
    (hs : TreeValid s.ob)
    (hcall : ObjectCreation.Allowed ⟨.OBJECT_TYPE_SYMLINK, some ⟨none, some name, 0⟩, p, blocks⟩ s.toObjects)
    (h : obCreateSymbolicLink name target p buffer blocks s = .ok s') : Builds s s' := by
  obtain ⟨⟨status, context, _⟩, -, h⟩ := kernel_bind_eq_ok.mp h
  dsimp only at h
  by_cases hfound : K_SUCCESS status
  · rw [if_neg (not_not_intro hfound)] at h
    obtain ⟨_, -, h⟩ := kernel_bind_eq_ok.mp h
    obtain ⟨⟨status', object, s₁⟩, hcreate, h⟩ := kernel_bind_eq_ok.mp h
    have hbuilds := builds_createObject hs hcall rfl (by simp) hcreate
    refine hbuilds.trans ?_
    dsimp only at h
    by_cases hfailed : K_SUCCESS status'
    · rw [if_neg (not_not_intro hfailed)] at h
      obtain ⟨x, -, h⟩ := kernel_bind_eq_ok.mp h
      obtain ⟨ob, hob, h⟩ := kernel_bind_eq_ok.mp h
      obtain ⟨y, -, h⟩ := kernel_bind_eq_ok.mp h
      cases h
      exact ⟨(countedUp_of_obReferenceObject hob).buildsOn, rfl⟩
    · rw [if_pos hfailed] at h
      cases h
      exact .refl _
  · rw [if_pos hfound] at h
    exact absurd h kernel_assert_false_bind

/-- A file system is mounted. -/
theorem builds_mount {mountPoint target : List Char} {targetBuffer mountBuffer : Bool}
    (h : obMountFileSystem mountPoint target targetBuffer mountBuffer s = .ok s') : Builds s s' := by
  obtain ⟨⟨status, context, _⟩, -, h⟩ := kernel_bind_eq_ok.mp h
  dsimp only at h
  by_cases hfound : K_SUCCESS status
  · rw [if_neg (not_not_intro hfound)] at h
    obtain ⟨device, -, h⟩ := kernel_bind_eq_ok.mp h
    obtain ⟨isDevice, -, h⟩ := kernel_bind_eq_ok.mp h
    cases isDevice with
    | true =>
      rw [if_pos rfl] at h
      obtain ⟨⟨status', context', _⟩, -, h⟩ := kernel_bind_eq_ok.mp h
      dsimp only at h
      by_cases hfound' : K_SUCCESS status'
      · rw [if_neg (not_not_intro hfound')] at h
        obtain ⟨directory, -, h⟩ := kernel_bind_eq_ok.mp h
        obtain ⟨isMountpoint, -, h⟩ := kernel_bind_eq_ok.mp h
        cases isMountpoint with
        | true =>
          cases h
          exact .refl s
        | false =>
          cases h
          exact ⟨buildsOn_flags _ s.ob, rfl⟩
      · rw [if_pos hfound'] at h
        exact absurd h kernel_assert_false_bind
    | false =>
      cases h
      exact .refl s
  · rw [if_pos hfound] at h
    exact absurd h kernel_assert_false_bind

/-- **Every operation that returns** has built on the name space. -/
theorem DeviceEvent.builds {e : DeviceEvent ω π} (hs : TreeValid s.ob)
    (hcall : ∀ call, e.creation = some call → call.Allowed s.toObjects) (h : e.run s = .ok s') : Builds s s' := by
  cases e with
  | directory attributes p blocks => exact builds_directory hs (hcall _ rfl) h
  | symbolicLink name target p buffer blocks => exact builds_symbolicLink hs (hcall _ rfl) h
  | mount mountPoint target targetBuffer mountBuffer => exact builds_mount h
  | device name p blocks =>
    obtain ⟨⟨status, object, s₁⟩, hcreate, h⟩ := kernel_bind_eq_ok.mp h
    cases h
    exact builds_createObject hs (hcall _ rfl) rfl (by simp) hcreate

/-! ## Runs -/

/-- **What holds of a name space** while it is built. -/
structure DeviceSpace.Valid (s : DeviceSpace ω π) : Prop where
  tree : TreeValid s.ob
  global : ∃ g, s.ObGlobalDirectory = some g ∧ IsDirectory s.ob g

/-- It holds at the start. -/
theorem DeviceSpace.Start.valid {r g : ω} (h : s.Start r g) : s.Valid := by
  have hr : r ∈ s.ob.objects := by simp [h.objects]
  have hg : g ∈ s.ob.objects := by simp [h.objects]
  refine ⟨⟨⟨r, h.root, (h.directory r).mpr (Or.inl rfl)⟩, fun d x hx => ?_, fun d hd => ?_, fun x hx => ?_⟩,
    g, h.global, (h.directory g).mpr (Or.inr rfl)⟩
  · rw [h.Head] at hx
    by_cases hd : d = r
    · rw [if_pos hd] at hx
      obtain rfl := List.mem_singleton.mp hx
      exact ⟨hg, (h.object x hg).2.1⟩
    · rw [if_neg hd] at hx
      cases hx
  · rcases (h.directory d).mp hd with rfl | rfl
    · exact hr
    · exact hg
  · exact ⟨(h.object x hx).1, (h.object x hx).2.2⟩

/-- **It holds in every name space that is built.** -/
theorem deviceSystem_valid {t : List (DeviceEvent ω π × DeviceSpace ω π)} (h : (deviceSystem ω π).Run t s) :
    s.Valid := by
  refine h.invariant (I := fun _ s => s.Valid) ?_ ?_
  · rintro s ⟨r, g, hstart⟩
    exact hstart.valid
  · rintro t s ⟨e, _⟩ s' - hs ⟨rfl, hcall, hrun⟩
    obtain ⟨hbuilds, hglobal⟩ := DeviceEvent.builds hs.tree hcall hrun
    obtain ⟨htree, hdirectory⟩ := hbuilds hs.tree
    obtain ⟨g, hg, hd⟩ := hs.global
    exact ⟨htree, g, hglobal.trans hg, hdirectory g hd⟩

/-- **From a path to a device.** In every name space that is built, a path is resolved as it is to be if and only
if it has a component and the lookup stops, with something left of the path, at a mount point or a symbolic link
to a device. -/
theorem device_resolution_iff {t : List (DeviceEvent ω π × DeviceSpace ω π)} (h : (deviceSystem ω π).Run t s)
    (hpath : ∀ c ∈ path, c.toNat ≠ 0) (object : Option ω) : ResolvesDevice s path object ↔ StopsAtDevice s path := by
  obtain ⟨htree, g, hg, hd⟩ := deviceSystem_valid h
  exact resolvesDevice_iff htree.directories hg (htree.object g (htree.directory g hd)).1 hd hpath

/-! ## A device, mounted and linked -/

/-- Addresses of objects, and of the variables for results. -/
inductive DeviceAddress
  | root
  | globalDirectory
  | device
  | link
  | result
  deriving DecidableEq, Repr

/-- The headers at the start: two directories. -/
def startHeader : DeviceAddress → OBJECT_HEADER
  | .root => emptyRoot.header ()
  | .globalDirectory => { emptyRoot.header () with DirEntryLinked := true, ObjectName := bufferName ['G'] }
  | .device | .link | .result => { clearedHeader with Magic := 0 }

/-- The root directory, and in it the global directory, which is called `G` here. -/
def startSpace : DeviceSpace DeviceAddress Unit where
  ob :=
    { header := startHeader
      objects := {.root, .globalDirectory}
      Head := fun d => if d = .root then [.globalDirectory] else []
      Flags := fun _ => 0
      ObRootDirectory := some .root
      Handle := fun _ _ => .invalid }
  block _ := none
  ObGlobalDirectory := some .globalDirectory
  DeviceObject _ := none
  LinkTargetObject _ := none

/-- It is one to start with. -/
theorem startSpace_start : startSpace.Start .root .globalDirectory := by
  refine ⟨by decide, rfl, rfl, rfl, fun _ => rfl, fun x hx => ?_, fun d => ?_⟩
  · have hx : x = .root ∨ x = .globalDirectory := by simpa [startSpace] using hx
    rcases hx with rfl | rfl
    · exact ⟨rfl, by simp [startSpace, startHeader, emptyRoot, bufferName], one_pos⟩
    · exact ⟨rfl, by simp [startSpace, startHeader, bufferName], one_pos⟩
  · cases d <;> simp [IsDirectory, startSpace, startHeader, emptyRoot, clearedHeader]

/-- The blocks that are handed out are free. -/
def freshBlocks (blocks : CreateBlocks ω) (t : Objects ω π) : Bool :=
  (blocks.memory.all fun x => decide (x ∉ t.ob.objects) && (t.block (.header x)).isNone)
    && (blocks.lookupBuffer.all fun b => (t.block (.name b)).isNone)
    && blocks.insertBuffer.all fun b => (t.block (.name b)).isNone

/-- The blocks of an operation other than `ObCreateDirectoryObject` are free. -/
def DeviceEvent.fresh (e : DeviceEvent ω π) (s : DeviceSpace ω π) : Bool :=
  match e with
  | .directory _ _ _ => false
  | .symbolicLink _ _ _ _ blocks => freshBlocks blocks s.toObjects
  | .mount _ _ _ _ => true
  | .device _ _ blocks => freshBlocks blocks s.toObjects

/-- A name from the root directory is allowed. -/
theorem allowed_of_freshBlocks {type : OBJECT_TYPE_INDEX} {name : CString} {p : π} {blocks : CreateBlocks ω}
    (h : freshBlocks blocks t = true) :
    ObjectCreation.Allowed ⟨type, some ⟨none, some name.val, 0⟩, p, blocks⟩ t := by
  obtain ⟨h, hinsert⟩ := Bool.and_eq_true_iff.mp h
  obtain ⟨hmemory, hlookup⟩ := Bool.and_eq_true_iff.mp h
  refine ⟨fun attr hattr => ?_, fun attr hattr path hpath => ?_, fun attr hattr i hi => ?_, fun x hx => ?_,
    fun b hb => ?_, fun b hb => ?_⟩
  · obtain rfl := Option.some.inj hattr
    exact UInt32.zero_and
  · obtain rfl := Option.some.inj hattr
    obtain rfl := Option.some.inj hpath
    exact name.property
  · obtain rfl := Option.some.inj hattr
    cases hi
  · have hx : blocks.memory = some x := hx
    rw [hx] at hmemory
    simpa using hmemory
  · have hb : blocks.lookupBuffer = some b := hb
    rw [hb] at hlookup
    simpa using hlookup
  · have hb : blocks.insertBuffer = some b := hb
    rw [hb] at hinsert
    simpa using hinsert

/-- An operation with free blocks is allowed. -/
theorem DeviceEvent.allowed_of_fresh {e : DeviceEvent ω π} (h : e.fresh s = true) :
    ∀ call, e.creation = some call → call.Allowed s.toObjects := by
  cases e with
  | directory attributes p blocks => cases h
  | symbolicLink name target p buffer blocks =>
    rintro _ ⟨⟩
    exact allowed_of_freshBlocks h
  | mount mountPoint target targetBuffer mountBuffer =>
    rintro _ ⟨⟩
  | device name p blocks =>
    rintro _ ⟨⟩
    exact allowed_of_freshBlocks h

/-- `\dev`. -/
def devicePath : CString := ⟨['\\', 'd', 'e', 'v'], by simp⟩

/-- `\G\C:`, a symbolic link in the global directory. -/
def linkPath : CString := ⟨['\\', 'G', '\\', 'C', ':'], by simp⟩

/-- `\G`, the global directory. -/
def mountPath : CString := ⟨['\\', 'G'], by simp⟩

/-- A device is created, a link to it made, and the global directory mounted. -/
def deviceEvents : List (DeviceEvent DeviceAddress Unit) :=
  [.device devicePath () ⟨.result, some .device, some 0, some 1⟩,
    .symbolicLink linkPath devicePath () true ⟨.result, some .link, some 0, some 2⟩,
    .mount mountPath devicePath true true]

/-- What has been observed of the name space they build. -/
theorem deviceEvents_observed (observe : DeviceSpace DeviceAddress Unit → Bool)
    (h : (play DeviceEvent.fresh (fun e s => e.run s) deviceEvents ([], startSpace)).map
      (fun x => observe x.2) = some true) :
    ∃ t s, (deviceSystem DeviceAddress Unit).Run t s ∧ observe s = true := by
  refine System.Run.play_observed DeviceEvent.fresh (fun e s => e.run s) (fun t s e u hfresh hrun => ?_)
    deviceEvents (fun _ s => observe s) (.start ⟨_, _, startSpace_start⟩) h
  exact ⟨rfl, DeviceEvent.allowed_of_fresh hfresh, hrun⟩

/-- The global directory is a mount point and has one entry, the link, to the device. -/
def linkedAndMounted (s : DeviceSpace DeviceAddress Unit) : Bool :=
  s.ObGlobalDirectory = some .globalDirectory
    ∧ (s.ob.header .globalDirectory).ObjectType = some .OBJECT_TYPE_DIRECTORY
    ∧ s.ob.Flags .globalDirectory &&& OB_DIRECTORY_MOUNTPOINT ≠ 0
    ∧ child s.ob .globalDirectory ['x'] = none
    ∧ child s.ob .globalDirectory ['C', ':'] = some .link
    ∧ (s.ob.header .link).ObjectType = some .OBJECT_TYPE_SYMLINK
    ∧ s.LinkTargetObject .link = some .device
    ∧ obIsValidObject .device s.ob = true
    ∧ (s.ob.header .device).ObjectType = some .OBJECT_TYPE_DEVICE

/-- That is what is built. -/
theorem linkedAndMounted_run :
    ∃ t s, (deviceSystem DeviceAddress Unit).Run t s ∧ linkedAndMounted s = true :=
  deviceEvents_observed linkedAndMounted (by decide +kernel)

/-- The path `x`, which the mounted file system is to look up, is resolved. -/
theorem device_resolution_mounted :
    ∃ t s, (deviceSystem DeviceAddress Unit).Run t s ∧ ResolvesDevice s ['x'] none := by
  obtain ⟨t, s, hrun, hs⟩ := linkedAndMounted_run
  obtain ⟨hglobal, hdirectory, hmount, hx, -⟩ := of_decide_eq_true hs
  have hends : EndsAt s.ob .globalDirectory ['x'] (.missing .globalDirectory ['x'] ['x']) :=
    .missing hdirectory rfl (by decide) hx rfl
  exact ⟨t, s, hrun, (device_resolution_iff hrun (by simp) none).mpr
    ⟨hends.component, _, _, _, _, _, hglobal, hends, rfl, .mount hdirectory hmount⟩⟩

/-- **The path `C:`, a link to the device**, is returned as left over itself. -/
theorem device_resolution_fails :
    ∃ t s, (deviceSystem DeviceAddress Unit).Run t s
      ∧ LeadsTo s.ob .globalDirectory ['C', ':'] .link [] ∧ DeviceAt s .link (some .device)
      ∧ obGetDeviceObject ['C', ':'] true none s = .ok (some (.STATUS_SUCCESS, some ['C', ':'], some .device))
      ∧ ¬ ResolvesDevice s ['C', ':'] none := by
  obtain ⟨t, s, hrun, hs⟩ := linkedAndMounted_run
  obtain ⟨hglobal, hdirectory, -, -, hC, hlink, htarget, hvalid, hdevice⟩ := of_decide_eq_true hs
  have hat : DeviceAt s .link (some .device) := .link hlink htarget hvalid hdevice
  have hleads : LeadsTo s.ob .globalDirectory ['C', ':'] .link [] := .step hdirectory rfl hC (.start _ _)
  have hends : EndsAt s.ob .globalDirectory ['C', ':'] (.last .globalDirectory ['C', ':'] .link) :=
    .last hdirectory rfl (by decide) hC
  have htree := (deviceSystem_valid hrun).tree
  have hobject := fun d hd => (htree.object d (htree.directory d hd)).1
  have hresult : obGetDeviceObject ['C', ':'] true none s
      = .ok (some (.STATUS_SUCCESS, some ['C', ':'], some .device)) :=
    (obGetDeviceObject_last htree.directories hglobal (hobject _ hdirectory) (by simp) (by decide) hends).trans
      (hat.deviceOf (hleads.valid htree.directories (hobject _ hdirectory)))
  refine ⟨t, s, hrun, hleads, hat, hresult, ?_⟩
  rintro ⟨g, e, pre, rest, device, hg, -, -, -, hmax, hclaimed⟩
  cases hglobal.symm.trans hg
  have hlength := hmax _ _ _ hleads hat
  cases hresult.symm.trans hclaimed
  cases hlength

end KaushOS
