import KaushOS.Ob.CreateFailure

/-! # `OBJ_OPENIF` (`kern/ob/ob.c`)

With `OBJ_OPENIF`, `ObCreateObject` is to open an object that exists already. It stores the object to the
caller's variable and takes the reference on that variable.

* **`ObjectCreation.OpensIf`** — what the attribute is to do.
* **`open_if_iff`** — it does that exactly for the paths that denote no object. -/

namespace KaushOS

open Paths Pooled

variable {ω π : Type} [DecidableEq ω]

/-- One reference more to an object, and nothing else. -/
def objectReferenced (x : ω) (s : Objects ω π) : Objects ω π :=
  { s with ob := s.ob.setHeader x { s.ob.header x with RefCount := (s.ob.header x).RefCount + 1 } }

/-- The same attributes without `OBJ_OPENIF`. -/
def OBJECT_ATTRIBUTES.withoutOpenIf (attr : OBJECT_ATTRIBUTES) : OBJECT_ATTRIBUTES :=
  { attr with Attributes := attr.Attributes &&& ~~~OBJ_OPENIF }

/-- The same call without `OBJ_OPENIF`. -/
def ObjectCreation.withoutOpenIf (call : ObjectCreation ω π) : ObjectCreation ω π :=
  { call with attributes := call.attributes.map OBJECT_ATTRIBUTES.withoutOpenIf }

/-- A header that does not say whether the object has been created with `OBJ_OPENIF`. -/
def OBJECT_HEADER.forgetOpenIf (h : OBJECT_HEADER) : OBJECT_HEADER :=
  { h with Attributes := h.Attributes &&& ~~~OBJ_OPENIF }

/-- A result in which the header of the new object does not say so. -/
def forgetOpenIf (x : ω) (r : KSTATUS × Option ω × Objects ω π) : KSTATUS × Option ω × Objects ω π :=
  (r.1, r.2.1, { r.2.2 with ob := r.2.2.ob.setHeader x (r.2.2.ob.header x).forgetOpenIf })

/-- **Two calls behave the same**, but for the attribute that is recorded in the header of the new object. -/
def SameButOpenIf (memory : Option ω) (r r' : Kernel (KSTATUS × Option ω × Objects ω π)) : Prop :=
  match memory with
  | none => r = r'
  | some x => r.map (forgetOpenIf x) = r'.map (forgetOpenIf x)

/-- **What `OBJ_OPENIF` is to do**: an object that exists is opened, with one reference more and nothing else
changed, and for a path whose last component is missing the attribute makes no difference. -/
def ObjectCreation.OpensIf (types : OBJECT_TYPE_INDEX → OBJECT_TYPE ω) (call : ObjectCreation ω π)
    (s : Objects ω π) (root : ω) (path : List Char) : Prop :=
  (∀ x, Denotes s.ob root path x →
    call.run types s = .ok (.STATUS_SUCCESS, some x, objectReferenced x s))
  ∧ ∀ e, MissingFrom s.ob root path e →
    SameButOpenIf call.blocks.memory (call.run types s) (call.withoutOpenIf.run types s)

variable {types : OBJECT_TYPE_INDEX → OBJECT_TYPE ω} {s s' : Objects ω π} {root x : ω} {path : List Char}
  {attr : OBJECT_ATTRIBUTES} {call : ObjectCreation ω π} {type : OBJECT_TYPE_INDEX} {blocks : CreateBlocks ω}
  {finish : LookupEnd ω} {name : Option (ω × List Char × OBP_LOOKUP_CONTEXT ω)}

/-! ## The call without the attribute -/

omit [DecidableEq ω] in
/-- The attribute is taken away once. -/
theorem withoutOpenIf_attributes (attr : OBJECT_ATTRIBUTES) :
    attr.withoutOpenIf.Attributes &&& ~~~OBJ_OPENIF = attr.Attributes &&& ~~~OBJ_OPENIF := by
  rw [OBJECT_ATTRIBUTES.withoutOpenIf, UInt32.and_assoc, UInt32.and_self]

omit [DecidableEq ω] in
/-- It is gone then. -/
theorem withoutOpenIf_openIf (attr : OBJECT_ATTRIBUTES) :
    attr.withoutOpenIf.Attributes &&& OBJ_OPENIF = 0 := by
  rw [OBJECT_ATTRIBUTES.withoutOpenIf, UInt32.and_assoc]
  simp [OBJ_OPENIF]

omit [DecidableEq ω] in
/-- The name is the same. -/
theorem ObjectCreation.Names.withoutOpenIf (h : call.Names s attr root path) :
    call.withoutOpenIf.Names s attr.withoutOpenIf root path :=
  ⟨congrArg (Option.map _) h.attributes, h.name, h.start⟩

omit [DecidableEq ω] in
/-- The call is as promised, too. -/
theorem ObjectCreation.Promised.withoutOpenIf (h : call.Promised s) : call.withoutOpenIf.Promised s := by
  have hcall : ∀ attr', call.withoutOpenIf.attributes = some attr' →
      ∃ attr, call.attributes = some attr ∧ attr.withoutOpenIf = attr' := fun attr' hattr' =>
    Option.map_eq_some_iff.mp hattr'
  refine ⟨h.directories, fun attr' hattr' => ?_, fun attr' hattr' path hpath => ?_,
    fun attr' root path hnames => ?_, h.memory, h.lookupBuffer, h.insertBuffer⟩
  · obtain ⟨attr, hattr, rfl⟩ := hcall attr' hattr'
    rw [OBJECT_ATTRIBUTES.withoutOpenIf, UInt32.and_assoc, UInt32.and_comm (~~~OBJ_OPENIF), ← UInt32.and_assoc,
      h.attributes attr hattr, UInt32.zero_and]
  · obtain ⟨attr, hattr, rfl⟩ := hcall attr' hattr'
    exact h.path attr hattr path hpath
  · obtain ⟨attr, hattr, rfl⟩ := hcall attr' hnames.attributes
    exact h.root attr root path ⟨hattr, hnames.name, hnames.start⟩

/-! ## A name that is free -/

omit [DecidableEq ω] in
/-- Mapping goes past what is done before. -/
theorem kernel_map_bind {α β γ : Type} (k : Kernel α) (f : α → Kernel β) (g : β → γ) :
    (k >>= f).map g = k >>= fun a => (f a).map g := by
  cases k <;> rfl

/-- What is forgotten about a header that has just been stored. -/
theorem forgetOpenIf_setHeader {status : KSTATUS} {object : Option ω} {ob : Ob ω π} {h : OBJECT_HEADER}
    {block : PoolBlock ω → Option UInt32} :
    forgetOpenIf x (status, object, ⟨ob.setHeader x h, block⟩)
      = (status, object, ⟨ob.setHeader x h.forgetOpenIf, block⟩) := by
  simp [forgetOpenIf, Ob.setHeader]

/-- An object is opened the same way. -/
theorem openObject_sameButOpenIf (type : OBJECT_TYPE_INDEX) (attr : OBJECT_ATTRIBUTES) (x : ω)
    (s : Objects ω π) :
    (openObject types type (some attr) x s).map (forgetOpenIf x)
      = (openObject types type (some attr.withoutOpenIf) x s).map (forgetOpenIf x) := by
  have hheader : ∀ h : OBJECT_HEADER, (openedHeader type (some attr) h).forgetOpenIf
      = (openedHeader type (some attr.withoutOpenIf) h).forgetOpenIf := by
    intro h
    simp only [openedHeader, OBJECT_HEADER.forgetOpenIf, Option.map_some, Option.getD_some,
      withoutOpenIf_attributes]
  have hresult : ∀ (status : KSTATUS) (object : Option ω) (block : PoolBlock ω → Option UInt32)
      (objects : Finset ω),
      forgetOpenIf x (status, object,
          ⟨{ s.ob.setHeader x (openedHeader type (some attr) (s.ob.header x)) with objects }, block⟩)
        = forgetOpenIf x (status, object,
          ⟨{ s.ob.setHeader x (openedHeader type (some attr.withoutOpenIf) (s.ob.header x)) with objects },
            block⟩) := by
    intro status object block objects
    have hset : ∀ h, ({ s.ob.setHeader x h with objects } : Ob ω π)
        = ({ s.ob with objects } : Ob ω π).setHeader x h := fun _ => rfl
    rw [hset, hset, forgetOpenIf_setHeader, forgetOpenIf_setHeader, hheader]
  unfold openObject
  simp only [exFreePoolWithTag]
  by_cases hopen : K_SUCCESS (((types type).OpenProcedure.map fun f => f x).getD .STATUS_SUCCESS)
  · rw [if_neg (not_not_intro hopen), if_neg (not_not_intro hopen)]
    exact congrArg Except.ok (hresult _ _ _ _)
  · rw [if_pos hopen, if_pos hopen]
    by_cases htag : s.block (.header x) = some TAG_tjbo
    · rw [if_neg (not_not_intro htag), if_neg (not_not_intro htag)]
      exact congrArg Except.ok (hresult _ _ _ _)
    · rw [if_pos htag, if_pos htag]

/-- An object is created the same way. -/
theorem createNewObject_sameButOpenIf (type : OBJECT_TYPE_INDEX) (attr : OBJECT_ATTRIBUTES)
    (blocks : CreateBlocks ω) (s : Objects ω π) :
    SameButOpenIf blocks.memory (Pooled.createNewObject types type (some attr) name blocks s)
      (Pooled.createNewObject types type (some attr.withoutOpenIf) name blocks s) := by
  unfold Pooled.createNewObject SameButOpenIf
  cases blocks.memory with
  | none => rfl
  | some x =>
    cases name with
    | none => exact openObject_sameButOpenIf type attr x _
    | some n =>
      obtain ⟨root, path, context⟩ := n
      simp only [kernel_map_bind]
      refine congrArg _ (funext fun _ => congrArg _ (funext fun r => ?_))
      by_cases hfailed : K_SUCCESS r.1
      · rw [if_neg (not_not_intro hfailed), if_neg (not_not_intro hfailed)]
        exact openObject_sameButOpenIf type attr x _
      · rw [if_pos hfailed, if_pos hfailed]

/-- Equal results are the same. -/
theorem SameButOpenIf.of_eq {memory : Option ω} {r r' : Kernel (KSTATUS × Option ω × Objects ω π)} (h : r = r') :
    SameButOpenIf memory r r' := by
  subst h
  cases memory <;> exact rfl

/-! ## Opening -/

/-- **For a path that denotes no object** the attribute makes no difference. -/
theorem run_sameButOpenIf (hcall : call.Promised s) (hnames : call.Names s attr root path)
    (hnone : ∀ x, ¬ Denotes s.ob root path x) :
    SameButOpenIf call.blocks.memory (call.run types s) (call.withoutOpenIf.run types s) := by
  have hprepared := hcall.prepared hnames
  have hrun' : call.withoutOpenIf.run types s = createNamedObject types call.type attr.withoutOpenIf root path
      call.blocks (rootReferenced attr root s) :=
    call.withoutOpenIf.run_named hcall.withoutOpenIf hnames.withoutOpenIf
  rw [call.run_named hcall hnames, hrun']
  cases hb : call.blocks.lookupBuffer with
  | none =>
    exact .of_eq ((hprepared.createNamedObject_noNameBuffer hb).trans
      (hprepared.createNamedObject_noNameBuffer hb).symm)
  | some b =>
    obtain ⟨finish, hends⟩ := exists_endsAt s.ob root path
    have hends' := hends.rootReferenced attr root
    cases finish with
    | trailing => exact absurd hends.denotes_trailing (hnone _)
    | last => exact absurd hends.denotes_last (hnone _)
    | blocked | gap =>
      exact .of_eq ((hprepared.createNamedObject_pathNotFound hb hends' rfl).trans
        (hprepared.createNamedObject_pathNotFound hb hends' rfl).symm)
    | tooLong =>
      exact .of_eq ((hprepared.createNamedObject_tooLong hb hends').trans
        (hprepared.createNamedObject_tooLong hb hends').symm)
    | missing e rest c =>
      obtain ⟨context, hcreates⟩ := hprepared.createNamedObject_creates types call.type hb hends'
      rw [hcreates, hcreates]
      exact createNewObject_sameButOpenIf call.type attr call.blocks _

omit [DecidableEq ω] in
/-- A walk leads to entries of directories. -/
theorem walk_mem {s : Ob ω π} {d x : ω} {cs : List (List Char)}
    (h : Walk (IsDirectory s) (child s) d cs x) : x = d ∨ ∃ e, x ∈ s.Head e := by
  induction h with
  | nil d => exact Or.inl rfl
  | @cons d y c cs x hd hchild h ih =>
    rcases ih with rfl | he
    · exact Or.inr ⟨d, List.mem_of_find?_eq_some hchild⟩
    · exact Or.inr he

/-- A reference that is taken is counted. -/
theorem obReferenceObject_counts {ob ob' : Ob ω π} (h : obReferenceObject x ob = .ok ob') :
    (ob'.header x).RefCount = (ob.header x).RefCount + 1 := by
  obtain ⟨_, -, h⟩ := kernel_bind_eq_ok.mp h
  obtain ⟨_, -, h⟩ := kernel_bind_eq_ok.mp h
  cases h
  rw [Ob.setHeader_self]

/-- **For a path that denotes an object** the reference is taken elsewhere. -/
theorem run_openIf_ne (hcall : call.Promised s) (hnames : call.Names s attr root path)
    (hopenIf : attr.Attributes &&& OBJ_OPENIF ≠ 0) (hroot : call.blocks.result ≠ root)
    (hHead : ∀ d, call.blocks.result ∉ s.ob.Head d) (hx : Denotes s.ob root path x) :
    call.run types s ≠ .ok (.STATUS_SUCCESS, some x, objectReferenced x s) := by
  intro hrun
  have hprepared := hcall.prepared hnames
  rw [call.run_named hcall hnames] at hrun
  cases hb : call.blocks.lookupBuffer with
  | none => cases hrun.symm.trans (hprepared.createNamedObject_noNameBuffer hb)
  | some b =>
    obtain ⟨finish, hends⟩ := exists_endsAt s.ob root path
    have hends' := hends.rootReferenced attr root
    cases finish with
    | blocked | gap => cases hrun.symm.trans (hprepared.createNamedObject_pathNotFound hb hends' rfl)
    | tooLong => cases hrun.symm.trans (hprepared.createNamedObject_tooLong hb hends')
    | missing => exact hends.missingFrom.not_denotes x hx
    | trailing | last =>
      obtain ⟨-, ob, hob, hs⟩ := hprepared.createNamedObject_opened hb hends' rfl hopenIf hrun
      have hresult : call.blocks.result ≠ x := by
        rintro rfl
        rcases walk_mem hx.1 with h | ⟨d, h⟩
        · exact hroot h
        · exact hHead d h
      -- the memory in front of the variable has been counted up, and the claimed state has it as it was
      have hcounted := obReferenceObject_counts hob
      have hsame : (ob.header call.blocks.result).RefCount = (s.ob.header call.blocks.result).RefCount := by
        have hob : ob = (objectReferenced x s).ob := (congrArg Objects.ob hs).symm
        rw [hob, objectReferenced, Ob.setHeader_of_ne _ _ hresult]
      have hbefore : (rootReferenced attr root s).ob.header call.blocks.result
          = s.ob.header call.blocks.result := by
        unfold rootReferenced
        cases attr.RootDirectory with
        | none => rfl
        | some i => exact Ob.setHeader_of_ne _ _ hroot
      rw [hsame, hbefore] at hcounted
      omega

/-- **`OBJ_OPENIF` does what it is to do exactly for the paths that denote no object.** -/
theorem open_if_iff (hcall : call.Promised s) (hnames : call.Names s attr root path)
    (hopenIf : attr.Attributes &&& OBJ_OPENIF ≠ 0) (hroot : call.blocks.result ≠ root)
    (hHead : ∀ d, call.blocks.result ∉ s.ob.Head d) :
    call.OpensIf types s root path ↔ ¬ ∃ x, Denotes s.ob root path x := by
  constructor
  · rintro ⟨hopens, -⟩ ⟨x, hx⟩
    exact run_openIf_ne hcall hnames hopenIf hroot hHead hx (hopens x hx)
  · intro hnone
    exact ⟨fun x hx => absurd ⟨x, hx⟩ hnone,
      fun e he => run_sameButOpenIf hcall hnames fun x hx => hnone ⟨x, hx⟩⟩

/-! ## A directory with a file -/

/-- The root directory, a file in it, and the caller's variable. -/
inductive OpenIfAddress
  | root
  | file
  | result
  deriving DecidableEq, Repr

/-- The memory in front of each address; in front of the variable it is cleared. -/
def openIfHeader : OpenIfAddress → OBJECT_HEADER
  | .root => emptyRoot.header ()
  | .file =>
    { Magic := OBJECT_HEADER_MAGIC, DirEntryLinked := true, ObjectType := some .OBJECT_TYPE_FILE
      OpenHandleCount := 0, RefCount := 1, ObjectName := bufferName ['a'], Attributes := 0 }
  | .result => { clearedHeader with Magic := 0 }

/-- The file is called `a`. -/
def openIfObjects : Objects OpenIfAddress Unit where
  ob :=
    { header := openIfHeader
      objects := {.root, .file}
      Head := fun d => if d = .root then [.file] else []
      Flags := fun _ => 0
      ObRootDirectory := some .root
      Handle := fun _ _ => .invalid }
  block _ := none

/-- A file is to be created or opened under a name, without memory for a new one. -/
def openIfCall (name : List Char) : ObjectCreation OpenIfAddress Unit where
  type := .OBJECT_TYPE_FILE
  attributes := some ⟨none, some name, OBJ_OPENIF⟩
  process := ()
  blocks := ⟨.result, none, some 0, some 0⟩

/-- The name starts in the root directory. -/
theorem openIfCall_names (name : List Char) :
    (openIfCall name).Names openIfObjects ⟨none, some name, OBJ_OPENIF⟩ .root name := ⟨rfl, rfl, rfl⟩

/-- The root directory is the only one, and the file the only entry. -/
theorem openIfObjects_directories : DirectoriesValid openIfObjects.ob := by
  refine ⟨by simp [openIfObjects], fun d hd x hx => ?_⟩
  cases d with
  | root =>
    obtain rfl := List.mem_singleton.mp hx
    exact ⟨rfl, by simp [openIfObjects, openIfHeader, bufferName]⟩
  | file | result => cases hd

/-- The call is as promised. -/
theorem openIfCall_promised {name : List Char} (hname : ∀ c ∈ name, c.toNat ≠ 0) :
    (openIfCall name).Promised openIfObjects where
  directories := openIfObjects_directories
  attributes attr hattr := by
    obtain rfl := Option.some.inj hattr
    exact (by decide : OBJ_OPENIF &&& ~~~OBJ_VALID_ATTRIBUTES = 0)
  path attr hattr path hpath := by
    obtain rfl := Option.some.inj hattr
    obtain rfl := Option.some.inj hpath
    exact ⟨hname, .root, rfl⟩
  root attr start path hnames := by
    obtain rfl := Option.some.inj hnames.attributes
    obtain rfl := Option.some.inj hnames.start
    exact ⟨by simp [openIfObjects], rfl, rfl, one_pos⟩
  memory x hx := by cases hx
  lookupBuffer _ _ := rfl
  insertBuffer _ _ := rfl

/-- The variable is no entry. -/
theorem openIfObjects_result (d : OpenIfAddress) : OpenIfAddress.result ∉ openIfObjects.ob.Head d := by
  cases d <;> simp [openIfObjects]

/-- The name `b` denotes no object: the attribute makes no difference. -/
theorem open_if_missing : (openIfCall ['b']).OpensIf (fun _ => ⟨0, none⟩) openIfObjects .root ['b'] := by
  have hdirectory : IsDirectory openIfObjects.ob .root := rfl
  have hends : EndsAt openIfObjects.ob .root ['b'] (.missing .root ['b'] ['b']) :=
    .missing hdirectory rfl (by decide) rfl rfl
  refine (open_if_iff (openIfCall_promised (by simp)) (openIfCall_names ['b']) (by decide)
    (by simp [openIfCall]) openIfObjects_result).mpr ?_
  rintro ⟨x, hx⟩
  exact hends.missingFrom.not_denotes x hx

/-- **Opening the file `a`** takes a reference on the variable. -/
theorem open_if_fails :
    Denotes openIfObjects.ob .root ['a'] .file
    ∧ (openIfCall ['a']).run (fun _ => ⟨0, none⟩) openIfObjects
      = .error (.assertion "ObjectHeader->RefCount != 0")
    ∧ ¬ (openIfCall ['a']).OpensIf (fun _ => ⟨0, none⟩) openIfObjects .root ['a'] := by
  have hdirectory : IsDirectory openIfObjects.ob .root := rfl
  have hends : EndsAt openIfObjects.ob .root ['a'] (.last .root ['a'] .file) :=
    .last hdirectory rfl (by decide) rfl
  have hrun : (openIfCall ['a']).run (fun _ => ⟨0, none⟩) openIfObjects
      = .error (.assertion "ObjectHeader->RefCount != 0") := rfl
  refine ⟨hends.denotes_last, hrun, fun h => ?_⟩
  cases hrun.symm.trans (h.1 .file hends.denotes_last)

end KaushOS
