import KaushOS.Library.Transition
import KaushOS.Ob.Accounting

/-! # Runs of the object manager

* **`ObEvent`, `obSystem`** — the calls, what the callers promise, and what a call means for the
  references that callers hold.
* **`ObEvent.KeepsCount`** — the calls that follow the convention: a table is made without copying
  handles and given back without handles in it, and no existing object is opened by a creation.
* **`handle_accounting`** — runs of such calls keep the counters of all objects right. -/

namespace KaushOS

open Occurrences Transition

variable {ω π : Type} [DecidableEq ω]

/-- Not an assertion of `ObRemoveObject` about one of the two counters. -/
def NotRemoval : BugCheck → Prop
  | .assertion text =>
    text ≠ "ObjectHeader->RefCount == 0" ∧ text ≠ "ObjectHeader->OpenHandleCount == 0"
  | _ => True

variable {s s' : Ob ω π} {refs : ω → Nat} {tables : Finset π} {x : ω}

/-! ## Looking up names -/

omit [DecidableEq ω] in
theorem obIsDirectoryObject_meets (x : ω) (s : Ob ω π) :
    Meets (obIsDirectoryObject x s) (fun _ => True) NotRemoval :=
  .bind (.assert ⟨by simp, by simp⟩) fun _ _ => .ok trivial

theorem obParseDirectoryPath_meets (path : List Char) (dirName : UNICODE_STRING) :
    Meets (obParseDirectoryPath path dirName) (fun _ => True) NotRemoval := by
  unfold obParseDirectoryPath
  split
  · exact .ok trivial
  · exact .bind (.assert ⟨by simp, by simp⟩) fun _ _ => .ok trivial

omit [DecidableEq ω] in
theorem lookupEntry_meets (name : UNICODE_STRING) (s : Ob ω π) (l : List ω) :
    Meets (lookupEntry name s l) (fun _ => True) NotRemoval := by
  induction l with
  | nil => exact .ok trivial
  | cons x l ih =>
    refine .bind (P := fun _ => True) ?_ fun _ _ => .ite (fun _ => .ok trivial) fun _ => ih
    unfold rtlCompareUnicodeString
    refine .ite (fun _ => .ok trivial) fun _ => .ite (fun _ => .ok trivial) fun _ => ?_
    exact .bind (.deref trivial) fun _ _ => .bind (.deref trivial) fun _ _ => .ok trivial

omit [DecidableEq ω] in
theorem obpLookupEntryDirectory_meets (d : ω) (name : UNICODE_STRING)
    (context : OBP_LOOKUP_CONTEXT ω) (s : Ob ω π) :
    Meets (obpLookupEntryDirectory d name context s) (fun _ => True) NotRemoval := by
  refine .bind (lookupEntry_meets _ _ _) fun entry _ => ?_
  cases entry with
  | none => exact .ok trivial
  | some x =>
    refine .bind (P := fun _ => True) ?_ fun _ _ => .ite (fun _ => .ok trivial) fun _ => .ok trivial
    exact .bind (obIsDirectoryObject_meets _ _) fun _ _ => .ok trivial

theorem obpInsertEntryDirectory_meets (d : ω) (context : OBP_LOOKUP_CONTEXT ω) (x : ω)
    (s : Ob ω π) : Meets (obpInsertEntryDirectory d context x s) (SameCounts s) NotRemoval := by
  refine .bind (obIsDirectoryObject_meets _ _) fun _ _ => .bind (.assert ⟨by simp, by simp⟩)
    fun _ _ => .bind (.assert ⟨by simp, by simp⟩) fun _ _ => .bind (.assert ⟨by simp, by simp⟩)
    fun _ _ => .ok ?_
  have hhead : SameCounts s (s.setHead d (s.Head d ++ [x])) :=
    ⟨rfl, rfl, fun _ => rfl, fun _ => rfl, fun _ => rfl, fun _ => rfl⟩
  exact hhead.trans (.setHeader rfl rfl rfl rfl)

/-- A lookup does not change what the counters are about, whether it inserts an object or not. -/
theorem lookupLoop_meets (insert : Option ω) (n : Nat) (path : List Char)
    (dirName : UNICODE_STRING) (d : Option ω) (context : OBP_LOOKUP_CONTEXT ω) (status : KSTATUS)
    (s : Ob ω π) : Meets (lookupLoop insert n path dirName d context status s)
      (fun result => SameCounts s result.2.2) NotRemoval := by
  induction n generalizing path dirName d context status with
  | zero => exact .error trivial
  | succ n ih =>
    refine .bind (.deref trivial) fun d _ => .bind (obIsDirectoryObject_meets _ _) fun _ _ =>
      .ite (fun _ => .ok (.refl s)) fun _ => .bind (obParseDirectoryPath_meets _ _) fun next _ => ?_
    cases next with
    | none => exact .ok (.refl s)
    | some next =>
      refine .bind (obpLookupEntryDirectory_meets _ _ _ _) fun found _ => .ite (fun _ => ?_)
        fun _ => .ite (fun _ => .ok (.refl s)) fun _ => ih _ _ _ _ _
      refine .bind (obParseDirectoryPath_meets _ _) fun last _ => ?_
      cases last with
      | some _ => exact .ok (.refl s)
      | none =>
        cases insert with
        | none => exact .ok (.refl s)
        | some x =>
          have hname : SameCounts s (s.setHeader x { s.header x with ObjectName := next.1 }) :=
            .setHeader rfl rfl rfl rfl
          exact .bind (obpInsertEntryDirectory_meets _ _ _ _) fun _ hs => .ok (hname.trans hs)

theorem obpLookupObjectByName_meets (d : Option ω) (path : List Char)
    (context : OBP_LOOKUP_CONTEXT ω) (insert : Option ω) (buffer : Bool) (s : Ob ω π) :
    Meets (obpLookupObjectByName d path context insert buffer s)
      (fun result => SameCounts s result.2.2) NotRemoval :=
  .ite (fun _ => .error trivial) fun _ => .bind (.assert ⟨by simp, by simp⟩) fun _ _ =>
    .ite (fun _ => .ok (.refl s)) fun _ => lookupLoop_meets _ _ _ _ _ _ _ _

/-! ## Creating objects -/

/-- A reference more on an object. -/
def addRef (x : Option ω) (refs : ω → Nat) : ω → Nat :=
  match x with
  | none => refs
  | some x => Function.update refs x (refs x + 1)

/-- A reference less on an object. -/
def dropRef (x : ω) (refs : ω → Nat) : ω → Nat := Function.update refs x (refs x - 1)

/-- The header at an address where no object is. -/
theorem ObInvariant.setFresh (h : ObInvariant s refs tables) (hx : x ∉ s.objects)
    (header : OBJECT_HEADER) : ObInvariant (s.setHeader x header) refs tables := by
  have hother : ∀ y ∈ s.objects, (s.setHeader x header).header y = s.header y :=
    fun y hy => Ob.setHeader_of_ne s header (ne_of_mem_of_not_mem hy hx)
  refine ⟨fun y hy => ?_, fun y hy => ?_, fun y hy => ?_, fun y hy => ?_, fun y hy => ?_, h.dead⟩
  · rw [obIsValidObject, hother y hy]
    exact h.valid y hy
  · rw [hother y hy]
    exact h.temporary y hy
  · rw [hother y hy]
    exact h.handles y hy
  · rw [hother y hy]
    exact h.balance y hy
  · rw [hother y hy]
    exact h.alive y hy

/-- **An object more**, with one reference, which is its creator's. -/
theorem ObInvariant.addObject (h : ObInvariant s refs tables) (hx : x ∉ s.objects)
    {header : OBJECT_HEADER} (hmagic : header.Magic = OBJECT_HEADER_MAGIC)
    (htemporary : header.Attributes &&& OBJ_PERMANENT = 0) (hopen : header.OpenHandleCount = 0)
    (href : header.RefCount = 1) :
    ObInvariant { s.setHeader x header with objects := insert x s.objects }
      (addRef (some x) refs) tables := by
  obtain ⟨hrefs, hhandles⟩ := h.dead x hx
  have hfresh := h.setFresh hx header
  have hself : (s.setHeader x header).header x = header := Ob.setHeader_self ..
  have hnew : ∀ y ∈ s.objects, addRef (some x) refs y = refs y :=
    fun y hy => Function.update_of_ne (ne_of_mem_of_not_mem hy hx) ..
  have hone : addRef (some x) refs x = 1 := by
    rw [addRef, Function.update_self, hrefs]
  refine ⟨fun y hy => ?_, fun y hy => ?_, fun y hy => ?_, fun y hy => ?_, fun y hy => ?_,
    fun y hy => ?_⟩
  · rcases Finset.mem_insert.mp hy with rfl | hy
    · show decide (((s.setHeader y header).header y).Magic = _) = true
      rw [hself]
      exact decide_eq_true hmagic
    · exact hfresh.valid y hy
  · rcases Finset.mem_insert.mp hy with rfl | hy
    · show ((s.setHeader y header).header y).Attributes &&& _ = 0
      rw [hself]
      exact htemporary
    · exact hfresh.temporary y hy
  · rcases Finset.mem_insert.mp hy with rfl | hy
    · show ((s.setHeader y header).header y).OpenHandleCount = (handleCount tables s y : Int)
      rw [hself, hopen, hhandles]
      rfl
    · exact hfresh.handles y hy
  · rcases Finset.mem_insert.mp hy with rfl | hy
    · show ((s.setHeader y header).header y).RefCount
        = addRef (some y) refs y + ((s.setHeader y header).header y).OpenHandleCount
      rw [hself, hone, href, hopen]
      rfl
    · rw [hnew y hy]
      exact hfresh.balance y hy
  · rcases Finset.mem_insert.mp hy with rfl | hy
    · show 0 < ((s.setHeader y header).header y).RefCount
      rw [hself, href]
      decide
    · exact hfresh.alive y hy
  · have hyx : y ≠ x := by
      rintro rfl
      exact hy (Finset.mem_insert_self y s.objects)
    have hyo : y ∉ s.objects := fun hmem => hy (Finset.mem_insert_of_mem hmem)
    rw [addRef, Function.update_of_ne hyx]
    exact h.dead y hyo

/-- The second half of a creation. -/
theorem createNewObject_meets (h : ObInvariant s refs tables) {type : OBJECT_TYPE_INDEX}
    {attributes : Option OBJECT_ATTRIBUTES} {resources : CreateResources ω}
    {name : Option (ω × List Char × OBP_LOOKUP_CONTEXT ω)}
    (hfresh : ∀ x, resources.memory = some x → x ∉ s.objects)
    (htemporary : (attributes.map OBJECT_ATTRIBUTES.Attributes).getD 0 &&& OBJ_PERMANENT = 0) :
    Meets (createNewObject type attributes name resources s)
      (fun result => ObInvariant result.2.2 (addRef result.2.1 refs) tables
        ∧ s.objects ⊆ result.2.2.objects) NotRemoval := by
  unfold createNewObject
  cases hmemory : resources.memory with
  | none => exact .ok ⟨h, subset_rfl⟩
  | some x =>
    have hx := hfresh x hmemory
    have hcleared := h.setFresh hx clearedHeader
    have hinsert : Meets (insertName x name resources.insertBuffer (s.setHeader x clearedHeader))
        (fun result => SameCounts (s.setHeader x clearedHeader) result.2) NotRemoval := by
      unfold insertName
      cases name with
      | none => exact .ok (.refl _)
      | some name =>
        exact .bind (.assert ⟨by simp, by simp⟩) fun _ _ =>
          .bind (obpLookupObjectByName_meets _ _ _ _ _ _) fun _ hs => .ok hs
    refine .bind hinsert fun result hs => .ite (fun _ => .ok ⟨hcleared.congr hs, ?_⟩)
      fun _ => .ok ⟨?_, ?_⟩
    · rw [hs.objects]
      exact subset_rfl
    · have hmagic := hs.magic x
      rw [Ob.setHeader_self] at hmagic
      have hx' : x ∉ result.2.objects := by
        rw [hs.objects]
        exact hx
      exact (hcleared.congr hs).addObject hx' hmagic htemporary rfl rfl
    · show s.objects ⊆ insert x result.2.objects
      rw [hs.objects]
      exact Finset.subset_insert ..

/-- The directory on which `ObCreateObject` takes a reference, for its caller. -/
def namedRoot (attributes : Option OBJECT_ATTRIBUTES) (p : π) (s : Ob ω π) : Option ω := do
  let attr ← attributes
  let _ ← attr.ObjectName
  let handle ← attr.RootDirectory
  match s.Handle p handle with
  | .object x => some x
  | _ => none

variable {p : π} [DecidableEq π]

/-- A reference by handle. -/
theorem obReferenceObjectByHandle_meets (h : ObInvariant s refs tables) (hp : p ∈ tables)
    (i : Fin EX_MAX_HANDLE) (type : OBJECT_TYPE_INDEX) :
    Meets (obReferenceObjectByHandle i p type s)
      (fun result => s.Handle p i = .object result.1
        ∧ ObInvariant result.2 (addRef (some result.1) refs) tables
        ∧ result.2.objects = s.objects) NotRemoval := by
  unfold obReferenceObjectByHandle
  cases hentry : s.Handle p i with
  | invalid => exact .error trivial
  | null => exact .error trivial
  | object x =>
    have hx := h.mem_of_handle hp hentry
    obtain ⟨s', hok, hinv, -⟩ := h.reference hx
    have hs' := hok
    rw [obReferenceObject_eq (h.valid x hx) (h.alive x hx)] at hs'
    have hobjects : s'.objects = s.objects := by
      cases hs'
      rfl
    refine .bind (.assert ⟨by simp, by simp⟩) fun _ _ => .bind (.assert ⟨by simp, by simp⟩)
      fun _ _ => ?_
    rw [hok, kernel_ok_bind]
    exact .ok ⟨rfl, hinv, hobjects⟩

/-- `ObCreateObject` finds an object with the name and is asked to open it. -/
def OpensExisting (attributes : Option OBJECT_ATTRIBUTES) (p : π) (resources : CreateResources ω)
    (s : Ob ω π) : Prop :=
  ∃ attr path root context s₁ s₂, attributes = some attr ∧ attr.ObjectName = some path
    ∧ attr.Attributes &&& OBJ_OPENIF ≠ 0 ∧ rootDirectory attr p s = .ok (root, s₁)
    ∧ obpLookupObjectByName (some root) path obInitializeLookupContext none resources.lookupBuffer s₁
      = .ok (.STATUS_SUCCESS, context, s₂)

/-- **A creation**, unless it opens an object that exists. -/
theorem obCreateObject_meets (h : ObInvariant s refs tables) {type : OBJECT_TYPE_INDEX}
    {attributes : Option OBJECT_ATTRIBUTES} {resources : CreateResources ω}
    (hfresh : ∀ x, resources.memory = some x → x ∉ s.objects)
    (htemporary : (attributes.map OBJECT_ATTRIBUTES.Attributes).getD 0 &&& OBJ_PERMANENT = 0)
    (hp : ∀ attr, attributes = some attr → attr.RootDirectory ≠ none → p ∈ tables)
    (hopens : ¬ OpensExisting attributes p resources s) :
    Meets (obCreateObject type attributes p resources s)
      (fun result => ObInvariant result.2.2
          (addRef result.2.1 (addRef (namedRoot attributes p s) refs)) tables
        ∧ s.objects ⊆ result.2.2.objects) NotRemoval := by
  unfold obCreateObject
  cases attributes with
  | none => exact createNewObject_meets h hfresh htemporary
  | some attr =>
    refine .bind (.assert ⟨by simp, by simp⟩) fun _ _ => ?_
    cases hname : attr.ObjectName with
    | none =>
      have hroot : namedRoot (some attr) p s = none := by
        simp [namedRoot, hname]
      rw [hroot]
      exact createNewObject_meets h hfresh htemporary
    | some path =>
      have hroot : Meets (rootDirectory attr p s) (fun result => rootDirectory attr p s = .ok result
          ∧ ObInvariant result.2 (addRef (namedRoot (some attr) p s) refs) tables
          ∧ result.2.objects = s.objects) NotRemoval := by
        cases hhandle : attr.RootDirectory with
        | none =>
          have hnone : namedRoot (some attr) p s = none := by
            simp [namedRoot, hname, hhandle]
          rw [hnone, rootDirectory, hhandle]
          refine .bind (.assert ⟨by simp, by simp⟩) fun hroot _ => ?_
          refine .bind (.deref trivial) fun root hroot => .ok ⟨?_, h, rfl⟩
          rw [hroot]
          rfl
        | some i =>
          have hroot : rootDirectory attr p s
              = obReferenceObjectByHandle i p .OBJECT_TYPE_DIRECTORY s := by
            rw [rootDirectory, hhandle]
          have hmeets := obReferenceObjectByHandle_meets h (hp attr rfl (by simp [hhandle])) i
            .OBJECT_TYPE_DIRECTORY
          rw [hroot]
          refine hmeets.returned.mono fun result hresult => ?_
          obtain ⟨hok, hentry, hinv, hobjects⟩ := hresult
          have hsome : namedRoot (some attr) p s = some result.1 := by
            simp [namedRoot, hname, hhandle, hentry]
          rw [hsome]
          exact ⟨hok, hinv, hobjects⟩
      refine .bind hroot fun found hfound => ?_
      obtain ⟨hok, hinv, hobjects⟩ := hfound
      refine .bind (obpLookupObjectByName_meets _ _ _ _ _ _).returned fun result hresult => ?_
      obtain ⟨status, context, s₂⟩ := result
      obtain ⟨hlookup, hs⟩ := hresult
      have hinv₂ := hinv.congr hs
      have hobjects₂ : s₂.objects = s.objects := hs.objects.trans hobjects
      refine .ite (fun hstatus => ?_) fun _ => .ite (fun _ => ?_) fun _ => ?_
      · have hno : ¬ attr.Attributes &&& OBJ_OPENIF ≠ 0 := by
          intro hopenif
          have hstatus' : status = .STATUS_SUCCESS := hstatus
          rw [hstatus'] at hlookup
          exact hopens ⟨attr, path, found.1, context, found.2, s₂, rfl, hname, hopenif, hok,
            hlookup⟩
        rw [if_neg hno]
        exact .ok ⟨hinv₂, hobjects₂.ge⟩
      · exact .ok ⟨hinv₂, hobjects₂.ge⟩
      · refine (createNewObject_meets hinv₂ (fun x hx => ?_) htemporary).mono fun r hr => ⟨hr.1, ?_⟩
        · rw [hobjects₂]
          exact hfresh x hx
        · rw [← hobjects₂]
          exact hr.2

/-! ## Events -/

/-- **The calls**; `close` is `ObCloseObject(Object, 1)` together with `ObRemoveHandle`. -/
inductive ObEvent (ω π : Type)
  | create (type : OBJECT_TYPE_INDEX) (attributes : Option OBJECT_ATTRIBUTES) (p : π)
      (resources : CreateResources ω)
  | reference (x : ω)
  | dereference (x : ω)
  | insert (x : ω) (p : π)
  | close (i : Fin EX_MAX_HANDLE) (p : π) (x : ω)
  | allocate (p : π) (parent : Option π) (isClone : Bool) (memory : Option (HandlePage ω))
  | free (p : π)

/-- The object manager, the references that callers hold, and the processes that have a handle
table. -/
structure ObMachine (ω π : Type) where
  ob : Ob ω π
  refs : ω → Nat
  tables : Finset π

/-- **One call.** A new object comes with a reference; a handle takes over the one it was inserted
with. -/
def ObEvent.run : ObEvent ω π → ObMachine ω π → Kernel (ObMachine ω π)
  | .create type attributes p resources, m => do
    let (_, object, ob) ← obCreateObject type attributes p resources m.ob
    return ⟨ob, addRef object (addRef (namedRoot attributes p m.ob) m.refs), m.tables⟩
  | .reference x, m => do
    let ob ← obReferenceObject x m.ob
    return ⟨ob, addRef (some x) m.refs, m.tables⟩
  | .dereference x, m => do
    let ob ← obDereferenceObject x m.ob
    return ⟨ob, dropRef x m.refs, m.tables⟩
  | .insert x p, m => do
    let (status, _, ob) ← obInsertObject x p m.ob
    return ⟨ob, if K_SUCCESS status then dropRef x m.refs else m.refs, m.tables⟩
  | .close i p x, m => do
    let ob ← obCloseObject x 1 m.ob >>= fun ob => obRemoveHandle i p x ob
    return ⟨ob, m.refs, m.tables⟩
  | .allocate p parent isClone memory, m => do
    let (status, ob) ← obAllocateHandleTable p parent isClone memory m.ob
    return ⟨ob, m.refs, if K_SUCCESS status then Insert.insert p m.tables else m.tables⟩
  | .free p, m => do
    let ob ← obFreeHandleTable p m.ob
    return ⟨ob, m.refs, m.tables.erase p⟩

/-- **What the callers promise.** Objects are not permanent and are made in memory that is not in
use; callers drop or insert only references they hold, and close only handles of live tables. -/
def ObEvent.Enabled : ObEvent ω π → ObMachine ω π → Prop
  | .create _ attributes p resources, m =>
    (∀ x, resources.memory = some x → x ∉ m.ob.objects)
      ∧ (attributes.map OBJECT_ATTRIBUTES.Attributes).getD 0 &&& OBJ_PERMANENT = 0
      ∧ ∀ attr, attributes = some attr → attr.RootDirectory ≠ none → p ∈ m.tables
  | .reference x, m => x ∈ m.ob.objects
  | .dereference x, m => 0 < m.refs x
  | .insert x p, m => 0 < m.refs x ∧ p ∈ m.tables
  | .close i p x, m => p ∈ m.tables ∧ m.ob.Handle p i = .object x
  | .allocate p parent _ _, m => p ∉ m.tables ∧ ∀ q, parent = some q → q ∈ m.tables
  | .free p, m => p ∈ m.tables

/-- **The calls that follow the convention.** A creation does not open an existing object; a table
that is filled from another one copies no handle of it, and has none left over from its memory in
an entry that is not written; a table that is given back holds no object. -/
def ObEvent.KeepsCount : ObEvent ω π → ObMachine ω π → Prop
  | .create _ attributes p resources, m => ¬ OpensExisting attributes p resources m.ob
  | .allocate _ parent isClone memory, m => ∀ page q, memory = some page → parent = some q →
      ∀ i, ¬ CopiesEntry m.ob isClone (m.ob.Handle q i)
        ∧ ((m.ob.Handle q i).Vacant → (page i).Vacant)
  | .free p, m => ∀ i, (m.ob.Handle p i).Vacant
  | _, _ => True

/-- **The object manager as a transition system**; a label is a call and the state it was made in.
At the start there is no object that is not permanent, and no handle table. -/
def obSystem (ω π : Type) [DecidableEq ω] [DecidableEq π] :
    System (ObEvent ω π × ObMachine ω π) (ObMachine ω π) where
  init m := m.ob.objects = ∅ ∧ (∀ x, m.refs x = 0) ∧ m.tables = ∅
  step _ m l m' := l.2 = m ∧ l.1.Enabled m ∧ l.1.run m = .ok m'

/-- The invariant of a machine. -/
def ObMachine.Inv (m : ObMachine ω π) : Prop := ObInvariant m.ob m.refs m.tables

/-- **What a call does to the objects**: they go exactly with the last reference. -/
def ObMachine.Removes (m m' : ObMachine ω π) : Prop := RemovedAtZero m.ob m'.ob m'.refs m'.tables

variable {m m' : ObMachine ω π} {e : ObEvent ω π}

omit [DecidableEq ω] in
/-- At the start nothing is counted. -/
theorem ObMachine.Inv.start [DecidableEq ω] (h : (obSystem ω π).init m) : m.Inv := by
  obtain ⟨hobjects, hrefs, htables⟩ := h
  have hnone : ∀ x, x ∉ m.ob.objects := by
    intro x
    rw [hobjects]
    exact Finset.notMem_empty x
  refine ⟨fun x hx => absurd hx (hnone x), fun x hx => absurd hx (hnone x),
    fun x hx => absurd hx (hnone x), fun x hx => absurd hx (hnone x),
    fun x hx => absurd hx (hnone x), fun x _ => ⟨hrefs x, ?_⟩⟩
  rw [handleCount, htables]
  rfl

/-- **One call.** -/
theorem ObEvent.run_meets (h : m.Inv) (hen : e.Enabled m) (hkeeps : e.KeepsCount m) :
    Meets (e.run m) (fun m' => m'.Inv ∧ m.Removes m') NotRemoval := by
  cases e with
  | create type attributes p resources =>
    obtain ⟨hfresh, htemporary, hp⟩ := hen
    refine .bind (obCreateObject_meets h hfresh htemporary hp hkeeps) fun result hresult => .ok ?_
    obtain ⟨hinv, hobjects⟩ := hresult
    exact ⟨hinv, hinv.removedAtZero hobjects⟩
  | reference x =>
    obtain ⟨ob, hok, hinv, hremoves⟩ := ObInvariant.reference h hen
    show Meets (obReferenceObject x m.ob >>= _) _ _
    rw [hok]
    exact .ok ⟨hinv, hremoves⟩
  | dereference x =>
    obtain ⟨ob, hok, hinv, hremoves⟩ := ObInvariant.dereference h hen
    show Meets (obDereferenceObject x m.ob >>= _) _ _
    rw [hok]
    exact .ok ⟨hinv, hremoves⟩
  | insert x p =>
    show Meets (obInsertObject x p m.ob >>= _) _ _
    rcases ObInvariant.insertObject h hen.2 hen.1 with ⟨-, hok⟩ | ⟨i, ob, hok, hinv, hremoves⟩
    · rw [hok]
      exact .ok ⟨h, h.removedAtZero subset_rfl⟩
    · rw [hok]
      exact .ok ⟨hinv, hremoves⟩
  | close i p x =>
    obtain ⟨ob, hok, hinv, hremoves⟩ := ObInvariant.closeHandle h hen.1 hen.2
    show Meets ((obCloseObject x 1 m.ob >>= fun ob => obRemoveHandle i p x ob) >>= _) _ _
    rw [hok]
    exact .ok ⟨hinv, hremoves⟩
  | allocate p parent isClone memory =>
    show Meets (obAllocateHandleTable p parent isClone memory m.ob >>= _) _ _
    by_cases hclone : isClone = true ∧ parent = none
    · unfold obAllocateHandleTable
      rw [if_pos hclone.1, assert_of_not (not_not_intro hclone.2)]
      exact .error ⟨by simp, by simp⟩
    · have hparent : isClone = true → parent ≠ none := fun hc hnone => hclone ⟨hc, hnone⟩
      cases memory with
      | none =>
        rw [obAllocateHandleTable_noMemory hparent]
        exact .ok ⟨h, h.removedAtZero subset_rfl⟩
      | some page =>
        obtain ⟨ob, hok, hinv, hremoves⟩ := ObInvariant.allocate h hen.1 hparent hen.2
          (fun q hq i => (hkeeps page q rfl hq i).1) (fun q hq i => (hkeeps page q rfl hq i).2)
        rw [hok]
        exact .ok ⟨hinv, hremoves⟩
  | free p =>
    show Meets (obFreeHandleTable p m.ob >>= _) _ _
    rcases obFreeHandleTable_vacant hkeeps with hok | hnull
    · rw [hok]
      exact .ok (ObInvariant.removeTable h hen hkeeps)
    · rw [hnull]
      exact .error trivial

/-- The invariant along a run. -/
theorem obSystem_inv {t : List (ObEvent ω π × ObMachine ω π)} (h : (obSystem ω π).Run t m)
    (hkeeps : ∀ l ∈ t, l.1.KeepsCount l.2) : m.Inv := by
  have hrun : (∀ l ∈ t, l.1.KeepsCount l.2) → m.Inv := by
    refine h.invariant (I := fun t m => (∀ l ∈ t, l.1.KeepsCount l.2) → m.Inv) ?_ ?_
    · exact fun m hinit _ => .start hinit
    · intro t m l m' _ ih hstep hall
      obtain ⟨hl, hen, hok⟩ := hstep
      have hinv := ih fun l' hl' => hall l' (List.mem_cons_of_mem _ hl')
      have hlast := hall l List.mem_cons_self
      rw [hl] at hlast
      exact ((ObEvent.run_meets hinv hen hlast).of_eq_ok hok).1
  exact hrun hkeeps

/-- An object manager without objects. -/
def emptyOb : Ob Unit Unit where
  header _ := clearedHeader
  objects := ∅
  Head _ := []
  Flags _ := 0
  ObRootDirectory := none
  Handle _ _ := .invalid

/-- An object without a name comes into being. -/
def createUnnamed : ObEvent Unit Unit :=
  .create .OBJECT_TYPE_EVENT none () ⟨(), some (), true, true⟩

/-- The header of the new object. -/
def unnamedHeader : OBJECT_HEADER :=
  { clearedHeader with ObjectType := some .OBJECT_TYPE_EVENT, RefCount := 1 }

/-- The state with the new object in it. -/
def oneObject : ObMachine Unit Unit where
  ob := { emptyOb with header := fun _ => unnamedHeader, objects := {()} }
  refs _ := 1
  tables := ∅

theorem createUnnamed_run : createUnnamed.run ⟨emptyOb, fun _ => 0, ∅⟩ = .ok oneObject := by
  have hheader : Function.update (Function.update emptyOb.header () clearedHeader) () unnamedHeader
      = fun _ => unnamedHeader := by
    funext x
    rfl
  have hrefs : addRef (some ()) (fun _ => 0) = fun _ : Unit => 1 := by
    funext x
    rfl
  show (.ok ⟨⟨Function.update (Function.update emptyOb.header () clearedHeader) () unnamedHeader, _,
    _, _, _, _⟩, addRef (some ()) (fun _ => 0), _⟩ : Kernel (ObMachine Unit Unit)) = _
  rw [hheader, hrefs]
  rfl

/-- The object is created. -/
theorem createUnnamed_reaches : (obSystem Unit Unit).Run
    [(createUnnamed, ⟨emptyOb, fun _ => 0, ∅⟩)] oneObject := by
  have hstart : (obSystem Unit Unit).Run [] ⟨emptyOb, fun _ => 0, ∅⟩ :=
    .start ⟨rfl, fun _ => rfl, rfl⟩
  refine hstart.step (e := (createUnnamed, _)) ⟨rfl, ⟨fun x _ => ?_, rfl, ?_⟩, createUnnamed_run⟩
  · exact Finset.notMem_empty x
  · intro attr hattr
    cases hattr

/-- A table without handles has a free one. -/
theorem freeHandle_invalid : ∃ i, freeHandle (fun _ => .invalid : HandlePage ω) = some i := by
  have hzero : 0 < EX_MAX_HANDLE := by
    unfold EX_MAX_HANDLE
    decide
  cases hfree : freeHandle (fun _ => .invalid : HandlePage ω) with
  | some i => exact ⟨i, rfl⟩
  | none =>
    have hnone := List.find?_eq_none.mp hfree ⟨0, hzero⟩ (List.mem_finRange _)
    simp at hnone

end KaushOS
