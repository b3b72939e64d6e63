import KaushOS.Library.Transition
import KaushOS.Ob.AccountingRuns

/-! # Entries of destroyed objects (`kern/ob/ob.c`, `kern/ob/obdir.c`)

`ObpInsertEntryDirectory` links a named object into its directory. `ObRemoveObject` takes an object
off the list of its type and gives its memory back, and leaves it in the directory.

* **`DirectoryEvent`** — objects are created, referenced, dereferenced and looked up.
* **`ListsAllocated`** — the directories list objects that exist.
* **`LookupEffect`**, **`CreateEffect`** — what a lookup and a creation do to the directories.
* **`DropsListed`** — a dereference that frees an object while a directory lists it. -/

namespace KaushOS

open Transition

variable {ω π : Type} [DecidableEq ω]

/-! ## Events -/

/-- **The calls**; a directory is created by `ObCreateDirectoryObject`. What a `CloseProcedure`
dereferences counts as calls of its own. -/
inductive DirectoryEvent (ω π : Type)
  | create (type : OBJECT_TYPE_INDEX) (attributes : Option OBJECT_ATTRIBUTES) (p : π)
      (resources : CreateResources ω)
  | reference (x : ω)
  | dereference (x : ω)
  /-- `ObpLookupObjectByName(Parent, Name, &Context, NULL)`; `buffer` as in
  `obpLookupObjectByName`. -/
  | lookup (parent : ω) (path : List Char) (buffer : Bool)

/-- The body of a new object: `ObCreateObject` clears it, and `ObCreateDirectoryObject` goes on to
make the list of entries of a directory an empty one. -/
def Ob.initBody (s : Ob ω π) (x : ω) : Ob ω π :=
  { s with Head := Function.update s.Head x [], Flags := Function.update s.Flags x 0 }

/-- The object that a creation has stored to `*Object` is new when it did not exist before. -/
def initCreated (s : Ob ω π) (object : Option ω) (s' : Ob ω π) : Ob ω π :=
  match object with
  | none => s'
  | some x => if x ∈ s.objects then s' else s'.initBody x

/-- **One call**, with the object that it returns. -/
def DirectoryEvent.run [DecidableEq π] :
    DirectoryEvent ω π → Ob ω π → Kernel (Option ω × Ob ω π)
  | .create type attributes p resources, s => do
    let (_, object, s') ← obCreateObject type attributes p resources s
    return (object, initCreated s object s')
  | .reference x, s => do
    let s ← obReferenceObject x s
    return (none, s)
  | .dereference x, s => do
    let s ← obDereferenceObject x s
    return (none, s)
  | .lookup parent path buffer, s => do
    let (_, context, s) ←
      obpLookupObjectByName (some parent) path obInitializeLookupContext none buffer s
    return (context.Object, s)

/-- **What the callers promise.** New objects are not permanent and lie in memory that is not in use,
a handle that a path starts from names a directory that exists, and the other functions are called
for objects that exist. -/
def DirectoryEvent.Enabled : DirectoryEvent ω π → Ob ω π → Prop
  | .create _ attributes p resources, s =>
    (∀ x ∈ resources.memory, x ∉ s.objects) ∧ resources.result ∉ s.objects
      ∧ (attributes.map OBJECT_ATTRIBUTES.Attributes).getD 0 &&& OBJ_PERMANENT = 0
      ∧ ∀ root ∈ namedRoot attributes p s, root ∈ s.objects
  | .reference x, s | .dereference x, s => x ∈ s.objects
  | .lookup parent _ _, s => parent ∈ s.objects

instance directoryEventEnabledDecidable (e : DirectoryEvent ω π) (s : Ob ω π) :
    Decidable (e.Enabled s) := by
  cases e with
  | create => exact inferInstanceAs (Decidable (_ ∧ _ ∧ _ ∧ _))
  | reference x => exact inferInstanceAs (Decidable (x ∈ s.objects))
  | dereference x => exact inferInstanceAs (Decidable (x ∈ s.objects))
  | lookup parent => exact inferInstanceAs (Decidable (parent ∈ s.objects))

/-- The root directory exists and is permanent, as `ObInit` has created it. -/
def RootPermanent (s : Ob ω π) : Prop :=
  ∀ root ∈ s.ObRootDirectory, root ∈ s.objects ∧ (s.header root).Attributes &&& OBJ_PERMANENT ≠ 0

/-- **The runs.** A label is a call and the state it was made in. At the start nothing has been
named. -/
def directorySystem (ω π : Type) [DecidableEq ω] [DecidableEq π] :
    System (DirectoryEvent ω π × Ob ω π) (Ob ω π) where
  init s := (∀ d, s.Head d = []) ∧ RootPermanent s
  step _ s l s' := l.2 = s ∧ l.1.Enabled s ∧ ∃ object, l.1.run s = .ok (object, s')

/-! ## Directories without destroyed objects -/

/-- **The directories that exist list objects that exist.** -/
def ListsAllocated (s : Ob ω π) : Prop := ∀ d ∈ s.objects, ∀ x ∈ s.Head d, x ∈ s.objects

/-- **No call returns a destroyed object.** -/
def ReturnsAllocated [DecidableEq π] (l : DirectoryEvent ω π × Ob ω π) : Prop :=
  ∀ x s', l.1.run l.2 = .ok (some x, s') → x ∈ s'.objects

/-- **No directory lists a destroyed object**, in no state of a run, and no call returns one. -/
structure NamesAllocated [DecidableEq π] (t : List (DirectoryEvent ω π × Ob ω π)) (s : Ob ω π) :
    Prop where
  lists : ListsAllocated s
  listed : ∀ l ∈ t, ListsAllocated l.2
  returned : ∀ l ∈ t, ReturnsAllocated l

/-- **The last reference of a listed object is dropped**: the call is a dereference of an object with
one reference that is not permanent and is an entry of another object that exists. -/
def DropsListed (l : DirectoryEvent ω π × Ob ω π) : Prop :=
  match l.1 with
  | .dereference x =>
    (l.2.header x).RefCount = 1 ∧ (l.2.header x).Attributes &&& OBJ_PERMANENT = 0
      ∧ ∃ d ∈ l.2.objects, d ≠ x ∧ x ∈ l.2.Head d
  | _ => False

/-! ## What a lookup does -/

variable {s s' : Ob ω π} {x y d : ω}

/-- **What a lookup does to the directories**: it finds an object that exists, and inserts one if it
is asked to and succeeds. -/
structure LookupEffect (insert : Option ω) (s : Ob ω π) (r : LookupResult ω π) : Prop where
  object : ∀ y ∈ r.2.1.Object, y ∈ s.objects
  head : ∀ d, ∀ y ∈ r.2.2.Head d, y ∈ s.Head d ∨ y ∈ insert ∧ K_SUCCESS r.1
  root : r.2.2.ObRootDirectory = s.ObRootDirectory
  same : insert = none → r.2.2 = s

omit [DecidableEq ω] in
/-- A lookup that leaves the directories alone. -/
theorem LookupEffect.of_same {insert : Option ω} {status : KSTATUS} {context : OBP_LOOKUP_CONTEXT ω}
    (hobject : ∀ y ∈ context.Object, y ∈ s.objects) :
    LookupEffect insert s (status, context, s) :=
  ⟨hobject, fun _ _ hy => .inl hy, rfl, fun _ => rfl⟩

omit [DecidableEq ω] in
/-- The entry that is found is in the list. -/
theorem lookupEntry_mem (name : UNICODE_STRING) (s : Ob ω π) (l : List ω) :
    Meets (lookupEntry name s l) (fun found => ∀ x ∈ found, x ∈ l) fun _ => True := by
  induction l with
  | nil => exact .ok nofun
  | cons x l ih =>
    refine .bind (P := fun _ => True) ?_ fun _ _ => .ite (fun _ => .ok ?_) fun _ => ?_
    · cases rtlCompareUnicodeString name (s.header x).ObjectName <;> exact trivial
    · rintro y ⟨⟩
      exact List.mem_cons_self ..
    · exact ih.mono fun found hfound y hy => List.mem_cons_of_mem _ (hfound y hy)

omit [DecidableEq ω] in
/-- `ObpLookupEntryDirectory` finds an entry of the directory. -/
theorem obpLookupEntryDirectory_mem (d : ω) (name : UNICODE_STRING)
    (context : OBP_LOOKUP_CONTEXT ω) (s : Ob ω π) :
    Meets (obpLookupEntryDirectory d name context s)
      (fun found => ∀ y ∈ found.2.Object, y ∈ context.Object ∨ y ∈ s.Head d) fun _ => True := by
  refine .bind (lookupEntry_mem _ _ _) fun found hfound => ?_
  cases found with
  | none => exact .ok fun y hy => .inl hy
  | some x =>
    have hx : ∀ y ∈ some x, y ∈ context.Object ∨ y ∈ s.Head d := fun y hy => .inr (hfound y hy)
    refine .bind (P := fun _ => True) ?_ fun _ _ => .ite (fun _ => .ok hx) fun _ => .ok hx
    cases obIsMountpointObject x s <;> exact trivial

/-- `ObpInsertEntryDirectory` makes the object an entry. -/
theorem obpInsertEntryDirectory_head (d : ω) (context : OBP_LOOKUP_CONTEXT ω) (x : ω)
    (s : Ob ω π) : Meets (obpInsertEntryDirectory d context x s)
      (fun s' => (∀ e, ∀ y ∈ s'.Head e, y ∈ s.Head e ∨ y = x)
        ∧ s'.ObRootDirectory = s.ObRootDirectory) fun _ => True := by
  refine .bind (P := fun _ => True) ?_ fun _ _ => .bind (.assert trivial) fun _ _ =>
    .bind (.assert trivial) fun _ _ => .bind (.assert trivial) fun _ _ =>
      .ok ⟨fun e y hy => ?_, rfl⟩
  · cases obIsDirectoryObject d s <;> exact trivial
  · by_cases he : e = d
    · subst he
      have hy' : y ∈ s.Head e ++ [x] := by
        simpa [Ob.setHeader, Ob.setHead] using hy
      simpa using hy'
    · have hy' : y ∈ s.Head e := by
        simpa [Ob.setHeader, Ob.setHead, he] using hy
      exact .inl hy'

/-- **The loop of a lookup** goes from objects that exist to entries of theirs. -/
theorem lookupLoop_effect (hlists : ListsAllocated s) (insert : Option ω) (n : Nat)
    (path : List Char) (dirName : UNICODE_STRING) {d : Option ω} {context : OBP_LOOKUP_CONTEXT ω}
    (status : KSTATUS) (hd : ∀ y ∈ d, y ∈ s.objects)
    (hcontext : ∀ y ∈ context.Object, y ∈ s.objects) :
    Meets (lookupLoop insert n path dirName d context status s) (LookupEffect insert s)
      fun _ => True := by
  induction n generalizing path dirName d context status with
  | zero => exact .error trivial
  | succ n ih =>
    refine .bind (.deref trivial) fun d hd' => ?_
    have hdir : d ∈ s.objects := hd d hd'
    refine .bind (P := fun _ => True) ?_ fun _ _ => .ite (fun _ => .ok (.of_same nofun)) fun _ => ?_
    · cases obIsDirectoryObject d s <;> exact trivial
    refine .bind (P := fun _ => True) ?_ fun next _ => ?_
    · cases obParseDirectoryPath path dirName <;> exact trivial
    cases next with
    | none => exact .ok (.of_same hcontext)
    | some next =>
      refine .bind (obpLookupEntryDirectory_mem _ _ _ _) fun found hfound => ?_
      have hobject : ∀ y ∈ found.2.Object, y ∈ s.objects := by
        intro y hy
        rcases hfound y hy with h | h
        · exact hcontext y h
        · exact hlists d hdir y h
      refine .ite (fun _ => ?_) fun _ => .ite (fun _ => .ok (.of_same hobject)) fun _ =>
        ih _ _ _ hobject hobject
      -- the component is missing: it is inserted if it is the last one
      refine .bind (P := fun _ => True) ?_ fun last _ => ?_
      · cases obParseDirectoryPath next.2 next.1 <;> exact trivial
      cases last with
      | some _ => exact .ok (.of_same nofun)
      | none =>
        cases insert with
        | none => exact .ok (.of_same nofun)
        | some x =>
          refine .bind (obpInsertEntryDirectory_head _ _ _ _) fun s' hs' =>
            .ok ⟨nofun, ?_, hs'.2, nofun⟩
          intro e y hy
          rcases hs'.1 e y hy with h | rfl
          · exact .inl h
          · exact .inr ⟨rfl, rfl⟩

/-- **A lookup from a directory that exists.** -/
theorem obpLookupObjectByName_effect (hlists : ListsAllocated s) (hd : d ∈ s.objects)
    (path : List Char) {context : OBP_LOOKUP_CONTEXT ω}
    (hcontext : ∀ y ∈ context.Object, y ∈ s.objects) (insert : Option ω) (buffer : Bool) :
    Meets (obpLookupObjectByName (some d) path context insert buffer s)
      (fun r => LookupEffect insert s r ∧ SameCounts s r.2.2) fun _ => True := by
  have hcounts := obpLookupObjectByName_meets (some d) path context insert buffer s
  have heffect : Meets (obpLookupObjectByName (some d) path context insert buffer s)
      (LookupEffect insert s) fun _ => True := by
    refine .ite (fun _ => .error trivial) fun _ => .bind (.assert trivial) fun _ _ =>
      .ite (fun _ => .ok (.of_same hcontext)) fun _ => lookupLoop_effect hlists _ _ _ _ _ ?_ hcontext
    rintro y ⟨⟩
    exact hd
  exact heffect.returned.mono fun r hr => ⟨hr.2, hcounts.of_eq_ok hr.1⟩

/-! ## What a creation does -/

variable [DecidableEq π] {type : OBJECT_TYPE_INDEX} {attributes : Option OBJECT_ATTRIBUTES} {p : π}
  {resources : CreateResources ω}

/-- **What a creation does to the directories**: objects are added and keep their attributes, a new
entry is an object by then, and so is the object that is returned. -/
structure CreateEffect (s : Ob ω π) (r : KSTATUS × Option ω × Ob ω π) : Prop where
  root : r.2.2.ObRootDirectory = s.ObRootDirectory
  objects : s.objects ⊆ r.2.2.objects
  new : ∀ y ∈ r.2.2.objects, y ∈ s.objects ∨ y ∈ r.2.1
  object : ∀ y ∈ r.2.1, y ∈ r.2.2.objects
  head : ∀ d, ∀ y ∈ r.2.2.Head d, y ∈ s.Head d ∨ y ∈ r.2.2.objects
  attributes : ∀ y ∈ s.objects, (r.2.2.header y).Attributes = (s.header y).Attributes


omit [DecidableEq ω] [DecidableEq π] in
/-- A creation that fails leaves the directories alone. -/
theorem CreateEffect.of_failure {status : KSTATUS} : CreateEffect s (status, none, s) :=
  ⟨rfl, subset_rfl, fun _ hy => .inl hy, nofun, fun _ _ hy => .inl hy, fun _ _ => rfl⟩

omit [DecidableEq π] in
/-- Counting a reference beforehand makes no difference. -/
theorem CreateEffect.of_setHeader {r : KSTATUS × Option ω × Ob ω π} {h : OBJECT_HEADER}
    (hr : CreateEffect (s.setHeader x h) r) (hattributes : h.Attributes = (s.header x).Attributes) :
    CreateEffect s r := by
  refine ⟨hr.root, hr.objects, hr.new, hr.object, hr.head, fun y hy => ?_⟩
  rw [hr.attributes y hy]
  by_cases hyx : y = x
  · subst hyx
    rw [Ob.setHeader_self, hattributes]
  · rw [Ob.setHeader_of_ne s h hyx]

omit [DecidableEq π] in
/-- The name of a new object is inserted in a directory that exists. -/
theorem insertName_effect (hlists : ListsAllocated s)
    {name : Option (ω × List Char × OBP_LOOKUP_CONTEXT ω)}
    (hname : ∀ n ∈ name, n.1 ∈ s.objects ∧ ∀ y ∈ n.2.2.Object, y ∈ s.objects) (buffer : Bool) :
    Meets (insertName x name buffer s)
      (fun r => (∀ d, ∀ y ∈ r.2.Head d, y ∈ s.Head d ∨ y = x ∧ K_SUCCESS r.1)
        ∧ r.2.ObRootDirectory = s.ObRootDirectory ∧ SameCounts s r.2) fun _ => True := by
  unfold insertName
  cases name with
  | none => exact .ok ⟨fun _ _ hy => .inl hy, rfl, .refl s⟩
  | some n =>
    obtain ⟨hroot, hcontext⟩ := hname n rfl
    refine .bind (.assert trivial) fun _ _ =>
      .bind (obpLookupObjectByName_effect hlists hroot _ hcontext _ _) fun r hr => .ok ?_
    refine ⟨fun d y hy => ?_, hr.1.root, hr.2⟩
    exact (hr.1.head d y hy).imp_right fun h => ⟨(Option.some.inj h.1).symm, h.2⟩

omit [DecidableEq π] in
/-- **The second half of a creation.** -/
theorem createNewObject_effect (hlists : ListsAllocated s)
    {name : Option (ω × List Char × OBP_LOOKUP_CONTEXT ω)}
    (hname : ∀ n ∈ name, n.1 ∈ s.objects ∧ ∀ y ∈ n.2.2.Object, y ∈ s.objects)
    (hfresh : ∀ x ∈ resources.memory, x ∉ s.objects) :
    Meets (createNewObject type attributes name resources s) (CreateEffect s) fun _ => True := by
  unfold createNewObject
  cases hmemory : resources.memory with
  | none => exact .ok .of_failure
  | some x =>
    have hx := hfresh x hmemory
    refine .bind (insertName_effect (s := s.setHeader x clearedHeader) hlists hname _) fun r hr => ?_
    obtain ⟨hhead, hroot, hcounts⟩ := hr
    have hobjects : r.2.objects = s.objects := hcounts.objects
    have hattributes : ∀ y ∈ s.objects, (r.2.header y).Attributes = (s.header y).Attributes := by
      intro y hy
      have hyx : y ≠ x := fun h => hx (h ▸ hy)
      rw [hcounts.attributes y, Ob.setHeader_of_ne s _ hyx]
    refine .ite (fun hfailed => .ok ?_) fun hsuccess => .ok ?_
    · refine ⟨hroot, hobjects.ge, fun y hy => .inl (hobjects ▸ hy), nofun, fun d y hy => ?_,
        hattributes⟩
      exact .inl ((hhead d y hy).resolve_right fun h => hfailed h.2)
    · refine ⟨hroot, ?_, fun y hy => ?_, ?_, fun d y hy => ?_, fun y hy => ?_⟩
      · exact hobjects.ge.trans (Finset.subset_insert ..)
      · rcases Finset.mem_insert.mp hy with rfl | hy
        · exact .inr rfl
        · exact .inl (hobjects ▸ hy)
      · rintro y ⟨⟩
        exact Finset.mem_insert_self ..
      · rcases hhead d y hy with h | ⟨rfl, -⟩
        · exact .inl h
        · exact .inr (Finset.mem_insert_self ..)
      · have hyx : y ≠ x := fun h => hx (h ▸ hy)
        rw [← hattributes y hy]
        exact congrArg _ (Ob.setHeader_of_ne _ _ hyx)

omit [DecidableEq π] in
/-- The directory that a path starts from exists, and only its counter has changed. -/
theorem rootDirectory_effect {attr : OBJECT_ATTRIBUTES} {path : List Char}
    (hpath : attr.ObjectName = some path) (hroot : RootPermanent s)
    (hnamed : ∀ root ∈ namedRoot (some attr) p s, root ∈ s.objects) :
    Meets (rootDirectory attr p s) (fun r => r.1 ∈ s.objects
      ∧ (r.2 = s ∨ ∃ h, r.2 = s.setHeader r.1 h ∧ h.Attributes = (s.header r.1).Attributes))
      fun _ => True := by
  unfold rootDirectory
  cases hhandle : attr.RootDirectory with
  | none =>
    refine .bind (.assert trivial) fun _ _ => .bind (.deref trivial) fun root hr => .ok ?_
    exact ⟨(hroot root hr).1, .inl rfl⟩
  | some i =>
    show Meets (obReferenceObjectByHandle i p .OBJECT_TYPE_DIRECTORY s) _ _
    unfold obReferenceObjectByHandle
    cases hentry : s.Handle p i with
    | invalid => exact .error trivial
    | null => exact .error trivial
    | object root =>
      refine .bind (.assert trivial) fun _ _ => .bind (.assert trivial) fun _ _ =>
        .bind (.bind (.assert trivial) fun _ _ => .bind (.assert trivial) fun _ _ =>
          Meets.ok (P := fun s' => s' = s.setHeader root { s.header root with
            RefCount := (s.header root).RefCount + 1 }) rfl) fun s' hs' => .ok ⟨?_, .inr ?_⟩
      · exact hnamed root (by simp [namedRoot, hpath, hhandle, hentry])
      · exact ⟨_, hs', rfl⟩

omit [DecidableEq π] in
/-- **A creation**: what it returns exists, and so does every entry that it adds. -/
theorem obCreateObject_effect (hlists : ListsAllocated s) (hroot : RootPermanent s)
    (hfresh : ∀ x ∈ resources.memory, x ∉ s.objects)
    (hnamed : ∀ root ∈ namedRoot attributes p s, root ∈ s.objects) :
    Meets (obCreateObject type attributes p resources s) (CreateEffect s) fun _ => True := by
  unfold obCreateObject
  cases attributes with
  | none => exact createNewObject_effect hlists nofun hfresh
  | some attr =>
    refine .bind (.assert trivial) fun _ _ => ?_
    cases hpath : attr.ObjectName with
    | none => exact createNewObject_effect hlists nofun hfresh
    | some path =>
      refine .bind (rootDirectory_effect hpath hroot hnamed) fun found hfound => ?_
      obtain ⟨root, s₁⟩ := found
      have hdir : root ∈ s.objects := hfound.1
      have hs₁ : s₁ = s
          ∨ ∃ h, s₁ = s.setHeader root h ∧ h.Attributes = (s.header root).Attributes := hfound.2
      -- what follows is about `s₁`, in which at most the counter of `root` has changed
      have hs : s₁.objects = s.objects ∧ ListsAllocated s₁
          ∧ ∀ r, CreateEffect s₁ r → CreateEffect s r := by
        rcases hs₁ with rfl | ⟨h, rfl, hattributes⟩
        · exact ⟨rfl, hlists, fun _ hr => hr⟩
        · exact ⟨rfl, hlists, fun _ hr => hr.of_setHeader hattributes⟩
      obtain ⟨hobjects, hlists₁, hback⟩ := hs
      rw [← hobjects] at hdir hfresh
      refine Meets.mono ?_ hback
      have hinit : ∀ y ∈ (obInitializeLookupContext : OBP_LOOKUP_CONTEXT ω).Object,
          y ∈ s₁.objects := by
        intro y hy
        cases hy
      refine .bind (obpLookupObjectByName_effect hlists₁ hdir path hinit none _) fun r hr => ?_
      obtain ⟨status, context, s₂⟩ := r
      obtain rfl : s₂ = s₁ := hr.1.same rfl
      have hcontext := hr.1.object
      refine .ite (fun _ => .ite (fun _ => ?_) fun _ => .ok .of_failure) fun _ =>
        .ite (fun _ => .ok .of_failure) fun _ => createNewObject_effect hlists₁ ?_ hfresh
      · refine .bind (.deref trivial) fun x hx => .bind (.assert trivial) fun _ _ =>
          .bind (.bind (.assert trivial) fun _ _ => .bind (.assert trivial) fun _ _ =>
            Meets.ok (P := fun s' => s' = s₂.setHeader resources.result
              { s₂.header resources.result with
                RefCount := (s₂.header resources.result).RefCount + 1 }) rfl) fun s' hs' => .ok ?_
        subst hs'
        refine CreateEffect.of_setHeader ⟨rfl, subset_rfl, fun y hy => .inl hy, ?_,
          fun _ _ hy => .inl hy, fun _ _ => rfl⟩ rfl
        rintro y ⟨⟩
        exact hcontext x hx
      · rintro n ⟨⟩
        exact ⟨hdir, hcontext⟩

/-! ## Steps -/

omit [DecidableEq π] in
/-- **A dereference** counts down, and frees the object with the last reference. -/
theorem obDereferenceObject_cases (h : obDereferenceObject x s = .ok s') :
    s' = s ∧ (s.header x).Attributes &&& OBJ_PERMANENT ≠ 0
      ∨ (s.header x).Attributes &&& OBJ_PERMANENT = 0 ∧ ∃ h : OBJECT_HEADER,
        h.Attributes = (s.header x).Attributes ∧ s' = { s.setHeader x h with
          objects := if (s.header x).RefCount = 1 then s.objects.erase x else s.objects } := by
  unfold obDereferenceObject at h
  obtain ⟨-, -, h⟩ := kernel_bind_eq_ok.mp h
  unfold obCloseObject at h
  obtain ⟨_, hreferred, h⟩ := kernel_bind_eq_ok.mp h
  have href : (s.header x).RefCount ≥ 1 := assert_eq_ok.mp hreferred
  split at h
  · rename_i hperm
    obtain ⟨-, -, h⟩ := kernel_bind_eq_ok.mp h
    cases h
    exact .inl ⟨rfl, hperm⟩
  · rename_i hperm
    refine .inr ⟨not_not.mp hperm, closedHeader 0 (s.header x), closedHeader_attributes .., ?_⟩
    simp only [Ob.setHeader_self] at h
    have hcount : (closedHeader 0 (s.header x)).RefCount = (s.header x).RefCount - 1 := rfl
    rw [hcount] at h
    split at h
    · rename_i hpos
      cases h
      rw [if_neg (by omega)]
      rfl
    · rename_i hzero
      unfold obRemoveObject at h
      obtain ⟨-, -, h⟩ := kernel_bind_eq_ok.mp h
      obtain ⟨-, -, h⟩ := kernel_bind_eq_ok.mp h
      obtain ⟨-, -, h⟩ := kernel_bind_eq_ok.mp h
      cases h
      rw [if_pos (by omega)]
      rfl

/-- **What a call does**: the directories list objects that exist afterwards unless the call drops
the last reference of a listed object. -/
structure StepEffect (e : DirectoryEvent ω π) (s : Ob ω π) (object : Option ω) (s' : Ob ω π) :
    Prop where
  lists : ListsAllocated s' ↔ ¬ DropsListed (e, s)
  object : ∀ y ∈ object, y ∈ s'.objects
  root : RootPermanent s'

omit [DecidableEq π] in
/-- A new object starts without entries. -/
theorem CreateEffect.lists {r : KSTATUS × Option ω × Ob ω π} (hr : CreateEffect s r)
    (hlists : ListsAllocated s) : ListsAllocated (initCreated s r.2.1 r.2.2) := by
  obtain ⟨status, object, s'⟩ := r
  have hentry : ∀ d ∈ s.objects, ∀ y ∈ s'.Head d, y ∈ s'.objects := fun d hd y hy =>
    (hr.head d y hy).elim (fun h => hr.objects (hlists d hd y h)) id
  have hnew : ∀ d ∈ s'.objects, d ∈ s.objects ∨ d ∈ object := hr.new
  cases object with
  | none => exact fun d hd => hentry d ((hnew d hd).resolve_right nofun)
  | some x =>
    by_cases hx : x ∈ s.objects
    · have hsame : initCreated s (some x) s' = s' := if_pos hx
      show ListsAllocated (initCreated s (some x) s')
      rw [hsame]
      refine fun d hd => hentry d ?_
      rcases hnew d hd with h | h
      · exact h
      · cases h
        exact hx
    · have hinit : initCreated s (some x) s' = s'.initBody x := if_neg hx
      show ListsAllocated (initCreated s (some x) s')
      rw [hinit]
      intro d hd y hy
      by_cases hdx : d = x
      · subst hdx
        simp [Ob.initBody] at hy
      · have hy' : y ∈ s'.Head d := by
          simpa [Ob.initBody, hdx] using hy
        exact hentry d ((hnew d hd).resolve_right fun h => hdx (Option.some.inj h).symm) y hy'

omit [DecidableEq π] in
@[simp] theorem initCreated_objects (s s' : Ob ω π) (object : Option ω) :
    (initCreated s object s').objects = s'.objects := by
  unfold initCreated
  split
  · rfl
  · split <;> rfl

omit [DecidableEq π] in
@[simp] theorem initCreated_header (s s' : Ob ω π) (object : Option ω) :
    (initCreated s object s').header = s'.header := by
  unfold initCreated
  split
  · rfl
  · split <;> rfl

omit [DecidableEq π] in
@[simp] theorem initCreated_root (s s' : Ob ω π) (object : Option ω) :
    (initCreated s object s').ObRootDirectory = s'.ObRootDirectory := by
  unfold initCreated
  split
  · rfl
  · split <;> rfl

omit [DecidableEq π] in
/-- Counting references of objects does not touch the directories. -/
theorem ListsAllocated.setHeader (hlists : ListsAllocated s) (h : OBJECT_HEADER) :
    ListsAllocated (s.setHeader x h) := hlists

omit [DecidableEq π] in
/-- The root directory stays permanent. -/
theorem RootPermanent.setHeader (hroot : RootPermanent s) {h : OBJECT_HEADER}
    (hattributes : h.Attributes = (s.header x).Attributes) : RootPermanent (s.setHeader x h) := by
  intro root hr
  obtain ⟨hobject, hperm⟩ := hroot root hr
  refine ⟨hobject, ?_⟩
  by_cases hx : root = x
  · subst hx
    rw [Ob.setHeader_self, hattributes]
    exact hperm
  · rw [Ob.setHeader_of_ne s h hx]
    exact hperm

/-- **One call, in a state in which the directories are in order.** -/
theorem DirectoryEvent.run_effect {e : DirectoryEvent ω π} {object : Option ω}
    (hlists : ListsAllocated s) (hroot : RootPermanent s) (hen : e.Enabled s)
    (hrun : e.run s = .ok (object, s')) : StepEffect e s object s' := by
  cases e with
  | create type attributes p resources =>
    obtain ⟨hfresh, -, -, hnamed⟩ := hen
    obtain ⟨r, hr, hrest⟩ := kernel_bind_eq_ok.mp hrun
    have heffect := (obCreateObject_effect hlists hroot hfresh hnamed).of_eq_ok hr
    cases hrest
    refine ⟨iff_of_true (heffect.lists hlists) id, ?_, fun root h => ?_⟩
    · simpa using heffect.object
    · rw [initCreated_root, heffect.root] at h
      obtain ⟨hobject, hperm⟩ := hroot root h
      rw [initCreated_objects, initCreated_header, heffect.attributes root hobject]
      exact ⟨heffect.objects hobject, hperm⟩
  | reference x =>
    obtain ⟨s₁, hs₁, hrest⟩ := kernel_bind_eq_ok.mp hrun
    unfold obReferenceObject at hs₁
    obtain ⟨_, -, hs₁⟩ := kernel_bind_eq_ok.mp hs₁
    obtain ⟨_, -, hs₁⟩ := kernel_bind_eq_ok.mp hs₁
    cases hs₁
    cases hrest
    exact ⟨iff_of_true hlists id, nofun, hroot.setHeader rfl⟩
  | lookup parent path buffer =>
    obtain ⟨r, hr, hrest⟩ := kernel_bind_eq_ok.mp hrun
    have hinit : ∀ y ∈ (obInitializeLookupContext : OBP_LOOKUP_CONTEXT ω).Object,
        y ∈ s.objects := by
      intro y hy
      cases hy
    have heffect := (obpLookupObjectByName_effect hlists hen path hinit none buffer).of_eq_ok hr
    have hsame := heffect.1.same rfl
    cases hrest
    rw [hsame]
    exact ⟨iff_of_true hlists id, heffect.1.object, hroot⟩
  | dereference x =>
    obtain ⟨s₁, hs₁, hrest⟩ := kernel_bind_eq_ok.mp hrun
    cases hrest
    rcases obDereferenceObject_cases hs₁ with ⟨rfl, hperm⟩ | ⟨htemporary, h, hattributes, rfl⟩
    · exact ⟨iff_of_true hlists fun hdrops => hperm hdrops.2.1, nofun, hroot⟩
    by_cases hlast : (s.header x).RefCount = 1
    · simp only [if_pos hlast]
      refine ⟨⟨?_, fun hkept d hd y hy => ?_⟩, nofun, fun root hr => ?_⟩
      · rintro hlists' ⟨-, -, d, hd, hdx, hx⟩
        exact Finset.notMem_erase x s.objects (hlists' d (Finset.mem_erase.mpr ⟨hdx, hd⟩) x hx)
      · obtain ⟨hdx, hobject⟩ := Finset.mem_erase.mp hd
        refine Finset.mem_erase.mpr ⟨?_, hlists d hobject y hy⟩
        rintro rfl
        exact hkept ⟨hlast, htemporary, d, hobject, hdx, hy⟩
      · obtain ⟨hobject, hperm⟩ := hroot.setHeader hattributes root hr
        refine ⟨Finset.mem_erase.mpr ⟨?_, hobject⟩, hperm⟩
        rintro rfl
        exact (hroot root hr).2 htemporary
    · simp only [if_neg hlast]
      exact ⟨iff_of_true hlists fun hdrops => hlast hdrops.1, nofun, hroot.setHeader hattributes⟩

/-! ## Runs -/

/-- **Along a run**: the directories are in order as long as no listed object has lost its last
reference, and the root directory stays. -/
theorem directorySystem_allocated {t : List (DirectoryEvent ω π × Ob ω π)}
    (h : (directorySystem ω π).Run t s) :
    (NamesAllocated t s ↔ ∀ l ∈ t, ¬ DropsListed l) ∧ (NamesAllocated t s → RootPermanent s) := by
  induction h with
  | start hinit =>
    refine ⟨iff_of_true ⟨fun d _ x hx => ?_, List.forall_mem_nil _, List.forall_mem_nil _⟩
      (List.forall_mem_nil _), fun _ => hinit.2⟩
    rw [hinit.1 d] at hx
    cases hx
  | @step t s l s' _ hstep ih =>
    obtain ⟨ihiff, ihroot⟩ := ih
    obtain ⟨e, s₀⟩ := l
    obtain ⟨hs₀, hen, object, hrun⟩ := hstep
    obtain rfl : s₀ = s := hs₀
    have heffect : NamesAllocated t s₀ → StepEffect e s₀ object s' := fun hall =>
      DirectoryEvent.run_effect hall.lists (ihroot hall) hen hrun
    have hbefore : NamesAllocated ((e, s₀) :: t) s' → NamesAllocated t s₀ := fun hall =>
      ⟨hall.listed _ (List.mem_cons_self ..), fun l hl => hall.listed l (List.mem_cons_of_mem _ hl),
        fun l hl => hall.returned l (List.mem_cons_of_mem _ hl)⟩
    refine ⟨⟨fun hall l hl => ?_, fun hkept => ?_⟩, fun hall => (heffect (hbefore hall)).root⟩
    · rcases List.mem_cons.mp hl with rfl | hl
      · exact (heffect (hbefore hall)).lists.mp hall.lists
      · exact ihiff.mp (hbefore hall) l hl
    · have hall := ihiff.mpr fun l hl => hkept l (List.mem_cons_of_mem _ hl)
      refine ⟨(heffect hall).lists.mpr (hkept _ (List.mem_cons_self ..)),
        List.forall_mem_cons.mpr ⟨hall.lists, hall.listed⟩,
        List.forall_mem_cons.mpr ⟨fun x u hu => ?_, hall.returned⟩⟩
      exact (DirectoryEvent.run_effect hall.lists (ihroot hall) hen hu).object x rfl

/-- **No directory lists a destroyed object, and no lookup returns one**, in a run in which no
object loses its last reference while a directory lists it, and in no other. -/
theorem names_allocated_iff {t : List (DirectoryEvent ω π × Ob ω π)}
    (h : (directorySystem ω π).Run t s) : NamesAllocated t s ↔ ∀ l ∈ t, ¬ DropsListed l :=
  (directorySystem_allocated h).1

/-! ## A named object comes and goes -/

/-- There is only the root directory, `0`. -/
def onlyRootDirectory : Ob (Fin 3) Unit where
  header _ :=
    { Magic := OBJECT_HEADER_MAGIC, DirEntryLinked := false, ObjectType := some .OBJECT_TYPE_DIRECTORY
      OpenHandleCount := 0, RefCount := 1, ObjectName := ⟨1, 1, some ['\\']⟩
      Attributes := OBJ_PERMANENT }
  objects := {0}
  Head _ := []
  Flags _ := 0
  ObRootDirectory := some 0
  Handle _ _ := .invalid

theorem onlyRootDirectory_run : (directorySystem (Fin 3) Unit).Run [] onlyRootDirectory :=
  .start ⟨fun _ => rfl, by
    rintro root ⟨⟩
    exact ⟨by decide, by decide⟩⟩

/-- `ObCreateObject` for an event with the name `a`, in the memory `1`. -/
def createEvent : DirectoryEvent (Fin 3) Unit :=
  .create .OBJECT_TYPE_EVENT (some ⟨none, some ['a'], 0⟩) () ⟨2, some 1, true, true⟩

/-- What has been observed of calls made one after another. -/
theorem directorySystem_observed (events : List (DirectoryEvent (Fin 3) Unit))
    (observe : List (DirectoryEvent (Fin 3) Unit × Ob (Fin 3) Unit) → Ob (Fin 3) Unit → Bool)
    (h : (play (fun e s => decide (DirectoryEvent.Enabled e s)) (fun e s => (e.run s).map Prod.snd)
      events ([], onlyRootDirectory)).map (fun x => observe x.1 x.2) = some true) :
    ∃ t s, (directorySystem (Fin 3) Unit).Run t s ∧ observe t s = true := by
  refine System.Run.play_observed _ _ (fun t s e u hen hrun => ?_) events observe
    onlyRootDirectory_run h
  cases hr : e.run s with
  | error b => simp [hr, Except.map] at hrun
  | ok r =>
    rw [hr] at hrun
    cases hrun
    exact ⟨rfl, of_decide_eq_true hen, r.1, hr⟩

/-- No reference has been dropped. -/
def noDereference (t : List (DirectoryEvent (Fin 3) Unit × Ob (Fin 3) Unit)) : Bool :=
  t.all fun l => match l.1 with
    | .dereference _ => false
    | _ => true

/-- The event is created, looked up and referenced. -/
theorem names_allocated_event : ∃ t s, (directorySystem (Fin 3) Unit).Run t s
    ∧ t.length = 3 ∧ NamesAllocated t s := by
  obtain ⟨t, s, hrun, hobserved⟩ := directorySystem_observed
    [createEvent, .lookup 0 ['a'] true, .reference 1]
    (fun t _ => decide (t.length = 3) && noDereference t) (by decide +kernel)
  obtain ⟨hlength, hnone⟩ := Bool.and_eq_true_iff.mp hobserved
  refine ⟨t, s, hrun, of_decide_eq_true hlength, (names_allocated_iff hrun).mpr ?_⟩
  rintro ⟨e, s₀⟩ hl hdrops
  have he := List.all_eq_true.mp hnone _ hl
  cases e with
  | dereference x => exact absurd he (by simp)
  | _ => exact hdrops

/-- **A destroyed object is still listed**: the only reference of the event is dropped, and the root
directory goes on listing the memory that has been given back. -/
theorem names_allocated_fails : ∃ t s, (directorySystem (Fin 3) Unit).Run t s
    ∧ ¬ NamesAllocated t s := by
  obtain ⟨t, s, hrun, hobserved⟩ := directorySystem_observed
    [createEvent, .dereference 1]
    (fun _ s => decide (s.Head 0 = [1] ∧ 0 ∈ s.objects ∧ 1 ∉ s.objects))
    (by decide +kernel)
  obtain ⟨hhead, hroot, hfreed⟩ := of_decide_eq_true hobserved
  refine ⟨t, s, hrun, fun hall => hfreed (hall.lists 0 hroot 1 ?_)⟩
  rw [hhead]
  exact List.mem_singleton_self _

end KaushOS
