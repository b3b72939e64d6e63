import KaushOS.Ob.CreateRuns
import KaushOS.Ob.Resolution

/-! # Objects under construction

From its allocation on, a new object belongs to the call that creates it: no other call writes to
it, except that it may count a reference once there is one. The object passes through three stages.

* **`Raw`** — allocated and cleared; while it is not linked either, it is `Pending`.
* **`Filled`** — the header is filled, the body is not.
* **`NameMachine.Orderly`** — what every call owns is in its stage, and no object is owned twice.
* **`orderly_of_run`** — this holds along every run in which handles do not run out. -/

namespace KaushOS

open Transition

variable {ω π θ : Type} [DecidableEq ω] [DecidableEq π] [DecidableEq θ]

/-! ## Stages -/

/-- The object that a call has allocated and not linked yet. -/
def NamePoint.pending : NamePoint ω → Option ω
  | .loop _ i _ => i
  | .entry _ i _ => i
  | .entered _ i _ => i
  | .link _ x _ _ => some x
  | .insert _ x _ => some x
  | _ => none

/-- The object that a call fills. -/
def NamePoint.building : NamePoint ω → Option ω
  | .fillHeader x => some x
  | .construct x => some x
  | _ => none

/-- The call owns the object. -/
def NamePoint.Owns (p : NamePoint ω) (x : ω) : Prop :=
  p.pending = some x ∨ p.building = some x ∨ p = .insertHandle x

/-- **A raw object** is allocated and cleared. -/
structure Raw (s : NameSpace ω π) (x : ω) : Prop where
  object : x ∈ s.ob.objects
  valid : obIsValidObject x s.ob = true
  refCount : (s.ob.header x).RefCount = 0
  objectType : (s.ob.header x).ObjectType = none
  head : s.HeadInitialized x = false
  empty : s.ob.Head x = []
  target : s.LinkTargetObject x = none

/-- **A pending object** is raw and in no directory. -/
structure Pending (s : NameSpace ω π) (x : ω) : Prop extends Raw s x where
  unlinked : ∀ d, x ∉ s.ob.Head d
  link : (s.ob.header x).DirEntryLinked = false

/-- **A filled object** has its header, while its body is still cleared. -/
structure Filled (s : NameSpace ω π) (type : OBJECT_TYPE_INDEX) (x : ω) : Prop where
  object : x ∈ s.ob.objects
  valid : obIsValidObject x s.ob = true
  refCount : 1 ≤ (s.ob.header x).RefCount
  objectType : (s.ob.header x).ObjectType = some type
  head : s.HeadInitialized x = false
  empty : s.ob.Head x = []
  target : s.LinkTargetObject x = none

/-- Names that are going to be compared are there. -/
def NamePoint.Named (s : NameSpace ω π) : NamePoint ω → Prop
  | .entry _ _ l => l.dirName.Buffer ≠ none
  | .entered _ _ l => l.dirName.Buffer ≠ none
  | .link _ x _ _ => (s.ob.header x).ObjectName.Buffer ≠ none
  | _ => True

/-- **What a call that stands at `p` relies on.** -/
structure Stage (call : NameCall ω π) (s : NameSpace ω π) (p : NamePoint ω) : Prop where
  create : ∀ x, p.Owns x → ∃ c, call = .create c
  allocate : ∀ root context, p = .allocate root context → ∃ c, call = .create c
  named : p.Named s
  pending : ∀ x, p.pending = some x → Pending s x
  fill : ∀ x, p = .fillHeader x → Raw s x
  construct : ∀ x, p = .construct x → ∃ c, call = .create c ∧ (∀ type, c.kind ≠ .object type)
    ∧ Filled s c.kind.type x
  handle : ∀ x, p = .insertHandle x → x ∈ s.ob.objects ∧ (s.ob.header x).ObjectType ≠ none

/-- **The objects under construction are in order.** -/
structure NameMachine.Orderly (call : θ → NameCall ω π) (m : NameMachine ω π θ) : Prop where
  stage : ∀ u, Stage (call u) m.space (m.point u)
  distinct : ∀ u v x, (m.point u).Owns x → (m.point v).Owns x → u = v
  linked : ∀ d, ∀ x ∈ m.space.ob.Head d, x ∈ m.space.ob.objects
    ∧ obIsValidObject x m.space.ob = true ∧ (m.space.ob.header x).ObjectName.Buffer ≠ none
  handle : ∀ p i x, m.space.ob.Handle p i = .object x →
    x ∈ m.space.ob.objects ∧ (m.space.ob.header x).ObjectType ≠ none

/-! ## What a step leaves alone -/

/-- **A step leaves object `y` alone**, but for its counters. -/
structure Untouched (s s' : NameSpace ω π) (y : ω) : Prop where
  header : s'.ob.header y = { s.ob.header y with
    OpenHandleCount := (s'.ob.header y).OpenHandleCount
    RefCount := (s'.ob.header y).RefCount }
  zero : (s.ob.header y).RefCount = 0 → (s'.ob.header y).RefCount = 0
  pos : 1 ≤ (s.ob.header y).RefCount → 1 ≤ (s'.ob.header y).RefCount
  object : y ∈ s.ob.objects → y ∈ s'.ob.objects
  head : s'.HeadInitialized y = s.HeadInitialized y
  target : s'.LinkTargetObject y = s.LinkTargetObject y
  linked : ∀ d, y ∈ s'.ob.Head d → y ∈ s.ob.Head d
  entries : s.HeadInitialized y = false → s'.ob.Head y = s.ob.Head y

variable {call : θ → NameCall ω π} {m : NameMachine ω π θ} {u : θ} {s s' : NameSpace ω π}
  {p p' : NamePoint ω} {x y : ω} {a : PoolAnswer ω}

section Untouched

omit [DecidableEq ω] [DecidableEq π]

theorem Untouched.objectType (h : Untouched s s' y) :
    (s'.ob.header y).ObjectType = (s.ob.header y).ObjectType := by
  rw [h.header]

theorem Untouched.name (h : Untouched s s' y) :
    (s'.ob.header y).ObjectName = (s.ob.header y).ObjectName := by
  rw [h.header]

theorem Untouched.valid (h : Untouched s s' y) : obIsValidObject y s'.ob = obIsValidObject y s.ob := by
  rw [obIsValidObject, obIsValidObject, h.header]

theorem Untouched.refl (s : NameSpace ω π) (y : ω) : Untouched s s y :=
  ⟨rfl, fun h => h, fun h => h, fun h => h, rfl, rfl, fun _ h => h, fun _ => rfl⟩

theorem Raw.untouched (h : Raw s x) (hx : Untouched s s' x) : Raw s' x :=
  ⟨hx.object h.object, hx.valid.trans h.valid, hx.zero h.refCount, hx.objectType.trans h.objectType,
    hx.head.trans h.head, (hx.entries h.head).trans h.empty, hx.target.trans h.target⟩

theorem Pending.untouched (h : Pending s x) (hx : Untouched s s' x) : Pending s' x :=
  ⟨h.toRaw.untouched hx, fun d hd => h.unlinked d (hx.linked d hd), by
    rw [hx.header]
    exact h.link⟩

theorem Filled.untouched {type : OBJECT_TYPE_INDEX} (h : Filled s type x) (hx : Untouched s s' x) :
    Filled s' type x :=
  ⟨hx.object h.object, hx.valid.trans h.valid, hx.pos h.refCount, hx.objectType.trans h.objectType,
    hx.head.trans h.head, (hx.entries h.head).trans h.empty, hx.target.trans h.target⟩

theorem Complete.untouched (h : Complete s x) (hx : Untouched s s' x) : Complete s' x := by
  refine ⟨hx.pos h.refCount, ?_, fun hd => ?_, fun hl => ?_⟩
  · rw [hx.objectType]
    exact h.objectType
  · rw [hx.objectType] at hd
    exact hx.head.trans (h.directory hd)
  · rw [hx.objectType] at hl
    rw [hx.target]
    exact h.symbolicLink hl

/-- A call keeps its stage when nothing of what it owns is touched. -/
theorem Stage.untouched {call : NameCall ω π} (h : Stage call s p)
    (hp : ∀ y, p.Owns y → Untouched s s' y) : Stage call s' p where
  create := h.create
  allocate := h.allocate
  named := by
    have hnamed := h.named
    cases p with
    | link root y =>
      have hname := (hp y (Or.inl rfl)).name
      show (s'.ob.header y).ObjectName.Buffer ≠ none
      rw [hname]
      exact hnamed
    | _ => exact hnamed
  pending y hy := (h.pending y hy).untouched (hp y (Or.inl hy))
  fill y hy := (h.fill y hy).untouched (hp y (Or.inr (Or.inl (hy ▸ rfl))))
  construct y hy := by
    obtain ⟨c, hc, hkind, hfilled⟩ := h.construct y hy
    exact ⟨c, hc, hkind, hfilled.untouched (hp y (Or.inr (Or.inl (hy ▸ rfl))))⟩
  handle y hy := by
    have huntouched := hp y (Or.inr (Or.inr hy))
    obtain ⟨hobject, htype⟩ := h.handle y hy
    exact ⟨huntouched.object hobject, by rwa [huntouched.objectType]⟩

/-- What a call owns is allocated. -/
theorem Stage.object {call : NameCall ω π} (h : Stage call s p) (hx : p.Owns x) :
    x ∈ s.ob.objects := by
  rcases hx with hx | hx | hx
  · exact (h.pending x hx).object
  · cases p with
    | fillHeader y =>
      cases hx
      exact (h.fill x rfl).object
    | construct y =>
      cases hx
      obtain ⟨_, -, -, hfilled⟩ := h.construct x rfl
      exact hfilled.object
    | _ => cases hx
  · exact (h.handle x hx).1

/-- Counting references touches nothing. -/
theorem Counts.untouched {added : Option ω} {ob : Ob ω π} (h : Counts added s.ob ob) :
    Untouched s { s with ob := ob } y :=
  ⟨h.header y, h.zero y, h.pos y, fun hy => h.objects.symm ▸ hy, rfl, rfl,
    fun d hd => by rwa [h.Head] at hd, fun _ => congrFun h.Head y⟩

end Untouched

/-! ## What a step does to the memory -/

section Effects

omit [DecidableEq π]

/-- **The object is linked** behind the entries of directory `d`. -/
structure Linked (s : NameSpace ω π) (d x : ω) (s' : NameSpace ω π) : Prop where
  directory : IsDirectory s.ob d
  head : s.HeadInitialized d = true
  unlinked : (s.ob.header x).DirEntryLinked = false
  eq : s' = { s with
    ob := (s.ob.setHead d (s.ob.Head d ++ [x])).setHeader x
      { s.ob.header x with DirEntryLinked := true } }

theorem insertEntryDirectory_linked {d : ω} {context : OBP_LOOKUP_CONTEXT ω}
    (h : s.insertEntryDirectory d context x = .ok s') : Linked s d x s' := by
  obtain ⟨ob, hinsert, h⟩ := kernel_bind_eq_ok.mp h
  obtain ⟨isDirectory, hdirectory, hinsert⟩ := kernel_bind_eq_ok.mp hinsert
  obtain ⟨_, htrue, hinsert⟩ := kernel_bind_eq_ok.mp hinsert
  obtain ⟨_, hunlinked, hinsert⟩ := kernel_bind_eq_ok.mp hinsert
  obtain ⟨_, -, hinsert⟩ := kernel_bind_eq_ok.mp hinsert
  obtain ⟨_, -, hdirectory⟩ := kernel_bind_eq_ok.mp hdirectory
  rw [assert_eq_ok] at htrue hunlinked
  split at h
  · cases h
  · rename_i hhead
    cases hinsert
    cases h
    rw [htrue] at hdirectory
    have htype : (s.ob.header d).ObjectType = some .OBJECT_TYPE_DIRECTORY :=
      of_decide_eq_true (Except.ok.inj hdirectory)
    exact ⟨htype, Bool.eq_true_of_not_eq_false hhead, hunlinked, rfl⟩

/-- A point at which a call fills nothing. -/
structure NamePoint.Plain (call : NameCall ω π) (p : NamePoint ω) : Prop where
  building : p.building = none
  handle : ∀ x, p ≠ .insertHandle x
  allocate : ∀ root context, p = .allocate root context → ∃ c, call = .create c

/-- **What a step does**, as far as objects under construction are concerned. -/
inductive NameEffect (call : NameCall ω π) (a : PoolAnswer ω) (s : NameSpace ω π) :
    NamePoint ω → NamePoint ω → NameSpace ω π → Prop
  /-- References are counted. -/
  | counts {p p' : NamePoint ω} {added : Option ω} {ob : Ob ω π} (hob : Counts added s.ob ob)
      (hadded : ∀ x ∈ added, p = .insertHandle x) (hpending : p'.pending = p.pending)
      (hplain : p = p' ∨ p.building = none ∧ p'.Plain call)
      (hnamed : ∀ s' : NameSpace ω π, p.Named s' → p'.Named s') :
      NameEffect call a s p p' { s with ob := ob }
  /-- The object is allocated. -/
  | clear {root x : ω} {context : OBP_LOOKUP_CONTEXT ω} (hx : x ∈ a.memory) :
      NameEffect call a s (.allocate root context) (.insert root x context) (s.clear x)
  /-- The object is freed: its name could not be inserted. -/
  | free {p : NamePoint ω} {x : ω} {status : KSTATUS} (hp : p.pending = some x) :
      NameEffect call a s p (.returned status none) (s.free x)
  /-- The object gets its name. -/
  | name {root x d : ω} {l : LookupLocals ω} {context : OBP_LOOKUP_CONTEXT ω} :
      NameEffect call a s (.entered root (some x) l) (.link root x d context)
        { s with ob := s.ob.setHeader x { s.ob.header x with ObjectName := l.dirName } }
  /-- The object is linked. -/
  | link {root x d : ω} {context : OBP_LOOKUP_CONTEXT ω} {s' : NameSpace ω π}
      (hlink : Linked s d x s') :
      NameEffect call a s (.link root x d context) (.fillHeader x) s'
  /-- The second lookup has found the name. -/
  | found {p : NamePoint ω} {x : ω} (hp : p.pending = some x) :
      NameEffect call a s p (.fillHeader x) s
  /-- The header is filled. -/
  | fillHeader {c : CreateCall ω π} {x : ω} {p' : NamePoint ω} (hc : call = .create c)
      (hp : (∃ type, c.kind = .object type) ∧ p' = .returned .STATUS_SUCCESS (some x)
        ∨ (∀ type, c.kind ≠ .object type) ∧ p' = .construct x) :
      NameEffect call a s (.fillHeader x) p' (s.initializeHeader c x)
  /-- The list of a directory is initialised. -/
  | constructDirectory {c : CreateCall ω π} {x : ω} {handle : Bool} (hc : call = .create c)
      (hkind : c.kind = .directory handle) :
      NameEffect call a s (.construct x) (afterConstruct handle x) (s.initializeDirectory x)
  /-- The target of a symbolic link is stored. -/
  | constructLink {c : CreateCall ω π} {x target : ω} {handle : Bool} {ob : Ob ω π}
      (hc : call = .create c) (hkind : c.kind = .symbolicLink target handle)
      (hob : Counts none s.ob ob) :
      NameEffect call a s (.construct x) (afterConstruct handle x)
        { s with
          ob := ob
          LinkTargetObject := Function.update s.LinkTargetObject x (some target) }

variable {call : NameCall ω π} {root : ω} {insert : Option ω} {status : KSTATUS}

/-- A step that changes nothing but the point. -/
theorem NameEffect.move (hpending : p'.pending = p.pending)
    (hbuilding : p.building = none) (hplain : p'.Plain call)
    (hnamed : ∀ s' : NameSpace ω π, p.Named s' → p'.Named s') :
    NameEffect call a s p p' s :=
  .counts (.refl s.ob) nofun hpending (Or.inr ⟨hbuilding, hplain⟩) hnamed

/-- A lookup returns to its caller. -/
theorem LookupReturns.effect (h : LookupReturns call s root insert status p' s')
    (hpending : p.pending = insert) (hbuilding : p.building = none)
    (hcreate : ∀ x, p.Owns x → ∃ c, call = .create c) : NameEffect call a s p p' s' := by
  cases h with
  | lookup hc =>
    cases hinsert : insert with
    | none => exact .move (hpending.trans hinsert).symm hbuilding ⟨rfl, nofun, nofun⟩ fun _ _ => trivial
    | some x =>
      obtain ⟨c, hcreate⟩ := hcreate x (Or.inl (hpending.trans hinsert))
      rw [hc] at hcreate
      cases hcreate
  | openIf hc hopen => exact .move hpending.symm hbuilding ⟨rfl, nofun, nofun⟩ fun _ _ => trivial
  | failed hc hstatus => exact .move hpending.symm hbuilding ⟨rfl, nofun, nofun⟩ fun _ _ => trivial
  | missing hc =>
    exact .move hpending.symm hbuilding ⟨rfl, nofun, fun _ _ _ => ⟨_, hc⟩⟩ fun _ _ => trivial
  | fillHeader hc => exact .found hpending
  | freed hc hstatus => exact .free hpending

/-- **Every step is one of these.** -/
theorem NameStep.effect (h : NameStep call a s p p' s') (hstage : Stage call s p)
    (hfree : ∀ x c, p = .insertHandle x → call = .create c →
      freeHandle (s.ob.Handle c.process) ≠ none) : NameEffect call a s p p' s' := by
  have hcreate := hstage.create
  cases h with
  | startLookup hc hl => exact .move rfl rfl ⟨rfl, nofun, nofun⟩ fun _ _ => trivial
  | startCreate hc hroot hl =>
    exact .counts (.rootDirectory hroot) nofun rfl (Or.inr ⟨rfl, rfl, nofun, nofun⟩) fun _ _ => trivial
  | startFails hob hstatus =>
    exact .counts hob nofun rfl (Or.inr ⟨rfl, rfl, nofun, nofun⟩) fun _ _ => trivial
  | insert hl => exact .move rfl rfl ⟨rfl, nofun, nofun⟩ fun _ _ => trivial
  | insertFails h => exact h.effect rfl rfl hcreate
  | loopReturns _ _ h => exact h.effect rfl rfl hcreate
  | loop hd hdirectory hparse hl =>
    refine .move rfl rfl ⟨rfl, nofun, nofun⟩ fun _ _ => ?_
    have hscan := eq_of_obParseDirectoryPath hparse
    obtain ⟨r, -, hr⟩ := Option.map_eq_some_iff.mp hscan.symm
    show _ ≠ none
    rw [hl.2.1, ← (Prod.mk.inj hr).1]
    exact Option.some_ne_none _
  | entry hd hlookup => exact .move rfl rfl ⟨rfl, nofun, nofun⟩ fun _ hs => hs
  | enteredReturns _ h => exact h.effect rfl rfl hcreate
  | entered hstatus => exact .move rfl rfl ⟨rfl, nofun, nofun⟩ fun _ _ => trivial
  | name hstatus hd hparse => exact .name
  | link hlink h =>
    rename_i root' x d context s₁
    obtain ⟨c, hc⟩ := hcreate x (Or.inl rfl)
    cases h with
    | lookup hc' =>
      rw [hc] at hc'
      cases hc'
    | fillHeader _ => exact .link (insertEntryDirectory_linked hlink)
    | freed _ hstatus => exact absurd rfl hstatus
  | allocateFails => exact .move rfl rfl ⟨rfl, nofun, nofun⟩ fun _ _ => trivial
  | allocate hx => exact .clear hx
  | openIf hc hob => exact .counts hob nofun rfl (Or.inr ⟨rfl, rfl, nofun, nofun⟩) fun _ _ => trivial
  | fillHeader hc hp => exact .fillHeader hc hp
  | constructDirectory hc hkind => exact .constructDirectory hc hkind
  | constructLink hc hkind hob => exact .constructLink hc hkind hob
  | insertHandle hc hob =>
    refine .counts (hob (hfree _ _ rfl hc)).2 (fun y hy => ?_) rfl (Or.inr ⟨rfl, rfl, nofun, nofun⟩)
      fun _ _ => trivial
    cases hy
    rfl
  | idle => exact .counts (.refl s.ob) nofun rfl (Or.inl rfl) fun _ hs => hs

/-! ### On the object and on all others -/

theorem clear_head_self : (s.clear x).ob.Head x = [] := Function.update_self ..

theorem clear_head_of_ne (hy : y ≠ x) : (s.clear x).ob.Head y = s.ob.Head y :=
  Function.update_of_ne hy ..

theorem clear_untouched (hy : y ≠ x) : Untouched s (s.clear x) y := by
  have hheader : (s.clear x).ob.header y = s.ob.header y := s.ob.setHeader_of_ne _ hy
  refine ⟨by rw [hheader], fun h => ?_, fun h => ?_, Finset.mem_insert_of_mem,
    Function.update_of_ne hy .., Function.update_of_ne hy .., fun d hd => ?_,
    fun _ => Function.update_of_ne hy ..⟩
  · rwa [hheader]
  · rwa [hheader]
  · by_cases hdx : d = x
    · rw [hdx, clear_head_self] at hd
      cases hd
    · rwa [clear_head_of_ne hdx] at hd

theorem clear_pending (hx : ∀ d, x ∉ s.ob.Head d) : Pending (s.clear x) x := by
  have hheader : (s.clear x).ob.header x = clearedHeader := s.ob.setHeader_self x _
  refine ⟨⟨Finset.mem_insert_self .., ?_, ?_, ?_, Function.update_self .., Function.update_self ..,
    Function.update_self ..⟩, fun d hd => ?_, ?_⟩
  · rw [obIsValidObject, hheader]
    rfl
  · rw [hheader]
    rfl
  · rw [hheader]
    rfl
  · by_cases hdx : d = x
    · rw [hdx, clear_head_self] at hd
      cases hd
    · rw [clear_head_of_ne hdx] at hd
      exact hx d hd
  · rw [hheader]
    rfl

theorem free_untouched (hy : y ≠ x) : Untouched s (s.free x) y :=
  ⟨rfl, fun h => h, fun h => h, fun h => Finset.mem_erase.mpr ⟨hy, h⟩, rfl, rfl, fun _ h => h,
    fun _ => rfl⟩

/-- A store to the header of an object leaves the others alone. -/
theorem setHeader_untouched {h : OBJECT_HEADER} (hy : y ≠ x) :
    Untouched s { s with ob := s.ob.setHeader x h } y := by
  have hheader : (s.ob.setHeader x h).header y = s.ob.header y := s.ob.setHeader_of_ne h hy
  refine ⟨?_, fun hzero => ?_, fun hpos => ?_, fun h => h, rfl, rfl, fun _ h => h, fun _ => rfl⟩
  · show (s.ob.setHeader x h).header y = _
    rw [hheader]
  · show ((s.ob.setHeader x h).header y).RefCount = 0
    rwa [hheader]
  · show 1 ≤ ((s.ob.setHeader x h).header y).RefCount
    rwa [hheader]

/-- A pending object that gets a name is pending. -/
theorem Pending.setName (h : Pending s x) (name : UNICODE_STRING) :
    Pending { s with ob := s.ob.setHeader x { s.ob.header x with ObjectName := name } } x := by
  have hheader := s.ob.setHeader_self x { s.ob.header x with ObjectName := name }
  refine ⟨⟨h.object, ?_, ?_, ?_, h.head, h.empty, h.target⟩, h.unlinked, ?_⟩
  · show decide (((s.ob.setHeader x _).header x).Magic = _) = true
    rw [hheader]
    exact h.valid
  · show ((s.ob.setHeader x _).header x).RefCount = 0
    rw [hheader]
    exact h.refCount
  · show ((s.ob.setHeader x _).header x).ObjectType = none
    rw [hheader]
    exact h.objectType
  · show ((s.ob.setHeader x _).header x).DirEntryLinked = false
    rw [hheader]
    exact h.link

/-- A raw object that gets its header is filled. -/
theorem Raw.filled (h : Raw s x) (c : CreateCall ω π) :
    Filled (s.initializeHeader c x) c.kind.type x := by
  have hheader := s.ob.setHeader_self x { s.ob.header x with
    Attributes := c.Attributes
    ObjectType := some c.kind.type
    OpenHandleCount := 0
    RefCount := 1 }
  refine ⟨h.object, ?_, ?_, ?_, h.head, h.empty, h.target⟩
  · show decide (((s.ob.setHeader x _).header x).Magic = _) = true
    rw [hheader]
    exact h.valid
  · show 1 ≤ ((s.ob.setHeader x _).header x).RefCount
    rw [hheader]
  · show ((s.ob.setHeader x _).header x).ObjectType = _
    rw [hheader]

theorem Linked.head_self {d : ω} (h : Linked s d x s') : s'.ob.Head d = s.ob.Head d ++ [x] := by
  rw [h.eq]
  exact Function.update_self ..

theorem Linked.head_of_ne {d e : ω} (h : Linked s d x s') (he : e ≠ d) :
    s'.ob.Head e = s.ob.Head e := by
  rw [h.eq]
  exact Function.update_of_ne he ..

/-- Linking leaves the other objects alone. -/
theorem Linked.untouched {d : ω} (h : Linked s d x s') (hy : y ≠ x) : Untouched s s' y := by
  have hlinked : ∀ e, y ∈ s'.ob.Head e → y ∈ s.ob.Head e := by
    intro e he
    by_cases hed : e = d
    · subst hed
      rw [h.head_self] at he
      rcases List.mem_append.mp he with he | he
      · exact he
      · exact absurd (List.mem_singleton.mp he) hy
    · rwa [h.head_of_ne hed] at he
  have hentries : s.HeadInitialized y = false → s'.ob.Head y = s.ob.Head y := by
    intro hhead
    refine h.head_of_ne ?_
    rintro rfl
    cases h.head.symm.trans hhead
  have heq := h.eq
  subst heq
  have hset := setHeader_untouched (s := { s with ob := s.ob.setHead d (s.ob.Head d ++ [x]) })
    (h := { s.ob.header x with DirEntryLinked := true }) hy
  exact ⟨hset.header, hset.zero, hset.pos, hset.object, rfl, rfl, hlinked, hentries⟩

/-- Linking keeps the name. -/
theorem Linked.name {d : ω} (h : Linked s d x s') :
    (s'.ob.header x).ObjectName = (s.ob.header x).ObjectName := by
  rw [h.eq]
  exact (congrArg OBJECT_HEADER.ObjectName ((s.ob.setHead d _).setHeader_self x _)).trans rfl

/-- A raw object that is linked is raw. -/
theorem Linked.raw {d : ω} (h : Linked s d x s') (hx : Raw s x) : Raw s' x := by
  have hxd : x ≠ d := by
    rintro rfl
    have hhead := hx.head
    rw [h.head] at hhead
    cases hhead
  rw [h.eq]
  have hheader := (s.ob.setHead d (s.ob.Head d ++ [x])).setHeader_self x
    { s.ob.header x with DirEntryLinked := true }
  refine ⟨hx.object, ?_, ?_, ?_, hx.head, ?_, hx.target⟩
  · show decide ((((s.ob.setHead d _).setHeader x _).header x).Magic = _) = true
    rw [hheader]
    exact hx.valid
  · show (((s.ob.setHead d _).setHeader x _).header x).RefCount = 0
    rw [hheader]
    exact hx.refCount
  · show (((s.ob.setHead d _).setHeader x _).header x).ObjectType = none
    rw [hheader]
    exact hx.objectType
  · show Function.update s.ob.Head d _ x = []
    rw [Function.update_of_ne hxd]
    exact hx.empty

theorem initializeDirectory_untouched (hy : y ≠ x) : Untouched s (s.initializeDirectory x) y := by
  refine ⟨rfl, fun h => h, fun h => h, fun h => h, Function.update_of_ne hy .., rfl,
    fun d hd => ?_, fun _ => Function.update_of_ne hy ..⟩
  by_cases hdx : d = x
  · subst hdx
    simp [NameSpace.initializeDirectory, Ob.setHead] at hd
  · simpa [NameSpace.initializeDirectory, Ob.setHead, Function.update_of_ne hdx] using hd

end Effects

/-! ## One step -/

omit [DecidableEq π] in
/-- **A step that touches only what its call owns** keeps the objects in order, if the call is in its
stage again. -/
theorem NameMachine.Orderly.update (h : m.Orderly call) (touched : Option ω)
    (hother : ∀ y, touched ≠ some y → Untouched m.space s' y)
    (hmine : ∀ x ∈ touched, (m.point u).Owns x ∨ x ∉ m.space.ob.objects)
    (howns : ∀ x, p'.Owns x → touched = some x ∨ (m.point u).Owns x)
    (hstage : Stage (call u) s' p')
    (hlinked : ∀ d, ∀ x ∈ touched, x ∈ s'.ob.Head d → x ∈ s'.ob.objects
      ∧ obIsValidObject x s'.ob = true ∧ (s'.ob.header x).ObjectName.Buffer ≠ none)
    (hhandle : ∀ p i x, s'.ob.Handle p i = .object x → m.space.ob.Handle p i = .object x
      ∨ x ∈ s'.ob.objects ∧ (s'.ob.header x).ObjectType ≠ none)
    (htype : ∀ x ∈ touched, x ∈ m.space.ob.objects → (m.space.ob.header x).ObjectType ≠ none →
      x ∈ s'.ob.objects ∧ (s'.ob.header x).ObjectType ≠ none) :
    (⟨s', Function.update m.point u p'⟩ : NameMachine ω π θ).Orderly call := by
  have hobject : ∀ v x, (m.point v).Owns x → x ∈ m.space.ob.objects :=
    fun v x => (h.stage v).object
  -- what another call owns is not touched
  have huntouched : ∀ v, v ≠ u → ∀ x, (m.point v).Owns x → Untouched m.space s' x := by
    intro v hv x hx
    refine hother x fun htouched => ?_
    rcases hmine x htouched with hu | hfree
    · exact hv (h.distinct v u x hx hu)
    · exact hfree (hobject v x hx)
  have hdistinct : ∀ v x, v ≠ u → (m.point v).Owns x → ¬ p'.Owns x := by
    intro v x hv hx hx'
    rcases howns x hx' with htouched | hu
    · rcases hmine x htouched with hu | hfree
      · exact hv (h.distinct v u x hx hu)
      · exact hfree (hobject v x hx)
    · exact hv (h.distinct v u x hx hu)
  refine ⟨fun v => ?_, fun v w x hv hw => ?_, fun d x hx => ?_, fun p i x hx => ?_⟩
  · by_cases hv : v = u
    · subst hv
      simpa using hstage
    · simp only [Function.update_of_ne hv]
      exact (h.stage v).untouched (huntouched v hv)
  · by_cases hvu : v = u
    · by_cases hwu : w = u
      · rw [hvu, hwu]
      · subst hvu
        simp only [Function.update_self, Function.update_of_ne hwu] at hv hw
        exact absurd hv (hdistinct w x hwu hw)
    · by_cases hwu : w = u
      · subst hwu
        simp only [Function.update_self, Function.update_of_ne hvu] at hv hw
        exact absurd hw (hdistinct v x hvu hv)
      · simp only [Function.update_of_ne hvu, Function.update_of_ne hwu] at hv hw
        exact h.distinct v w x hv hw
  · by_cases htouched : touched = some x
    · exact hlinked d x htouched hx
    · have hux := hother x htouched
      obtain ⟨hobj, hvalid, hname⟩ := h.linked d x (hux.linked d hx)
      exact ⟨hux.object hobj, hux.valid.trans hvalid, by rwa [hux.name]⟩
  · rcases hhandle p i x hx with hold | hnew
    · obtain ⟨hobj, hne⟩ := h.handle p i x hold
      by_cases htouched : touched = some x
      · exact htype x htouched hobj hne
      · have hux := hother x htouched
        exact ⟨hux.object hobj, by rwa [hux.objectType]⟩
    · exact hnew

section Effects

omit [DecidableEq π]

variable {c : NameCall ω π}

omit [DecidableEq ω] in
/-- What a call may own. -/
theorem NamePoint.not_owns (hpending : p.pending = none) (hbuilding : p.building = none)
    (hhandle : p ≠ .insertHandle x) : ¬ p.Owns x := by
  rintro (hx | hx | hx)
  · rw [hpending] at hx
    cases hx
  · rw [hbuilding] at hx
    cases hx
  · exact hhandle hx

omit [DecidableEq ω] in
/-- **A call that goes on to a plain point** with what it owns. -/
theorem Stage.moved (h : Stage c s p) (hpending : p'.pending = p.pending) (hplain : p'.Plain c)
    (hnamed : p'.Named s) : Stage c s p' where
  create x hx := by
    rcases hx with hx | hx | hx
    · exact h.create x (Or.inl (hpending.symm.trans hx))
    · rw [hplain.building] at hx
      cases hx
    · exact absurd hx (hplain.handle x)
  allocate := hplain.allocate
  named := hnamed
  pending x hx := h.pending x (hpending.symm.trans hx)
  fill x hx := by
    subst hx
    cases hplain.building
  construct x hx := by
    subst hx
    cases hplain.building
  handle x hx := absurd hx (hplain.handle x)

omit [DecidableEq ω] in
/-- A call that has returned relies on nothing. -/
theorem Stage.returned (c : NameCall ω π) (s : NameSpace ω π) (status : KSTATUS) (object : Option ω) :
    Stage c s (.returned status object) :=
  ⟨fun _ hx => absurd hx (NamePoint.not_owns rfl rfl nofun), nofun, trivial, nofun, nofun, nofun,
    nofun⟩

omit [DecidableEq ω] in
/-- Who owns nothing new is done. -/
theorem afterConstruct_owns {handle : Bool} (h : (afterConstruct handle x).Owns y) : y = x := by
  cases handle with
  | true =>
    rcases h with h | h | h
    · cases h
    · cases h
    · cases h
      rfl
  | false => exact absurd h (NamePoint.not_owns rfl rfl nofun)

omit [DecidableEq ω] in
/-- A call that fills the header of an object owns it alone. -/
theorem fillHeader_owns (y : ω) (h : (NamePoint.fillHeader x).Owns y) : y = x := by
  rcases h with h | h | h
  · cases h
  · exact (Option.some.inj h).symm
  · cases h

omit [DecidableEq ω] in
theorem Stage.fillHeader (hc : ∃ d, c = .create d) (h : Raw s x) : Stage c s (.fillHeader x) := by
  refine ⟨fun _ _ => hc, nofun, trivial, nofun, fun y hy => ?_, nofun, nofun⟩
  cases hy
  exact h

omit [DecidableEq ω] in
/-- Behind the constructor of its body an object is allocated and has a type. -/
theorem Stage.afterConstruct {handle : Bool} (hc : ∃ d, c = .create d) (hobject : x ∈ s.ob.objects)
    (htype : (s.ob.header x).ObjectType ≠ none) : Stage c s (afterConstruct handle x) := by
  cases handle with
  | true =>
    refine ⟨fun y _ => hc, nofun, trivial, nofun, nofun, nofun, fun y hy => ?_⟩
    cases hy
    exact ⟨hobject, htype⟩
  | false => exact .returned c s _ _

/-- **References are counted**: nothing is touched. -/
theorem NameMachine.Orderly.counts (h : m.Orderly call) (hpoint : m.point u = p)
    {added : Option ω} {ob : Ob ω π} (hob : Counts added m.space.ob ob)
    (hadded : ∀ x ∈ added, p = .insertHandle x) (howns : ∀ x, p'.Owns x → p.Owns x)
    (hstage : Stage (call u) { m.space with ob := ob } p') :
    (⟨{ m.space with ob := ob }, Function.update m.point u p'⟩ : NameMachine ω π θ).Orderly call := by
  subst hpoint
  refine h.update none (fun y _ => hob.untouched) nofun (fun x hx => Or.inr (howns x hx)) hstage
    (fun _ => nofun) (fun p i x hx => ?_) nofun
  rcases hob.handle p i x hx with hold | hnew
  · exact Or.inl hold
  · obtain ⟨hobject, htype⟩ := (h.stage u).handle x (hadded x hnew)
    have hux : Untouched m.space { m.space with ob := ob } x := hob.untouched
    exact Or.inr ⟨hux.object hobject, by rwa [hux.objectType]⟩

/-- **A step on an object without a type**: it is not behind a handle. -/
theorem NameMachine.Orderly.raw (h : m.Orderly call) (hpoint : m.point u = p)
    (hx : p.Owns x ∨ x ∉ m.space.ob.objects)
    (htype : x ∈ m.space.ob.objects → (m.space.ob.header x).ObjectType = none)
    (hother : ∀ y, y ≠ x → Untouched m.space s' y) (hhandle : s'.ob.Handle = m.space.ob.Handle)
    (howns : ∀ y, p'.Owns y → y = x) (hstage : Stage (call u) s' p')
    (hlinked : ∀ d, x ∈ s'.ob.Head d → x ∈ s'.ob.objects ∧ obIsValidObject x s'.ob = true
      ∧ (s'.ob.header x).ObjectName.Buffer ≠ none) :
    (⟨s', Function.update m.point u p'⟩ : NameMachine ω π θ).Orderly call := by
  subst hpoint
  refine h.update (some x) (fun y hy => hother y fun heq => hy (congrArg some heq.symm)) ?_
    (fun y hy => Or.inl (congrArg some (howns y hy).symm)) hstage ?_
    (fun p i y hy => Or.inl (hhandle ▸ hy)) ?_
  · rintro y ⟨⟩
    exact hx
  · rintro d y ⟨⟩
    exact hlinked d
  · rintro y ⟨⟩ hy hne
    exact absurd (htype hy) hne

/-- **The body of an object is initialised.** -/
theorem NameMachine.Orderly.constructed (h : m.Orderly call) (hpoint : m.point u = .construct x)
    (hother : ∀ y, y ≠ x → Untouched m.space s' y) (hobject : x ∈ s'.ob.objects)
    (hvalid : obIsValidObject x s'.ob = true)
    (hname : (s'.ob.header x).ObjectName = (m.space.ob.header x).ObjectName)
    (htype : (s'.ob.header x).ObjectType ≠ none)
    (hlinked : ∀ d, x ∈ s'.ob.Head d → x ∈ m.space.ob.Head d)
    (hhandle : ∀ p i y, s'.ob.Handle p i = .object y → m.space.ob.Handle p i = .object y)
    (hc : ∃ c, call u = .create c) {handle : Bool} :
    (⟨s', Function.update m.point u (afterConstruct handle x)⟩ : NameMachine ω π θ).Orderly call := by
  refine h.update (some x) (fun y hy => hother y fun heq => hy (congrArg some heq.symm)) ?_
    (fun y hy => Or.inl (congrArg some (afterConstruct_owns hy).symm))
    (.afterConstruct hc hobject htype) ?_ (fun p i y hy => Or.inl (hhandle p i y hy)) ?_
  · rintro y ⟨⟩
    rw [hpoint]
    exact Or.inl (Or.inr (Or.inl rfl))
  · rintro d y ⟨⟩ hd
    refine ⟨hobject, hvalid, ?_⟩
    rw [hname]
    exact (h.linked d x (hlinked d hd)).2.2
  · rintro y ⟨⟩ - -
    exact ⟨hobject, htype⟩

/-- **One step of call `u`** keeps the objects in order. -/
theorem NameMachine.Orderly.effect (h : m.Orderly call)
    (ha : ∀ x ∈ a.memory, x ∉ m.space.ob.objects)
    (hstep : NameEffect (call u) a m.space (m.point u) p' s') :
    (⟨s', Function.update m.point u p'⟩ : NameMachine ω π θ).Orderly call := by
  obtain ⟨p, hpoint⟩ : ∃ p, m.point u = p := ⟨_, rfl⟩
  have hu := h.stage u
  rw [hpoint] at hstep hu
  cases hstep with
  | counts hob hadded hpending hplain hnamed =>
    have hstage := hu.untouched fun x _ => hob.untouched
    rcases hplain with rfl | ⟨hbuilding, hplain⟩
    · exact h.counts hpoint hob hadded (fun _ hx => hx) hstage
    · refine h.counts hpoint hob hadded (fun x hx => ?_)
        (hstage.moved hpending hplain (hnamed _ hstage.named))
      rcases hx with hx | hx | hx
      · exact Or.inl (hpending ▸ hx)
      · rw [hplain.building] at hx
        cases hx
      · exact absurd hx (hplain.handle x)
  | clear hx =>
    have hfree := ha _ hx
    have hpending := clear_pending fun d hd => hfree (h.linked d _ hd).1
    refine h.raw hpoint (Or.inr hfree) (fun hx => absurd hx hfree) (fun y => clear_untouched) rfl
      (fun y hy => ?_) ⟨fun _ _ => hu.allocate _ _ rfl, nofun, trivial, fun y hy => ?_, nofun, nofun,
        nofun⟩ fun d hd => absurd hd (hpending.unlinked d)
    · rcases hy with hy | hy | hy
      · exact (Option.some.inj hy).symm
      · cases hy
      · cases hy
    · cases hy
      exact hpending
  | free hp =>
    have hpending := hu.pending _ hp
    exact h.raw hpoint (Or.inl (Or.inl hp)) (fun _ => hpending.objectType) (fun y => free_untouched)
      rfl (fun y hy => absurd hy (NamePoint.not_owns rfl rfl nofun)) (.returned ..)
      fun d hd => absurd hd (hpending.unlinked d)
  | name =>
    rename_i root x d l context
    have hpending := hu.pending x rfl
    have hheader := m.space.ob.setHeader_self x { m.space.ob.header x with ObjectName := l.dirName }
    have howns : ∀ y, (NamePoint.link root x d context).Owns y → y = x := by
      rintro y (hy | hy | hy)
      · exact (Option.some.inj hy).symm
      · cases hy
      · cases hy
    refine h.raw hpoint (Or.inl (Or.inl rfl)) (fun _ => hpending.objectType)
      (fun y => setHeader_untouched) rfl howns ⟨fun _ _ => hu.create x (Or.inl rfl), nofun, ?_,
        fun y hy => ?_, nofun, nofun, nofun⟩ fun d hd => absurd hd (hpending.unlinked d)
    · show ((m.space.ob.setHeader x _).header x).ObjectName.Buffer ≠ none
      rw [hheader]
      exact hu.named
    · cases hy
      exact hpending.setName _
  | link hlink =>
    rename_i root x d context
    have hpending := hu.pending x rfl
    have hraw := hlink.raw hpending.toRaw
    refine h.raw hpoint (Or.inl (Or.inl rfl)) (fun _ => hpending.objectType)
      (fun y => hlink.untouched) (by rw [hlink.eq]; rfl) fillHeader_owns
      (.fillHeader (hu.create x (Or.inl rfl)) hraw) fun e _ => ⟨hraw.object, hraw.valid, ?_⟩
    rw [hlink.name]
    exact hu.named
  | found hp =>
    have hpending := hu.pending _ hp
    refine h.counts hpoint (.refl m.space.ob) nofun (fun y hy => ?_)
      (.fillHeader (hu.create _ (Or.inl hp)) hpending.toRaw)
    rw [fillHeader_owns y hy]
    exact Or.inl hp
  | fillHeader hc hp =>
    rename_i c x
    have hraw := hu.fill x rfl
    have hfilled := hraw.filled c
    have hlinked : ∀ d, x ∈ m.space.ob.Head d → ((m.space.initializeHeader c x).ob.header
        x).ObjectName.Buffer ≠ none := by
      intro d hd
      have hheader : ((m.space.initializeHeader c x).ob.header x).ObjectName
          = (m.space.ob.header x).ObjectName :=
        (congrArg OBJECT_HEADER.ObjectName (m.space.ob.setHeader_self x _)).trans rfl
      rw [hheader]
      exact (h.linked d x hd).2.2
    refine h.raw hpoint (Or.inl (Or.inr (Or.inl rfl))) (fun _ => hraw.objectType)
      (fun y => setHeader_untouched) rfl (fun y hy => ?_) ?_
      fun d hd => ⟨hfilled.object, hfilled.valid, hlinked d hd⟩
    · rcases hp with ⟨-, rfl⟩ | ⟨-, rfl⟩
      · exact absurd hy (NamePoint.not_owns rfl rfl nofun)
      · rcases hy with hy | hy | hy
        · cases hy
        · exact (Option.some.inj hy).symm
        · cases hy
    · rcases hp with ⟨-, rfl⟩ | ⟨hkind, rfl⟩
      · exact .returned ..
      · refine ⟨fun _ _ => ⟨c, hc⟩, nofun, trivial, nofun, nofun, fun y hy => ?_, nofun⟩
        cases hy
        exact ⟨c, hc, hkind, hfilled⟩
  | constructDirectory hc hkind =>
    rename_i c x handle
    obtain ⟨c', -, -, hfilled⟩ := hu.construct x rfl
    have htype : ((m.space.initializeDirectory x).ob.header x).ObjectType ≠ none := by
      show (m.space.ob.header x).ObjectType ≠ none
      rw [hfilled.objectType]
      exact Option.some_ne_none _
    exact h.constructed hpoint (fun y => initializeDirectory_untouched) hfilled.object hfilled.valid
      rfl htype (fun d hd => by
        by_cases hdx : d = x
        · subst hdx
          simp [NameSpace.initializeDirectory, Ob.setHead] at hd
        · simpa [NameSpace.initializeDirectory, Ob.setHead, Function.update_of_ne hdx] using hd)
      (fun _ _ _ hy => hy) ⟨c, hc⟩
  | constructLink hc hkind hob =>
    rename_i c x target handle ob
    obtain ⟨c', -, -, hfilled⟩ := hu.construct x rfl
    have hx : Untouched m.space { m.space with ob := ob } x := hob.untouched
    have htype : (ob.header x).ObjectType ≠ none := by
      rw [hx.objectType, hfilled.objectType]
      exact Option.some_ne_none _
    apply h.constructed hpoint
    · intro y hy
      have hy' : Untouched m.space { m.space with ob := ob } y := hob.untouched
      exact ⟨hy'.header, hy'.zero, hy'.pos, hy'.object, hy'.head, Function.update_of_ne hy ..,
        hy'.linked, hy'.entries⟩
    · exact hx.object hfilled.object
    · exact hx.valid.trans hfilled.valid
    · exact hx.name
    · exact htype
    · exact hx.linked
    · exact fun p i y hy => (hob.handle p i y hy).resolve_right fun hnone => by cases hnone
    · exact ⟨c, hc⟩

end Effects

/-! ## Along a run -/

/-- **What the condition says.** When a handle to a new object is about to be inserted, an entry of
the handle table is free. -/
def HandleIsFree (call : θ → NameCall ω π) (l : NameEvent ω θ × NameMachine ω π θ) : Prop :=
  ∀ x c, l.2.point l.1.thread = .insertHandle x → call l.1.thread = .create c →
    freeHandle (l.2.space.ob.Handle c.process) ≠ none

omit [DecidableEq ω] [DecidableEq π] [DecidableEq θ] in
/-- At the start nothing is under construction. -/
theorem NameMachine.Start.orderly (h : m.Start) : m.Orderly call := by
  have hnothing : ∀ u x, ¬ (m.point u).Owns x := by
    intro u x
    rw [h.point u]
    exact NamePoint.not_owns rfl rfl nofun
  refine ⟨fun u => ?_, fun u v x hu => absurd hu (hnothing u x), fun d x hx => ?_, h.handle⟩
  · rw [h.point u]
    exact ⟨fun x hx => absurd hx (NamePoint.not_owns rfl rfl nofun), nofun, trivial, nofun, nofun,
      nofun, nofun⟩
  · obtain ⟨hobject, hvalid, -⟩ := h.entry d x hx
    obtain ⟨c, hc, -⟩ := h.name d x hx
    refine ⟨hobject, hvalid, ?_⟩
    rw [hc]
    exact Option.some_ne_none _

/-- **A step of the system** is a step of the call that takes it. -/
theorem nameSystem_step {t : List (NameEvent ω θ × NameMachine ω π θ)} {m' : NameMachine ω π θ}
    {l : NameEvent ω θ × NameMachine ω π θ} (h : (nameSystem call).step t m l m') :
    l.2 = m ∧ (∀ x ∈ l.1.answer.memory, x ∉ m.space.ob.objects) ∧ ∃ p' s',
      NameStep (call l.1.thread) l.1.answer m.space (m.point l.1.thread) p' s'
      ∧ m' = ⟨s', Function.update m.point l.1.thread p'⟩ := by
  obtain ⟨hl, hen, hrun⟩ := h
  obtain ⟨⟨p', s'⟩, hstep, hrun⟩ := kernel_bind_eq_ok.mp hrun
  cases hrun
  exact ⟨hl, hen.2, p', s', NameCall.step_cases hstep, rfl⟩

/-- **The objects under construction are in order along every run** in which handles do not run
out. -/
theorem orderly_of_run {t : List (NameEvent ω θ × NameMachine ω π θ)}
    (h : (nameSystem call).Run t m) (hfree : ∀ l ∈ t, HandleIsFree call l) : m.Orderly call := by
  refine h.invariant (I := fun t m => (∀ l ∈ t, HandleIsFree call l) → m.Orderly call)
    (fun m hm _ => hm.orderly) ?_ hfree
  intro t m l m' _ hm hs hfree
  obtain ⟨hfreeNow, hfreeBefore⟩ := List.forall_mem_cons.mp hfree
  obtain ⟨rfl, ha, p', s', hstep, rfl⟩ := nameSystem_step hs
  have hm := hm hfreeBefore
  exact hm.effect ha (hstep.effect (hm.stage _) fun x c hp hc => hfreeNow x c hp hc)

end KaushOS
