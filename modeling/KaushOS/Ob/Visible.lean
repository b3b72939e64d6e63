import KaushOS.Ob.CreateInvariant

/-! # What a lookup can see (`kern/ob/ob.c`, `kern/ob/obdir.c`, `kern/ob/obsym.c`)

`ObCreateObject` links a new object in the middle of its second lookup, and only then fills the
header; the functions that create directories and symbolic links initialise the body when
`ObCreateObject` has returned. In between, other calls find the object.

* **`VisibleComplete`** — every object that is linked in a directory is complete.
* **`NoneHalfBuilt`** — no call stands between linking its object and the last store to it.
* **`visible_complete`** — along every run the two are the same. -/

namespace KaushOS

open Transition

variable {ω π θ : Type} [DecidableEq ω] [DecidableEq π] [DecidableEq θ]

/-- **Every linked object is complete.** -/
def VisibleComplete (m : NameMachine ω π θ) : Prop :=
  ∀ d, ∀ x ∈ m.space.ob.Head d, Complete m.space x

/-- **What the condition says.** No call has linked its object and still has to initialise it. -/
def NoneHalfBuilt (m : NameMachine ω π θ) : Prop :=
  ∀ d, ∀ x ∈ m.space.ob.Head d, ∀ u, (m.point u).building ≠ some x

/-- `ObCreateObject` itself is not called for directories and symbolic links, which have functions
of their own. -/
def OwnFunctions (call : θ → NameCall ω π) : Prop :=
  ∀ u c type, call u = .create c → c.kind = .object type →
    type ≠ .OBJECT_TYPE_DIRECTORY ∧ type ≠ .OBJECT_TYPE_SYMLINK

/-- Linked objects are complete unless a call is building them. -/
def NameMachine.Built (m : NameMachine ω π θ) : Prop :=
  ∀ d, ∀ x ∈ m.space.ob.Head d, (∀ u, (m.point u).building ≠ some x) → Complete m.space x

variable {call : θ → NameCall ω π} {m : NameMachine ω π θ} {u : θ} {s s' : NameSpace ω π}
  {p p' : NamePoint ω} {x d : ω} {a : PoolAnswer ω}

/-! ## One step -/

omit [DecidableEq ω] [DecidableEq π] in
/-- A step that leaves what is complete alone, and completes what its call has built. -/
theorem NameMachine.Built.update (h : m.Built) (hpoint : m.point u = p) (touched : Option ω)
    (hother : ∀ y, touched ≠ some y → Untouched m.space s' y)
    (hbuilding : ∀ y, p.building = some y → touched = some y ∨ p'.building = some y)
    (htouched : ∀ x ∈ touched, ∀ d, x ∈ s'.ob.Head d → p'.building ≠ some x → Complete s' x) :
    (⟨s', Function.update m.point u p'⟩ : NameMachine ω π θ).Built := by
  intro d y hy hnone
  have hown : p'.building ≠ some y := by
    have hu := hnone u
    simpa using hu
  by_cases hyt : touched = some y
  · exact htouched y hyt d hy hown
  · have huntouched := hother y hyt
    refine (h d y (huntouched.linked d hy) fun v hv => ?_).untouched huntouched
    by_cases hvu : v = u
    · subst hvu
      rcases hbuilding y (hpoint ▸ hv) with hy' | hy'
      · exact hyt hy'
      · exact hown hy'
    · have hother := hnone v
      simp only [Function.update_of_ne hvu] at hother
      exact hother hv

omit [DecidableEq ω] in
/-- A call that has a pending object is not building one. -/
theorem NamePoint.building_of_pending (h : p.pending = some x) : p.building = none := by
  cases p with
  | fillHeader y => cases h
  | construct y => cases h
  | _ => rfl

omit [DecidableEq ω] [DecidableEq π] in
/-- A step on one object that is in no directory afterwards. -/
theorem NameMachine.Built.unlinked (h : m.Built) (hpoint : m.point u = p)
    (hother : ∀ y, y ≠ x → Untouched m.space s' y) (hbuilding : p.building = none)
    (hunlinked : ∀ d, x ∉ s'.ob.Head d) :
    (⟨s', Function.update m.point u p'⟩ : NameMachine ω π θ).Built := by
  refine h.update hpoint (some x) (fun y hy => hother y fun heq => hy (congrArg some heq.symm))
    (fun y hy => ?_) ?_
  · rw [hbuilding] at hy
    cases hy
  · rintro y ⟨⟩ d hd
    exact absurd hd (hunlinked d)

omit [DecidableEq ω] [DecidableEq π] in
/-- A step on the object that its call is building. -/
theorem NameMachine.Built.building (h : m.Built) (hpoint : m.point u = p)
    (hother : ∀ y, y ≠ x → Untouched m.space s' y) (hbuilding : p.building = some x)
    (hcomplete : p'.building ≠ some x → Complete s' x) :
    (⟨s', Function.update m.point u p'⟩ : NameMachine ω π θ).Built := by
  refine h.update hpoint (some x) (fun y hy => hother y fun heq => hy (congrArg some heq.symm))
    (fun y hy => Or.inl (hbuilding.symm.trans hy)) ?_
  rintro y ⟨⟩ d -
  exact hcomplete

omit [DecidableEq π] in
/-- **One step of call `u`** keeps linked objects complete, unless it is building them. -/
theorem NameMachine.Built.effect (h : m.Built) (hm : m.Orderly call) (hcalls : OwnFunctions call)
    (ha : ∀ x ∈ a.memory, x ∉ m.space.ob.objects)
    (hstep : NameEffect (call u) a m.space (m.point u) p' s') :
    (⟨s', Function.update m.point u p'⟩ : NameMachine ω π θ).Built := by
  obtain ⟨p, hpoint⟩ : ∃ p, m.point u = p := ⟨_, rfl⟩
  have hu := hm.stage u
  rw [hpoint] at hstep hu
  cases hstep with
  | counts hob hadded hpending hplain hnamed =>
    refine h.update hpoint none (fun y _ => hob.untouched) (fun y hy => ?_) nofun
    rcases hplain with rfl | ⟨hbuilding, -⟩
    · exact Or.inr hy
    · rw [hbuilding] at hy
      cases hy
  | clear hx =>
    refine h.unlinked hpoint (fun y => clear_untouched) rfl
      (clear_pending fun d hd => ha _ hx (hm.linked d _ hd).1).unlinked
  | free hp =>
    exact h.unlinked hpoint (fun y => free_untouched) (NamePoint.building_of_pending hp)
      (hu.pending _ hp).unlinked
  | name =>
    exact h.unlinked hpoint (fun y => setHeader_untouched) rfl (hu.pending _ rfl).unlinked
  | link hlink =>
    rename_i root x d context
    refine h.update hpoint (some x)
      (fun y hy => hlink.untouched fun heq => hy (congrArg some heq.symm)) nofun ?_
    rintro y ⟨⟩ e - hown
    exact absurd rfl hown
  | found hp =>
    refine h.update hpoint none (fun y _ => .refl m.space y) (fun y hy => ?_) nofun
    rw [NamePoint.building_of_pending hp] at hy
    cases hy
  | fillHeader hc hp =>
    rename_i c x
    have hraw := hu.fill x rfl
    have hfilled := hraw.filled c
    refine h.building hpoint (fun y => setHeader_untouched) rfl fun hown => ?_
    rcases hp with ⟨⟨type, hkind⟩, rfl⟩ | ⟨-, rfl⟩
    · -- the object has no body that would have to be initialised
      obtain ⟨hdirectory, hlink⟩ := hcalls u c type hc hkind
      have htype : ((m.space.initializeHeader c x).ob.header x).ObjectType = some type := by
        rw [hfilled.objectType, hkind]
        rfl
      refine ⟨hfilled.refCount, ?_, fun hd => ?_, fun hl => ?_⟩
      · rw [htype]
        exact Option.some_ne_none _
      · rw [htype] at hd
        exact absurd (Option.some.inj hd) hdirectory
      · rw [htype] at hl
        exact absurd (Option.some.inj hl) hlink
    · exact absurd rfl hown
  | constructDirectory hc hkind =>
    rename_i c x handle
    obtain ⟨c', hc', -, hfilled⟩ := hu.construct x rfl
    cases hc.symm.trans hc'
    refine h.building hpoint (fun y => initializeDirectory_untouched) rfl fun _ => ?_
    have htype := hfilled.objectType
    rw [hkind] at htype
    refine ⟨hfilled.refCount, ?_, fun _ => Function.update_self .., fun hl => ?_⟩
    · show (m.space.ob.header x).ObjectType ≠ none
      rw [htype]
      exact Option.some_ne_none _
    · cases htype.symm.trans hl
  | constructLink hc hkind hob =>
    rename_i c x target handle ob
    obtain ⟨c', hc', -, hfilled⟩ := hu.construct x rfl
    cases hc.symm.trans hc'
    have hx : Untouched m.space { m.space with ob := ob } x := hob.untouched
    have htype := hx.objectType.trans hfilled.objectType
    rw [hkind] at htype
    refine h.building hpoint (fun y hy => ?_) rfl fun _ => ?_
    · have hy' : Untouched m.space { m.space with ob := ob } y := hob.untouched
      exact ⟨hy'.header, hy'.zero, hy'.pos, hy'.object, hy'.head, Function.update_of_ne hy ..,
        hy'.linked, hy'.entries⟩
    · refine ⟨hx.pos hfilled.refCount, ?_, fun hd => ?_, fun _ => ?_⟩
      · show (ob.header x).ObjectType ≠ none
        rw [htype]
        exact Option.some_ne_none _
      · cases htype.symm.trans hd
      · show Function.update m.space.LinkTargetObject x (some target) x ≠ none
        rw [Function.update_self]
        exact Option.some_ne_none _

/-! ## Along a run -/

/-- **Linked objects are complete unless a call is building them**, along every run. -/
theorem built_of_run {t : List (NameEvent ω θ × NameMachine ω π θ)}
    (h : (nameSystem call).Run t m) (hcalls : OwnFunctions call)
    (hfree : ∀ l ∈ t, HandleIsFree call l) : m.Built := by
  refine h.invariant (I := fun t m => (∀ l ∈ t, HandleIsFree call l) → m.Built) ?_ ?_ hfree
  · exact fun m hm _ d x hx _ => (hm.entry d x hx).2.2
  · intro t m l m' hrun hm hs hfree
    obtain ⟨hfreeNow, hfreeBefore⟩ := List.forall_mem_cons.mp hfree
    obtain ⟨rfl, ha, p', s', hstep, rfl⟩ := nameSystem_step hs
    have horderly := orderly_of_run hrun hfreeBefore
    exact (hm hfreeBefore).effect horderly hcalls ha
      (hstep.effect (horderly.stage _) fun x c hp hc => hfreeNow x c hp hc)

omit [DecidableEq ω] [DecidableEq π] [DecidableEq θ] in
/-- What a call is building is not complete. -/
theorem NameMachine.Orderly.not_complete (h : m.Orderly call)
    (hbuilding : (m.point u).building = some x) : ¬ Complete m.space x := by
  intro hcomplete
  have hu := h.stage u
  generalize m.point u = p at hbuilding hu
  cases p with
  | fillHeader y =>
    cases hbuilding
    exact hcomplete.objectType (hu.fill x rfl).objectType
  | construct y =>
    cases hbuilding
    obtain ⟨c, -, hkind, hfilled⟩ := hu.construct x rfl
    have htype := hfilled.objectType
    cases hc : c.kind with
    | object type => exact hkind type hc
    | directory handle =>
      rw [hc] at htype
      have hhead := hcomplete.directory htype
      rw [hfilled.head] at hhead
      cases hhead
    | symbolicLink target handle =>
      rw [hc] at htype
      exact hcomplete.symbolicLink htype hfilled.target
  | _ => cases hbuilding

omit [DecidableEq ω] [DecidableEq π] [DecidableEq θ] in
/-- The entries of a directory can be compared with a name. -/
theorem NameMachine.Orderly.lookupEntry (h : m.Orderly call) {name : UNICODE_STRING}
    (hname : name.Buffer ≠ none) {entries : List ω} (hentries : ∀ x ∈ entries, x ∈ m.space.ob.Head d) :
    ∃ r, KaushOS.lookupEntry name m.space.ob entries = .ok r ∧ ∀ x ∈ r, x ∈ m.space.ob.Head d := by
  induction entries with
  | nil => exact ⟨none, rfl, nofun⟩
  | cons y entries ih =>
    have hy := hentries y List.mem_cons_self
    obtain ⟨r, hr, hmem⟩ := ih fun x hx => hentries x (List.mem_cons_of_mem y hx)
    obtain ⟨p, hp⟩ := Option.ne_none_iff_exists'.mp hname
    obtain ⟨q, hq⟩ := Option.ne_none_iff_exists'.mp (h.linked d y hy).2.2
    have hcompare : ∃ k, rtlCompareUnicodeString name (m.space.ob.header y).ObjectName = .ok k := by
      unfold rtlCompareUnicodeString
      split
      · exact ⟨_, rfl⟩
      · split
        · exact ⟨_, rfl⟩
        · rw [hp, hq]
          exact ⟨_, rfl⟩
    obtain ⟨k, hk⟩ := hcompare
    rw [KaushOS.lookupEntry, hk, kernel_ok_bind]
    split
    · refine ⟨some y, rfl, ?_⟩
      rintro x ⟨⟩
      exact hy
    · exact ⟨r, hr, hmem⟩

omit [DecidableEq ω] [DecidableEq π] [DecidableEq θ] in
/-- **A directory with an initialised list can be searched.** -/
theorem NameMachine.Orderly.lookupEntryDirectory (h : m.Orderly call) {name : UNICODE_STRING}
    (hname : name.Buffer ≠ none) (hhead : m.space.HeadInitialized d = true)
    (context : OBP_LOOKUP_CONTEXT ω) :
    ∃ r, m.space.lookupEntryDirectory d name context = .ok r := by
  have hentries : ∀ x ∈ m.space.ob.Head d, x ∈ m.space.ob.Head d := fun _ hx => hx
  obtain ⟨r, hr, hmem⟩ := h.lookupEntry hname hentries
  rw [NameSpace.lookupEntryDirectory, if_neg (by rw [hhead]; nofun), obpLookupEntryDirectory, hr,
    kernel_ok_bind]
  cases r with
  | none => exact ⟨_, rfl⟩
  | some x =>
    obtain ⟨b, hmount⟩ := obIsMountpointObject_returns (h.linked d x (hmem x rfl)).2.1
    simp only
    rw [hmount, kernel_ok_bind]
    cases b with
    | true => exact ⟨_, rfl⟩
    | false => exact ⟨_, rfl⟩

/-- One thread creates an event with the name that the other one looks up; 0 is the root
directory. -/
def createAndLookup : Bool → NameCall (Fin 3) Unit
  | false => .create
    { kind := .object .OBJECT_TYPE_EVENT
      process := ()
      result := 0
      RootDirectory := none
      ObjectName := oneLetter
      Attributes := 0 }
  | true => .lookup 0 oneLetter

/-- The object is linked, and before its header is filled the other thread looks it up. -/
def lookupBetween : List (NameEvent (Fin 3) Bool) :=
  stepsOf false 4 ++ [⟨false, ⟨some 1, true⟩⟩] ++ stepsOf false 5 ++ stepsOf true 4

/-- What the other thread has found, and what becomes of a reference to it. -/
def foundAndReferenced (m : NameMachine (Fin 3) Unit Bool) : Option (Fin 3) × Option BugCheck :=
  match m.point true with
  | .returned _ object =>
    (object, match obReferenceObject 1 m.space.ob with
      | .ok _ => none
      | .error b => some b)
  | _ => (none, none)

end KaushOS
