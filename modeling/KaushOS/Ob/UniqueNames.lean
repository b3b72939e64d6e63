import KaushOS.Ob.CreateInvariant

/-! # Names stay unique (`kern/ob/ob.c`, `kern/ob/obdir.c`, `kern/ob/obname.c`)

`ObCreateObject` finds out in a first lookup that its name is free, and links the object behind a
second one. Between the first look into the directory and the linking the lock of the directory is
not held, so another call may link an object of the same name.

* **`Keeps`** — what no step takes away: directories, their entries and names that are missing.
* **`NamePoint.Right`**, **`NamePoint.Committed`** — what a call knows about its path where it stands.
* **`NamesKept`** — names are unique, and no creation is lost.
* **`unique_names`** — this holds along every run in which no call links an object under a name that
  another call has found to be free and has not linked yet. -/

namespace KaushOS

open Transition Paths

variable {ω π θ : Type} [DecidableEq ω] [DecidableEq π] [DecidableEq θ]

/-! ## The property -/

/-- The directory that the path of a call starts from. -/
def RootOf (c : CreateCall ω π) (s : Ob ω π) (root : ω) : Prop :=
  match c.RootDirectory with
  | none => s.ObRootDirectory = some root
  | some handle => s.Handle c.process handle = .object root

/-- The names of two entries are equal, as `RtlCompareUnicodeString` has it. -/
def SameName (s : Ob ω π) (x y : ω) : Prop :=
  rtlCompareUnicodeString (s.header x).ObjectName (s.header y).ObjectName = .ok 0

/-- Thread `u` tries to insert its object, and the name is taken: it is about to look for the last
component of its path once more, or to link the object. -/
def TakenAtInsert (u : θ) (l : NameEvent ω θ × NameMachine ω π θ) : Prop :=
  l.1.thread = u ∧
    ((∃ root x k d w, l.2.point u = .entry root (some x) k ∧ k.directory = some d
      ∧ pathComponents k.namePtr = [] ∧ k.dirName.Buffer = some w
      ∧ child l.2.space.ob d w ≠ none)
    ∨ ∃ root x d context w, l.2.point u = .link root x d context
      ∧ (l.2.space.ob.header x).ObjectName.Buffer = some w ∧ child l.2.space.ob d w ≠ none)

/-- **Unique names and no lost creations**, for calls without `OBJ_OPENIF`. -/
structure NamesKept (call : θ → NameCall ω π) (t : List (NameEvent ω θ × NameMachine ω π θ))
    (m : NameMachine ω π θ) : Prop where
  unique : ∀ d, (m.space.ob.Head d).Pairwise fun x y => ¬ SameName m.space.ob x y
  linked : ∀ u c object, call u = .create c → c.Attributes &&& OBJ_OPENIF = 0 →
    m.point u = .returned .STATUS_SUCCESS object → ∃ x root, object = some x
      ∧ RootOf c m.space.ob root
      ∧ Walk (IsDirectory m.space.ob) (child m.space.ob) root (pathComponents c.ObjectName.val) x
  taken : ∀ u c object, call u = .create c → c.Attributes &&& OBJ_OPENIF = 0 →
    (∃ l ∈ t, TakenAtInsert u l) → m.point u ≠ .returned .STATUS_SUCCESS object

/-- **A call has found its name to be free**, in the lookup that started from `root`, and has not
linked its object yet. -/
def NamePoint.Committed (root : ω) : NamePoint ω → Prop
  | .entered r none l => r = root ∧ l.status = .STATUS_OBJECT_NAME_NOT_FOUND
      ∧ pathComponents l.namePtr = []
  | .allocate r _ => r = root
  | .insert r _ _ => r = root
  | .loop r (some _) _ => r = root
  | .entry r (some _) _ => r = root
  | .entered r (some _) _ => r = root
  | .link r _ _ _ => r = root
  | _ => False

/-- The directory and the name under which a call is about to link its object. -/
def NamePoint.adds (s : Ob ω π) : NamePoint ω → Option (ω × List Char)
  | .link _ x d _ => (s.header x).ObjectName.Buffer.map fun w => (d, w)
  | _ => none

/-- **What the condition says.** When a call links its object, no other call that creates has found
the same name in the same directory to be free and has not linked its own yet. -/
def NoRival (call : θ → NameCall ω π) (l : NameEvent ω θ × NameMachine ω π θ) : Prop :=
  ∀ v c root e w, v ≠ l.1.thread → call v = .create c → (l.2.point v).Committed root →
    MissingFrom l.2.space.ob root c.ObjectName.val e →
    (pathComponents c.ObjectName.val).getLast? = some w →
    (l.2.point l.1.thread).adds l.2.space.ob ≠ some (e, w)

/-! ## Names -/

/-- The name `w`, as the parser stores it. -/
structure IsName (name : UNICODE_STRING) (w : List Char) : Prop where
  buffer : name.Buffer = some w
  length : name.Length = w.length
  char : ∀ a ∈ w, a.toNat ≠ 0

variable {call : θ → NameCall ω π} {m : NameMachine ω π θ} {u : θ} {s s' : NameSpace ω π}
  {ob ob' : Ob ω π} {p p' : NamePoint ω} {x y d root : ω} {w b : List Char} {a : PoolAnswer ω}
  {c : CreateCall ω π} {added : Option (ω × List Char)} {rest : List (List Char)}

omit [DecidableEq ω] [DecidableEq π] in
theorem IsName.hasName_iff (h : IsName (ob.header x).ObjectName w) : hasName ob b x = true ↔ w = b := by
  rw [hasName, decide_eq_true_iff, h.length, h.buffer]
  constructor
  · rintro ⟨hlength, htake⟩
    rw [Option.map_some, ← hlength, List.take_length] at htake
    exact Option.some.inj htake
  · rintro rfl
    exact ⟨rfl, by rw [Option.map_some, List.take_length]⟩

omit [DecidableEq ω] [DecidableEq π] in
/-- Entries with different names are not compared as equal. -/
theorem IsName.not_sameName (hx : IsName (ob.header x).ObjectName w)
    (hy : IsName (ob.header y).ObjectName b) (h : w ≠ b) : ¬ SameName ob x y := by
  intro hsame
  unfold SameName rtlCompareUnicodeString at hsame
  rw [hx.length, hy.length, hx.buffer, hy.buffer] at hsame
  split at hsame
  · cases hsame
  · split at hsame
    · cases hsame
    · have hlength : w.length = b.length := by omega
      have hzero : strncmp w b w.length = 0 := Except.ok.inj hsame
      rw [strncmp_eq_zero_iff hx.char, hlength, List.take_length] at hzero
      exact h (Eq.symm (by simpa using hzero))

/-! ## What no step takes away -/

/-- **A step keeps** directories, their entries, and the names that are missing, but for the one that
it adds. -/
structure Keeps (added : Option (ω × List Char)) (ob ob' : Ob ω π) : Prop where
  directory : ∀ d ∈ ob.objects, IsDirectory ob d → d ∈ ob'.objects ∧ IsDirectory ob' d
  entry : ∀ d ∈ ob.objects, ∀ b x, child ob d b = some x → child ob' d b = some x
  missing : ∀ d ∈ ob.objects, ∀ b, child ob d b = none → added ≠ some (d, b) → child ob' d b = none
  rootDirectory : ob'.ObRootDirectory = ob.ObRootDirectory
  handle : ∀ p i x, ob.Handle p i = .object x → ob'.Handle p i = .object x

omit [DecidableEq ω] [DecidableEq π] in
/-- A search among entries that keep their names. -/
theorem find?_hasName {entries : List ω}
    (h : ∀ x ∈ entries, (ob'.header x).ObjectName = (ob.header x).ObjectName) :
    entries.find? (hasName ob' b) = entries.find? (hasName ob b) := by
  induction entries with
  | nil => rfl
  | cons x entries ih =>
    have hx : hasName ob' b x = hasName ob b x := by
      rw [hasName, hasName, h x List.mem_cons_self]
    rw [List.find?_cons, List.find?_cons, hx, ih fun y hy => h y (List.mem_cons_of_mem x hy)]

omit [DecidableEq ω] [DecidableEq π] in
/-- The same entries under the same names. -/
theorem child_congr (hhead : ob'.Head d = ob.Head d)
    (hname : ∀ x ∈ ob.Head d, (ob'.header x).ObjectName = (ob.header x).ObjectName) :
    child ob' d b = child ob d b := by
  unfold child
  rw [hhead, find?_hasName hname]

omit [DecidableEq ω] [DecidableEq π] in
/-- A new entry behind the others. -/
theorem child_append (hhead : ob'.Head d = ob.Head d ++ [x])
    (hname : ∀ y ∈ ob.Head d, (ob'.header y).ObjectName = (ob.header y).ObjectName)
    (hx : IsName (ob'.header x).ObjectName w) :
    child ob' d b = (child ob d b).or (if w = b then some x else none) := by
  unfold child
  rw [hhead, List.find?_append, find?_hasName hname]
  congr 1
  by_cases hwb : w = b
  · rw [if_pos hwb, List.find?_cons_of_pos (hx.hasName_iff.mpr hwb)]
  · rw [if_neg hwb, List.find?_cons_of_neg fun h => hwb (hx.hasName_iff.mp h), List.find?_nil]

omit [DecidableEq ω] [DecidableEq π] in
/-- A step that leaves the lists and the names of entries alone. -/
theorem Keeps.of_same
    (hdirectory : ∀ d ∈ ob.objects, IsDirectory ob d → d ∈ ob'.objects ∧ IsDirectory ob' d)
    (hhead : ∀ d ∈ ob.objects, ob'.Head d = ob.Head d)
    (hname : ∀ d, ∀ x ∈ ob.Head d, (ob'.header x).ObjectName = (ob.header x).ObjectName)
    (hroot : ob'.ObRootDirectory = ob.ObRootDirectory)
    (hhandle : ∀ p i x, ob.Handle p i = .object x → ob'.Handle p i = .object x) :
    Keeps added ob ob' := by
  have hchild : ∀ d ∈ ob.objects, ∀ b, child ob' d b = child ob d b :=
    fun d hd b => child_congr (hhead d hd) (hname d)
  refine ⟨hdirectory, fun d hd b x hx => ?_, fun d hd b hnone _ => ?_, hroot, hhandle⟩
  · rw [hchild d hd, hx]
  · rw [hchild d hd, hnone]

omit [DecidableEq π] in
/-- **The names of objects do not change**, but for the pending object of the call. -/
theorem NameEffect.objectName {call : NameCall ω π} (h : NameEffect call a s p p' s')
    (ha : ∀ x ∈ a.memory, x ∉ s.ob.objects) (hy : y ∈ s.ob.objects) (hp : p.pending ≠ some y) :
    (s'.ob.header y).ObjectName = (s.ob.header y).ObjectName := by
  cases h with
  | counts hob hadded hpending hplain hnamed => rw [hob.header]
  | clear hx =>
    refine (clear_untouched ?_).name
    rintro rfl
    exact ha y hx hy
  | free hx => rfl
  | name =>
    have hne : y ≠ _ := fun heq => hp (congrArg some heq.symm)
    exact (setHeader_untouched hne).name
  | link hlink =>
    have hne : y ≠ _ := fun heq => hp (congrArg some heq.symm)
    exact (hlink.untouched hne).name
  | found hx => rfl
  | fillHeader hc hp' =>
    rename_i c x
    by_cases hyx : y = x
    · subst hyx
      exact (congrArg OBJECT_HEADER.ObjectName (s.ob.setHeader_self y _)).trans rfl
    · exact (setHeader_untouched hyx).name
  | constructDirectory hc hkind => rfl
  | constructLink hc hkind hob =>
    show (_ : OBJECT_HEADER).ObjectName = _
    rw [hob.header]

omit [DecidableEq π] in
/-- **Every step keeps** directories, entries and missing names. -/
theorem NameEffect.keeps {call : NameCall ω π} (h : NameEffect call a s p p' s')
    (hstage : Stage call s p) (ha : ∀ x ∈ a.memory, x ∉ s.ob.objects)
    (hlinked : ∀ d, ∀ x ∈ s.ob.Head d, x ∈ s.ob.objects)
    (hname : ∀ x root d context, p = .link root x d context →
      ∃ w, IsName (s.ob.header x).ObjectName w) :
    Keeps (p.adds s.ob) s.ob s'.ob := by
  -- a pending object is no entry, so that entries keep their names
  have hentry : ∀ d, ∀ x ∈ s.ob.Head d, (s'.ob.header x).ObjectName = (s.ob.header x).ObjectName :=
    fun d x hx => h.objectName ha (hlinked d x hx) fun hp => (hstage.pending x hp).unlinked d hx
  cases h with
  | counts hob hadded hpending hplain hnamed =>
    refine .of_same (fun d hd hdirectory => ⟨hob.objects.symm ▸ hd, ?_⟩)
      (fun d _ => congrFun hob.Head d) hentry hob.root hob.kept
    rw [IsDirectory, hob.header]
    exact hdirectory
  | clear hx =>
    rename_i root x context
    have hne : ∀ d ∈ s.ob.objects, d ≠ x := fun d hd heq => ha x hx (heq ▸ hd)
    refine .of_same (fun d hd hdirectory => ?_) (fun d hd => clear_head_of_ne (hne d hd)) hentry rfl
      fun _ _ _ h => h
    have hd' := clear_untouched (s := s) (hne d hd)
    exact ⟨hd'.object hd, hd'.objectType.trans hdirectory⟩
  | free hx =>
    refine .of_same (fun d hd hdirectory => ⟨Finset.mem_erase.mpr ⟨?_, hd⟩, hdirectory⟩)
      (fun _ _ => rfl) hentry rfl fun _ _ _ h => h
    rintro rfl
    cases (hstage.pending d hx).objectType.symm.trans hdirectory
  | name =>
    rename_i root x d l context
    refine .of_same (fun e he hdirectory => ⟨he, ?_⟩) (fun _ _ => rfl) hentry rfl fun _ _ _ h => h
    have hne : e ≠ x := by
      rintro rfl
      cases (hstage.pending e rfl).objectType.symm.trans hdirectory
    exact (setHeader_untouched (s := s) hne).objectType.trans hdirectory
  | link hlink =>
    rename_i root x d context
    obtain ⟨w, hw⟩ := hname x root d context rfl
    have hadds : (NamePoint.link root x d context).adds s.ob = some (d, w) := by
      rw [NamePoint.adds, hw.buffer]
      rfl
    have hw' : IsName (s'.ob.header x).ObjectName w := hlink.name ▸ hw
    have hchild : ∀ b, child s'.ob d b = (child s.ob d b).or (if w = b then some x else none) :=
      fun b => child_append hlink.head_self (hentry d) hw'
    have hother : ∀ e b, e ≠ d → child s'.ob e b = child s.ob e b :=
      fun e b he => child_congr (hlink.head_of_ne he) (hentry e)
    refine ⟨fun e he hdirectory => ?_, fun e he b y hy => ?_, fun e he b hnone hadded => ?_, ?_, ?_⟩
    · have hne : e ≠ x := by
        rintro rfl
        cases (hstage.pending e rfl).objectType.symm.trans hdirectory
      have hu := hlink.untouched hne
      exact ⟨hu.object he, hu.objectType.trans hdirectory⟩
    · by_cases hed : e = d
      · subst hed
        rw [hchild, hy, Option.some_or]
      · rw [hother e b hed, hy]
    · by_cases hed : e = d
      · subst hed
        have hwb : w ≠ b := fun heq => hadded (hadds.trans (heq ▸ rfl))
        rw [hchild, hnone, Option.none_or, if_neg hwb]
      · rw [hother e b hed, hnone]
    · rw [hlink.eq]
      rfl
    · rw [hlink.eq]
      exact fun _ _ _ h => h
  | found hx =>
    exact .of_same (fun d hd hdirectory => ⟨hd, hdirectory⟩) (fun _ _ => rfl) hentry rfl
      fun _ _ _ h => h
  | fillHeader hc hp =>
    rename_i c x
    refine .of_same (fun d hd hdirectory => ⟨hd, ?_⟩) (fun _ _ => rfl) hentry rfl fun _ _ _ h => h
    have hne : d ≠ x := by
      rintro rfl
      cases (hstage.fill d rfl).objectType.symm.trans hdirectory
    exact (setHeader_untouched (s := s) hne).objectType.trans hdirectory
  | constructDirectory hc hkind =>
    rename_i c x handle
    obtain ⟨_, -, -, hfilled⟩ := hstage.construct x rfl
    refine .of_same (fun d hd hdirectory => ⟨hd, hdirectory⟩) (fun d _ => ?_) hentry rfl
      fun _ _ _ h => h
    by_cases hdx : d = x
    · rw [hdx, hfilled.empty]
      exact Function.update_self ..
    · exact Function.update_of_ne hdx ..
  | constructLink hc hkind hob =>
    refine .of_same (fun d hd hdirectory => ⟨hob.objects.symm ▸ hd, ?_⟩)
      (fun d _ => congrFun hob.Head d) hentry hob.root hob.kept
    rw [IsDirectory, hob.header]
    exact hdirectory

/-! ## What a call knows -/

/-- The directory that a path starts from is an allocated directory. -/
structure Rooted (c : CreateCall ω π) (ob : Ob ω π) (root : ω) : Prop where
  rootOf : RootOf c ob root
  object : root ∈ ob.objects
  directory : IsDirectory ob root

/-- **The walk has come to `d`**, and the components `rest` of the path are left. -/
def Reached (c : CreateCall ω π) (ob : Ob ω π) (root : ω) (rest : List (List Char)) (d : ω) : Prop :=
  Rooted c ob root ∧ ∃ done, pathComponents c.ObjectName.val = done ++ rest
    ∧ Walk (IsDirectory ob) (child ob) root done d

/-- **What a call knows where it stands.** -/
def NamePoint.Right (c : CreateCall ω π) (ob : Ob ω π) : NamePoint ω → Prop
  | .loop root _ l => Rooted c ob root ∧ l.status = .STATUS_SUCCESS
    ∧ (∀ a ∈ l.namePtr, a.toNat ≠ 0)
    ∧ ∀ d ∈ l.directory, Reached c ob root (pathComponents l.namePtr) d
  | .entry root _ l => (∀ a ∈ l.namePtr, a.toNat ≠ 0) ∧ ∃ d w, l.directory = some d
    ∧ IsDirectory ob d ∧ IsName l.dirName w ∧ Reached c ob root (w :: pathComponents l.namePtr) d
  | .entered root _ l => (∀ a ∈ l.namePtr, a.toNat ≠ 0) ∧ (∃ d w, l.directory = some d
      ∧ IsDirectory ob d ∧ IsName l.dirName w ∧ Reached c ob root (w :: pathComponents l.namePtr) d)
    ∧ (l.status = .STATUS_OBJECT_NAME_NOT_FOUND ∨ l.status = .STATUS_SUCCESS
      ∧ ∃ y, l.context.Object = some y ∧ Reached c ob root (pathComponents l.namePtr) y)
  | .link root x d _ => IsDirectory ob d ∧ ∃ w, IsName (ob.header x).ObjectName w
    ∧ Reached c ob root [w] d
  | .allocate root _ => Rooted c ob root
  | .insert root _ _ => Rooted c ob root
  | .fillHeader x => ∃ root, Reached c ob root [] x
  | .construct x => ∃ root, Reached c ob root [] x
  | .insertHandle x => ∃ root, Reached c ob root [] x
  | .openIf _ => c.Attributes &&& OBJ_OPENIF ≠ 0
  | .returned status object => status = .STATUS_SUCCESS → c.Attributes &&& OBJ_OPENIF = 0 →
    ∃ x root, object = some x ∧ Reached c ob root [] x
  | .start => True

/-- **A call that has found its name to be free** is right about it. -/
def NamePoint.Free (c : CreateCall ω π) (ob : Ob ω π) (p : NamePoint ω) : Prop :=
  ∀ root, p.Committed root → ∃ e, MissingFrom ob root c.ObjectName.val e

section Knowledge

omit [DecidableEq ω] [DecidableEq π]

theorem Keeps.rooted (h : Keeps added ob ob') (hroot : Rooted c ob root) : Rooted c ob' root := by
  obtain ⟨hobject, hdirectory⟩ := h.directory root hroot.object hroot.directory
  refine ⟨?_, hobject, hdirectory⟩
  have hrootOf := hroot.rootOf
  unfold RootOf at hrootOf ⊢
  cases hc : c.RootDirectory with
  | none =>
    simp only [hc] at hrootOf ⊢
    rw [h.rootDirectory, hrootOf]
  | some handle =>
    simp only [hc] at hrootOf ⊢
    exact h.handle _ _ _ hrootOf

/-- The entries of directories are allocated. -/
def EntriesAllocated (ob : Ob ω π) : Prop := ∀ d, ∀ x ∈ ob.Head d, x ∈ ob.objects

theorem child_object (h : EntriesAllocated ob) (hx : child ob d b = some x) : x ∈ ob.objects :=
  h d x (List.mem_of_find?_eq_some hx)

theorem Keeps.walk (h : Keeps added ob ob') (hentries : EntriesAllocated ob)
    {names : List (List Char)} (hroot : root ∈ ob.objects)
    (hwalk : Walk (IsDirectory ob) (child ob) root names x) :
    Walk (IsDirectory ob') (child ob') root names x :=
  hwalk.mono (P := fun d => d ∈ ob.objects) hroot (fun d hd hdir => (h.directory d hd hdir).2)
    fun d b y hd hy => ⟨child_object hentries hy, h.entry d hd b y hy⟩

theorem Keeps.reached (h : Keeps added ob ob') (hentries : EntriesAllocated ob)
    (hreached : Reached c ob root rest d) : Reached c ob' root rest d := by
  obtain ⟨hroot, done, hdone, hwalk⟩ := hreached
  exact ⟨h.rooted hroot, done, hdone, h.walk hentries hroot.object hwalk⟩

theorem Reached.object (hentries : EntriesAllocated ob) (h : Reached c ob root rest d) :
    d ∈ ob.objects := by
  obtain ⟨hroot, done, -, hwalk⟩ := h
  exact hwalk.end_mem (P := fun d => d ∈ ob.objects) hroot.object
    fun d b y _ hy => child_object hentries hy

/-- **What a call knows stays right** while others take steps. -/
theorem NamePoint.Right.mono (hright : p.Right c ob) (h : Keeps added ob ob')
    (hentries : EntriesAllocated ob)
    (hname : ∀ x, p.pending = some x → (ob'.header x).ObjectName = (ob.header x).ObjectName) :
    p.Right c ob' := by
  have hdirectory : ∀ {d rest root}, Reached c ob root rest d → IsDirectory ob d →
      IsDirectory ob' d := fun hreached hdir => (h.directory _ (hreached.object hentries) hdir).2
  cases p with
  | start => trivial
  | loop root insert l =>
    obtain ⟨hroot, hstatus, hchar, hreached⟩ := hright
    exact ⟨h.rooted hroot, hstatus, hchar, fun d hd => h.reached hentries (hreached d hd)⟩
  | entry root insert l =>
    obtain ⟨hchar, d, w, hd, hdir, hw, hreached⟩ := hright
    exact ⟨hchar, d, w, hd, hdirectory hreached hdir, hw, h.reached hentries hreached⟩
  | entered root insert l =>
    obtain ⟨hchar, ⟨d, w, hd, hdir, hw, hreached⟩, hfound⟩ := hright
    refine ⟨hchar, ⟨d, w, hd, hdirectory hreached hdir, hw, h.reached hentries hreached⟩, ?_⟩
    rcases hfound with hnone | ⟨hsuccess, y, hy, hreached'⟩
    · exact Or.inl hnone
    · exact Or.inr ⟨hsuccess, y, hy, h.reached hentries hreached'⟩
  | link root x d context =>
    obtain ⟨hdir, w, hw, hreached⟩ := hright
    refine ⟨hdirectory hreached hdir, w, ?_, h.reached hentries hreached⟩
    rw [hname x rfl]
    exact hw
  | openIf object => exact hright
  | allocate root context => exact h.rooted hright
  | insert root x context => exact h.rooted hright
  | fillHeader x =>
    obtain ⟨root, hreached⟩ := hright
    exact ⟨root, h.reached hentries hreached⟩
  | construct x =>
    obtain ⟨root, hreached⟩ := hright
    exact ⟨root, h.reached hentries hreached⟩
  | insertHandle x =>
    obtain ⟨root, hreached⟩ := hright
    exact ⟨root, h.reached hentries hreached⟩
  | returned status object =>
    intro hstatus hopen
    obtain ⟨x, root, hx, hreached⟩ := hright hstatus hopen
    exact ⟨x, root, hx, h.reached hentries hreached⟩

/-- The call is rooted where it is committed. -/
theorem NamePoint.Right.rooted (hright : p.Right c ob) (hcommitted : p.Committed root) :
    Rooted c ob root := by
  cases p with
  | loop r insert l =>
    cases insert with
    | none => cases hcommitted
    | some x => exact hcommitted ▸ hright.1
  | entry r insert l =>
    cases insert with
    | none => cases hcommitted
    | some x =>
      obtain ⟨-, d, w, -, -, -, hreached⟩ := hright
      exact hcommitted ▸ hreached.1
  | entered r insert l =>
    obtain ⟨-, ⟨d, w, -, -, -, hreached⟩, -⟩ := hright
    cases insert with
    | none => exact hcommitted.1 ▸ hreached.1
    | some x => exact hcommitted ▸ hreached.1
  | link r x d context =>
    obtain ⟨-, w, -, hreached⟩ := hright
    exact hcommitted ▸ hreached.1
  | allocate r context => exact hcommitted ▸ hright
  | insert r x context => exact hcommitted ▸ hright
  | _ => cases hcommitted

/-- **A free name stays free** while others do not add it. -/
theorem NamePoint.Free.mono (hfree : p.Free c ob) (hright : p.Right c ob) (h : Keeps added ob ob')
    (hentries : EntriesAllocated ob)
    (hadded : ∀ root e w, p.Committed root → MissingFrom ob root c.ObjectName.val e →
      (pathComponents c.ObjectName.val).getLast? = some w → added ≠ some (e, w)) :
    p.Free c ob' := by
  intro root hcommitted
  obtain ⟨e, hmissing⟩ := hfree root hcommitted
  have hroot := hright.rooted hcommitted
  exact ⟨e, hmissing.mono (P := fun d => d ∈ ob.objects) hroot.object
    (fun d hd hdir => (h.directory d hd hdir).2)
    (fun d b y hd hy => ⟨child_object hentries hy, h.entry d hd b y hy⟩)
    fun w hw he hnone => h.missing e he w hnone (hadded root e w hcommitted hmissing hw)⟩

end Knowledge

/-! ## A step of the call itself -/

section OwnStep

omit [DecidableEq π]

variable {k : NameCall ω π} {insert : Option ω} {status : KSTATUS}

/-- What a call knows when its lookup has returned. -/
theorem LookupReturns.right (h : LookupReturns k s root insert status p' s') (hk : k = .create c)
    (hinsert : ∀ x, insert = some x → status ≠ .STATUS_SUCCESS)
    (hmissing : insert = none → status = .STATUS_OBJECT_NAME_NOT_FOUND → Rooted c s.ob root
      ∧ ∃ e, MissingFrom s.ob root c.ObjectName.val e) :
    p'.pending = none ∧ p'.Right c s.ob ∧ p'.Free c s.ob := by
  cases h with
  | lookup hk' => cases hk.symm.trans hk'
  | openIf hk' hopen =>
    cases hk.symm.trans hk'
    exact ⟨rfl, hopen, fun _ => nofun⟩
  | failed hk' hstatus => exact ⟨rfl, fun hsuccess => absurd hsuccess hstatus, fun _ => nofun⟩
  | missing hk' =>
    obtain ⟨hroot, hfree⟩ := hmissing rfl rfl
    refine ⟨rfl, hroot, fun r hr => ?_⟩
    cases hr
    exact hfree
  | fillHeader hk' => exact absurd rfl (hinsert _ rfl)
  | freed hk' hstatus => exact ⟨rfl, fun hsuccess => absurd hsuccess hstatus, fun _ => nofun⟩

omit [DecidableEq ω] in
/-- **One directory is searched** for the entry named `w`. -/
theorem lookupEntryDirectory_child {name : UNICODE_STRING} {context context' : OBP_LOOKUP_CONTEXT ω}
    (hname : IsName name w) (hlinked : ∀ x ∈ s.ob.Head d, (s.ob.header x).ObjectName.Buffer ≠ none)
    (h : s.lookupEntryDirectory d name context = .ok (status, context')) :
    (status = .STATUS_OBJECT_NAME_NOT_FOUND ∧ child s.ob d w = none)
    ∨ status = .STATUS_SUCCESS ∧ ∃ y, context'.Object = some y ∧ child s.ob d w = some y := by
  unfold NameSpace.lookupEntryDirectory at h
  split at h
  · cases h
  · unfold obpLookupEntryDirectory at h
    rw [lookupEntry_eq hname.length hname.buffer hname.char hlinked, kernel_ok_bind] at h
    cases hchild : (s.ob.Head d).find? (hasName s.ob w) with
    | none =>
      simp only [hchild] at h
      cases h
      exact Or.inl ⟨rfl, hchild⟩
    | some y =>
      simp only [hchild] at h
      obtain ⟨b, -, h⟩ := kernel_bind_eq_ok.mp h
      cases b with
      | true =>
        cases h
        exact Or.inr ⟨rfl, y, rfl, hchild⟩
      | false =>
        cases h
        exact Or.inr ⟨rfl, y, rfl, hchild⟩

omit [DecidableEq ω] in
/-- The walk goes on to the entry that has been found. -/
theorem Reached.next (h : Reached c ob root (w :: rest) d) (hd : IsDirectory ob d)
    (hy : child ob d w = some y) : Reached c ob root rest y := by
  obtain ⟨hroot, done, hdone, hwalk⟩ := h
  exact ⟨hroot, done ++ [w], by rw [hdone, List.append_assoc]; rfl, hwalk.snoc hd hy⟩

omit [DecidableEq ω] in
/-- The last component is not there. -/
theorem Reached.missing (h : Reached c ob root [w] d) (hd : IsDirectory ob d)
    (hw : child ob d w = none) : MissingFrom ob root c.ObjectName.val d := by
  obtain ⟨-, done, hdone, hwalk⟩ := h
  exact ⟨done, w, hdone, hwalk, hd, hw⟩

omit [DecidableEq ω] in
/-- Where a name is free, the walk has not come to its end. -/
theorem Reached.not_end {e : ω} (h : Reached c ob root [] d)
    (hfree : MissingFrom ob root c.ObjectName.val e) : False := by
  obtain ⟨-, done, hdone, hwalk⟩ := h
  rw [List.append_nil] at hdone
  exact Missing.not_walk hfree (hdone ▸ hwalk)

omit [DecidableEq ω] in
/-- Where a name is free, the walk to its directory does not find it. -/
theorem Reached.last {e : ω} (h : Reached c ob root [w] d)
    (hfree : MissingFrom ob root c.ObjectName.val e) :
    d = e ∧ child ob d w = none ∧ (pathComponents c.ObjectName.val).getLast? = some w := by
  obtain ⟨-, done, hdone, hwalk⟩ := h
  rw [MissingFrom, hdone] at hfree
  obtain ⟨he, hnone⟩ := Missing.of_walk hfree hwalk
  exact ⟨he, hnone, by rw [hdone, List.getLast?_concat]⟩

omit [DecidableEq ω] in
/-- The walk begins. -/
theorem LookupLocals.Begin.right {l : LookupLocals ω} (hl : l.Begin c.ObjectName.val root)
    (hroot : Rooted c ob root) : (NamePoint.loop root insert l).Right c ob := by
  refine ⟨hroot, hl.status, ?_, fun d hd => ?_⟩
  · rw [hl.namePtr]
    exact c.ObjectName.property
  · rw [hl.directory] at hd
    cases hd
    exact ⟨hroot, [], by rw [hl.namePtr]; rfl, .nil _⟩

/-- The walk is over where the parser finds nothing more. -/
theorem pathComponents_of_parse {namePtr : List Char} {dirName : UNICODE_STRING}
    (h : obParseDirectoryPath namePtr dirName = .ok none) : pathComponents namePtr = [] := by
  have hscan := eq_of_obParseDirectoryPath h
  exact scan_eq_none (Option.map_eq_none_iff.mp hscan.symm)

omit [DecidableEq ω] in
/-- The next component is taken off the path. -/
theorem NamePoint.Right.loop {l l' : LookupLocals ω} {dirName : UNICODE_STRING}
    {parsedTill : List Char} (hright : (NamePoint.loop root insert l).Right c ob)
    (hd : l.directory = some d) (hdirectory : obIsDirectoryObject d ob = .ok true)
    (hparse : obParseDirectoryPath l.namePtr l.dirName = .ok (some (dirName, parsedTill)))
    (hl : l'.namePtr = parsedTill ∧ l'.dirName = dirName ∧ l'.directory = some d) :
    (NamePoint.entry root insert l').Right c ob := by
  obtain ⟨-, -, hchar, hreached⟩ := hright
  obtain ⟨⟨w, rest⟩, hscan, hr⟩ := Option.map_eq_some_iff.mp (eq_of_obParseDirectoryPath hparse).symm
  obtain ⟨hname, hrest⟩ := Prod.mk.inj hr
  obtain ⟨hcomponents, -, -, hcharW, hcharRest, -⟩ := scan_eq_some hscan
  have hwalk := hreached d hd
  obtain ⟨_, -, hdir⟩ := kernel_bind_eq_ok.mp hdirectory
  have hdir' : (ob.header d).ObjectType = some .OBJECT_TYPE_DIRECTORY :=
    of_decide_eq_true (Except.ok.inj hdir)
  rw [pathComponents, hcomponents] at hwalk
  refine ⟨fun a ha => ?_, d, w, hl.2.2, hdir', ?_, ?_⟩
  · rw [hl.1, ← hrest] at ha
    exact hchar a (hcharRest a ha)
  · rw [hl.2.1, ← hname]
    exact ⟨rfl, rfl, fun a ha => hchar a (hcharW a ha)⟩
  · rw [hl.1, ← hrest]
    exact hwalk

omit [DecidableEq ω] in
/-- The directory has been searched. -/
theorem NamePoint.Right.entry {l : LookupLocals ω} {context : OBP_LOOKUP_CONTEXT ω}
    (hright : (NamePoint.entry root insert l).Right c s.ob)
    (hlinked : ∀ d, ∀ x ∈ s.ob.Head d, (s.ob.header x).ObjectName.Buffer ≠ none)
    (hd : l.directory = some d)
    (hlookup : s.lookupEntryDirectory d l.dirName l.context = .ok (status, context)) :
    (NamePoint.entered root insert { l with status := status, context := context }).Right c s.ob
    ∧ (insert = none → (NamePoint.entered root insert
      { l with status := status, context := context }).Free c s.ob) := by
  obtain ⟨hchar, d', w, hd', hdir, hw, hreached⟩ := hright
  cases hd.symm.trans hd'
  have hfound := lookupEntryDirectory_child hw (hlinked d) hlookup
  refine ⟨⟨hchar, ⟨d, w, hd, hdir, hw, hreached⟩, ?_⟩, fun hinsert r hr => ?_⟩
  · rcases hfound with ⟨hnone, -⟩ | ⟨hsuccess, y, hy, hchild⟩
    · exact Or.inl hnone
    · exact Or.inr ⟨hsuccess, y, hy, hreached.next hdir hchild⟩
  · subst hinsert
    obtain ⟨rfl, hnone, hend⟩ := hr
    have hend' : pathComponents l.namePtr = [] := hend
    rcases hfound with ⟨-, hchild⟩ | ⟨hsuccess, -⟩
    · rw [hend'] at hreached
      exact ⟨d, hreached.missing hdir hchild⟩
    · exact absurd (hsuccess.symm.trans hnone) nofun

omit [DecidableEq ω] in
/-- The object has been built. -/
theorem afterConstruct_right {handle : Bool} (h : ∃ root, Reached c ob root [] x) :
    (afterConstruct handle x).pending = none ∧ (afterConstruct handle x).Right c ob
      ∧ (afterConstruct handle x).Free c ob := by
  obtain ⟨root, hreached⟩ := h
  cases handle with
  | true => exact ⟨rfl, ⟨root, hreached⟩, fun _ => nofun⟩
  | false => exact ⟨rfl, fun _ _ => ⟨x, root, rfl, hreached⟩, fun _ => nofun⟩

/-- **A step of the call** leaves it with what it has to know. -/
theorem NameStep.right (h : NameStep k a s p p' s') (hk : k = .create c) (hstage : Stage k s p)
    (hright : p.Right c s.ob) (hfree : p.Free c s.ob) (hkeeps : Keeps (p.adds s.ob) s.ob s'.ob)
    (hentries : EntriesAllocated s.ob)
    (hlinked : ∀ d, ∀ x ∈ s.ob.Head d, (s.ob.header x).ObjectName.Buffer ≠ none)
    (hroot : ∀ root ob, rootDirectory c.attributes c.process s.ob = .ok (root, ob) →
      Rooted c s.ob root) : p'.Right c s'.ob ∧ p'.Free c s'.ob := by
  -- most steps add nothing, and what is known in the state before the step stays right
  have hafter : p.adds s.ob = none → p'.pending = none ∧ p'.Right c s.ob ∧ p'.Free c s.ob →
      p'.Right c s'.ob ∧ p'.Free c s'.ob := by
    rintro hadds ⟨hpending, hright', hfree'⟩
    rw [hadds] at hkeeps
    refine ⟨hright'.mono hkeeps hentries fun x hx => ?_, hfree'.mono hright' hkeeps hentries
      fun _ _ _ _ _ _ => (Option.some_ne_none _).symm⟩
    rw [hpending] at hx
    cases hx
  cases h with
  | startLookup hc hl => cases hk.symm.trans hc
  | startCreate hc hrootDirectory hl =>
    cases hk.symm.trans hc
    subst hk
    exact hafter rfl ⟨rfl, hl.right (hroot _ _ hrootDirectory), fun _ => False.elim⟩
  | startFails hob hstatus =>
    exact hafter rfl ⟨rfl, fun hsuccess => absurd hsuccess hstatus, fun _ => False.elim⟩
  | insert hl =>
    subst hk
    exact ⟨hl.right hright, fun r hr => hfree r hr⟩
  | insertFails h =>
    exact hafter rfl (h.right hk (fun _ _ => by decide) fun hnone =>
      absurd hnone (Option.some_ne_none _))
  | loopReturns hd hstatus h =>
    rename_i root insert l status
    obtain ⟨hrooted, hsuccess, -, hreached⟩ := hright
    refine hafter rfl (h.right hk (fun x hx hs => ?_) fun _ hnotFound => ?_)
    · subst hx
      rcases hstatus with rfl | ⟨rfl, hparse⟩
      · cases hs
      · obtain ⟨d, hd⟩ := Option.ne_none_iff_exists'.mp hd
        obtain ⟨e, hmissing⟩ := hfree root rfl
        have hend := hreached d hd
        rw [pathComponents_of_parse hparse] at hend
        exact hend.not_end hmissing
    · rcases hstatus with rfl | ⟨rfl, -⟩
      · cases hnotFound
      · have hboth := hsuccess.symm.trans hnotFound
        cases hboth
  | loop hd hdirectory hparse hl =>
    rename_i root d insert l l' dirName parsedTill
    refine ⟨hright.loop hd hdirectory hparse hl, fun r hr => hfree r ?_⟩
    cases insert with
    | none => cases hr
    | some x => exact hr
  | entry hd hlookup =>
    rename_i root d insert l status context
    obtain ⟨hentered, hnone⟩ := hright.entry hlinked hd hlookup
    refine ⟨hentered, ?_⟩
    cases insert with
    | none => exact hnone rfl
    | some x => exact fun r hr => hfree r hr
  | enteredReturns hstatus h =>
    rename_i root insert l status
    obtain ⟨-, ⟨d, w, hd, hdir, hw, hreached⟩, hfound⟩ := hright
    refine hafter rfl (h.right hk (fun x hx hs => ?_) fun hinsert hnotFound => ?_)
    · subst hx
      rcases hstatus with rfl | ⟨rfl, -, hend⟩ | ⟨-, -, hnone, -⟩
      · cases hs
      · rcases hfound with hnone | ⟨-, y, -, hend'⟩
        · have hboth := hs.symm.trans hnone
          cases hboth
        · obtain ⟨e, hmissing⟩ := hfree root rfl
          rw [hend, pathComponents, components_nil] at hend'
          exact hend'.not_end hmissing
      · cases hnone
    · subst hinsert
      rcases hstatus with rfl | ⟨rfl, hne, -⟩ | ⟨rfl, hnone, -, hparse⟩
      · cases hnotFound
      · exact absurd hnotFound hne
      · exact ⟨hreached.1, hfree root ⟨rfl, hnone, pathComponents_of_parse hparse⟩⟩
  | entered hstatus =>
    rename_i root insert l
    obtain ⟨hchar, ⟨d, w, hd, hdir, hw, hreached⟩, hfound⟩ := hright
    rcases hfound with hnone | ⟨hsuccess, y, hy, hreached'⟩
    · exact absurd hnone hstatus
    · refine ⟨⟨hreached'.1, hsuccess, hchar, fun e he => ?_⟩, fun r hr => ?_⟩
      · cases hy.symm.trans he
        exact hreached'
      · cases insert with
        | none => cases hr
        | some x => exact hfree r hr
  | name hstatus hd hparse =>
    rename_i root x d l context
    have hfree' := hfree.mono hright hkeeps hentries fun _ _ _ _ _ _ => (Option.some_ne_none _).symm
    obtain ⟨-, ⟨d', w, hd', hdir, hw, hreached⟩, -⟩ := hright
    cases hd.symm.trans hd'
    have hheader := s.ob.setHeader_self x { s.ob.header x with ObjectName := l.dirName }
    refine ⟨⟨(hkeeps.directory d (hreached.object hentries) hdir).2, w, ?_, ?_⟩,
      fun r hr => hfree' r hr⟩
    · show IsName ((s.ob.setHeader x _).header x).ObjectName w
      rw [hheader]
      exact hw
    · rw [pathComponents_of_parse hparse] at hreached
      exact hkeeps.reached hentries hreached
  | link hlink h =>
    rename_i root x d context s₁
    have hlink' := insertEntryDirectory_linked hlink
    obtain ⟨hdir, w, hw, hreached⟩ := hright
    obtain ⟨e, hmissing⟩ := hfree root rfl
    obtain ⟨-, hnone, -⟩ := hreached.last hmissing
    have hnames : ∀ y ∈ s.ob.Head d, (s₁.ob.header y).ObjectName = (s.ob.header y).ObjectName := by
      intro y hy
      refine (hlink'.untouched ?_).name
      rintro rfl
      exact (hstage.pending y rfl).unlinked d hy
    have hchild : child s₁.ob d w = some x := by
      rw [child_append hlink'.head_self hnames (hlink'.name ▸ hw), hnone, Option.none_or, if_pos rfl]
    cases h with
    | lookup hk' => cases hk.symm.trans hk'
    | fillHeader hk' =>
      have hdir' := (hkeeps.directory d (hreached.object hentries) hdir).2
      exact ⟨⟨root, (hkeeps.reached hentries hreached).next hdir' hchild⟩, fun _ => False.elim⟩
    | freed hk' hstatus => exact absurd rfl hstatus
  | allocateFails =>
    exact hafter rfl ⟨rfl, fun hsuccess => (by cases hsuccess), fun _ => False.elim⟩
  | allocate hx =>
    have hfree' := hfree.mono hright hkeeps hentries fun _ _ _ _ _ _ => (Option.some_ne_none _).symm
    exact ⟨hkeeps.rooted hright, fun r hr => hfree' r hr⟩
  | openIf hc hob =>
    refine hafter rfl ⟨rfl, fun _ hopen => absurd hopen hright, fun _ => False.elim⟩
  | fillHeader hc hp =>
    obtain ⟨root, hreached⟩ := hright
    rcases hp with ⟨-, rfl⟩ | ⟨-, rfl⟩
    · exact hafter rfl ⟨rfl, fun _ _ => ⟨_, root, rfl, hreached⟩, fun _ => False.elim⟩
    · exact hafter rfl ⟨rfl, ⟨root, hreached⟩, fun _ => False.elim⟩
  | constructDirectory hc hkind => exact hafter rfl (afterConstruct_right hright)
  | constructLink hc hkind hob => exact hafter rfl (afterConstruct_right hright)
  | insertHandle hc hob =>
    obtain ⟨root, hreached⟩ := hright
    exact hafter rfl ⟨rfl, fun _ _ => ⟨_, root, rfl, hreached⟩, fun _ => False.elim⟩
  | idle => exact ⟨hright, hfree⟩

end OwnStep

/-! ## All calls -/

/-- **All calls know where they are**, and no directory lists a name twice. -/
structure NameMachine.Located (call : θ → NameCall ω π) (m : NameMachine ω π θ) : Prop where
  root : ∀ d ∈ m.space.ob.ObRootDirectory, d ∈ m.space.ob.objects ∧ IsDirectory m.space.ob d
  name : ∀ d, ∀ x ∈ m.space.ob.Head d, ∃ w, IsName (m.space.ob.header x).ObjectName w
  unique : ∀ d, ((m.space.ob.Head d).map fun x => (m.space.ob.header x).ObjectName.Buffer).Nodup
  right : ∀ u c, call u = .create c → (m.point u).Right c m.space.ob
  free : ∀ u c, call u = .create c → (m.point u).Free c m.space.ob

section AllCalls

omit [DecidableEq ω] [DecidableEq π] [DecidableEq θ] in
theorem NameMachine.Start.located (h : m.Start) : m.Located call := by
  refine ⟨h.root, fun d x hx => ?_, h.unique, fun u c _ => ?_, fun u c _ root => ?_⟩
  · obtain ⟨w, hbuffer, hlength⟩ := h.name d x hx
    exact ⟨w.val, hbuffer, hlength, w.property⟩
  · rw [h.point u]
    trivial
  · rw [h.point u]
    nofun

omit [DecidableEq π] [DecidableEq θ] in
theorem NameMachine.Located.rooted (h : m.Located call) (hm : m.Orderly call)
    (hroot : rootDirectory c.attributes c.process m.space.ob = .ok (root, ob)) :
    Rooted c m.space.ob root := by
  unfold rootDirectory at hroot
  have hrootOf : RootOf c m.space.ob = fun root => match c.RootDirectory with
      | none => m.space.ob.ObRootDirectory = some root
      | some handle => m.space.ob.Handle c.process handle = .object root := rfl
  cases hc : c.RootDirectory with
  | none =>
    simp only [CreateCall.attributes, hc] at hroot hrootOf
    obtain ⟨_, -, hroot⟩ := kernel_bind_eq_ok.mp hroot
    obtain ⟨d, hd, hroot⟩ := kernel_bind_eq_ok.mp hroot
    cases hroot
    have hsome := eq_some_of_deref hd
    obtain ⟨hobject, hdirectory⟩ := h.root root hsome
    refine ⟨?_, hobject, hdirectory⟩
    rw [hrootOf]
    exact hsome
  | some handle =>
    simp only [CreateCall.attributes, hc] at hroot hrootOf
    unfold obReferenceObjectByHandle at hroot
    split at hroot
    · rename_i x hx
      obtain ⟨_, htype, hroot⟩ := kernel_bind_eq_ok.mp hroot
      obtain ⟨_, -, hroot⟩ := kernel_bind_eq_ok.mp hroot
      obtain ⟨_, -, hroot⟩ := kernel_bind_eq_ok.mp hroot
      cases hroot
      have hdirectory : (m.space.ob.header root).ObjectType = some .OBJECT_TYPE_DIRECTORY :=
        assert_eq_ok.mp htype
      refine ⟨?_, (hm.handle _ _ _ hx).1, hdirectory⟩
      rw [hrootOf]
      exact hx
    · cases hroot

omit [DecidableEq π] in
/-- **How the lists of entries change**: not at all, or a list is cleared, or an object is linked. -/
theorem NameEffect.head {k : NameCall ω π} (h : NameEffect k a s p p' s') (d : ω) :
    s'.ob.Head d = s.ob.Head d ∨ s'.ob.Head d = []
      ∨ ∃ root x context, p = .link root x d context ∧ Linked s d x s' := by
  cases h with
  | counts hob hadded hpending hplain hnamed => exact Or.inl (congrFun hob.Head d)
  | clear hx =>
    rename_i root x context
    by_cases hdx : d = x
    · rw [hdx]
      exact Or.inr (Or.inl clear_head_self)
    · exact Or.inl (clear_head_of_ne hdx)
  | free hx => exact Or.inl rfl
  | name => exact Or.inl rfl
  | link hlink =>
    rename_i root x e context
    by_cases hde : d = e
    · subst hde
      exact Or.inr (Or.inr ⟨root, x, context, rfl, hlink⟩)
    · exact Or.inl (hlink.head_of_ne hde)
  | found hx => exact Or.inl rfl
  | fillHeader hc hp => exact Or.inl rfl
  | constructDirectory hc hkind =>
    rename_i c x handle
    by_cases hdx : d = x
    · rw [hdx]
      exact Or.inr (Or.inl (Function.update_self ..))
    · exact Or.inl (Function.update_of_ne hdx ..)
  | constructLink hc hkind hob => exact Or.inl (congrFun hob.Head d)

omit [DecidableEq π] [DecidableEq θ] in
/-- **The names of entries stay unique.** -/
theorem NameMachine.Located.names (h : m.Located call) (hm : m.Orderly call)
    (ha : ∀ x ∈ a.memory, x ∉ m.space.ob.objects)
    (hstep : NameEffect (call u) a m.space (m.point u) p' s') (d : ω) :
    (∀ x ∈ s'.ob.Head d, ∃ w, IsName (s'.ob.header x).ObjectName w)
    ∧ ((s'.ob.Head d).map fun x => (s'.ob.header x).ObjectName.Buffer).Nodup := by
  have hentry : ∀ x ∈ m.space.ob.Head d,
      (s'.ob.header x).ObjectName = (m.space.ob.header x).ObjectName := fun x hx =>
    hstep.objectName ha (hm.linked d x hx).1 fun hp =>
      ((hm.stage u).pending x hp).unlinked d hx
  have hnames : ((m.space.ob.Head d).map fun x => (s'.ob.header x).ObjectName.Buffer)
      = (m.space.ob.Head d).map fun x => (m.space.ob.header x).ObjectName.Buffer :=
    List.map_congr_left fun x hx => by rw [hentry x hx]
  have hold : ∀ x ∈ m.space.ob.Head d, ∃ w, IsName (s'.ob.header x).ObjectName w := by
    intro x hx
    rw [hentry x hx]
    exact h.name d x hx
  rcases hstep.head d with hsame | hempty | ⟨root, x, context, hp, hlink⟩
  · rw [hsame, hnames]
    exact ⟨hold, h.unique d⟩
  · rw [hempty]
    exact ⟨nofun, List.nodup_nil⟩
  · obtain ⟨c, hc⟩ := (hm.stage u).create x (Or.inl (hp ▸ rfl))
    have hright := h.right u c hc
    have hfree := h.free u c hc
    rw [hp] at hright hfree
    obtain ⟨-, w, hw, hreached⟩ := hright
    obtain ⟨e, hmissing⟩ := hfree root rfl
    obtain ⟨-, hnone, -⟩ := hreached.last hmissing
    have hw' : IsName (s'.ob.header x).ObjectName w := hlink.name ▸ hw
    rw [hlink.head_self, List.map_append, hnames]
    refine ⟨fun y hy => ?_, List.nodup_append.mpr ⟨h.unique d, List.nodup_singleton _, ?_⟩⟩
    · rcases List.mem_append.mp hy with hy | hy
      · exact hold y hy
      · exact ⟨w, List.mem_singleton.mp hy ▸ hw'⟩
    · -- an entry of the same name would have been found
      rintro b hb b' hb' rfl
      obtain ⟨y, hy, hbuffer⟩ := List.mem_map.mp hb
      rw [List.map_singleton, List.mem_singleton, hw'.buffer] at hb'
      obtain ⟨v, hv⟩ := h.name d y hy
      have hvw : v = w := Option.some.inj (hv.buffer.symm.trans (hbuffer.trans hb'))
      have hfound := List.find?_eq_none.mp hnone y hy
      exact hfound (hv.hasName_iff.mpr hvw)

omit [DecidableEq π] in
/-- **One step** keeps all calls located. -/
theorem NameMachine.Located.step (h : m.Located call) (hm : m.Orderly call)
    (ha : ∀ x ∈ a.memory, x ∉ m.space.ob.objects)
    (hrival : ∀ v c root e w, v ≠ u → call v = .create c → (m.point v).Committed root →
      MissingFrom m.space.ob root c.ObjectName.val e →
      (pathComponents c.ObjectName.val).getLast? = some w →
      (m.point u).adds m.space.ob ≠ some (e, w))
    (hstep : NameStep (call u) a m.space (m.point u) p' s')
    (heffect : NameEffect (call u) a m.space (m.point u) p' s') :
    (⟨s', Function.update m.point u p'⟩ : NameMachine ω π θ).Located call := by
  have hentries : EntriesAllocated m.space.ob := fun d x hx => (hm.linked d x hx).1
  have hkeeps : Keeps ((m.point u).adds m.space.ob) m.space.ob s'.ob := by
    refine heffect.keeps (hm.stage u) ha hentries fun x root d context hp => ?_
    obtain ⟨c, hc⟩ := (hm.stage u).create x (Or.inl (hp ▸ rfl))
    have hright := h.right u c hc
    rw [hp] at hright
    obtain ⟨-, w, hw, -⟩ := hright
    exact ⟨w, hw⟩
  have hown : ∀ c, call u = .create c → p'.Right c s'.ob ∧ p'.Free c s'.ob := fun c hc =>
    hstep.right hc (hm.stage u) (h.right u c hc) (h.free u c hc) hkeeps hentries
      (fun d x hx => (hm.linked d x hx).2.2) fun root ob hroot => h.rooted hm hroot
  -- no other call's object is touched
  have hname : ∀ v, v ≠ u → ∀ x, (m.point v).pending = some x →
      (s'.ob.header x).ObjectName = (m.space.ob.header x).ObjectName := fun v hv x hx =>
    heffect.objectName ha ((hm.stage v).pending x hx).object fun hp =>
      hv (hm.distinct v u x (Or.inl hx) (Or.inl hp))
  refine ⟨fun d hd => ?_, fun d => (h.names hm ha heffect d).1,
    fun d => (h.names hm ha heffect d).2, fun v c hc => ?_, fun v c hc => ?_⟩
  · rw [hkeeps.rootDirectory] at hd
    obtain ⟨hobject, hdirectory⟩ := h.root d hd
    exact hkeeps.directory d hobject hdirectory
  · by_cases hv : v = u
    · subst hv
      simp only [Function.update_self]
      exact (hown c hc).1
    · simp only [Function.update_of_ne hv]
      exact (h.right v c hc).mono hkeeps hentries (hname v hv)
  · by_cases hv : v = u
    · subst hv
      simp only [Function.update_self]
      exact (hown c hc).2
    · simp only [Function.update_of_ne hv]
      exact (h.free v c hc).mono (h.right v c hc) hkeeps hentries
        fun root e w => hrival v c root e w hv hc

omit [DecidableEq ω] [DecidableEq π] [DecidableEq θ] in
/-- **A call finds its name free when it tries to insert.** -/
theorem NameMachine.Located.not_taken {l : NameEvent ω θ × NameMachine ω π θ}
    (h : l.2.Located call) (hc : call u = .create c) : ¬ TakenAtInsert u l := by
  have hright := h.right u c hc
  have hfree := h.free u c hc
  rintro ⟨-, ⟨root, x, k, d, w, hp, hd, hend, hw, htaken⟩ | ⟨root, x, d, context, w, hp, hw, htaken⟩⟩
  · rw [hp] at hright hfree
    obtain ⟨-, d', w', hd', -, hw', hreached⟩ := hright
    obtain ⟨e, hmissing⟩ := hfree root rfl
    cases hd.symm.trans hd'
    cases hw.symm.trans hw'.buffer
    rw [hend] at hreached
    exact htaken (hreached.last hmissing).2.1
  · rw [hp] at hright hfree
    obtain ⟨-, w', hw', hreached⟩ := hright
    obtain ⟨e, hmissing⟩ := hfree root rfl
    cases hw.symm.trans hw'.buffer
    exact htaken (hreached.last hmissing).2.1

/-- **All calls know where they are**, along every run whose steps meet the conditions. -/
theorem located_of_run {t : List (NameEvent ω θ × NameMachine ω π θ)}
    (h : (nameSystem call).Run t m) (hfree : ∀ l ∈ t, HandleIsFree call l)
    (hrival : ∀ l ∈ t, NoRival call l) :
    m.Located call ∧ ∀ l ∈ t, ∀ u c, call u = .create c → ¬ TakenAtInsert u l := by
  refine h.invariant (I := fun t m => (∀ l ∈ t, HandleIsFree call l) → (∀ l ∈ t, NoRival call l) →
    m.Located call ∧ ∀ l ∈ t, ∀ u c, call u = .create c → ¬ TakenAtInsert u l) ?_ ?_ hfree hrival
  · exact fun m hm _ _ => ⟨hm.located, nofun⟩
  · intro t m l m' hrun hm hs hfree hrival
    obtain ⟨hfreeNow, hfreeBefore⟩ := List.forall_mem_cons.mp hfree
    obtain ⟨hrivalNow, hrivalBefore⟩ := List.forall_mem_cons.mp hrival
    obtain ⟨rfl, ha, p', s', hstep, rfl⟩ := nameSystem_step hs
    have horderly := orderly_of_run hrun hfreeBefore
    obtain ⟨hlocated, htaken⟩ := hm hfreeBefore hrivalBefore
    have heffect := hstep.effect (horderly.stage _) fun x c hp hc => hfreeNow x c hp hc
    exact ⟨hlocated.step horderly ha hrivalNow hstep heffect,
      List.forall_mem_cons.mpr ⟨fun u c hc => hlocated.not_taken hc, htaken⟩⟩

end AllCalls

/-- Two threads create an event with the same name. -/
def twoCreators (_ : Bool) : NameCall (Fin 3) Unit :=
  .create
    { kind := .object .OBJECT_TYPE_EVENT
      process := ()
      result := 0
      RootDirectory := none
      ObjectName := oneLetter
      Attributes := 0 }

/-- Both threads find the name free, in both lookups, before one of them links its object. -/
def bothFindFree : List (NameEvent (Fin 3) Bool) :=
  stepsOf false 4 ++ stepsOf true 4
    ++ [⟨false, ⟨some 1, true⟩⟩] ++ stepsOf false 3 ++ [⟨true, ⟨some 2, true⟩⟩] ++ stepsOf true 3
    ++ stepsOf false 3 ++ stepsOf true 3

end KaushOS
