import KaushOS.Ob.Name

/-! # Lookup agrees with component-wise resolution

The directories are a graph: `IsDirectory` says which objects are directories and `child` which
entry of a directory has a name. A path denotes what the walk along its components leads to.

* **`lookupLoop_spec`** — the loop of `ObpLookupObjectByName` finds what the path denotes, or the
  directory from which the last component is missing, and inserts there on demand.
* **`name_lookup`** — a lookup answers as the path says exactly if the path has a component. -/

namespace KaushOS

open Paths

variable {ω π : Type} [DecidableEq ω]

/-! ## The directory graph -/

/-- The object is a directory. -/
def IsDirectory (s : Ob ω π) (d : ω) : Prop := (s.header d).ObjectType = some .OBJECT_TYPE_DIRECTORY

/-- The object is named `c`. -/
def hasName (s : Ob ω π) (c : List Char) (x : ω) : Bool :=
  (s.header x).ObjectName.Length = c.length
    ∧ (s.header x).ObjectName.Buffer.map (List.take c.length) = some c

/-- The entry of a directory that is named `c`. -/
def child (s : Ob ω π) (d : ω) (c : List Char) : Option ω := (s.Head d).find? (hasName s c)

/-- The components of a path name. -/
abbrev pathComponents (path : List Char) : List (List Char) := components isPathSeperator path

/-- **The path denotes object `x`**, seen from directory `d`: the walk along its components leads
there, and if a separator follows the last one, `x` is a directory. -/
def Denotes (s : Ob ω π) (d : ω) (path : List Char) (x : ω) : Prop :=
  Walk (IsDirectory s) (child s) d (pathComponents path) x
    ∧ (Trailing isPathSeperator path → IsDirectory s x)

/-- **The last component is missing** from directory `e`, and all others lead there. -/
def MissingFrom (s : Ob ω π) (d : ω) (path : List Char) (e : ω) : Prop :=
  Missing (IsDirectory s) (child s) d (pathComponents path) e

/-- **The directories are in order**: all entries of directories are objects with a name. -/
structure DirectoriesValid (s : Ob ω π) : Prop where
  root : s.ObRootDirectory ≠ none
  entry : ∀ d, IsDirectory s d → ∀ x ∈ s.Head d,
    obIsValidObject x s = true ∧ (s.header x).ObjectName.Buffer ≠ none

/-- **A path name**: no character is `'\0'`, and each component fits the name buffer together with
its `'\0'`. -/
structure PathName (path : List Char) : Prop where
  char : ∀ c ∈ path, c.toNat ≠ 0
  short : ∀ c ∈ pathComponents path, c.length < MAX_OBJECT_NAME_SIZE

variable {s : Ob ω π} {d e x : ω} {path rest c : List Char} {dirName : UNICODE_STRING}
  {context : OBP_LOOKUP_CONTEXT ω} {insert : Option ω}

/-! ## Comparing names -/

/-- Equality of characters by their codes. -/
theorem toNat_sub_ne_zero {a b : Char} (h : a ≠ b) : (a.toNat : Int) - b.toNat ≠ 0 := by
  intro heq
  refine h (Char.ext (UInt32.toNat_inj.mp ?_))
  have hnat : (a.toNat : Int) = b.toNat := by omega
  exact_mod_cast hnat

/-- **`strncmp` over the length of a string** answers whether the other one starts with it. -/
theorem strncmp_eq_zero_iff {p q : List Char} (hp : ∀ a ∈ p, a.toNat ≠ 0) :
    strncmp p q p.length = 0 ↔ q.take p.length = p := by
  induction p generalizing q with
  | nil => simp [strncmp]
  | cons a p ih =>
    cases q with
    | nil =>
      have ha := hp a List.mem_cons_self
      simp [strncmp, ha]
    | cons b q =>
      by_cases hab : a = b
      · subst hab
        simp [strncmp, ih fun x hx => hp x (List.mem_cons_of_mem a hx)]
      · simp [strncmp, hab, toNat_sub_ne_zero hab, Ne.symm hab]

omit [DecidableEq ω] in
/-- The loop over the entries finds the one with the name. -/
theorem lookupEntry_eq {name : UNICODE_STRING} (hlength : name.Length = c.length)
    (hbuffer : name.Buffer = some c) (hc : ∀ a ∈ c, a.toNat ≠ 0) {entries : List ω}
    (hentries : ∀ x ∈ entries, (s.header x).ObjectName.Buffer ≠ none) :
    lookupEntry name s entries = .ok (entries.find? (hasName s c)) := by
  induction entries with
  | nil => rfl
  | cons x entries ih =>
    obtain ⟨b, hb⟩ := Option.ne_none_iff_exists'.mp (hentries x List.mem_cons_self)
    have ih' := ih fun y hy => hentries y (List.mem_cons_of_mem x hy)
    have hresult : ∃ r, rtlCompareUnicodeString name (s.header x).ObjectName = .ok r
        ∧ (r = 0 ↔ hasName s c x = true) := by
      unfold rtlCompareUnicodeString
      rw [hlength]
      by_cases hgt : c.length > (s.header x).ObjectName.Length
      · rw [if_pos hgt]
        exact ⟨_, rfl, by simp [hasName]; omega⟩
      · rw [if_neg hgt]
        by_cases hlt : (s.header x).ObjectName.Length > c.length
        · rw [if_pos hlt]
          exact ⟨_, rfl, by simp [hasName]; omega⟩
        · rw [if_neg hlt, hbuffer, hb]
          refine ⟨strncmp c b c.length, rfl, ?_⟩
          have heq : (s.header x).ObjectName.Length = c.length := by omega
          rw [strncmp_eq_zero_iff hc]
          simp [hasName, heq, hb]
    obtain ⟨r, hr, hzero⟩ := hresult
    rw [lookupEntry, hr, kernel_ok_bind]
    by_cases hname : hasName s c x = true
    · rw [if_pos (hzero.mpr hname), List.find?_cons_of_pos hname]
      rfl
    · rw [if_neg fun h => hname (hzero.mp h), List.find?_cons_of_neg hname, ih']

/-! ## One round -/

/-- A name buffer of the size that the lookup allocates, holding component `c`. -/
def bufferName (c : List Char) : UNICODE_STRING :=
  { Length := c.length, MaximumLength := MAX_OBJECT_NAME_SIZE, Buffer := some c }

/-- The name buffer holding component `c`. -/
def componentName (dirName : UNICODE_STRING) (c : List Char) : UNICODE_STRING :=
  { dirName with Buffer := some c, Length := c.length }

/-- **The parser scans**: it takes the next component, if that fits the buffer. -/
theorem obParseDirectoryPath_eq (hfit : ∀ c rest, scan isPathSeperator path = some (c, rest) →
      c.length ≤ dirName.MaximumLength) :
    obParseDirectoryPath path dirName
      = .ok ((scan isPathSeperator path).map fun r => (componentName dirName r.1, r.2)) := by
  unfold obParseDirectoryPath
  unfold scan at hfit ⊢
  cases hdrop : path.dropWhile isPathSeperator with
  | nil => rfl
  | cons a r =>
    rw [hdrop] at hfit
    have hle := hfit _ _ rfl
    have htake : (a :: r).take (a :: r.takeWhile fun b => !isPathSeperator b).length
        = a :: r.takeWhile fun b => !isPathSeperator b := by
      have hrun : a :: r = (a :: r.takeWhile fun b => !isPathSeperator b)
          ++ r.dropWhile fun b => !isPathSeperator b := by
        rw [List.cons_append, List.takeWhile_append_dropWhile]
      exact (congrArg (List.take _) hrun).trans List.take_left
    simp only
    rw [assert_of_true hle, kernel_ok_bind]
    simp only [strncpy, min_eq_left hle, htake]
    rfl

/-- Where the parser returns, it has scanned. -/
theorem eq_of_obParseDirectoryPath {r : Option (UNICODE_STRING × List Char)}
    (h : obParseDirectoryPath path dirName = .ok r) :
    r = (scan isPathSeperator path).map fun r => (componentName dirName r.1, r.2) := by
  refine Except.ok.inj (h.symm.trans (obParseDirectoryPath_eq fun c rest hscan => ?_))
  obtain ⟨a, r', hdrop, rfl, rfl⟩ := dropWhile_of_scan hscan
  rw [obParseDirectoryPath, hdrop] at h
  obtain ⟨_, hfit, -⟩ := kernel_bind_eq_ok.mp h
  exact assert_eq_ok.mp hfit

omit [DecidableEq ω] in
/-- Asking whether an object is a mount point goes through for every object. -/
theorem obIsMountpointObject_returns (hx : obIsValidObject x s = true) :
    ∃ b, obIsMountpointObject x s = .ok b := by
  rw [obIsMountpointObject, obIsDirectoryObject, assert_of_true hx, kernel_ok_bind]
  exact ⟨_, rfl⟩

omit [DecidableEq ω] in
/-- **One directory is searched** for the entry named `c`. -/
theorem obpLookupEntryDirectory_spec (name : UNICODE_STRING) (hlength : name.Length = c.length)
    (hbuffer : name.Buffer = some c) (hc : ∀ a ∈ c, a.toNat ≠ 0) (hs : DirectoriesValid s)
    (hd : IsDirectory s d) (context : OBP_LOOKUP_CONTEXT ω) :
    (child s d c = none ∧ obpLookupEntryDirectory d name context s
      = .ok (.STATUS_OBJECT_NAME_NOT_FOUND, context))
    ∨ ∃ x context', child s d c = some x ∧ obIsValidObject x s = true
      ∧ obpLookupEntryDirectory d name context s = .ok (.STATUS_SUCCESS, context')
      ∧ context'.Object = some x := by
  have hlookup := lookupEntry_eq hlength hbuffer hc fun x hx => (hs.entry d hd x hx).2
  rw [obpLookupEntryDirectory, hlookup, kernel_ok_bind]
  cases hchild : (s.Head d).find? (hasName s c) with
  | none => exact Or.inl ⟨hchild, rfl⟩
  | some x =>
    have hvalid := (hs.entry d hd x (List.mem_of_find?_eq_some hchild)).1
    obtain ⟨b, hmount⟩ := obIsMountpointObject_returns hvalid
    simp only
    rw [hmount, kernel_ok_bind]
    cases b with
    | true => exact Or.inr ⟨x, _, hchild, hvalid, rfl, rfl⟩
    | false => exact Or.inr ⟨x, _, hchild, hvalid, rfl, rfl⟩

/-! ## The loop -/

/-- The state with object `o` appended to directory `e` under the name `c`. -/
def insertEntry (s : Ob ω π) (e o : ω) (c : List Char) : Ob ω π :=
  (s.setHead e (s.Head e ++ [o])).setHeader o { s.header o with
    ObjectName := bufferName c
    DirEntryLinked := true }

/-- **What a lookup may answer** about a path seen from directory `d`. -/
inductive LookupOutcome (s : Ob ω π) (insert : Option ω) (d : ω) (path : List Char) :
    LookupResult ω π → Prop
  /-- The path denotes an object. -/
  | found {x : ω} {context : OBP_LOOKUP_CONTEXT ω} (hx : Denotes s d path x)
      (hobject : context.Object = some x) :
      LookupOutcome s insert d path (.STATUS_SUCCESS, context, s)
  /-- The last component is missing. -/
  | missing {e : ω} {context : OBP_LOOKUP_CONTEXT ω} (he : MissingFrom s d path e)
      (hinsert : insert = none) (hdirectory : context.Directory = some e) :
      LookupOutcome s insert d path (.STATUS_OBJECT_NAME_NOT_FOUND, context, s)
  /-- The last component was missing, and an object has been inserted. -/
  | inserted {e o : ω} {c : List Char} {context : OBP_LOOKUP_CONTEXT ω}
      (he : MissingFrom s d path e) (hinsert : insert = some o)
      (hlast : (pathComponents path).getLast? = some c) :
      LookupOutcome s insert d path (.STATUS_SUCCESS, context, insertEntry s e o c)
  /-- The path leads nowhere. -/
  | noPath {context : OBP_LOOKUP_CONTEXT ω} (hx : ∀ x, ¬ Denotes s d path x)
      (he : ∀ e, ¬ MissingFrom s d path e) :
      LookupOutcome s insert d path (.STATUS_OBJECT_PATH_NOT_FOUND, context, s)

omit [DecidableEq ω] in
/-- A path that goes on denotes what the rest denotes, seen from the child. -/
theorem denotes_iff_of_scan (hscan : scan isPathSeperator path = some (c, rest))
    (hrest : rest ≠ []) (hd : IsDirectory s d) (hchild : child s d c = some x) (y : ω) :
    Denotes s d path y ↔ Denotes s x rest y := by
  obtain ⟨hcomp, -, -, -, -, htrail⟩ := scan_eq_some hscan
  rw [Denotes, Denotes, pathComponents, hcomp, walk_cons_iff, htrail]
  simp [hd, hchild, hrest]

omit [DecidableEq ω] in
/-- A path that goes on misses its last component where the rest does, seen from the child. -/
theorem missingFrom_iff_of_scan (hscan : scan isPathSeperator path = some (c, rest))
    (hd : IsDirectory s d) (hchild : child s d c = some x) (e : ω) :
    MissingFrom s d path e ↔ MissingFrom s x rest e := by
  obtain ⟨hcomp, -⟩ := scan_eq_some hscan
  rw [MissingFrom, MissingFrom, pathComponents, hcomp, missing_cons_iff]
  simp [hd, hchild]

/-- The outcome of the rest of a path is the outcome of the path. -/
theorem LookupOutcome.of_rest (hscan : scan isPathSeperator path = some (c, rest))
    (hrest : rest ≠ []) (hd : IsDirectory s d) (hchild : child s d c = some x)
    {r : LookupResult ω π} (h : LookupOutcome s insert x rest r) :
    LookupOutcome s insert d path r := by
  have hdenotes := denotes_iff_of_scan hscan hrest hd hchild
  have hmissing := missingFrom_iff_of_scan hscan hd hchild
  cases h with
  | found hx hobject => exact .found ((hdenotes _).mpr hx) hobject
  | missing he hinsert hdirectory => exact .missing ((hmissing _).mpr he) hinsert hdirectory
  | noPath hx he =>
    exact .noPath (fun y hy => hx y ((hdenotes y).mp hy)) fun y hy => he y ((hmissing y).mp hy)
  | inserted he hinsert hlast =>
    refine .inserted ((hmissing _).mpr he) hinsert ?_
    obtain ⟨hcomp, -⟩ := scan_eq_some hscan
    rw [pathComponents, hcomp, List.getLast?_cons, hlast]
    rfl

/-- A path that starts at something that is no directory leads nowhere. -/
theorem LookupOutcome.of_not_directory (hd : ¬ IsDirectory s d) (hpath : path ≠ [])
    (context : OBP_LOOKUP_CONTEXT ω) :
    LookupOutcome s insert d path (.STATUS_OBJECT_PATH_NOT_FOUND, context, s) := by
  cases hscan : scan isPathSeperator path with
  | none =>
    have hcomp := scan_eq_none hscan
    refine .noPath (fun x hx => ?_) fun e he => ?_
    · obtain ⟨hwalk, htrail⟩ := hx
      rw [pathComponents, hcomp, walk_nil_iff] at hwalk
      subst hwalk
      -- only separators: the path ends in one
      obtain ⟨a, ha⟩ := Option.ne_none_iff_exists'.mp
        (fun h => hpath (List.getLast?_eq_none_iff.mp h) : path.getLast? ≠ none)
      exact hd (htrail ⟨a, ha, of_components_eq_nil hcomp a (List.mem_of_getLast? ha)⟩)
    · rw [MissingFrom, pathComponents, hcomp] at he
      exact not_missing_nil he
  | some r =>
    obtain ⟨hcomp, -⟩ := scan_eq_some hscan
    refine .noPath (fun x hx => ?_) fun e he => ?_
    · have hwalk := hx.1
      rw [pathComponents, hcomp, walk_cons_iff] at hwalk
      exact hd hwalk.1
    · rw [MissingFrom, pathComponents, hcomp, missing_cons_iff] at he
      exact hd he.1

omit [DecidableEq ω] in
/-- The parts of a path name that the scanner finds. -/
theorem PathName.of_scan (h : PathName path) (hscan : scan isPathSeperator path = some (c, rest)) :
    c.length < MAX_OBJECT_NAME_SIZE ∧ (∀ a ∈ c, a.toNat ≠ 0) ∧ PathName rest := by
  obtain ⟨hcomp, -, -, hc, hrest, -⟩ := scan_eq_some hscan
  refine ⟨h.short c (by rw [pathComponents, hcomp]; simp), fun a ha => h.char a (hc a ha),
    fun a ha => h.char a (hrest a ha), fun b hb => h.short b ?_⟩
  rw [pathComponents, hcomp]
  exact List.mem_cons_of_mem c hb

omit [DecidableEq ω] in
/-- The parser on a path name never runs over its buffer. -/
theorem PathName.parse (h : PathName path) (dirName : UNICODE_STRING)
    (hmax : dirName.MaximumLength = MAX_OBJECT_NAME_SIZE) :
    obParseDirectoryPath path dirName
      = .ok ((scan isPathSeperator path).map fun r => (componentName dirName r.1, r.2)) := by
  refine obParseDirectoryPath_eq fun c rest hscan => ?_
  rw [hmax]
  exact (h.of_scan hscan).1.le

/-- Inserting an object that is in no directory goes through. -/
theorem insert_returns (hvalid : obIsValidObject d s = true) (hd : IsDirectory s d) {o : ω}
    (ho : (s.header o).DirEntryLinked = false) (hcontext : context.Directory = some d) :
    obpInsertEntryDirectory d context o
        (s.setHeader o { s.header o with ObjectName := bufferName c })
      = .ok (insertEntry s d o c) := by
  let s₁ := s.setHeader o { s.header o with ObjectName := bufferName c }
  have hsame : (s₁.header d).Magic = (s.header d).Magic
      ∧ (s₁.header d).ObjectType = (s.header d).ObjectType := by
    by_cases hdo : d = o
    · subst hdo
      simp [s₁]
    · rw [Ob.setHeader_of_ne s _ hdo]
      exact ⟨rfl, rfl⟩
  have hdir : obIsDirectoryObject d s₁ = .ok true := by
    have hmagic : obIsValidObject d s₁ = true := by
      rw [obIsValidObject, hsame.1]
      exact hvalid
    rw [obIsDirectoryObject, assert_of_true hmagic, kernel_ok_bind, hsame.2]
    exact congrArg Except.ok (decide_eq_true hd)
  rw [obpInsertEntryDirectory, hdir, kernel_ok_bind, assert_of_true rfl, kernel_ok_bind,
    Ob.setHeader_self, assert_of_true ho, kernel_ok_bind, assert_of_true hcontext, kernel_ok_bind]
  simp [insertEntry, Ob.setHeader, Ob.setHead]
  rfl

/-- **The loop answers what the path denotes.** The context already holds the directory that the
path starts from, unless there is a component to look up. -/
theorem lookupLoop_spec (hs : DirectoriesValid s)
    (hinsert : ∀ o, insert = some o → (s.header o).DirEntryLinked = false) {n : Nat}
    (hn : path.length < n) (hname : PathName path) (hvalid : obIsValidObject d s = true)
    (hmax : dirName.MaximumLength = MAX_OBJECT_NAME_SIZE)
    (hstart : IsDirectory s d ∨ path ≠ [])
    (hobject : pathComponents path = [] → context.Object = some d) :
    ∃ r, lookupLoop insert n path dirName (some d) context .STATUS_SUCCESS s = .ok r
      ∧ LookupOutcome s insert d path r := by
  induction n generalizing d path dirName context with
  | zero => exact absurd hn (Nat.not_lt_zero _)
  | succ n ih =>
    rw [lookupLoop, deref_some, kernel_ok_bind, obIsDirectoryObject, assert_of_true hvalid,
      kernel_ok_bind]
    by_cases hd : IsDirectory s d
    · have hisdir : decide ((s.header d).ObjectType = some .OBJECT_TYPE_DIRECTORY) = true :=
        decide_eq_true hd
      rw [hisdir]
      simp only [pure, Except.pure, kernel_ok_bind]
      rw [if_neg (by decide), hname.parse dirName hmax, kernel_ok_bind]
      cases hscan : scan isPathSeperator path with
      | none =>
        have hcomp := scan_eq_none hscan
        refine ⟨_, rfl, .found (x := d) ⟨?_, fun _ => hd⟩ (hobject hcomp)⟩
        rw [pathComponents, hcomp]
        exact .nil d
      | some r =>
        obtain ⟨c, rest⟩ := r
        obtain ⟨hcomp, hne, hlen, -, -, htrail⟩ := scan_eq_some hscan
        obtain ⟨hshort, hchar, hrestname⟩ := hname.of_scan hscan
        simp only [Option.map_some]
        rcases obpLookupEntryDirectory_spec (componentName dirName c) rfl rfl hchar hs hd
          { context with ParsedTill := some path } with
          ⟨hchild, hlookup⟩ | ⟨x, context', hchild, hxvalid, hlookup, hxobject⟩
        · rw [hlookup, kernel_ok_bind]
          simp only [if_true]
          rw [hrestname.parse (componentName dirName c) hmax, kernel_ok_bind]
          cases hnext : scan isPathSeperator rest with
          | some r =>
            -- another component follows the one that is not there
            obtain ⟨c', rest'⟩ := r
            obtain ⟨hcomp', -⟩ := scan_eq_some hnext
            refine ⟨_, rfl, .noPath (fun x hx => ?_) fun e he => ?_⟩
            · have hwalk := hx.1
              rw [pathComponents, hcomp, walk_cons_iff, hchild] at hwalk
              simp at hwalk
            · rw [MissingFrom, pathComponents, hcomp, missing_cons_iff, hcomp', hchild] at he
              simp at he
          | none =>
            have hcomp' := scan_eq_none hnext
            have hmissing : MissingFrom s d path d := by
              rw [MissingFrom, pathComponents, hcomp, missing_cons_iff]
              exact ⟨hd, Or.inl ⟨hcomp', hchild, rfl⟩⟩
            cases hins : insert with
            | none => exact ⟨_, rfl, .missing hmissing rfl rfl⟩
            | some o =>
              have hlast : (pathComponents path).getLast? = some c := by
                rw [pathComponents, hcomp, hcomp']
                rfl
              have hbuffer : componentName dirName c = bufferName c := by
                rw [componentName, hmax, bufferName]
              simp only [Option.map_none]
              rw [hbuffer, insert_returns hvalid hd (hinsert o hins) rfl, kernel_ok_bind]
              exact ⟨_, rfl, .inserted hmissing rfl hlast⟩
        · rw [hlookup, kernel_ok_bind]
          simp only
          rw [if_neg (by decide)]
          by_cases hrest : rest = []
          · -- the path ends with the component that was found
            rw [if_pos hrest]
            refine ⟨_, rfl, .found (x := x) ⟨?_, fun ht => absurd hrest (htrail.mp ht).1⟩ hxobject⟩
            rw [pathComponents, hcomp, hrest]
            exact .cons hd hchild (.nil x)
          · rw [if_neg hrest, hxobject]
            obtain ⟨r, hr, hout⟩ : ∃ r, lookupLoop insert n rest (componentName dirName c) (some x)
                context' .STATUS_SUCCESS s = .ok r ∧ LookupOutcome s insert x rest r :=
              ih (by omega) hrestname hxvalid hmax (Or.inr hrest) fun _ => hxobject
            exact ⟨r, hr, hout.of_rest hscan hrest hd hchild⟩
    · have hisdir : decide ((s.header d).ObjectType = some .OBJECT_TYPE_DIRECTORY) = false :=
        decide_eq_false hd
      rw [hisdir]
      simp only [pure, Except.pure, kernel_ok_bind]
      rw [if_pos trivial]
      exact ⟨_, rfl, .of_not_directory hd (hstart.resolve_left hd) _⟩

/-! ## Looking up a name -/

/-- A lookup goes into its loop. -/
theorem obpLookupObjectByName_eq (hs : DirectoriesValid s) :
    obpLookupObjectByName (some d) path context insert true s
      = lookupLoop insert (path.length + 1) path (bufferName []) (some d) context
        .STATUS_SUCCESS s := by
  rw [obpLookupObjectByName, if_neg hs.root, assert_of_true (by simp), kernel_ok_bind,
    if_neg (by decide)]
  rfl

/-- A path without components leaves the context as it was, but for `ParsedTill`. -/
theorem lookup_no_component (hs : DirectoriesValid s) (hvalid : obIsValidObject d s = true)
    (hd : IsDirectory s d) (hname : PathName path) (hpath : pathComponents path = []) :
    obpLookupObjectByName (some d) path obInitializeLookupContext none true s
      = .ok (.STATUS_SUCCESS, { obInitializeLookupContext with ParsedTill := some path }, s) := by
  have hisdir : decide ((s.header d).ObjectType = some .OBJECT_TYPE_DIRECTORY) = true :=
    decide_eq_true hd
  have hscan : scan isPathSeperator path = none := by
    cases hscan : scan isPathSeperator path with
    | none => rfl
    | some r =>
      obtain ⟨hcomp, -⟩ := scan_eq_some hscan
      rw [pathComponents, hcomp] at hpath
      cases hpath
  rw [obpLookupObjectByName_eq hs, lookupLoop, deref_some, kernel_ok_bind, obIsDirectoryObject,
    assert_of_true hvalid, kernel_ok_bind, hisdir]
  simp only [pure, Except.pure, kernel_ok_bind]
  rw [if_neg (by decide), hname.parse _ rfl, kernel_ok_bind, hscan]
  rfl

/-- **What a lookup of a path name is to do.** It succeeds with the object that the path denotes;
it says that the name is not found, with the directory, where the last component is missing, and
that the path is not found otherwise; and an object to insert goes to the end of the directory
from which the last component is missing, with that name. -/
def LookupAsClaimed (s : Ob ω π) (d : ω) (path : List Char) : Prop :=
  (∃ status context, obpLookupObjectByName (some d) path obInitializeLookupContext none true s
      = .ok (status, context, s)
    ∧ (status = .STATUS_SUCCESS ↔ ∃ x, Denotes s d path x)
    ∧ (∀ x, Denotes s d path x → context.Object = some x)
    ∧ (status = .STATUS_OBJECT_NAME_NOT_FOUND ↔ ∃ e, MissingFrom s d path e)
    ∧ (∀ e, MissingFrom s d path e → context.Directory = some e)
    ∧ (status = .STATUS_OBJECT_PATH_NOT_FOUND ↔
      (¬ ∃ x, Denotes s d path x) ∧ ¬ ∃ e, MissingFrom s d path e))
  ∧ ∀ o, (s.header o).DirEntryLinked = false → ∀ e, MissingFrom s d path e →
    ∃ c context, (pathComponents path).getLast? = some c
      ∧ obpLookupObjectByName (some d) path obInitializeLookupContext (some o) true s
        = .ok (.STATUS_SUCCESS, context, insertEntry s e o c)

omit [DecidableEq ω] in
/-- A path does not both denote an object and miss its last component. -/
theorem MissingFrom.not_denotes (h : MissingFrom s d path e) (x : ω) : ¬ Denotes s d path x :=
  fun hx => Missing.not_walk h hx.1

/-- The lookup of a path with a component answers as the path says. -/
theorem lookupAsClaimed_of_component (hs : DirectoriesValid s)
    (hvalid : obIsValidObject d s = true) (hd : IsDirectory s d) (hname : PathName path)
    (hpath : pathComponents path ≠ []) : LookupAsClaimed s d path := by
  have hloop : ∀ insert : Option ω,
      (∀ o, insert = some o → (s.header o).DirEntryLinked = false) →
      ∃ r, lookupLoop insert (path.length + 1) path (bufferName []) (some d)
        obInitializeLookupContext .STATUS_SUCCESS s = .ok r ∧ LookupOutcome s insert d path r :=
    fun insert hinsert => lookupLoop_spec hs hinsert (Nat.lt_succ_self path.length) hname hvalid rfl
      (Or.inl hd) fun h => absurd h hpath
  constructor
  · obtain ⟨r, hr, hout⟩ := hloop none (by simp)
    rw [← obpLookupObjectByName_eq hs] at hr
    cases hout with
    | @found x context hx hobject =>
      have hmiss : ∀ e, ¬ MissingFrom s d path e := fun e he => he.not_denotes x hx
      refine ⟨_, context, hr, by simpa using ⟨x, hx⟩, fun y hy => ?_, by simpa using hmiss,
        fun e he => absurd he (hmiss e), by simpa using fun h => absurd hx (h x)⟩
      rw [hobject, hx.1.unique hy.1]
    | @missing e context he hinsert hdirectory =>
      refine ⟨_, context, hr, by simpa using he.not_denotes, fun x hx => absurd hx
        (he.not_denotes x), by simpa using ⟨e, he⟩, fun e' he' => ?_,
        by simpa using fun _ => ⟨e, he⟩⟩
      rw [hdirectory, he.unique he']
    | inserted he hinsert hlast => cases hinsert
    | @noPath context hx he =>
      exact ⟨_, context, hr, by simpa using hx, fun x h => absurd h (hx x), by simpa using he,
        fun e h => absurd h (he e), by simpa using ⟨hx, he⟩⟩
  · intro o ho e he
    obtain ⟨r, hr, hout⟩ := hloop (some o) (by rintro _ ⟨⟩; exact ho)
    rw [← obpLookupObjectByName_eq hs] at hr
    cases hout with
    | found hx hobject => exact absurd hx (he.not_denotes _)
    | missing he' hinsert hdirectory => cases hinsert
    | @inserted e' o' c context he' hinsert hlast =>
      obtain rfl := Option.some.inj hinsert
      obtain rfl := he.unique he'
      exact ⟨c, context, hlast, hr⟩
    | noPath hx he' => exact absurd he (he' e)

/-- **A lookup answers as the path says if and only if the path has a component.** For a path of
separators only it succeeds without an object. -/
theorem name_lookup (hs : DirectoriesValid s) (hvalid : obIsValidObject d s = true)
    (hd : IsDirectory s d) (hname : PathName path) :
    LookupAsClaimed s d path ↔ pathComponents path ≠ [] := by
  refine ⟨?_, lookupAsClaimed_of_component hs hvalid hd hname⟩
  rintro ⟨⟨status, context, hok, -, hobject, -⟩, -⟩ hpath
  have hdenotes : Denotes s d path d := by
    refine ⟨?_, fun _ => hd⟩
    rw [hpath]
    exact .nil d
  rw [lookup_no_component hs hvalid hd hname hpath] at hok
  obtain ⟨-, hrest⟩ := Prod.mk.inj (Except.ok.inj hok)
  obtain ⟨rfl, -⟩ := Prod.mk.inj hrest
  have hnone := hobject d hdenotes
  cases hnone

/-- A root directory without entries. -/
def emptyRoot : Ob Unit Unit where
  header _ :=
    { Magic := OBJECT_HEADER_MAGIC, DirEntryLinked := false, ObjectType := some .OBJECT_TYPE_DIRECTORY
      OpenHandleCount := 0, RefCount := 1, ObjectName := bufferName ['\\'], Attributes := 0 }
  objects := {()}
  Head _ := []
  Flags _ := 0
  ObRootDirectory := some ()
  Handle _ _ := .invalid

/-- The directory without entries is in order. -/
theorem emptyRoot_valid : DirectoriesValid emptyRoot :=
  ⟨by simp [emptyRoot], fun _ _ x hx => absurd hx List.not_mem_nil⟩

/-- The lookup of a name in the empty directory. -/
theorem name_lookup_missing : LookupAsClaimed emptyRoot () ['a'] :=
  (name_lookup emptyRoot_valid rfl rfl ⟨by simp, by decide⟩).mpr (by decide)

/-- **The lookup of the root directory itself** succeeds without an object. -/
theorem name_lookup_root_fails :
    obpLookupObjectByName (some ()) ['\\'] obInitializeLookupContext none true emptyRoot
      = .ok (.STATUS_SUCCESS, ⟨none, none, none, some ['\\']⟩, emptyRoot)
    ∧ ¬ LookupAsClaimed emptyRoot () ['\\'] := by
  have hdenotes : Denotes emptyRoot () ['\\'] () := ⟨.nil (), fun _ => rfl⟩
  refine ⟨rfl, ?_⟩
  rintro ⟨⟨status, context, hok, -, hobject, -⟩, -⟩
  obtain ⟨-, hrest⟩ := Prod.mk.inj (Except.ok.inj hok)
  obtain ⟨rfl, -⟩ := Prod.mk.inj hrest
  have hnone := hobject () hdenotes
  cases hnone

end KaushOS
