import KaushOS.Ob.PathTokens
import KaushOS.Ob.UniqueNames

/-! # Where a lookup ends (`kern/ob/obname.c`)

`ObpLookupObjectByName` walks along a path until it cannot go on, and leaves in its context how far it has
come. Components of any length are allowed here.

* **`LookupEnd`** — how the walk ends, with the directory and the part of the path it ends at.
* **`EndsAt`** — the walk itself, which always ends, in one way.
* **`lookup_ends`** — what the lookup answers, for each end. -/

namespace KaushOS

open Paths

variable {ω π : Type} [DecidableEq ω]

/-- **How a lookup ends**; `rest` is the part of the path that is left in the last round. -/
inductive LookupEnd (ω : Type)
  /-- At `e`, which is no directory. -/
  | blocked (e : ω) (rest : List Char)
  /-- In the directory `e`, without a component to go on with. -/
  | trailing (e : ω) (rest : List Char)
  /-- In the directory `e`, with its entry `x`, and the path ends there. -/
  | last (e : ω) (rest : List Char) (x : ω)
  /-- In the directory `e`, which has no entry `c`, and `c` is the last component. -/
  | missing (e : ω) (rest c : List Char)
  /-- In the directory `e`, which has no entry for the next component, and more components follow. -/
  | gap (e : ω) (rest : List Char)
  /-- At a component that does not fit the name buffer. -/
  | tooLong
  deriving DecidableEq, Repr

/-- **The walk of a lookup** from `d` along a path. -/
inductive EndsAt (s : Ob ω π) : ω → List Char → LookupEnd ω → Prop
  | blocked {d : ω} {path : List Char} (hd : ¬ IsDirectory s d) : EndsAt s d path (.blocked d path)
  | trailing {d : ω} {path : List Char} (hd : IsDirectory s d) (hscan : scan isPathSeperator path = none) :
      EndsAt s d path (.trailing d path)
  | tooLong {d : ω} {path c rest : List Char} (hd : IsDirectory s d)
      (hscan : scan isPathSeperator path = some (c, rest)) (hlong : MAX_OBJECT_NAME_SIZE < c.length) :
      EndsAt s d path .tooLong
  | last {d x : ω} {path c : List Char} (hd : IsDirectory s d)
      (hscan : scan isPathSeperator path = some (c, [])) (hfit : c.length ≤ MAX_OBJECT_NAME_SIZE)
      (hchild : child s d c = some x) : EndsAt s d path (.last d path x)
  | missing {d : ω} {path c rest : List Char} (hd : IsDirectory s d)
      (hscan : scan isPathSeperator path = some (c, rest)) (hfit : c.length ≤ MAX_OBJECT_NAME_SIZE)
      (hchild : child s d c = none) (hnext : scan isPathSeperator rest = none) :
      EndsAt s d path (.missing d path c)
  | gap {d : ω} {path c rest c' rest' : List Char} (hd : IsDirectory s d)
      (hscan : scan isPathSeperator path = some (c, rest)) (hfit : c.length ≤ MAX_OBJECT_NAME_SIZE)
      (hchild : child s d c = none) (hnext : scan isPathSeperator rest = some (c', rest'))
      (hfit' : c'.length ≤ MAX_OBJECT_NAME_SIZE) : EndsAt s d path (.gap d path)
  | nextTooLong {d : ω} {path c rest c' rest' : List Char} (hd : IsDirectory s d)
      (hscan : scan isPathSeperator path = some (c, rest)) (hfit : c.length ≤ MAX_OBJECT_NAME_SIZE)
      (hchild : child s d c = none) (hnext : scan isPathSeperator rest = some (c', rest'))
      (hlong : MAX_OBJECT_NAME_SIZE < c'.length) : EndsAt s d path .tooLong
  | step {d x : ω} {path c rest : List Char} {e : LookupEnd ω} (hd : IsDirectory s d)
      (hscan : scan isPathSeperator path = some (c, rest)) (hfit : c.length ≤ MAX_OBJECT_NAME_SIZE)
      (hchild : child s d c = some x) (hrest : rest ≠ []) (h : EndsAt s x rest e) : EndsAt s d path e

variable {s : Ob ω π} {d e x : ω} {path rest c : List Char} {dirName : UNICODE_STRING}
  {context : OBP_LOOKUP_CONTEXT ω} {insert : Option ω} {finish : LookupEnd ω}

omit [DecidableEq ω] in
/-- **A walk ends.** -/
theorem exists_endsAt (s : Ob ω π) (d : ω) (path : List Char) : ∃ finish, EndsAt s d path finish := by
  -- induction on the length of what is left of the path
  induction hn : path.length using Nat.strong_induction_on generalizing path d with
  | _ n ih =>
    by_cases hd : IsDirectory s d
    · cases hscan : scan isPathSeperator path with
      | none => exact ⟨_, .trailing hd hscan⟩
      | some r =>
        obtain ⟨c, rest⟩ := r
        have hshorter := (scan_eq_some hscan).2.2.1
        by_cases hfit : c.length ≤ MAX_OBJECT_NAME_SIZE
        · cases hchild : child s d c with
          | none =>
            cases hnext : scan isPathSeperator rest with
            | none => exact ⟨_, .missing hd hscan hfit hchild hnext⟩
            | some r =>
              obtain ⟨c', rest'⟩ := r
              by_cases hfit' : c'.length ≤ MAX_OBJECT_NAME_SIZE
              · exact ⟨_, .gap hd hscan hfit hchild hnext hfit'⟩
              · exact ⟨_, .nextTooLong hd hscan hfit hchild hnext (Nat.not_le.mp hfit')⟩
          | some x =>
            by_cases hrest : rest = []
            · subst hrest
              exact ⟨_, .last hd hscan hfit hchild⟩
            · obtain ⟨finish, h⟩ := ih rest.length (hn ▸ hshorter) x rest rfl
              exact ⟨finish, .step hd hscan hfit hchild hrest h⟩
        · exact ⟨_, .tooLong hd hscan (Nat.not_le.mp hfit)⟩
    · exact ⟨_, .blocked hd⟩

/-! ## One round -/

omit [DecidableEq ω] in
/-- A search of a directory leaves `ParsedTill` alone. -/
theorem obpLookupEntryDirectory_parsedTill {name : UNICODE_STRING} {status : KSTATUS}
    {context' : OBP_LOOKUP_CONTEXT ω}
    (h : obpLookupEntryDirectory d name context s = .ok (status, context')) :
    context'.ParsedTill = context.ParsedTill := by
  obtain ⟨entry, -, h⟩ := kernel_bind_eq_ok.mp h
  cases entry with
  | none =>
    cases h
    rfl
  | some x =>
    obtain ⟨isMountpoint, -, h⟩ := kernel_bind_eq_ok.mp h
    cases isMountpoint with
    | true =>
      cases h
      rfl
    | false =>
      cases h
      rfl

omit [DecidableEq ω] in
/-- A directory is one. -/
theorem obIsDirectoryObject_of (hvalid : obIsValidObject d s = true) (hd : IsDirectory s d) :
    obIsDirectoryObject d s = .ok true := by
  rw [obIsDirectoryObject, assert_of_true hvalid, kernel_ok_bind]
  exact congrArg Except.ok (decide_eq_true hd)

omit [DecidableEq ω] in
/-- Another object is none. -/
theorem obIsDirectoryObject_of_not (hvalid : obIsValidObject d s = true) (hd : ¬ IsDirectory s d) :
    obIsDirectoryObject d s = .ok false := by
  rw [obIsDirectoryObject, assert_of_true hvalid, kernel_ok_bind]
  exact congrArg Except.ok (decide_eq_false hd)

omit [DecidableEq ω] in
/-- The parser finds the next component, if that fits the buffer. -/
theorem obParseDirectoryPath_scan (hscan : scan isPathSeperator path = some (c, rest))
    (hfit : c.length ≤ dirName.MaximumLength) :
    obParseDirectoryPath path dirName = .ok (some (componentName dirName c, rest)) := by
  rw [obParseDirectoryPath_eq (by simp [hscan, hfit]), hscan]
  rfl

omit [DecidableEq ω] in
/-- The parser finds no component. -/
theorem obParseDirectoryPath_none (hscan : scan isPathSeperator path = none) :
    obParseDirectoryPath path dirName = .ok none := by
  rw [obParseDirectoryPath_eq (by simp [hscan]), hscan]
  rfl

variable {n : Nat} {status : KSTATUS}

/-- A round at something that is no directory. -/
theorem lookupLoop_blocked (hvalid : obIsValidObject d s = true) (hd : ¬ IsDirectory s d) :
    lookupLoop insert (n + 1) path dirName (some d) context status s
      = .ok (.STATUS_OBJECT_PATH_NOT_FOUND,
          { context with ParsedTill := some path, Directory := some d, Object := none }, s) := by
  rw [lookupLoop, deref_some, kernel_ok_bind, obIsDirectoryObject_of_not hvalid hd, kernel_ok_bind,
    if_pos rfl]
  rfl

/-- A round without a component. -/
theorem lookupLoop_trailing (hvalid : obIsValidObject d s = true) (hd : IsDirectory s d)
    (hscan : scan isPathSeperator path = none) :
    lookupLoop insert (n + 1) path dirName (some d) context status s
      = .ok (status, { context with ParsedTill := some path }, s) := by
  rw [lookupLoop, deref_some, kernel_ok_bind, obIsDirectoryObject_of hvalid hd, kernel_ok_bind,
    if_neg (by simp), obParseDirectoryPath_none hscan]
  rfl

/-- A round with a component that does not fit. -/
theorem lookupLoop_tooLong (hvalid : obIsValidObject d s = true) (hd : IsDirectory s d)
    (hscan : scan isPathSeperator path = some (c, rest)) (hlong : dirName.MaximumLength < c.length) :
    lookupLoop insert (n + 1) path dirName (some d) context status s
      = .error (.assertion "Length <= DirName->MaximumLength") := by
  rw [lookupLoop, deref_some, kernel_ok_bind, obIsDirectoryObject_of hvalid hd, kernel_ok_bind,
    if_neg (by simp), obParseDirectoryPath_long hscan hlong]
  rfl

/-- **A round that finds its component** goes on with the entry, unless the path ends. -/
theorem lookupLoop_found (hs : DirectoriesValid s) (hvalid : obIsValidObject d s = true)
    (hd : IsDirectory s d) (hpath : ∀ a ∈ path, a.toNat ≠ 0)
    (hscan : scan isPathSeperator path = some (c, rest)) (hfit : c.length ≤ dirName.MaximumLength)
    (hchild : child s d c = some x) :
    obIsValidObject x s = true ∧ ∃ context', context'.Object = some x ∧ context'.ParsedTill = some path
      ∧ lookupLoop insert (n + 1) path dirName (some d) context status s
        = if rest = [] then .ok (.STATUS_SUCCESS, context', s)
          else lookupLoop insert n rest (componentName dirName c) (some x) context' .STATUS_SUCCESS s := by
  have hc : ∀ a ∈ c, a.toNat ≠ 0 := fun a ha => hpath a ((scan_eq_some hscan).2.2.2.1 a ha)
  rcases obpLookupEntryDirectory_spec (componentName dirName c) rfl rfl hc hs hd
    { context with ParsedTill := some path } with ⟨hnone, -⟩ | ⟨y, context', hsome, hyvalid, hlookup, hobject⟩
  · rw [hchild] at hnone
    cases hnone
  · obtain rfl : x = y := Option.some.inj (hchild.symm.trans hsome)
    refine ⟨hyvalid, context', hobject, obpLookupEntryDirectory_parsedTill hlookup, ?_⟩
    rw [lookupLoop, deref_some, kernel_ok_bind, obIsDirectoryObject_of hvalid hd, kernel_ok_bind,
      if_neg (by simp), obParseDirectoryPath_scan hscan hfit, kernel_ok_bind]
    simp only [hlookup, kernel_ok_bind, hobject]
    rfl

/-- The context in which a component has been missed. -/
def missingContext (d : ω) (path : List Char) (context : OBP_LOOKUP_CONTEXT ω) : OBP_LOOKUP_CONTEXT ω :=
  { context with ParsedTill := some path, Directory := some d, Object := none }

/-- **A round that does not find its component** looks whether another one follows. -/
theorem lookupLoop_absent (hs : DirectoriesValid s) (hvalid : obIsValidObject d s = true)
    (hd : IsDirectory s d) (hpath : ∀ a ∈ path, a.toNat ≠ 0)
    (hscan : scan isPathSeperator path = some (c, rest)) (hfit : c.length ≤ dirName.MaximumLength)
    (hchild : child s d c = none) :
    lookupLoop insert (n + 1) path dirName (some d) context status s
      = (obParseDirectoryPath rest (componentName dirName c) >>= fun next =>
          if next.isSome then .ok (.STATUS_OBJECT_PATH_NOT_FOUND, missingContext d path context, s)
          else match insert with
            | some o =>
              obpInsertEntryDirectory d (missingContext d path context) o
                  (s.setHeader o { s.header o with ObjectName := componentName dirName c }) >>= fun s =>
                .ok (.STATUS_SUCCESS, missingContext d path context, s)
            | none => .ok (.STATUS_OBJECT_NAME_NOT_FOUND, missingContext d path context, s)) := by
  have hc : ∀ a ∈ c, a.toNat ≠ 0 := fun a ha => hpath a ((scan_eq_some hscan).2.2.2.1 a ha)
  rcases obpLookupEntryDirectory_spec (componentName dirName c) rfl rfl hc hs hd
    { context with ParsedTill := some path } with ⟨-, hlookup⟩ | ⟨y, context', hsome, -⟩
  · rw [lookupLoop, deref_some, kernel_ok_bind, obIsDirectoryObject_of hvalid hd, kernel_ok_bind,
      if_neg (by simp), obParseDirectoryPath_scan hscan hfit, kernel_ok_bind]
    simp only [hlookup, kernel_ok_bind, if_true]
    refine congrArg _ (funext fun next => ?_)
    cases next with
    | some r => rfl
    | none => cases insert <;> rfl
  · rw [hchild] at hsome
    cases hsome

/-! ## The loop -/

/-- **What a lookup answers**, for the way it ends. The object in the context is the last one that was
found. -/
inductive LookupAnswer (s : Ob ω π) (insert : Option ω) : LookupEnd ω → Kernel (LookupResult ω π) → Prop
  | blocked {e : ω} {rest : List Char} {context : OBP_LOOKUP_CONTEXT ω}
      (hdirectory : context.Directory = some e) (hparsed : context.ParsedTill = some rest) :
      LookupAnswer s insert (.blocked e rest) (.ok (.STATUS_OBJECT_PATH_NOT_FOUND, context, s))
  | trailing {e : ω} {rest : List Char} {context : OBP_LOOKUP_CONTEXT ω}
      (hobject : context.Object = some e) (hparsed : context.ParsedTill = some rest) :
      LookupAnswer s insert (.trailing e rest) (.ok (.STATUS_SUCCESS, context, s))
  | last {e x : ω} {rest : List Char} {context : OBP_LOOKUP_CONTEXT ω}
      (hobject : context.Object = some x) (hparsed : context.ParsedTill = some rest) :
      LookupAnswer s insert (.last e rest x) (.ok (.STATUS_SUCCESS, context, s))
  | missing {e : ω} {rest c : List Char} {context : OBP_LOOKUP_CONTEXT ω} (hinsert : insert = none)
      (hdirectory : context.Directory = some e) (hparsed : context.ParsedTill = some rest) :
      LookupAnswer s insert (.missing e rest c) (.ok (.STATUS_OBJECT_NAME_NOT_FOUND, context, s))
  | inserted {e o : ω} {rest c : List Char} {context : OBP_LOOKUP_CONTEXT ω} (hinsert : insert = some o) :
      LookupAnswer s insert (.missing e rest c) (.ok (.STATUS_SUCCESS, context, insertEntry s e o c))
  | gap {e : ω} {rest : List Char} {context : OBP_LOOKUP_CONTEXT ω}
      (hdirectory : context.Directory = some e) (hparsed : context.ParsedTill = some rest) :
      LookupAnswer s insert (.gap e rest) (.ok (.STATUS_OBJECT_PATH_NOT_FOUND, context, s))
  | tooLong : LookupAnswer s insert .tooLong (.error (.assertion "Length <= DirName->MaximumLength"))

/-- **The loop answers as the walk ends.** The context already holds the directory that the path starts
from, unless there is a component to look up. -/
theorem lookupLoop_ends (hs : DirectoriesValid s)
    (hinsert : ∀ o, insert = some o → (s.header o).DirEntryLinked = false)
    (h : EndsAt s d path finish) {n : Nat} (hn : path.length < n) (hpath : ∀ a ∈ path, a.toNat ≠ 0)
    (hvalid : obIsValidObject d s = true) (hmax : dirName.MaximumLength = MAX_OBJECT_NAME_SIZE)
    (hobject : pathComponents path = [] → context.Object = some d) :
    LookupAnswer s insert finish
      (lookupLoop insert n path dirName (some d) context .STATUS_SUCCESS s) := by
  obtain ⟨n, rfl⟩ : ∃ k, n = k + 1 := ⟨n - 1, by omega⟩
  induction h generalizing n dirName context with
  | blocked hd =>
    rw [lookupLoop_blocked hvalid hd]
    exact .blocked rfl rfl
  | trailing hd hscan =>
    rw [lookupLoop_trailing hvalid hd hscan]
    exact .trailing (hobject (scan_eq_none hscan)) rfl
  | tooLong hd hscan hlong =>
    rw [lookupLoop_tooLong hvalid hd hscan (hmax ▸ hlong)]
    exact .tooLong
  | last hd hscan hfit hchild =>
    obtain ⟨-, context', hobject, hparsed, hloop⟩ :=
      lookupLoop_found hs hvalid hd hpath hscan (hmax ▸ hfit) hchild
    rw [hloop, if_pos rfl]
    exact .last hobject hparsed
  | missing hd hscan hfit hchild hnext =>
    rw [lookupLoop_absent hs hvalid hd hpath hscan (hmax ▸ hfit) hchild, obParseDirectoryPath_none hnext,
      kernel_ok_bind, if_neg (by simp)]
    cases hins : insert with
    | none => exact .missing rfl rfl rfl
    | some o =>
      have hbuffer : ∀ c, componentName dirName c = bufferName c := by
        intro c
        rw [componentName, hmax, bufferName]
      simp only
      rw [hbuffer, insert_returns hvalid hd (hinsert o hins) rfl, kernel_ok_bind]
      exact .inserted rfl
  | gap hd hscan hfit hchild hnext hfit' =>
    rw [lookupLoop_absent hs hvalid hd hpath hscan (hmax ▸ hfit) hchild,
      obParseDirectoryPath_scan hnext (hmax ▸ hfit'), kernel_ok_bind, if_pos (by simp)]
    exact .gap rfl rfl
  | nextTooLong hd hscan hfit hchild hnext hlong =>
    rw [lookupLoop_absent hs hvalid hd hpath hscan (hmax ▸ hfit) hchild,
      obParseDirectoryPath_long hnext (hmax ▸ hlong)]
    exact .tooLong
  | @step d x path c rest finish hd hscan hfit hchild hrest h ih =>
    obtain ⟨hxvalid, context', hobject, -, hloop⟩ :=
      lookupLoop_found hs hvalid hd hpath hscan (hmax ▸ hfit) hchild
    rw [hloop, if_neg hrest]
    obtain ⟨-, -, hshorter, -, hmem, -⟩ := scan_eq_some hscan
    have hpos : 0 < rest.length := List.length_pos_iff.mpr hrest
    obtain ⟨k, rfl⟩ : ∃ k, n = k + 1 := ⟨n - 1, by omega⟩
    exact ih (fun a ha => hpath a (hmem a ha)) hxvalid hmax (fun _ => hobject) k (by omega)

/-- **A lookup answers as its walk ends**, if the path has a component. -/
theorem lookup_ends (hs : DirectoriesValid s)
    (hinsert : ∀ o, insert = some o → (s.header o).DirEntryLinked = false)
    (h : EndsAt s d path finish) (hpath : ∀ a ∈ path, a.toNat ≠ 0) (hvalid : obIsValidObject d s = true)
    (hcomponent : pathComponents path ≠ []) :
    LookupAnswer s insert finish (obpLookupObjectByName (some d) path context insert true s) := by
  rw [obpLookupObjectByName_eq hs]
  exact lookupLoop_ends hs hinsert h (Nat.lt_succ_self _) hpath hvalid rfl fun hnil => absurd hnil hcomponent

/-! ## Ends and paths -/

omit [DecidableEq ω] in
/-- **A walk that ends at an object**: the path denotes it. -/
theorem EndsAt.denotes_trailing (h : EndsAt s d path (.trailing e rest)) : Denotes s d path e := by
  generalize hfinish : LookupEnd.trailing e rest = finish at h
  induction h with
  | @trailing d path hd hscan =>
    cases hfinish
    refine ⟨?_, fun _ => hd⟩
    rw [pathComponents, scan_eq_none hscan]
    exact .nil e
  | step hd hscan hfit hchild hrest h ih =>
    exact (denotes_iff_of_scan hscan hrest hd hchild e).mpr (ih hfinish)
  | blocked | tooLong | last | missing | gap | nextTooLong => cases hfinish

omit [DecidableEq ω] in
/-- The same where the path ends with the component of the object. -/
theorem EndsAt.denotes_last (h : EndsAt s d path (.last e rest x)) : Denotes s d path x := by
  generalize hfinish : LookupEnd.last e rest x = finish at h
  induction h with
  | @last d y path c hd hscan hfit hchild =>
    cases hfinish
    obtain ⟨hcomponents, -, -, -, -, htrailing⟩ := scan_eq_some hscan
    refine ⟨?_, fun ht => absurd rfl (htrailing.mp ht).1⟩
    rw [pathComponents, hcomponents, components_nil]
    exact .cons hd hchild (.nil x)
  | step hd hscan hfit hchild hrest h ih =>
    exact (denotes_iff_of_scan hscan hrest hd hchild x).mpr (ih hfinish)
  | blocked | tooLong | trailing | missing | gap | nextTooLong => cases hfinish

omit [DecidableEq ω] in
/-- **A walk that misses its last component.** -/
theorem EndsAt.missingFrom (h : EndsAt s d path (.missing e rest c)) : MissingFrom s d path e := by
  generalize hfinish : LookupEnd.missing e rest c = finish at h
  induction h with
  | @missing d path c rest hd hscan hfit hchild hnext =>
    cases hfinish
    rw [MissingFrom, pathComponents, (scan_eq_some hscan).1, missing_cons_iff]
    exact ⟨hd, Or.inl ⟨scan_eq_none hnext, hchild, rfl⟩⟩
  | step hd hscan hfit hchild hrest h ih =>
    exact (missingFrom_iff_of_scan hscan hd hchild e).mpr (ih hfinish)
  | blocked | tooLong | trailing | last | gap | nextTooLong => cases hfinish

omit [DecidableEq ω] in
/-- A path of separators only ends in the directory that it starts from. -/
theorem EndsAt.eq_trailing (h : EndsAt s d path finish) (hd : IsDirectory s d)
    (hcomponent : pathComponents path = []) : finish = .trailing d path := by
  cases h with
  | trailing => rfl
  | blocked hnot => exact absurd hd hnot
  | tooLong _ hscan | last _ hscan | missing _ hscan | gap _ hscan | nextTooLong _ hscan | step _ hscan =>
    rw [pathComponents, (scan_eq_some hscan).1] at hcomponent
    cases hcomponent

omit [DecidableEq ω] in
/-- A path whose last component is missing has one. -/
theorem EndsAt.component (h : EndsAt s d path (.missing e rest c)) : pathComponents path ≠ [] := by
  cases h with
  | missing _ hscan | step _ hscan =>
    rw [pathComponents, (scan_eq_some hscan).1]
    exact List.cons_ne_nil _ _

/-! ## Other states -/

section Congr

variable {s' : Ob ω π} {P : ω → Prop}

omit [DecidableEq ω] in
/-- **The walk is the same in another state** in which the objects `P` that it can come to have the same
entries, types and names. -/
theorem EndsAt.congr (h : EndsAt s d path finish) (hd : P d) (hentry : ∀ d, P d → ∀ y ∈ s.Head d, P y)
    (hhead : ∀ d, P d → s'.Head d = s.Head d)
    (htype : ∀ d, P d → (s'.header d).ObjectType = (s.header d).ObjectType)
    (hname : ∀ d, P d → (s'.header d).ObjectName = (s.header d).ObjectName) : EndsAt s' d path finish := by
  have hdirectory : ∀ d, P d → (IsDirectory s' d ↔ IsDirectory s d) := by
    intro d hd
    rw [IsDirectory, IsDirectory, htype d hd]
  have hsame : ∀ d c, P d → child s' d c = child s d c :=
    fun d c hd => child_congr (hhead d hd) fun y hy => hname y (hentry d hd y hy)
  induction h with
  | blocked hnot => exact .blocked fun h => hnot ((hdirectory _ hd).mp h)
  | trailing hdir hscan => exact .trailing ((hdirectory _ hd).mpr hdir) hscan
  | tooLong hdir hscan hlong => exact .tooLong ((hdirectory _ hd).mpr hdir) hscan hlong
  | last hdir hscan hfit hchild =>
    exact .last ((hdirectory _ hd).mpr hdir) hscan hfit ((hsame _ _ hd).trans hchild)
  | missing hdir hscan hfit hchild hnext =>
    exact .missing ((hdirectory _ hd).mpr hdir) hscan hfit ((hsame _ _ hd).trans hchild) hnext
  | gap hdir hscan hfit hchild hnext hfit' =>
    exact .gap ((hdirectory _ hd).mpr hdir) hscan hfit ((hsame _ _ hd).trans hchild) hnext hfit'
  | nextTooLong hdir hscan hfit hchild hnext hlong =>
    exact .nextTooLong ((hdirectory _ hd).mpr hdir) hscan hfit ((hsame _ _ hd).trans hchild) hnext hlong
  | step hdir hscan hfit hchild hrest h ih =>
    exact .step ((hdirectory _ hd).mpr hdir) hscan hfit ((hsame _ _ hd).trans hchild) hrest
      (ih (hentry _ hd _ (List.mem_of_find?_eq_some hchild)))

end Congr

end KaushOS
