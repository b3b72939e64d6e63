import KaushOS.Ob.CreateFailure

/-! # From a path to a device (`kern/ob/obname.c`, `kern/ob/ob.h`)

`ObGetDeviceObject` looks a path up from the global directory, and takes the place where the lookup has stopped:
a mount point, or a symbolic link to a device. What is left of the path is for the driver of the device.

* **`DeviceSpace`** — the name space with the bodies of directories and symbolic links.
* **`LeadsTo`**, **`DeviceAt`** — the leading parts of a path, and the objects that stand for a device.
* **`resolvesDevice_iff`** — a path is resolved as it is to be exactly if the lookup stops at such an object. -/

namespace KaushOS

open Paths

variable {ω π : Type} [DecidableEq ω]

/-- **The name space with the bodies of its objects**: the member `DeviceObject` of directories and
`LinkTargetObject` of symbolic links. -/
structure DeviceSpace (ω π : Type) extends Objects ω π where
  ObGlobalDirectory : Option ω
  DeviceObject : ω → Option ω
  LinkTargetObject : ω → Option ω

/-! ## Resolving -/

/-- `ObIsSymbolicLinkObject(Object)`. -/
def obIsSymbolicLinkObject (x : ω) (s : Ob ω π) : Kernel Bool := do
  assert (obIsValidObject x s = true) "ObIsValidObject(Object)"
  return (s.header x).ObjectType = some .OBJECT_TYPE_SYMLINK

/-- `ObIsDeviceObject(Object)`. -/
def obIsDeviceObject (x : ω) (s : Ob ω π) : Kernel Bool := do
  assert (obIsValidObject x s = true) "ObIsValidObject(Object)"
  return (s.header x).ObjectType = some .OBJECT_TYPE_DEVICE

/-- The variable `Object` of `ObGetDeviceObject` after the lookup; `object` is what it happens to hold before. -/
def stoppedAt (status : KSTATUS) (context : OBP_LOOKUP_CONTEXT ω) (object : Option ω) : Option ω :=
  if status = .STATUS_SUCCESS then context.Object
  else if status = .STATUS_OBJECT_NAME_NOT_FOUND ∨ status = .STATUS_OBJECT_PATH_NOT_FOUND then context.Directory
  else object

/-- What `ObGetDeviceObject` returns: the status and what it stores to `*PathRemaining` and `*DeviceObject`;
`none` where it comes to its end without any of this. -/
abbrev DeviceResult (ω : Type) := Option (KSTATUS × Option (List Char) × Option ω)

/-- `ObGetDeviceObject` behind the lookup, which has stopped at `x`. -/
def deviceOf (x : ω) (parsedTill : Option (List Char)) (s : DeviceSpace ω π) : Kernel (DeviceResult ω) := do
  let isDirectory ← obIsDirectoryObject x s.ob
  if isDirectory then
    let isMountpoint ← obIsMountpointObject x s.ob
    if isMountpoint then return some (.STATUS_SUCCESS, parsedTill, s.DeviceObject x)
    else
      assert False "0"
      return none
  else
    let isSymbolicLink ← obIsSymbolicLinkObject x s.ob
    if isSymbolicLink then
      let target ← deref (s.LinkTargetObject x)
      let isDevice ← obIsDeviceObject target s.ob
      if isDevice then return some (.STATUS_SUCCESS, parsedTill, some target)
      else
        assert False "0"
        return none
    else return none

/-- **`ObGetDeviceObject(Path, PathRemaining, DeviceObject)`**; `buffer` says whether the name buffer of the
lookup can be allocated. -/
def obGetDeviceObject (path : List Char) (buffer : Bool) (object : Option ω) (s : DeviceSpace ω π) :
    Kernel (DeviceResult ω) := do
  let (status, context, _) ←
    obpLookupObjectByName s.ObGlobalDirectory path obInitializeLookupContext none buffer s.ob
  let x ← deref (stoppedAt status context object)
  deviceOf x context.ParsedTill s

/-! ## What is to be found -/

/-- **A leading part of the path** names `e`: its components lead from `d` there, and `rest` is left. -/
inductive LeadsTo (s : Ob ω π) : ω → List Char → ω → List Char → Prop
  | start (d : ω) (path : List Char) : LeadsTo s d path d path
  | step {d x e : ω} {path c rest rest' : List Char} (hd : IsDirectory s d)
      (hscan : scan isPathSeperator path = some (c, rest)) (hchild : child s d c = some x)
      (h : LeadsTo s x rest e rest') : LeadsTo s d path e rest'

/-- **An object that stands for a device**: a mount point, or a symbolic link to a device. -/
inductive DeviceAt (s : DeviceSpace ω π) : ω → Option ω → Prop
  | mount {e : ω} (hd : IsDirectory s.ob e) (hmount : s.ob.Flags e &&& OB_DIRECTORY_MOUNTPOINT ≠ 0) :
      DeviceAt s e (s.DeviceObject e)
  | link {e target : ω} (hlink : (s.ob.header e).ObjectType = some .OBJECT_TYPE_SYMLINK)
      (htarget : s.LinkTargetObject e = some target) (hvalid : obIsValidObject target s.ob = true)
      (hdevice : (s.ob.header target).ObjectType = some .OBJECT_TYPE_DEVICE) : DeviceAt s e (some target)

/-- **What resolving a path is to do**: of the leading parts of the path that name an object that stands for a
device, the longest one is taken off, and what is left of the path is returned together with the device. -/
def ResolvesDevice (s : DeviceSpace ω π) (path : List Char) (object : Option ω) : Prop :=
  ∃ g e pre rest device, s.ObGlobalDirectory = some g ∧ path = pre ++ rest
    ∧ LeadsTo s.ob g path e rest ∧ DeviceAt s e device
    ∧ (∀ e' rest' device', LeadsTo s.ob g path e' rest' → DeviceAt s e' device' → rest.length ≤ rest'.length)
    ∧ obGetDeviceObject path true object s = .ok (some (.STATUS_SUCCESS, some rest, device))

/-- The place at which a lookup stops in front of something, and what is left of the path. -/
def LookupEnd.place : LookupEnd ω → Option (ω × List Char)
  | .blocked e rest | .trailing e rest | .missing e rest _ | .gap e rest => some (e, rest)
  | .last _ _ _ | .tooLong => none

/-- **The lookup stops at an object that stands for a device**, with something left of the path. -/
def StopsAtDevice (s : DeviceSpace ω π) (path : List Char) : Prop :=
  pathComponents path ≠ [] ∧ ∃ g e finish rest device, s.ObGlobalDirectory = some g
    ∧ EndsAt s.ob g path finish ∧ finish.place = some (e, rest) ∧ DeviceAt s e device

variable {s : DeviceSpace ω π} {ob : Ob ω π} {d e x g : ω} {path rest rest' c : List Char}
  {finish : LookupEnd ω} {device : Option ω}

/-! ## Leading parts -/

omit [DecidableEq ω] in
/-- What the scanner leaves is the end of the path. -/
theorem scan_suffix (h : scan isPathSeperator path = some (c, rest)) : ∃ pre, path = pre ++ rest := by
  obtain ⟨a, r, hdrop, rfl, rfl⟩ := dropWhile_of_scan h
  obtain ⟨pre, hpre⟩ : path.dropWhile isPathSeperator <:+ path := List.dropWhile_suffix _
  obtain ⟨mid, hmid⟩ : (r.dropWhile fun b => !isPathSeperator b) <:+ r := List.dropWhile_suffix _
  refine ⟨pre ++ a :: mid, ?_⟩
  rw [← hpre, hdrop, List.append_assoc, List.cons_append, hmid]

omit [DecidableEq ω] in
/-- A leading part is one. -/
theorem LeadsTo.append (h : LeadsTo ob d path e rest) : ∃ pre, path = pre ++ rest := by
  induction h with
  | start d path => exact ⟨[], rfl⟩
  | step hd hscan hchild h ih =>
    obtain ⟨pre, rfl⟩ := scan_suffix hscan
    obtain ⟨mid, rfl⟩ := ih
    exact ⟨pre ++ mid, (List.append_assoc ..).symm⟩

omit [DecidableEq ω] in
/-- The path is as long as what is left of it, at least. -/
theorem LeadsTo.length_le (h : LeadsTo ob d path e rest) : rest.length ≤ path.length := by
  obtain ⟨pre, rfl⟩ := h.append
  simp

omit [DecidableEq ω] in
/-- The first step of a leading part. -/
theorem LeadsTo.cases_scan (h : LeadsTo ob d path e rest') (hscan : scan isPathSeperator path = some (c, rest))
    (hchild : child ob d c = some x) : rest' = path ∨ LeadsTo ob x rest e rest' := by
  cases h with
  | start => exact Or.inl rfl
  | step hd hscan' hchild' h =>
    cases hscan.symm.trans hscan'
    cases hchild.symm.trans hchild'
    exact Or.inr h

omit [DecidableEq ω] in
/-- Where nothing can be taken off the path, it is left as it is. -/
theorem LeadsTo.length_le_of_stop (h : LeadsTo ob d path e rest)
    (hstop : ∀ c rest' x, IsDirectory ob d → scan isPathSeperator path = some (c, rest') → child ob d c ≠ some x) :
    path.length ≤ rest.length := by
  cases h with
  | start => exact le_rfl
  | step hd hscan hchild h => exact absurd hchild (hstop _ _ _ hd hscan)

omit [DecidableEq ω] in
/-- **A lookup stops behind the longest leading part.** -/
theorem EndsAt.leadsTo (h : EndsAt ob d path finish) (hplace : finish.place = some (e, rest)) :
    LeadsTo ob d path e rest ∧ ∀ e' rest', LeadsTo ob d path e' rest' → rest.length ≤ rest'.length := by
  induction h with
  | blocked hd =>
    cases hplace
    exact ⟨.start _ _, fun e' rest' h => h.length_le_of_stop fun _ _ _ hd' => absurd hd' hd⟩
  | trailing hd hscan =>
    cases hplace
    refine ⟨.start _ _, fun e' rest' h => h.length_le_of_stop fun _ _ _ _ hscan' => ?_⟩
    cases hscan.symm.trans hscan'
  | missing hd hscan hfit hchild | gap hd hscan hfit hchild =>
    cases hplace
    refine ⟨.start _ _, fun e' rest' h => h.length_le_of_stop fun _ _ _ _ hscan' hchild' => ?_⟩
    cases hscan.symm.trans hscan'
    cases hchild.symm.trans hchild'
  | tooLong | last | nextTooLong => cases hplace
  | step hd hscan hfit hchild hrest h ih =>
    obtain ⟨hleads, hmax⟩ := ih hplace
    refine ⟨.step hd hscan hchild hleads, fun e' rest' h' => ?_⟩
    rcases h'.cases_scan hscan hchild with rfl | h'
    · exact (LeadsTo.step hd hscan hchild hleads).length_le
    · exact hmax e' rest' h'

omit [DecidableEq ω] in
/-- A lookup that ends with the path has come along all of it, and has something left of it. -/
theorem EndsAt.leadsTo_last (h : EndsAt ob d path (.last e rest x)) : LeadsTo ob d path x [] ∧ rest ≠ [] := by
  generalize hfinish : LookupEnd.last e rest x = finish at h
  induction h with
  | @last d y path c hd hscan hfit hchild =>
    cases hfinish
    refine ⟨.step hd hscan hchild (.start _ _), ?_⟩
    rintro rfl
    cases hscan
  | step hd hscan hfit hchild hrest h ih =>
    obtain ⟨hleads, hne⟩ := ih hfinish
    exact ⟨.step hd hscan hchild hleads, hne⟩
  | blocked | tooLong | trailing | missing | gap | nextTooLong => cases hfinish

omit [DecidableEq ω] in
/-- All objects on the way are valid. -/
theorem LeadsTo.valid (h : LeadsTo ob d path e rest) (hs : DirectoriesValid ob)
    (hvalid : obIsValidObject d ob = true) : obIsValidObject e ob = true := by
  induction h with
  | start => exact hvalid
  | step hd hscan hchild h ih => exact ih (hs.entry _ hd _ (List.mem_of_find?_eq_some hchild)).1

/-! ## The device of an object -/

variable {status : KSTATUS} {parsedTill parsedTill' : Option (List Char)} {object : Option ω}

omit [DecidableEq ω] in
/-- The device of an object that stands for one. -/
theorem DeviceAt.deviceOf (h : DeviceAt s e device) (hvalid : obIsValidObject e s.ob = true) :
    KaushOS.deviceOf e parsedTill s = .ok (some (.STATUS_SUCCESS, parsedTill, device)) := by
  cases h with
  | mount hd hmount =>
    have hmountpoint : obIsMountpointObject e s.ob = .ok true := by
      rw [obIsMountpointObject, obIsDirectoryObject_of hvalid hd, kernel_ok_bind]
      exact congrArg Except.ok (by simpa using hmount)
    rw [KaushOS.deviceOf, obIsDirectoryObject_of hvalid hd, kernel_ok_bind, if_pos rfl, hmountpoint, kernel_ok_bind,
      if_pos rfl]
    rfl
  | @link target hlink htarget htvalid hdevice =>
    have hnot : ¬ IsDirectory s.ob e := by
      rw [IsDirectory, hlink]
      simp
    have hsymlink : obIsSymbolicLinkObject e s.ob = .ok true := by
      rw [obIsSymbolicLinkObject, assert_of_true hvalid, kernel_ok_bind]
      exact congrArg Except.ok (decide_eq_true hlink)
    have htargetDevice : obIsDeviceObject target s.ob = .ok true := by
      rw [obIsDeviceObject, assert_of_true htvalid, kernel_ok_bind]
      exact congrArg Except.ok (decide_eq_true hdevice)
    rw [KaushOS.deviceOf, obIsDirectoryObject_of_not hvalid hnot, kernel_ok_bind, if_neg (by simp), hsymlink,
      kernel_ok_bind, if_pos rfl, htarget, deref_some, kernel_ok_bind, htargetDevice, kernel_ok_bind, if_pos rfl]
    rfl

omit [DecidableEq ω] in
/-- **Whatever is returned is the device** of an object that stands for one. -/
theorem deviceAt_of_deviceOf (h : deviceOf x parsedTill s = .ok (some (status, parsedTill', device))) :
    parsedTill' = parsedTill ∧ DeviceAt s x device := by
  obtain ⟨isDirectory, hdirectory, h⟩ := kernel_bind_eq_ok.mp h
  obtain ⟨_, -, hdirectory⟩ := kernel_bind_eq_ok.mp hdirectory
  cases isDirectory with
  | true =>
    have hd : (s.ob.header x).ObjectType = some .OBJECT_TYPE_DIRECTORY :=
      of_decide_eq_true (Except.ok.inj hdirectory)
    rw [if_pos rfl] at h
    obtain ⟨isMountpoint, hmountpoint, h⟩ := kernel_bind_eq_ok.mp h
    cases isMountpoint with
    | true =>
      obtain ⟨isDirectory, -, hmountpoint⟩ := kernel_bind_eq_ok.mp hmountpoint
      have hmount : (isDirectory && decide (s.ob.Flags x &&& OB_DIRECTORY_MOUNTPOINT ≠ 0)) = true :=
        Except.ok.inj hmountpoint
      rw [if_pos rfl] at h
      cases h
      exact ⟨rfl, .mount hd (of_decide_eq_true (Bool.and_eq_true_iff.mp hmount).2)⟩
    | false =>
      rw [if_neg (by simp)] at h
      exact absurd h kernel_assert_false_bind
  | false =>
    rw [if_neg (by simp)] at h
    obtain ⟨isSymbolicLink, hsymlink, h⟩ := kernel_bind_eq_ok.mp h
    cases isSymbolicLink with
    | true =>
      obtain ⟨_, -, hsymlink⟩ := kernel_bind_eq_ok.mp hsymlink
      have hlink : (s.ob.header x).ObjectType = some .OBJECT_TYPE_SYMLINK :=
        of_decide_eq_true (Except.ok.inj hsymlink)
      rw [if_pos rfl] at h
      obtain ⟨target, htarget, h⟩ := kernel_bind_eq_ok.mp h
      obtain ⟨isDevice, hdevice, h⟩ := kernel_bind_eq_ok.mp h
      obtain ⟨_, hvalid, hdevice⟩ := kernel_bind_eq_ok.mp hdevice
      cases isDevice with
      | true =>
        rw [if_pos rfl] at h
        cases h
        exact ⟨rfl, .link hlink (eq_some_of_deref htarget) (assert_eq_ok.mp hvalid)
          (of_decide_eq_true (Except.ok.inj hdevice))⟩
      | false =>
        rw [if_neg (by simp)] at h
        exact absurd h kernel_assert_false_bind
    | false =>
      rw [if_neg (by simp)] at h
      cases h

/-! ## Where the lookup has stopped -/

/-- **The lookup stops in front of something**, and its place is looked at. -/
theorem obGetDeviceObject_place (hs : DirectoriesValid s.ob) (hg : s.ObGlobalDirectory = some g)
    (hvalid : obIsValidObject g s.ob = true) (hpath : ∀ a ∈ path, a.toNat ≠ 0)
    (hcomponent : pathComponents path ≠ []) (hends : EndsAt s.ob g path finish)
    (hplace : finish.place = some (e, rest)) :
    obGetDeviceObject path true object s = deviceOf e (some rest) s := by
  have hanswer : LookupAnswer s.ob none finish
      (obpLookupObjectByName (some g) path obInitializeLookupContext none true s.ob) :=
    lookup_ends hs (by simp) hends hpath hvalid hcomponent
  rw [obGetDeviceObject, hg]
  generalize obpLookupObjectByName (some g) path obInitializeLookupContext none true s.ob = r at hanswer
  cases hanswer with
  | last | tooLong => cases hplace
  | inserted hinsert => cases hinsert
  | trailing hobject hparsed =>
    cases hplace
    rw [kernel_ok_bind]
    simp [stoppedAt, hobject, hparsed]
  | blocked hdirectory hparsed | gap hdirectory hparsed =>
    cases hplace
    rw [kernel_ok_bind]
    simp [stoppedAt, hdirectory, hparsed]
  | missing hinsert hdirectory hparsed =>
    cases hplace
    rw [kernel_ok_bind]
    simp [stoppedAt, hdirectory, hparsed]

/-- **The path ends with the last component found**, which is looked at; it still counts as left over. -/
theorem obGetDeviceObject_last (hs : DirectoriesValid s.ob) (hg : s.ObGlobalDirectory = some g)
    (hvalid : obIsValidObject g s.ob = true) (hpath : ∀ a ∈ path, a.toNat ≠ 0)
    (hcomponent : pathComponents path ≠ []) (hends : EndsAt s.ob g path (.last e rest x)) :
    obGetDeviceObject path true object s = deviceOf x (some rest) s := by
  have hanswer : LookupAnswer s.ob none (.last e rest x)
      (obpLookupObjectByName (some g) path obInitializeLookupContext none true s.ob) :=
    lookup_ends hs (by simp) hends hpath hvalid hcomponent
  rw [obGetDeviceObject, hg]
  generalize obpLookupObjectByName (some g) path obInitializeLookupContext none true s.ob = r at hanswer
  cases hanswer with
  | last hobject hparsed =>
    rw [kernel_ok_bind]
    simp [stoppedAt, hobject, hparsed]

/-- A component that is too long stops the machine. -/
theorem obGetDeviceObject_tooLong (hs : DirectoriesValid s.ob) (hg : s.ObGlobalDirectory = some g)
    (hvalid : obIsValidObject g s.ob = true) (hpath : ∀ a ∈ path, a.toNat ≠ 0)
    (hcomponent : pathComponents path ≠ []) (hends : EndsAt s.ob g path .tooLong) :
    obGetDeviceObject path true object s = .error (.assertion "Length <= DirName->MaximumLength") := by
  have hanswer : LookupAnswer s.ob none .tooLong
      (obpLookupObjectByName (some g) path obInitializeLookupContext none true s.ob) :=
    lookup_ends hs (by simp) hends hpath hvalid hcomponent
  rw [obGetDeviceObject, hg]
  generalize obpLookupObjectByName (some g) path obInitializeLookupContext none true s.ob = r at hanswer
  cases hanswer
  rfl

/-- A path of separators leaves no object behind. -/
theorem obGetDeviceObject_separators (hs : DirectoriesValid s.ob) (hg : s.ObGlobalDirectory = some g)
    (hvalid : obIsValidObject g s.ob = true) (hd : IsDirectory s.ob g) (hpath : ∀ a ∈ path, a.toNat ≠ 0)
    (hcomponent : pathComponents path = []) :
    obGetDeviceObject path true object s = .error .nullPointer := by
  rw [obGetDeviceObject, hg,
    lookup_no_component hs hvalid hd ⟨hpath, by simp [hcomponent]⟩ hcomponent, kernel_ok_bind]
  rfl

/-- **A path is resolved as it is to be exactly if the lookup stops at an object that stands for a device** with
something left of the path. -/
theorem resolvesDevice_iff (hs : DirectoriesValid s.ob) (hg : s.ObGlobalDirectory = some g)
    (hvalid : obIsValidObject g s.ob = true) (hd : IsDirectory s.ob g) (hpath : ∀ a ∈ path, a.toNat ≠ 0) :
    ResolvesDevice s path object ↔ StopsAtDevice s path := by
  constructor
  · rintro ⟨g', e, pre, rest, device, hg', -, hleads, hdevice, hmax, hresult⟩
    cases hg.symm.trans hg'
    have hcomponent : pathComponents path ≠ [] := by
      intro hnil
      cases hresult.symm.trans (obGetDeviceObject_separators hs hg hvalid hd hpath hnil)
    obtain ⟨finish, hends⟩ := exists_endsAt s.ob g path
    refine ⟨hcomponent, g, ?_⟩
    cases hplace : finish.place with
    | some p =>
      obtain ⟨e', rest'⟩ := p
      rw [obGetDeviceObject_place hs hg hvalid hpath hcomponent hends hplace] at hresult
      exact ⟨e', finish, rest', device, hg, hends, hplace, (deviceAt_of_deviceOf hresult).2⟩
    | none =>
      cases finish with
      | blocked | trailing | missing | gap => cases hplace
      | tooLong => cases hresult.symm.trans (obGetDeviceObject_tooLong hs hg hvalid hpath hcomponent hends)
      | last e' rest' x =>
        -- the longest leading part is the whole path, and the last component is returned as left over
        rw [obGetDeviceObject_last hs hg hvalid hpath hcomponent hends] at hresult
        obtain ⟨hrest, hx⟩ := deviceAt_of_deviceOf hresult
        obtain rfl := Option.some.inj hrest
        obtain ⟨hwhole, hne⟩ := hends.leadsTo_last
        have hlength := hmax x [] device hwhole hx
        exact absurd (List.length_eq_zero_iff.mp (Nat.le_zero.mp hlength)) hne
  · rintro ⟨hcomponent, g', e, finish, rest, device, hg', hends, hplace, hdevice⟩
    cases hg.symm.trans hg'
    obtain ⟨hleads, hmax⟩ := hends.leadsTo hplace
    obtain ⟨pre, hpre⟩ := hleads.append
    exact ⟨g, e, pre, rest, device, hg, hpre, hleads, hdevice, fun e' rest' _ h _ => hmax e' rest' h,
      (obGetDeviceObject_place hs hg hvalid hpath hcomponent hends hplace).trans
        (hdevice.deviceOf (hleads.valid hs hvalid))⟩

end KaushOS
