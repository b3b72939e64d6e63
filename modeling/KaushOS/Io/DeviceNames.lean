import KaushOS.Lib.Stdio
import KaushOS.Ob.DeviceSpace
import Mathlib.Data.List.GetD

/-! # Names of devices without a name (`kern/io/iodevice.c`)

`IoCreateDevice` makes up a name for a device that is created without one, from a counter.

* **`generateDeviceName`** — the name, as `snprintf` leaves it in a buffer.
* **`generateDeviceName_eq`** — of the eight digits of the counter five are left.
* **`DevicesCreated`**, **`RowKept`** — unnamed devices are created in a row, and what has been used up then.
* **`device_names_iff`** — which numbers get different names, and how many devices can be created. -/

namespace KaushOS

open Paths Pooled Stdio

variable {ω π : Type} [DecidableEq ω]

/-! ## Names -/

/-- The format of the names. -/
def deviceNameFormat : List Char := "\\Device\\KosDev-%08lx".toList

/-- The string in a buffer from offset `p` on, up to its `'\0'`, or the `n` characters that are left. -/
def stringIn (buffer : Nat → Char) : Nat → Nat → List Char
  | 0, _ => []
  | n + 1, p => if buffer p = '\x00' then [] else buffer p :: stringIn buffer n (p + 1)

/-- **The name for a `DeviceNumber`**, in `LocalBuffer`; `memory`, `localBuffer` and `stack` are what there
happens to be in memory, in the buffer, and on the stack behind the argument. -/
def generateDeviceName (memory : UInt32 → Char) (n : Nat) (localBuffer : Nat → Char) (stack : VaList)
    (deviceNumber : UInt32) : Kernel (List Char) := do
  let (_, buffer) ← vsnprintf memory n localBuffer 21 (literal deviceNameFormat)
    fun i => if i = 0 then deviceNumber else stack i
  return stringIn buffer 128 0

/-- **What `IoCreateDevice` finds in memory**, and the blocks that the pool hands out. -/
structure DeviceCall (ω π : Type) where
  memory : UInt32 → Char
  steps : Nat
  localBuffer : Nat → Char
  stack : VaList
  process : π
  blocks : CreateBlocks ω

/-- The creation that follows. -/
def DeviceCall.creation (call : DeviceCall ω π) (name : List Char) : ObjectCreation ω π :=
  ⟨.OBJECT_TYPE_DEVICE, some ⟨none, some name, 0⟩, call.process, call.blocks⟩

/-- **`IoCreateDevice(DriverObject, DeviceExtensionSize, DeviceName, ...)`**, as far as names are concerned;
`deviceNumber` is its static variable. The `Length` of a generated name, which is not set, is read by an
assertion only, which is taken to hold. -/
def ioCreateDevice (deviceName : Option (List Char)) (call : DeviceCall ω π) (deviceNumber : UInt32)
    (s : Objects ω π) : Kernel (KSTATUS × UInt32 × Objects ω π) := do
  let (name, deviceNumber) ←
    match deviceName with
    | some name => pure (name, deviceNumber)
    | none => do
      let name ← generateDeviceName call.memory call.steps call.localBuffer call.stack deviceNumber
      pure (name, deviceNumber + 1)
  let (status, _, s) ← (call.creation name).run nameSpaceTypes s
  if ¬ K_SUCCESS status then return (status, deviceNumber, s) else return (.STATUS_SUCCESS, deviceNumber, s)

/-- The digits of the number that are left: the five highest ones of eight. -/
def deviceDigits (deviceNumber : UInt32) : List Char :=
  [7, 6, 5, 4, 3].map fun i => base_x.digit (deviceNumber.toNat / 16 ^ i % 16)

/-- The last component of the name. -/
def deviceLeaf (deviceNumber : UInt32) : List Char := "KosDev-".toList ++ deviceDigits deviceNumber

/-- The whole name. -/
def devicePathName (deviceNumber : UInt32) : List Char := "\\Device\\".toList ++ deviceLeaf deviceNumber

/-- The digits are characters of a name. -/
theorem base_x_digit {d : Nat} (hd : d < 16) :
    base_x.digit d ≠ '\x00' ∧ isPathSeperator (base_x.digit d) = false := by
  have hall : ∀ d < 16, base_x.digit d ≠ '\x00' ∧ isPathSeperator (base_x.digit d) = false := by decide
  exact hall d hd

/-- Different digits are different characters. -/
theorem base_x_digit_inj {d d' : Nat} (hd : d < 16) (hd' : d' < 16) (h : base_x.digit d = base_x.digit d') :
    d = d' := by
  have hall : ∀ d < 16, ∀ d' < 16, base_x.digit d = base_x.digit d' → d = d' := by decide
  exact hall d hd d' hd' h

/-- The characters of the digits. -/
theorem deviceDigits_char {n : UInt32} {c : Char} (hc : c ∈ deviceDigits n) :
    c ≠ '\x00' ∧ isPathSeperator c = false := by
  obtain ⟨i, -, rfl⟩ := List.mem_map.mp hc
  exact base_x_digit (Nat.mod_lt _ (by decide))

/-- A string in a buffer. -/
theorem stringIn_eq {buffer : Nat → Char} {c : List Char} {n p : Nat} (hc : ∀ a ∈ c, a ≠ '\x00')
    (hbuffer : ∀ i < c.length, buffer (p + i) = c.getD i '\x00') (hend : buffer (p + c.length) = '\x00')
    (hn : c.length < n) : stringIn buffer n p = c := by
  induction c generalizing n p with
  | nil =>
    obtain ⟨n, rfl⟩ : ∃ k, n = k + 1 := ⟨n - 1, by simp at hn; omega⟩
    rw [stringIn, if_pos (by simpa using hend)]
  | cons a c ih =>
    rw [List.length_cons] at hn hend
    obtain ⟨n, rfl⟩ : ∃ k, n = k + 1 := ⟨n - 1, by omega⟩
    have hfirst : buffer p = a := hbuffer 0 (by simp)
    rw [stringIn, hfirst, if_neg (hc a List.mem_cons_self)]
    refine congrArg _ (ih (fun b hb => hc b (List.mem_cons_of_mem a hb)) (fun i hi => ?_) ?_ (by omega))
    · have hnext := hbuffer (i + 1) (by simpa using hi)
      rw [Nat.add_assoc, Nat.add_comm 1 i]
      exact hnext
    · rw [Nat.add_assoc, Nat.add_comm 1 c.length]
      exact hend

/-- The characters in front of the digits. -/
def devicePrefix : List Char := "\\Device\\KosDev-".toList

/-- `%08lx` -/
def deviceConversion : PrintfConversion := ⟨zeroFlag, 8, -1, .LONGTYPE⟩

/-- The text that the format asks for. -/
def deviceText (deviceNumber : UInt32) : List Char :=
  devicePrefix ++ ((List.range 8).map fun i => base_x.digit (deviceNumber.toNat / 16 ^ i % 16)).reverse

/-- **The format asks for all eight digits.** -/
theorem vprintf_deviceNameFormat {σ : Type} (output : Char → σ → σ) (memory : UInt32 → Char) (k : Nat)
    (args : VaList) (aux : σ) :
    vprintf output memory (k + 18) (literal deviceNameFormat) 0 args aux
      = .ok (outputText output (deviceText (args 0)) aux) := by
  have hformat : vprintf output memory (k + 18) (literal deviceNameFormat) 0 args aux
      = .ok (formatInteger output (args 0).toNat false false base_x deviceConversion
          (outputText output devicePrefix aux)) := rfl
  have hdigits : integerText (args 0).toNat false false base_x deviceConversion
      = ((List.range 8).map fun i => base_x.digit ((args 0).toNat / 16 ^ i % 16)).reverse :=
    integerText_zeros (by decide) (by decide) (by decide) (args 0).toNat_lt
  rw [hformat, formatInteger_eq, hdigits, deviceText, outputText_append]

/-- The text has three characters more than fit. -/
theorem deviceText_eq (deviceNumber : UInt32) :
    deviceText deviceNumber = devicePathName deviceNumber
      ++ [2, 1, 0].map fun i => base_x.digit (deviceNumber.toNat / 16 ^ i % 16) := by
  rfl

/-- The name has as many characters as fit in front of the `'\0'`. -/
theorem devicePathName_length (deviceNumber : UInt32) : (devicePathName deviceNumber).length = 20 := by
  rfl

/-- The characters of the name. -/
theorem devicePathName_char {deviceNumber : UInt32} {c : Char} (hc : c ∈ devicePathName deviceNumber) :
    c ≠ '\x00' := by
  have hconstant : ∀ c ∈ "\\Device\\KosDev-".toList, c ≠ '\x00' := by simp
  rcases List.mem_append.mp hc with hc | hc
  · exact hconstant c (List.mem_append_left "KosDev-".toList hc)
  · rcases List.mem_append.mp hc with hc | hc
    · exact hconstant c (List.mem_append_right "\\Device\\".toList hc)
    · exact (deviceDigits_char hc).1

/-- **The name that is generated** has the five highest of the eight digits. -/
theorem generateDeviceName_eq (memory : UInt32 → Char) {n : Nat} (hn : 18 ≤ n) (localBuffer : Nat → Char)
    (stack : VaList) (deviceNumber : UInt32) :
    generateDeviceName memory n localBuffer stack deviceNumber = .ok (devicePathName deviceNumber) := by
  obtain ⟨k, rfl⟩ : ∃ k, n = k + 18 := ⟨n - 18, by omega⟩
  have hlength : (deviceText deviceNumber).length = 23 := rfl
  have hmax : wrapInt ((21 : UInt32) - 1).toNat = (20 : Nat) := by decide
  have htext : outputText vsnprintfHelper (deviceText deviceNumber) ⟨localBuffer, 0, 0, (20 : Nat)⟩ = _ :=
    @helper_outputText (deviceText deviceNumber) localBuffer 20 0 (by rw [hlength]; decide)
  rw [generateDeviceName, vsnprintf, if_pos (by decide), hmax, vprintf_deviceNameFormat, if_pos rfl,
    htext, hlength]
  refine congrArg Except.ok (stringIn_eq (fun a ha => devicePathName_char ha) (fun i hi => ?_) ?_ ?_)
  · rw [devicePathName_length] at hi
    simp only [Nat.zero_add]
    rw [if_pos (by decide), Function.update_of_ne (by omega), if_pos (by omega), Nat.sub_zero, deviceText_eq]
    exact List.getD_append _ _ _ _ hi
  · rw [if_pos (by decide)]
    exact Function.update_self ..
  · simp [devicePathName_length]

/-- **Two names are the same if their numbers differ in the three lowest digits only.** -/
theorem deviceLeaf_eq_iff {m n : UInt32} :
    deviceLeaf m = deviceLeaf n ↔ m.toNat / 4096 = n.toNat / 4096 := by
  have hdigit : ∀ i, base_x.digit (m.toNat / 16 ^ i % 16) = base_x.digit (n.toNat / 16 ^ i % 16)
      ↔ m.toNat / 16 ^ i % 16 = n.toNat / 16 ^ i % 16 := fun i =>
    ⟨base_x_digit_inj (Nat.mod_lt _ (by decide)) (Nat.mod_lt _ (by decide)), congrArg _⟩
  have hm := m.toNat_lt
  have hn := n.toNat_lt
  refine (List.append_right_inj _).trans ?_
  rw [deviceDigits, deviceDigits]
  simp only [List.map_cons, List.map_nil, List.cons.injEq, and_true, hdigit]
  omega

/-- The same for the whole names. -/
theorem devicePathName_eq_iff {m n : UInt32} :
    devicePathName m = devicePathName n ↔ m.toNat / 4096 = n.toNat / 4096 :=
  (List.append_right_inj _).trans deviceLeaf_eq_iff

/-! ## The way to a device -/

variable {ob : Ob ω π} {s s' : Objects ω π} {call : DeviceCall ω π} {e r x : ω} {number number' : UInt32}
  {status : KSTATUS}

/-- **The directory of the devices.** -/
def DeviceDirectory (ob : Ob ω π) (e : ω) : Prop :=
  ∃ r, ob.ObRootDirectory = some r ∧ child ob r "Device".toList = some e ∧ IsDirectory ob e

omit [DecidableEq ω] in
/-- There is one at most. -/
theorem DeviceDirectory.unique {e' : ω} (h : DeviceDirectory ob e) (h' : DeviceDirectory ob e') : e = e' := by
  obtain ⟨r, hr, hchild, -⟩ := h
  obtain ⟨r', hr', hchild', -⟩ := h'
  obtain rfl := Option.some.inj (hr.symm.trans hr')
  exact Option.some.inj (hchild.symm.trans hchild')

/-- The characters of the last component. -/
theorem deviceLeaf_char {c : Char} (hc : c ∈ deviceLeaf number) : c.toNat ≠ 0 ∧ isPathSeperator c = false := by
  have hconstant : ∀ c ∈ "KosDev-".toList, c ≠ '\x00' ∧ isPathSeperator c = false := by
    simp [isPathSeperator]
  have hc' : c ≠ '\x00' ∧ isPathSeperator c = false := by
    rcases List.mem_append.mp hc with hc | hc
    · exact hconstant c hc
    · exact deviceDigits_char hc
  refine ⟨fun h => hc'.1 ?_, hc'.2⟩
  rw [← Char.ofNat_toNat c, h]

/-- The last component fits the name buffer. -/
theorem deviceLeaf_length (number : UInt32) : (deviceLeaf number).length = 12 := by
  rfl

/-- It is no longer than a component may be. -/
theorem deviceLeaf_fits (number : UInt32) : (deviceLeaf number).length ≤ MAX_OBJECT_NAME_SIZE := by
  rw [deviceLeaf_length]
  decide

/-- The first component. -/
theorem scan_devicePathName (number : UInt32) :
    scan isPathSeperator (devicePathName number) = some ("Device".toList, '\\' :: deviceLeaf number) := by
  have hrun : scan isPathSeperator (['\\'] ++ ("Device".toList ++ '\\' :: deviceLeaf number)) = _ :=
    scan_run (by simp [isPathSeperator]) (by decide) (by simp [isPathSeperator]) (by simp [isPathSeperator])
  exact hrun

/-- The other one. -/
theorem scan_deviceLeaf (number : UInt32) :
    scan isPathSeperator ('\\' :: deviceLeaf number) = some (deviceLeaf number, []) := by
  have hrun : scan isPathSeperator (['\\'] ++ (deviceLeaf number ++ [])) = _ :=
    scan_run (by simp [isPathSeperator]) (List.ne_nil_of_length_pos (by rw [deviceLeaf_length]; decide))
      (fun c hc => (deviceLeaf_char hc).2) (by simp)
  rw [List.append_nil] at hrun
  exact hrun

omit [DecidableEq ω] in
/-- **The lookup ends in the directory of the devices**, at the entry with the name if there is one. -/
theorem DeviceDirectory.endsAt (hs : TreeValid ob) (hr : ob.ObRootDirectory = some r) (he : DeviceDirectory ob e)
    (number : UInt32) :
    EndsAt ob r (devicePathName number)
      (match child ob e (deviceLeaf number) with
        | some x => .last e ('\\' :: deviceLeaf number) x
        | none => .missing e ('\\' :: deviceLeaf number) (deviceLeaf number)) := by
  obtain ⟨r', hr', hchild, hd⟩ := he
  obtain rfl := Option.some.inj (hr.symm.trans hr')
  obtain ⟨r', hr', hroot⟩ := hs.root
  obtain rfl := Option.some.inj (hr.symm.trans hr')
  refine .step hroot (scan_devicePathName number) (by decide) hchild (by simp) ?_
  cases hleaf : child ob e (deviceLeaf number) with
  | some x => exact .last hd (scan_deviceLeaf number) (deviceLeaf_fits number) hleaf
  | none => exact .missing hd (scan_deviceLeaf number) (deviceLeaf_fits number) hleaf rfl

omit [DecidableEq ω] in
/-- Without that directory the path leads nowhere. -/
theorem endsAt_noDirectory (hs : TreeValid ob) (hr : ob.ObRootDirectory = some r)
    (hnone : ∀ e, ¬ DeviceDirectory ob e) (number : UInt32) :
    ∃ finish, EndsAt ob r (devicePathName number) finish
      ∧ finish.status = some .STATUS_OBJECT_PATH_NOT_FOUND := by
  obtain ⟨r', hr', hroot⟩ := hs.root
  obtain rfl := Option.some.inj (hr.symm.trans hr')
  cases hchild : child ob r "Device".toList with
  | none =>
    exact ⟨_, .gap hroot (scan_devicePathName number) (by decide) hchild (scan_deviceLeaf number)
      (deviceLeaf_fits number), rfl⟩
  | some e =>
    have hd : ¬ IsDirectory ob e := fun hd => hnone e ⟨r, hr, hchild, hd⟩
    exact ⟨_, .step hroot (scan_devicePathName number) (by decide) hchild (by simp) (.blocked hd), rfl⟩

/-! ## One creation -/

/-- **What is promised to a call**: it may make the rounds that it needs, and the pool hands out free blocks. -/
structure DeviceCall.Allowed (call : DeviceCall ω π) (s : Objects ω π) : Prop where
  steps : 18 ≤ call.steps
  memory : ∀ x, call.blocks.memory = some x → x ∉ s.ob.objects ∧ s.block (.header x) = none
  lookupBuffer : ∀ b, call.blocks.lookupBuffer = some b → s.block (.name b) = none
  insertBuffer : ∀ b, call.blocks.insertBuffer = some b → s.block (.name b) = none

/-- The attributes of the device. -/
def deviceAttributes (number : UInt32) : OBJECT_ATTRIBUTES := ⟨none, some (devicePathName number), 0⟩

/-- **What comes of a creation.** -/
inductive DeviceOutcome (call : DeviceCall ω π) (number : UInt32) (s : Objects ω π) :
    KSTATUS → Objects ω π → Prop
  /-- There is no directory or no memory. -/
  | failed {status : KSTATUS} (hstatus : status ≠ .STATUS_OBJECT_NAME_COLLISION)
      (hfails : ∀ e, DeviceDirectory s.ob e → call.blocks.lookupBuffer = none
        ∨ child s.ob e (deviceLeaf number) = none ∧ call.blocks.memory = none) : DeviceOutcome call number s status s
  /-- There is an entry with the name. -/
  | taken {e : ω} (he : DeviceDirectory s.ob e) (hbuffer : call.blocks.lookupBuffer ≠ none)
      (hchild : child s.ob e (deviceLeaf number) ≠ none) :
      DeviceOutcome call number s .STATUS_OBJECT_NAME_COLLISION s
  /-- The device is a new entry. -/
  | created {e x : ω} {s' : Objects ω π} (he : DeviceDirectory s.ob e) (hbuffer : call.blocks.lookupBuffer ≠ none)
      (hx : call.blocks.memory = some x) (hnew : x ∉ s.ob.objects)
      (hchild : child s.ob e (deviceLeaf number) = none)
      (hs' : s'.ob = withObject .OBJECT_TYPE_DEVICE (some (deviceAttributes number)) e x (deviceLeaf number) s.ob) :
      DeviceOutcome call number s .STATUS_SUCCESS s'

/-- **The creation has one of these outcomes**, if it returns. -/
theorem creation_outcome {object : Option ω} (hs : TreeValid s.ob) (hcall : call.Allowed s)
    (hrun : (call.creation (devicePathName number)).run nameSpaceTypes s = .ok (status, object, s')) :
    DeviceOutcome call number s status s' := by
  obtain ⟨r, hr, hroot⟩ := hs.root
  have hchar : ∀ c ∈ devicePathName number, c.toNat ≠ 0 := by
    intro c hc h
    refine devicePathName_char hc ?_
    rw [← Char.ofNat_toNat c, h]
  have hallowed : (call.creation (devicePathName number)).Allowed s := by
    refine ⟨fun attr hattr => ?_, fun attr hattr path hpath => ?_, fun attr hattr i hi => ?_, hcall.memory,
      hcall.lookupBuffer, hcall.insertBuffer⟩
    · obtain rfl := Option.some.inj hattr
      exact UInt32.zero_and
    · obtain rfl := Option.some.inj hattr
      obtain rfl := Option.some.inj hpath
      exact hchar
    · obtain rfl := Option.some.inj hattr
      cases hi
  have hpromised := hallowed.promised hs
  have hnames : (call.creation (devicePathName number)).Names s (deviceAttributes number) r (devicePathName number) :=
    ⟨rfl, rfl, hr⟩
  have hprepared : Prepared s r (devicePathName number) call.blocks := hpromised.prepared hnames
  have hrun' := (ObjectCreation.run_named hpromised hnames).symm.trans hrun
  have hnamed : createNamedObject nameSpaceTypes .OBJECT_TYPE_DEVICE (deviceAttributes number) r
      (devicePathName number) call.blocks s = .ok (status, object, s') := hrun'
  cases hb : call.blocks.lookupBuffer with
  | none =>
    cases hnamed.symm.trans (hprepared.createNamedObject_noNameBuffer hb)
    exact .failed (by decide) fun e _ => Or.inl hb
  | some b =>
    have hbuffer : call.blocks.lookupBuffer ≠ none := by simp [hb]
    by_cases hdevices : ∃ e, DeviceDirectory s.ob e
    · obtain ⟨e, he⟩ := hdevices
      have hends := he.endsAt hs hr number
      cases hchild : child s.ob e (deviceLeaf number) with
      | some y =>
        rw [hchild] at hends
        cases hnamed.symm.trans (hprepared.createNamedObject_collision hb hends rfl UInt32.zero_and)
        exact .taken he hbuffer (by simp [hchild])
      | none =>
        rw [hchild] at hends
        obtain ⟨context, hcreates⟩ :=
          hprepared.createNamedObject_creates nameSpaceTypes .OBJECT_TYPE_DEVICE hb hends
        have hcreate := (hcreates _).symm.trans hnamed
        cases hx : call.blocks.memory with
        | none =>
          cases hcreate.symm.trans (createNewObject_noHeader hx)
          refine .failed (by decide) fun e' he' => Or.inr ⟨?_, hx⟩
          rw [he'.unique he, hchild]
        | some x =>
          have hlength : (devicePathName number).length ≤ MAX_OBJECT_PATH := by
            rw [devicePathName_length]
            decide
          cases hb' : call.blocks.insertBuffer with
          | none =>
            have hfails := hcreate.symm.trans (hprepared.createNewObject_notInserted hx hlength hb')
            have htag : (nameSpaceTypes .OBJECT_TYPE_DEVICE : OBJECT_TYPE ω).PoolTag ≠ TAG_tjbo :=
              (by decide : (1 : UInt32) ≠ TAG_tjbo)
            rw [if_neg htag] at hfails
            cases hfails
          | some b' =>
            have hinserted := hcreate.symm.trans (hprepared.createNewObject_inserted hx hlength hb' hends)
            cases hinserted.trans (openObject_succeeds status_success)
            exact .created he hbuffer hx (hprepared.memory x hx).1 hchild withObject_eq.symm
    · obtain ⟨finish, hends, hstatus⟩ := endsAt_noDirectory hs hr (not_exists.mp hdevices) number
      cases hnamed.symm.trans (hprepared.createNamedObject_pathNotFound hb hends hstatus)
      exact .failed (by decide) fun e he => absurd ⟨e, he⟩ hdevices

/-- **`IoCreateDevice` without a name** generates one, counts on, and creates. -/
theorem ioCreateDevice_outcome (hs : TreeValid s.ob) (hcall : call.Allowed s)
    (hrun : ioCreateDevice none call number s = .ok (status, number', s')) :
    number' = number + 1 ∧ DeviceOutcome call number s status s' := by
  rw [ioCreateDevice] at hrun
  simp only [generateDeviceName_eq call.memory hcall.steps] at hrun
  rw [kernel_ok_bind] at hrun
  obtain ⟨_, hname, hrun⟩ := kernel_bind_eq_ok.mp hrun
  cases hname
  obtain ⟨⟨status', object, t⟩, hcreation, h⟩ := kernel_bind_eq_ok.mp hrun
  have houtcome := creation_outcome hs hcall hcreation
  dsimp only at h
  by_cases hstatus : K_SUCCESS status'
  · rw [if_neg (not_not_intro hstatus)] at h
    cases h
    cases houtcome with
    | created he hbuffer hx hnew hchild hs' => exact ⟨rfl, .created he hbuffer hx hnew hchild hs'⟩
    | failed _ hfails => exact ⟨rfl, .failed (by decide) hfails⟩
    | taken => cases hstatus
  · rw [if_pos hstatus] at h
    cases h
    exact ⟨rfl, houtcome⟩

omit [DecidableEq ω] in
/-- The name of the device. -/
theorem isName_namedHeader (number : UInt32) : IsName
    (namedHeader .OBJECT_TYPE_DEVICE (some (deviceAttributes number)) (deviceLeaf number)).ObjectName
    (deviceLeaf number) :=
  ⟨rfl, rfl, fun _ ha => (deviceLeaf_char ha).1⟩

/-- **A new device is an entry more**, in the one directory. -/
theorem child_withDevice (hs : TreeValid ob) (hnew : x ∉ ob.objects) {d : ω} {c : List Char} :
    child (withObject .OBJECT_TYPE_DEVICE (some (deviceAttributes number)) e x (deviceLeaf number) ob) d c
      = (child ob d c).or (if d = e ∧ deviceLeaf number = c then some x else none) := by
  have hheader : ∀ d, ∀ y ∈ ob.Head d,
      (withObject .OBJECT_TYPE_DEVICE (some (deviceAttributes number)) e x (deviceLeaf number) ob).header y
        = ob.header y :=
    fun d y hy => Ob.setHeader_of_ne _ _ fun hyx => hnew (hyx ▸ (hs.entry d y hy).1)
  have hself : (withObject .OBJECT_TYPE_DEVICE (some (deviceAttributes number)) e x (deviceLeaf number) ob).header x
      = namedHeader .OBJECT_TYPE_DEVICE (some (deviceAttributes number)) (deviceLeaf number) :=
    Ob.setHeader_self ..
  by_cases hd : d = e
  · subst hd
    have hname := isName_namedHeader number
    rw [← hself] at hname
    rw [child_append (Function.update_self ..) (fun y hy => congrArg _ (hheader d y hy)) hname]
    simp only [true_and]
  · rw [if_neg fun h => hd h.1, Option.or_none]
    exact child_congr (Function.update_of_ne hd _ _) fun y hy => congrArg _ (hheader d y hy)

/-! ## Creations in a row -/

/-- **Unnamed devices are created in a row**, from the number `number` on. -/
inductive DevicesCreated (number : UInt32) (s : Objects ω π) :
    List (DeviceCall ω π) → List KSTATUS → UInt32 → Objects ω π → Prop
  | nil : DevicesCreated number s [] [] number s
  | snoc {calls : List (DeviceCall ω π)} {statuses : List KSTATUS} {m m' : UInt32} {t t' : Objects ω π}
      {call : DeviceCall ω π} {status : KSTATUS} (h : DevicesCreated number s calls statuses m t)
      (hcall : call.Allowed t) (hrun : ioCreateDevice none call m t = .ok (status, m', t')) :
      DevicesCreated number s (calls ++ [call]) (statuses ++ [status]) m' t'

/-- There is memory for the device, if its name can be looked up. -/
def DeviceCall.Makes (call : DeviceCall ω π) : Prop :=
  call.blocks.lookupBuffer ≠ none ∧ call.blocks.memory ≠ none

/-- One of the calls, the first of which has the number `number`, has made a device with the digits of `m`. -/
def DigitsUsed (number : UInt32) (calls : List (DeviceCall ω π)) (m : UInt32) : Prop :=
  ∃ i call, calls[i]? = some call ∧ call.Makes ∧ (number + UInt32.ofNat i).toNat / 4096 = m.toNat / 4096

/-- **The next call meets the name** that it generates. -/
def Clashes (number : UInt32) (ob : Ob ω π) (calls : List (DeviceCall ω π)) (call : DeviceCall ω π) : Prop :=
  call.blocks.lookupBuffer ≠ none ∧ ∃ e, DeviceDirectory ob e
    ∧ (child ob e (deviceLeaf (number + UInt32.ofNat calls.length)) ≠ none
      ∨ DigitsUsed number calls (number + UInt32.ofNat calls.length))

variable {calls : List (DeviceCall ω π)} {statuses : List KSTATUS} {m : UInt32}

omit [DecidableEq ω] in
/-- One call more. -/
theorem digitsUsed_append : DigitsUsed number (calls ++ [call]) m ↔ DigitsUsed number calls m
    ∨ call.Makes ∧ (number + UInt32.ofNat calls.length).toNat / 4096 = m.toNat / 4096 := by
  constructor
  · rintro ⟨i, call', hi, hmakes, hdigits⟩
    by_cases hlast : i < calls.length
    · rw [List.getElem?_append_left hlast] at hi
      exact Or.inl ⟨i, call', hi, hmakes, hdigits⟩
    · rw [List.getElem?_append_right (Nat.not_lt.mp hlast), List.getElem?_singleton] at hi
      have hzero : i - calls.length = 0 := by
        by_contra hne
        rw [if_neg hne] at hi
        cases hi
      rw [if_pos hzero] at hi
      obtain rfl := Option.some.inj hi
      obtain rfl : i = calls.length := by omega
      exact Or.inr ⟨hmakes, hdigits⟩
  · rintro (⟨i, call', hi, hmakes, hdigits⟩ | ⟨hmakes, hdigits⟩)
    · have hlast : i < calls.length := (List.getElem?_eq_some_iff.mp hi).1
      exact ⟨i, call', (List.getElem?_append_left hlast).trans hi, hmakes, hdigits⟩
    · exact ⟨calls.length, call, List.getElem?_concat_length, hmakes, hdigits⟩

/-- **What holds after creations in a row.** -/
structure RowKept (number : UInt32) (s : Objects ω π) (calls : List (DeviceCall ω π)) (m : UInt32)
    (t : Objects ω π) : Prop where
  tree : TreeValid t.ob
  counter : m = number + UInt32.ofNat calls.length
  directory : ∀ e, DeviceDirectory t.ob e ↔ DeviceDirectory s.ob e
  entry : ∀ e, DeviceDirectory s.ob e → ∀ m, child t.ob e (deviceLeaf m) ≠ none
    ↔ child s.ob e (deviceLeaf m) ≠ none ∨ DigitsUsed number calls m

variable {t t' : Objects ω π}

omit [DecidableEq ω] in
/-- **A call clashes if there is an entry** with its name by then. -/
theorem RowKept.clashes_iff (h : RowKept number s calls m t) (call : DeviceCall ω π) :
    Clashes number s.ob calls call ↔ call.blocks.lookupBuffer ≠ none
      ∧ ∃ e, DeviceDirectory t.ob e ∧ child t.ob e (deviceLeaf m) ≠ none := by
  obtain ⟨-, rfl, hdirectory, hentry⟩ := h
  refine and_congr_right fun _ => exists_congr fun e => ?_
  rw [hdirectory]
  exact and_congr_right fun he => (hentry e he _).symm

omit [DecidableEq ω] in
/-- A call that changes nothing. -/
theorem RowKept.same (h : RowKept number s calls m t)
    (hmakes : ∀ e, DeviceDirectory t.ob e → call.Makes → child t.ob e (deviceLeaf m) ≠ none) :
    RowKept number s (calls ++ [call]) (m + 1) t := by
  refine ⟨h.tree, ?_, h.directory, fun e he m' => ?_⟩
  · rw [h.counter, List.length_append, List.length_singleton, UInt32.ofNat_add, UInt32.add_assoc]
    rfl
  · rw [digitsUsed_append, ← or_assoc, ← h.entry e he m', ← h.counter]
    refine ⟨Or.inl, ?_⟩
    rintro (hchild | ⟨hcall, hdigits⟩)
    · exact hchild
    · rw [← deviceLeaf_eq_iff.mpr hdigits]
      exact hmakes e ((h.directory e).mpr he) hcall

/-- The directory of the devices is the same after a device has been created in it. -/
theorem deviceDirectory_withDevice (ht : TreeValid ob) (he : DeviceDirectory ob e) (hnew : x ∉ ob.objects) (e' : ω) :
    DeviceDirectory
        (withObject .OBJECT_TYPE_DEVICE (some (deviceAttributes number)) e x (deviceLeaf number) ob) e'
      ↔ DeviceDirectory ob e' := by
  have hkept : DeviceDirectory
      (withObject .OBJECT_TYPE_DEVICE (some (deviceAttributes number)) e x (deviceLeaf number) ob) e := by
    obtain ⟨r, hr, hchild, hd⟩ := he
    refine ⟨r, hr, ?_, (buildsOn_withObject hnew ht).2 e hd⟩
    rw [child_withDevice ht hnew, hchild]
    rfl
  constructor
  · intro h
    rw [h.unique hkept]
    exact he
  · intro h
    rw [h.unique he]
    exact hkept

/-- **One creation more.** -/
theorem RowKept.outcome (h : RowKept number s calls m t) (houtcome : DeviceOutcome call m t status t') :
    RowKept number s (calls ++ [call]) (m + 1) t'
      ∧ (status = .STATUS_OBJECT_NAME_COLLISION ↔ Clashes number s.ob calls call) := by
  rw [h.clashes_iff]
  cases houtcome with
  | failed hstatus hfails =>
    refine ⟨h.same fun e he hmakes => ?_, iff_of_false hstatus ?_⟩
    · rcases hfails e he with hbuffer | ⟨-, hmemory⟩
      · exact absurd hbuffer hmakes.1
      · exact absurd hmemory hmakes.2
    · rintro ⟨hbuffer, e, he, hchild⟩
      rcases hfails e he with hnone | ⟨hnone, -⟩
      · exact hbuffer hnone
      · exact hchild hnone
  | @taken e he hbuffer hchild =>
    refine ⟨h.same fun e' he' _ => ?_, iff_of_true rfl ⟨hbuffer, e, he, hchild⟩⟩
    rw [he'.unique he]
    exact hchild
  | @created e x _ he hbuffer hx hnew hchild hs' =>
    refine ⟨⟨?_, ?_, fun e' => ?_, fun e' he' m' => ?_⟩, iff_of_false (by simp) ?_⟩
    · rw [hs']
      exact (buildsOn_withObject hnew h.tree).1
    · rw [h.counter, List.length_append, List.length_singleton, UInt32.ofNat_add, UInt32.add_assoc]
      rfl
    · rw [hs', deviceDirectory_withDevice h.tree he hnew, h.directory]
    · have hmakes : call.Makes := ⟨hbuffer, by simp [hx]⟩
      obtain rfl := ((h.directory e').mpr he').unique he
      rw [digitsUsed_append, ← or_assoc, ← h.entry e' he' m', ← h.counter, ← deviceLeaf_eq_iff, hs',
        child_withDevice h.tree hnew]
      cases child t.ob e' (deviceLeaf m') with
      | some y => simp
      | none => simp [hmakes]
    · rintro ⟨-, e', he', hentry⟩
      rw [he'.unique he] at hentry
      exact hentry hchild

/-- **Creations in a row keep all this**, and a name collision is one with a call before. -/
theorem DevicesCreated.kept (hs : TreeValid s.ob) (h : DevicesCreated number s calls statuses m t) :
    RowKept number s calls m t ∧ (.STATUS_OBJECT_NAME_COLLISION ∉ statuses
      ↔ ∀ front call, front ++ [call] <+: calls → ¬ Clashes number s.ob front call) := by
  induction h with
  | nil =>
    refine ⟨⟨hs, ?_, fun _ => Iff.rfl, fun e _ m => ?_⟩, iff_of_true List.not_mem_nil ?_⟩
    · exact (UInt32.add_zero number).symm
    · refine (or_iff_left ?_).symm
      rintro ⟨i, call, hi, -⟩
      cases hi
    · intro front call hfront
      exact absurd (List.prefix_nil.mp hfront) (by simp)
  | @snoc calls statuses m m' t t' call status h hcall hrun ih =>
    obtain ⟨hkept, hstatuses⟩ := ih
    obtain ⟨rfl, houtcome⟩ := ioCreateDevice_outcome hkept.tree hcall hrun
    obtain ⟨hkept', hstatus⟩ := hkept.outcome houtcome
    refine ⟨hkept', ?_⟩
    rw [List.mem_append, not_or, hstatuses, List.mem_singleton, eq_comm, hstatus]
    constructor
    · rintro ⟨hfronts, hlast⟩ front call' hfront
      rcases List.prefix_concat_iff.mp hfront with heq | hfront
      · obtain ⟨rfl, hcalls⟩ := List.append_inj' heq rfl
        obtain rfl := List.singleton_inj.mp hcalls
        exact hlast
      · exact hfronts front call' hfront
    · intro hall
      refine ⟨fun front call' hfront => hall front call' (hfront.trans (List.prefix_append ..)), ?_⟩
      exact hall calls call List.prefix_rfl

/-! ## Names that differ -/

omit [DecidableEq ω] in
/-- With memory for all calls, the numbers decide. -/
theorem digitsUsed_iff (hmakes : ∀ call ∈ calls, call.Makes) : DigitsUsed number calls m
    ↔ ∃ i < calls.length, (number + UInt32.ofNat i).toNat / 4096 = m.toNat / 4096 := by
  constructor
  · rintro ⟨i, call, hi, -, hdigits⟩
    exact ⟨i, (List.getElem?_eq_some_iff.mp hi).1, hdigits⟩
  · rintro ⟨i, hi, hdigits⟩
    exact ⟨i, (calls)[i], List.getElem?_eq_getElem hi, hmakes _ (List.getElem_mem hi), hdigits⟩

omit [DecidableEq ω] in
/-- With no such name at the start, a call clashes if the digits have been used. -/
theorem clashes_iff_digitsUsed (he : DeviceDirectory ob e) (hempty : ∀ m, child ob e (deviceLeaf m) = none)
    (hmakes : call.Makes) :
    Clashes number ob calls call ↔ DigitsUsed number calls (number + UInt32.ofNat calls.length) := by
  constructor
  · rintro ⟨-, e', he', hchild | hused⟩
    · rw [he'.unique he, hempty] at hchild
      exact absurd rfl hchild
    · exact hused
  · exact fun hused => ⟨hmakes.1, e, he, Or.inr hused⟩

/-- The digits change after every 4096 devices only. -/
theorem digits_succ (m : UInt32) : m.toNat / 4096 = (m + 1).toNat / 4096 ↔ (m + 1).toNat % 4096 ≠ 0 := by
  have hm := m.toNat_lt
  have hsucc : (m + 1).toNat = (m.toNat + 1) % 2 ^ 32 := UInt32.toNat_add m 1
  omega

omit [DecidableEq ω] in
/-- **Devices in a row, with memory for all**, meet no name if they are two at most. -/
theorem no_clash_iff (he : DeviceDirectory ob e) (hempty : ∀ m, child ob e (deviceLeaf m) = none)
    (hmakes : ∀ call ∈ calls, call.Makes) :
    (∀ front call, front ++ [call] <+: calls → ¬ Clashes number ob front call)
      ↔ calls.length ≤ 1 ∨ calls.length = 2 ∧ (number + 1).toNat % 4096 = 0 := by
  have hclash : ∀ front call, front ++ [call] <+: calls → (Clashes number ob front call
      ↔ ∃ i < front.length,
        (number + UInt32.ofNat i).toNat / 4096 = (number + UInt32.ofNat front.length).toNat / 4096) := by
    intro front call hfront
    rw [clashes_iff_digitsUsed he hempty (hmakes call (hfront.subset (by simp)))]
    exact digitsUsed_iff fun call' hcall' => hmakes call' (hfront.subset (List.mem_append_left _ hcall'))
  have hone : number + UInt32.ofNat 0 = number := UInt32.add_zero number
  have htwo : number + UInt32.ofNat 2 = number + UInt32.ofNat 1 + 1 := by
    rw [UInt32.add_assoc]
    rfl
  constructor
  · intro hnone
    have hdiffer : ∀ k < calls.length, ∀ i < k,
        (number + UInt32.ofNat i).toNat / 4096 ≠ (number + UInt32.ofNat k).toNat / 4096 := by
      intro k hk i hi heq
      have hfront : calls.take k ++ [(calls)[k]] <+: calls := by
        rw [List.take_append_getElem]
        exact List.take_prefix _ _
      have hlength : (calls.take k).length = k := List.length_take_of_le hk.le
      refine hnone _ _ hfront ((hclash _ _ hfront).mpr ?_)
      rw [hlength]
      exact ⟨i, hi, heq⟩
    by_cases hshort : calls.length ≤ 1
    · exact Or.inl hshort
    · have hsecond := hdiffer 1 (by omega) 0 one_pos
      rw [hone] at hsecond
      have hborder := not_not.mp fun h => hsecond ((digits_succ number).mpr h)
      refine Or.inr ⟨?_, hborder⟩
      by_contra hlong
      have hthird := hdiffer 2 (by omega) 1 (by decide)
      rw [htwo] at hthird
      have hborder' := not_not.mp fun h => hthird ((digits_succ (number + UInt32.ofNat 1)).mpr h)
      have hsucc : (number + UInt32.ofNat 1 + 1).toNat = ((number + 1).toNat + 1) % 2 ^ 32 :=
        UInt32.toNat_add (number + 1) 1
      have hlt := (number + 1).toNat_lt
      omega
  · intro hfew front call hfront hclashes
    have hlength := hfront.length_le
    rw [List.length_append, List.length_singleton] at hlength
    obtain ⟨i, hi, hdigits⟩ := (hclash front call hfront).mp hclashes
    obtain rfl : i = 0 := by omega
    have hfrontOne : front.length = 1 := by omega
    rw [hfrontOne, hone] at hdigits
    have hborder := (digits_succ number).mp hdigits
    omega

/-- The headers at the start: the root directory and the one of the devices. -/
def deviceRowHeader : DeviceAddress → OBJECT_HEADER
  | .globalDirectory => { startHeader .globalDirectory with ObjectName := bufferName "Device".toList }
  | x => startHeader x

/-- The root directory with an empty directory `\Device`. -/
def deviceRow : Objects DeviceAddress Unit where
  ob := { startSpace.ob with header := deviceRowHeader }
  block _ := none

/-- It is in order. -/
theorem deviceRow_valid : TreeValid deviceRow.ob := by
  have hobjects : ∀ x, x ∈ deviceRow.ob.objects ↔ x = .root ∨ x = .globalDirectory := by
    simp [deviceRow, startSpace]
  refine ⟨⟨.root, rfl, rfl⟩, fun d x hx => ?_, fun d hd => ?_, fun x hx => ?_⟩
  · have hx : x ∈ if d = .root then [DeviceAddress.globalDirectory] else [] := hx
    by_cases hd : d = .root
    · rw [if_pos hd, List.mem_singleton] at hx
      subst hx
      exact ⟨(hobjects _).mpr (Or.inr rfl), by simp [deviceRow, deviceRowHeader, bufferName]⟩
    · rw [if_neg hd] at hx
      cases hx
  · cases d with
    | root => exact (hobjects _).mpr (Or.inl rfl)
    | globalDirectory => exact (hobjects _).mpr (Or.inr rfl)
    | device | link | result => cases hd
  · rcases (hobjects x).mp hx with rfl | rfl
    · exact ⟨rfl, one_pos⟩
    · exact ⟨rfl, one_pos⟩

/-- `\Device`. -/
theorem deviceRow_directory : DeviceDirectory deviceRow.ob .globalDirectory :=
  ⟨.root, rfl, by decide +kernel, rfl⟩

/-- The creation of an unnamed device from the blocks `x`, `b` and `b'`. -/
def unnamedDevice (x : DeviceAddress) (b b' : Nat) : DeviceCall DeviceAddress Unit where
  memory _ := '\x00'
  steps := 18
  localBuffer _ := '\x00'
  stack _ := 0
  process := ()
  blocks := ⟨.result, some x, some b, some b'⟩

/-- A call with free blocks is allowed. -/
theorem DeviceCall.allowed_of_fresh (hsteps : 18 ≤ call.steps)
    (h : freshBlocks call.blocks s = true) : call.Allowed s := by
  have hallowed : ObjectCreation.Allowed
      ⟨.OBJECT_TYPE_DEVICE, some ⟨none, some devicePath.val, 0⟩, call.process, call.blocks⟩ s :=
    allowed_of_freshBlocks h
  exact ⟨hsteps, hallowed.memory, hallowed.lookupBuffer, hallowed.insertBuffer⟩

/-- The first device is number 1; a second one has free blocks then. -/
def secondFails (r : KSTATUS × UInt32 × Objects DeviceAddress Unit) : Bool :=
  freshBlocks (unnamedDevice .link 2 3).blocks r.2.2
    && decide ((ioCreateDevice none (unnamedDevice .link 2 3) r.2.1 r.2.2).map (fun r => r.1)
      = .ok .STATUS_OBJECT_NAME_COLLISION)

/-- **The first and the second device.** -/
theorem twoDevices : ∃ status m t, ioCreateDevice none (unnamedDevice .device 0 1) 1 deviceRow = .ok (status, m, t)
    ∧ secondFails (status, m, t) = true := by
  have hrun : (ioCreateDevice none (unnamedDevice .device 0 1) 1 deviceRow).map secondFails = .ok true := by
    decide +kernel
  cases hfirst : ioCreateDevice none (unnamedDevice .device 0 1) 1 deviceRow with
  | error e =>
    rw [hfirst] at hrun
    cases hrun
  | ok r =>
    rw [hfirst] at hrun
    exact ⟨r.1, r.2.1, r.2.2, rfl, Except.ok.inj hrun⟩

/-- The first device has been created. -/
theorem firstDevice {status : KSTATUS} {m : UInt32} {t : Objects DeviceAddress Unit}
    (hrun : ioCreateDevice none (unnamedDevice .device 0 1) 1 deviceRow = .ok (status, m, t)) :
    DevicesCreated 1 deviceRow [unnamedDevice .device 0 1] [status] m t :=
  .snoc .nil (DeviceCall.allowed_of_fresh (le_refl 18) (by decide +kernel)) hrun

end KaushOS
