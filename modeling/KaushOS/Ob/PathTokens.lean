import KaushOS.Ob.CreateRuns
import KaushOS.Ob.Resolution

/-! # Taking a path apart (`kern/ob/obname.c`, `lib/string.c`)

`ObParseDirectoryPath` copies one component into the name buffer and puts a `'\0'` behind it. Here the buffer
is memory: each store to it is kept with its offset.

* **`strncpyStores`** — the stores of `strncpy`.
* **`obParseDirectoryPathStores`** — one call, with its stores; `obParseDirectoryPath_stores` says that it is
  the call of which only the string in the buffer is kept.
* **`Tokenises`** — call after call, until one returns `FALSE`.
* **`path_tokens_iff`** — a path is taken apart within the buffer exactly if its components leave room for
  the `'\0'`. -/

namespace KaushOS

open Paths

/-! ## Stores -/

/-- The loop of `strncpy(dst, src, size)`, `size` bytes before its end: the stores, with their offsets from
the start of `dst`. -/
def strncpyStores (src : List Char) (i : Nat) : Nat → List (Nat × Char)
  | 0 => []
  | size + 1 =>
    (i, src.headD '\x00') ::
      strncpyStores (if (src.headD '\x00').toNat ≠ 0 then src.tail else src) (i + 1) size

/-- The buffer after some stores. -/
def writeAll (stores : List (Nat × Char)) (buffer : Nat → Char) : Nat → Char :=
  stores.foldl (fun b store => Function.update b store.1 store.2) buffer

/-- **The buffer holds the string** `c`, up to its `'\0'`. -/
def HoldsString (buffer : Nat → Char) (c : List Char) : Prop :=
  (∀ k (hk : k < c.length), buffer k = (c)[k]) ∧ buffer c.length = '\x00'

/-! ## One call -/

/-- What a call of `ObParseDirectoryPath` that finds a component does: its stores to `DirName->Buffer`, the
new `DirName->Length`, and `*ParsedTill`. -/
structure ParsedComponent where
  stores : List (Nat × Char)
  Length : Nat
  ParsedTill : List Char

/-- **`ObParseDirectoryPath(Name, DirName, ParsedTill)`** with its stores; `none` when it returns `FALSE`. -/
def obParseDirectoryPathStores (name : List Char) (maximumLength : Nat) : Kernel (Option ParsedComponent) :=
  match name.dropWhile isPathSeperator with
  | [] => .ok none
  | c :: rest => do
    let length := (c :: rest.takeWhile fun c => !isPathSeperator c).length
    assert (length ≤ maximumLength) "Length <= DirName->MaximumLength"
    return some
      { stores := strncpyStores (c :: rest) 0 (min length maximumLength) ++ [(length, '\x00')]
        Length := length
        ParsedTill := rest.dropWhile fun c => !isPathSeperator c }

/-- **Call after call**: the path is taken apart into the given components. Each call leaves its component
in the buffer, with its length, stores nothing outside the buffer, and the last call returns `FALSE`. -/
inductive Tokenises (maximumLength : Nat) : (Nat → Char) → List Char → List (List Char) → Prop
  | done {buffer : Nat → Char} {path : List Char}
      (hparse : obParseDirectoryPathStores path maximumLength = .ok none) :
      Tokenises maximumLength buffer path []
  | next {buffer : Nat → Char} {path c : List Char} {cs : List (List Char)} {r : ParsedComponent}
      (hparse : obParseDirectoryPathStores path maximumLength = .ok (some r))
      (hlength : r.Length = c.length) (hstring : HoldsString (writeAll r.stores buffer) c)
      (hstores : ∀ store ∈ r.stores, store.1 < maximumLength)
      (hrest : Tokenises maximumLength (writeAll r.stores buffer) r.ParsedTill cs) :
      Tokenises maximumLength buffer path (c :: cs)

/-! ## What `strncpy` stores -/

variable {path c rest : List Char} {maximumLength i size : Nat} {buffer : Nat → Char}

/-- **Copying a part of a string** stores its characters one after the other. -/
theorem strncpyStores_eq (hc : ∀ a ∈ c, a.toNat ≠ 0) :
    strncpyStores (c ++ rest) i c.length = (List.range' i c.length).zip c := by
  induction c generalizing i with
  | nil => rfl
  | cons a c ih =>
    have ha : (a.toNat ≠ 0) := hc a List.mem_cons_self
    rw [List.length_cons, strncpyStores, List.range'_succ, List.zip_cons_cons]
    simp only [List.cons_append, List.headD_cons, List.tail_cons, ha, ne_eq, not_false_eq_true, if_true]
    rw [ih fun b hb => hc b (List.mem_cons_of_mem a hb)]

/-- Stores elsewhere leave a byte alone. -/
theorem writeAll_of_forall_ne {stores : List (Nat × Char)} {k : Nat} (h : ∀ store ∈ stores, store.1 ≠ k) :
    writeAll stores buffer k = buffer k := by
  induction stores generalizing buffer with
  | nil => rfl
  | cons store stores ih =>
    show writeAll stores (Function.update buffer store.1 store.2) k = buffer k
    rw [ih fun s hs => h s (List.mem_cons_of_mem _ hs),
      Function.update_of_ne (h store List.mem_cons_self).symm]

/-- The offsets of a copy. -/
theorem mem_copy_offset {store : Nat × Char} (h : store ∈ (List.range' i c.length).zip c) :
    i ≤ store.1 ∧ store.1 < i + c.length := by
  have hmem := (List.of_mem_zip h).1
  rwa [List.mem_range'_1] at hmem

/-- The bytes that a copy leaves. -/
theorem writeAll_copy {k : Nat} (hk : k < c.length) :
    writeAll ((List.range' i c.length).zip c) buffer (i + k) = (c)[k] := by
  induction c generalizing i k buffer with
  | nil => exact absurd hk (Nat.not_lt_zero k)
  | cons a c ih =>
    rw [List.length_cons, List.range'_succ, List.zip_cons_cons]
    show writeAll ((List.range' (i + 1) c.length).zip c) (Function.update buffer i a) (i + k) = _
    cases k with
    | zero =>
      have hother : ∀ store ∈ (List.range' (i + 1) c.length).zip c, store.1 ≠ i := by
        intro store hstore
        have hoffset := (mem_copy_offset hstore).1
        omega
      exact (writeAll_of_forall_ne hother).trans (Function.update_self ..)
    | succ k =>
      have hk' : k < c.length := Nat.lt_of_succ_lt_succ hk
      have hoffset : i + (k + 1) = i + 1 + k := by omega
      exact (congrArg _ hoffset).trans (ih hk')

/-! ## What a call does -/

/-- **A call scans**: it copies the next component, if that fits the buffer. -/
theorem obParseDirectoryPathStores_eq (hpath : ∀ a ∈ path, a.toNat ≠ 0)
    (hscan : scan isPathSeperator path = some (c, rest)) (hfit : c.length ≤ maximumLength) :
    obParseDirectoryPathStores path maximumLength
      = .ok (some ⟨(List.range' 0 c.length).zip c ++ [(c.length, '\x00')], c.length, rest⟩) := by
  have hmem := (scan_eq_some hscan).2.2.2.1
  obtain ⟨a, r, hdrop, rfl, rfl⟩ := dropWhile_of_scan hscan
  have hrun : a :: r = (a :: r.takeWhile fun b => !isPathSeperator b)
      ++ r.dropWhile fun b => !isPathSeperator b := by
    rw [List.cons_append, List.takeWhile_append_dropWhile]
  have hcopy : strncpyStores (a :: r) 0 (a :: r.takeWhile fun b => !isPathSeperator b).length
      = (List.range' 0 (a :: r.takeWhile fun b => !isPathSeperator b).length).zip
        (a :: r.takeWhile fun b => !isPathSeperator b) := by
    conv_lhs => rw [hrun]
    exact strncpyStores_eq fun b hb => hpath b (hmem b hb)
  rw [obParseDirectoryPathStores, hdrop]
  simp only
  rw [assert_of_true hfit, kernel_ok_bind, min_eq_left hfit, hcopy]
  rfl

/-- A call that finds no component. -/
theorem obParseDirectoryPathStores_none (hscan : scan isPathSeperator path = none) :
    obParseDirectoryPathStores path maximumLength = .ok none := by
  rw [obParseDirectoryPathStores, dropWhile_of_scan_none hscan]

/-- A component that does not fit the buffer fails the assertion. -/
theorem obParseDirectoryPathStores_long (hscan : scan isPathSeperator path = some (c, rest))
    (hlong : maximumLength < c.length) :
    obParseDirectoryPathStores path maximumLength
      = .error (.assertion "Length <= DirName->MaximumLength") := by
  obtain ⟨a, r, hdrop, rfl, rfl⟩ := dropWhile_of_scan hscan
  rw [obParseDirectoryPathStores, hdrop]
  exact congrArg (· >>= _) (assert_of_not (Nat.not_le.mpr hlong) _)

/-- The same for the call of which only the string is kept. -/
theorem obParseDirectoryPath_long {dirName : UNICODE_STRING}
    (hscan : scan isPathSeperator path = some (c, rest)) (hlong : dirName.MaximumLength < c.length) :
    obParseDirectoryPath path dirName = .error (.assertion "Length <= DirName->MaximumLength") := by
  obtain ⟨a, r, hdrop, rfl, rfl⟩ := dropWhile_of_scan hscan
  rw [obParseDirectoryPath, hdrop]
  exact congrArg (· >>= _) (assert_of_not (Nat.not_le.mpr hlong) _)

/-- **The call of which only the string is kept** is this one: the string is what it has stored in front of
the `'\0'`. -/
theorem obParseDirectoryPath_stores (hpath : ∀ a ∈ path, a.toNat ≠ 0) (dirName : UNICODE_STRING) :
    obParseDirectoryPath path dirName
      = (obParseDirectoryPathStores path dirName.MaximumLength).map fun r => r.map fun r =>
          ({ dirName with Buffer := some (r.stores.dropLast.map Prod.snd), Length := r.Length },
            r.ParsedTill) := by
  cases hscan : scan isPathSeperator path with
  | none =>
    rw [obParseDirectoryPathStores_none hscan, obParseDirectoryPath_eq (by simp [hscan]), hscan]
    rfl
  | some r =>
    obtain ⟨c, rest⟩ := r
    by_cases hfit : c.length ≤ dirName.MaximumLength
    · rw [obParseDirectoryPathStores_eq hpath hscan hfit, obParseDirectoryPath_eq (by simp [hscan, hfit]), hscan]
      simp [Except.map, componentName, List.map_snd_zip]
    · rw [obParseDirectoryPathStores_long hscan (Nat.not_le.mp hfit),
        obParseDirectoryPath_long hscan (Nat.not_le.mp hfit)]
      rfl

/-! ## Taking a path apart -/

/-- A call that fits its component together with the `'\0'` leaves both in the buffer. -/
theorem holdsString_copy :
    HoldsString (writeAll ((List.range' 0 c.length).zip c ++ [(c.length, '\x00')]) buffer) c := by
  have happend : writeAll ((List.range' 0 c.length).zip c ++ [(c.length, '\x00')]) buffer
      = Function.update (writeAll ((List.range' 0 c.length).zip c) buffer) c.length '\x00' := by
    simp [writeAll]
  rw [happend]
  refine ⟨fun k hk => ?_, Function.update_self ..⟩
  have hcopy : writeAll ((List.range' 0 c.length).zip c) buffer (0 + k) = (c)[k] := writeAll_copy hk
  rw [Nat.zero_add] at hcopy
  rw [Function.update_of_ne (Nat.ne_of_lt hk), hcopy]

/-- The offsets that a call stores to lie in the buffer if and only if the `'\0'` does. -/
theorem stores_inside_iff :
    (∀ store ∈ (List.range' 0 c.length).zip c ++ [(c.length, '\x00')], store.1 < maximumLength)
      ↔ c.length < maximumLength := by
  constructor
  · intro h
    exact h (c.length, '\x00') (by simp)
  · intro hlt store hstore
    rcases List.mem_append.mp hstore with hcopy | hend
    · have hoffset := (mem_copy_offset hcopy).2
      omega
    · obtain rfl := List.mem_singleton.mp hend
      exact hlt

/-- **A first call that is as it is to be** has a component that leaves room for the `'\0'`, and goes on with
the rest of the path. -/
theorem Tokenises.of_scan {c' : List Char} {cs : List (List Char)} (hpath : ∀ a ∈ path, a.toNat ≠ 0)
    (hscan : scan isPathSeperator path = some (c, rest))
    (h : Tokenises maximumLength buffer path (c' :: cs)) :
    c.length < maximumLength ∧ ∃ buffer', Tokenises maximumLength buffer' rest cs := by
  cases h with
  | next hparse hlength hstring hstores hcalls =>
    have hfit : c.length ≤ maximumLength := by
      by_contra hlong
      rw [obParseDirectoryPathStores_long hscan (Nat.not_le.mp hlong)] at hparse
      cases hparse
    rw [obParseDirectoryPathStores_eq hpath hscan hfit] at hparse
    obtain rfl := Option.some.inj (Except.ok.inj hparse)
    exact ⟨stores_inside_iff.mp hstores, _, hcalls⟩

/-- **A path is taken apart into its components, within the buffer, if and only if each of them leaves room
for the `'\0'`.** -/
theorem path_tokens_iff (path : CString) (maximumLength : Nat) (buffer : Nat → Char) :
    Tokenises maximumLength buffer path.1 (pathComponents path.1)
      ↔ ∀ c ∈ pathComponents path.1, c.length < maximumLength := by
  obtain ⟨path, hpath⟩ := path
  show Tokenises maximumLength buffer path (pathComponents path) ↔ ∀ c ∈ pathComponents path, _
  -- induction on the length of what is left of the path
  induction hn : path.length using Nat.strong_induction_on generalizing path buffer with
  | _ n ih =>
    cases hscan : scan isPathSeperator path with
    | none =>
      rw [pathComponents, scan_eq_none hscan]
      exact ⟨fun _ c hc => absurd hc List.not_mem_nil,
        fun _ => .done (obParseDirectoryPathStores_none hscan)⟩
    | some r =>
      obtain ⟨c, rest⟩ := r
      obtain ⟨hcomponents, -, hshorter, -, hmem, -⟩ := scan_eq_some hscan
      have hrest : ∀ a ∈ rest, a.toNat ≠ 0 := fun a ha => hpath a (hmem a ha)
      have ih' := fun buffer => ih rest.length (hn ▸ hshorter) buffer rest hrest rfl
      rw [pathComponents, hcomponents, List.forall_mem_cons]
      constructor
      · intro h
        obtain ⟨hlt, buffer', hcalls⟩ := h.of_scan hpath hscan
        exact ⟨hlt, (ih' buffer').mp hcalls⟩
      · rintro ⟨hlt, hall⟩
        exact .next (obParseDirectoryPathStores_eq hpath hscan hlt.le) rfl holdsString_copy
          (stores_inside_iff.mpr hlt) ((ih' _).mpr hall)

/-- A component of 128 letters. -/
def longComponent : CString := ⟨List.replicate 128 'a', fun c hc => by simp [List.eq_of_mem_replicate hc]⟩

/-- **A component as long as the buffer** has its `'\0'` stored behind the buffer. -/
theorem path_tokens_fail :
    ¬ Tokenises MAX_OBJECT_NAME_SIZE (fun _ => '\x00') longComponent.1 (pathComponents longComponent.1) := by
  have hscan : scan isPathSeperator longComponent.1 = some (longComponent.1, []) := by decide
  intro h
  rw [pathComponents, (scan_eq_some hscan).1] at h
  have hlt := (h.of_scan longComponent.2 hscan).1
  rw [MAX_OBJECT_NAME_SIZE, longComponent, List.length_replicate] at hlt
  exact Nat.lt_irrefl 128 hlt

end KaushOS
