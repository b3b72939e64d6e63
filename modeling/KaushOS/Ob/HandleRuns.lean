import KaushOS.Library.Transition
import KaushOS.Ob.AccountingRuns

/-! # Handle tables without a lock (`kern/ob/obhandle.c`)

No lock protects a handle table: `ObInsertHandle` goes from entry to entry with a compare-exchange
while other threads insert and remove. Here every load, store and exchange of an entry is a step of
its own.

* **`HandleCall`** — what a thread is in the middle of.
* **`HandleMachine.step`** — the single steps of `ObInsertHandle`, `ObLookupObjectByHandle` and
  `ObRemoveHandle`.
* **`HandleMachine.Valid`** — the entries belong to the handles that are live and to the insertions
  that have found them.
* **`handleSystem_valid`** — so it is in every run. -/

namespace KaushOS

open Transition

/-! ## Calls and machines -/

/-- `OB_INVALID_HANDLE`, as a `HANDLE`. -/
def OB_INVALID_HANDLE : Nat := 2 ^ 32 - 1

/-- **What a thread is in the middle of.** `changed` records whether the call of `ObInsertHandle` has
changed an entry, and the object `x` of a lookup is the one that the handle was inserted with. -/
inductive HandleCall (ω : Type)
  | idle
  /-- `ObInsertHandle`, in front of the exchange at entry `i`. -/
  | exchange (x : ω) (i : Nat) (changed : Bool)
  /-- `ObInsertHandle`, in front of the assertion in the loop. -/
  | exchanged (x : ω) (i : Nat) (changed : Bool)
  /-- `ObInsertHandle`, in front of the assertions behind the loop. -/
  | found (x : ω) (i : Nat) (changed : Bool)
  /-- `ObInsertHandle` has returned. -/
  | inserted (status : KSTATUS) (handle : Nat) (changed : Bool)
  /-- `ObLookupObjectByHandle`, in front of the load. -/
  | load (handle : Nat) (x : ω)
  /-- `ObLookupObjectByHandle` has returned. -/
  | lookedUp (handle : Nat) (x : ω) (result : HANDLE_TABLE_ENTRY ω)
  /-- `ObRemoveHandle`, in front of the assertion about the entry. -/
  | verify (handle : Nat) (x : ω)
  /-- `ObRemoveHandle`, in front of the store. -/
  | store (handle : Nat) (x : ω)
  deriving DecidableEq

/-- Whether a thread is in none of the routines. -/
def HandleCall.Outside {ω : Type} : HandleCall ω → Prop
  | .idle | .inserted _ _ _ | .lookedUp _ _ _ => True
  | _ => False

/-- The entry that an insertion has found. -/
def HandleCall.taken {ω : Type} : HandleCall ω → Option Nat
  | .exchanged _ i _ | .found _ i _ => some i
  | _ => none

/-- **A handle table and the threads that use it.** `live` lists the handles that have been returned
and not been removed, each with its owner and with the object that was inserted. -/
structure HandleMachine (τ ω : Type) where
  Handle : HandlePage ω
  call : τ → HandleCall ω
  live : List (τ × Nat × ω)

/-- What a thread does next, where it has a choice. -/
inductive HandleAction (τ ω : Type)
  /-- It calls `ObInsertHandle`. -/
  | insert (x : ω)
  /-- It calls `ObLookupObjectByHandle` for a handle that was inserted with `x`. -/
  | lookup (handle : Nat) (x : ω)
  /-- It calls `ObRemoveHandle`. -/
  | remove (handle : Nat) (x : ω)
  /-- It hands its handle over to the thread `u`. -/
  | give (handle : Nat) (x : ω) (u : τ)
  /-- It goes on in the routine. -/
  | go
  deriving DecidableEq

variable {τ ω : Type} [DecidableEq τ] [DecidableEq ω]

/-- A load of an entry. -/
def loadEntry (page : HandlePage ω) (i : Nat) : Kernel (HANDLE_TABLE_ENTRY ω) :=
  if h : i < EX_MAX_HANDLE then .ok (page ⟨i, h⟩) else .error .nullPointer

/-- A store to an entry. -/
def storeEntry (page : HandlePage ω) (i : Nat) (e : HANDLE_TABLE_ENTRY ω) : HandlePage ω :=
  fun j => if j.val = i then e else page j

/-- The value that `InterlockedCompareExchangePointer(Destination, Exchange, Comperand)` leaves in
`Destination`. -/
def interlockedCompareExchangePointer (destination exchange comperand : HANDLE_TABLE_ENTRY ω) :
    HANDLE_TABLE_ENTRY ω :=
  if destination = comperand then exchange else destination

namespace HandleMachine

/-- Thread `t` is in the middle of `c`. -/
def setCall (m : HandleMachine τ ω) (t : τ) (c : HandleCall ω) : HandleMachine τ ω :=
  { m with call := Function.update m.call t c }

/-- **A step inside a routine.** -/
def go (m : HandleMachine τ ω) (t : τ) : Kernel (HandleMachine τ ω) :=
  match m.call t with
  | .exchange x i changed =>
    if i < EX_MAX_HANDLE then do
      let retValue ← loadEntry m.Handle i
      let new := interlockedCompareExchangePointer retValue (.object x) .invalid
      let m := { m with Handle := storeEntry m.Handle i new }
      let changed := changed || decide (new ≠ retValue)
      return m.setCall t
        (if retValue = .invalid then .exchanged x i changed else .exchange x (i + 1) changed)
    else
      .ok (m.setCall t (.inserted .STATUS_TOO_MANY_OPENED_FILES OB_INVALID_HANDLE changed))
  | .exchanged x i changed => do
    let object ← loadEntry m.Handle i
    assert (object = .object x) "HandleTable->Handle[i].Object == Object"
    return m.setCall t (.found x i changed)
  | .found x i changed => do
    assert (i < EX_MAX_HANDLE) "i < EX_MAX_HANDLE"
    let object ← loadEntry m.Handle i
    assert (object = .object x) "HandleTable->Handle[i].Object == Object"
    return { m with live := (t, i, x) :: m.live }.setCall t (.inserted .STATUS_SUCCESS i changed)
  | .load handle x => do
    let object ← loadEntry m.Handle handle
    return m.setCall t (.lookedUp handle x object)
  | .verify handle x => do
    let object ← loadEntry m.Handle handle
    assert (object = .object x) "HandleTable->Handle[Handle].Object == Object"
    return m.setCall t (.store handle x)
  | .store handle x =>
    .ok ({ m with
      Handle := storeEntry m.Handle handle .invalid
      live := m.live.erase (t, handle, x) }.setCall t .idle)
  | .idle | .inserted _ _ _ | .lookedUp _ _ _ => .ok m

/-- **A step of a thread.** -/
def step (m : HandleMachine τ ω) (t : τ) : HandleAction τ ω → Kernel (HandleMachine τ ω)
  | .insert x => .ok (m.setCall t (.exchange x 0 false))
  | .lookup handle x => do
    assert (handle < EX_MAX_HANDLE) "Handle < EX_MAX_HANDLE"
    assert (handle ≠ OB_INVALID_HANDLE) "Handle != OB_INVALID_HANDLE"
    return m.setCall t (.load handle x)
  | .remove handle x => do
    assert (handle < EX_MAX_HANDLE) "Handle < EX_MAX_HANDLE"
    assert (handle ≠ OB_INVALID_HANDLE) "Handle != OB_INVALID_HANDLE"
    return m.setCall t (.verify handle x)
  | .give handle x u =>
    .ok { m with live := m.live.map fun e => if e = (t, handle, x) then (u, handle, x) else e }
  | .go => m.go t

/-- **Which steps a thread takes**: it looks up and removes handles that it owns. -/
def Enabled (m : HandleMachine τ ω) (t : τ) : HandleAction τ ω → Prop
  | .insert _ => (m.call t).Outside
  | .lookup handle x | .remove handle x | .give handle x _ =>
    (m.call t).Outside ∧ (t, handle, x) ∈ m.live
  | .go => ¬ (m.call t).Outside

end HandleMachine

/-- **The system of threads that use one handle table**, which `ObAllocateHandleTable` has made of a
page of any contents. -/
def handleSystem (τ ω : Type) [DecidableEq τ] [DecidableEq ω] :
    System (τ × HandleAction τ ω) (HandleMachine τ ω) where
  init m := (∃ (s s' : Ob ω Unit) (page : HandlePage ω),
      obAllocateHandleTable () none false (some page) s = .ok (.STATUS_SUCCESS, s')
      ∧ m.Handle = s'.Handle ())
    ∧ (∀ t, m.call t = .idle) ∧ m.live = []
  step _ m e m' := m.Enabled e.1 e.2 ∧ m.step e.1 e.2 = .ok m'

/-! ## Entries -/

/-- Entry `i` of the table holds the object `x`. -/
def HandleMachine.Has (m : HandleMachine τ ω) (i : Nat) (x : ω) : Prop :=
  loadEntry m.Handle i = .ok (.object x)

omit [DecidableEq ω] in
/-- An entry that holds an object is one of the table. -/
theorem lt_of_loadEntry {page : HandlePage ω} {i : Nat} {e : HANDLE_TABLE_ENTRY ω}
    (h : loadEntry page i = .ok e) : i < EX_MAX_HANDLE := by
  unfold loadEntry at h
  split at h
  · assumption
  · cases h

omit [DecidableEq ω] in
/-- The entries of the table can be loaded. -/
theorem loadEntry_of_lt {page : HandlePage ω} {i : Nat} (h : i < EX_MAX_HANDLE) :
    loadEntry page i = .ok (page ⟨i, h⟩) := dif_pos h

omit [DecidableEq ω] in
/-- A load after a store. -/
theorem loadEntry_storeEntry {page : HandlePage ω} {i j : Nat} {e : HANDLE_TABLE_ENTRY ω}
    (hi : i < EX_MAX_HANDLE) :
    loadEntry (storeEntry page j e) i = if i = j then .ok e else loadEntry page i := by
  rw [loadEntry_of_lt hi, loadEntry_of_lt hi, storeEntry]
  split
  · rfl
  · rfl

omit [DecidableEq ω] in
/-- A store elsewhere leaves an entry alone. -/
theorem loadEntry_store_of_ne {page : HandlePage ω} {i j : Nat} {e e' : HANDLE_TABLE_ENTRY ω}
    (h : loadEntry page i = .ok e) (hne : i ≠ j) : loadEntry (storeEntry page j e') i = .ok e := by
  rw [loadEntry_storeEntry (lt_of_loadEntry h), if_neg hne, h]

/-! ## The invariant -/

/-- What a thread knows in the middle of a call. -/
def HandleMachine.CallValid (m : HandleMachine τ ω) (t : τ) : HandleCall ω → Prop
  | .idle => True
  | .exchange _ _ changed => changed = false
  | .exchanged x i _ | .found x i _ => m.Has i x ∧ ∀ u y, (u, i, y) ∉ m.live
  | .inserted status handle changed =>
    status = .STATUS_TOO_MANY_OPENED_FILES → handle = OB_INVALID_HANDLE ∧ changed = false
  | .load handle x | .verify handle x | .store handle x => (t, handle, x) ∈ m.live
  | .lookedUp _ x result => result = .object x

/-- **The invariant of a handle table**: a live handle is live once, and its entry holds its object;
an entry that an insertion has found belongs to that insertion alone. -/
structure HandleMachine.Valid (m : HandleMachine τ ω) : Prop where
  entry : ∀ t i x, (t, i, x) ∈ m.live → m.Has i x
  distinct : (m.live.map fun e => e.2.1).Nodup
  calls : ∀ t, m.CallValid t (m.call t)
  apart : ∀ t u i, (m.call t).taken = some i → (m.call u).taken = some i → t = u

section Steps

variable {m m' : HandleMachine τ ω} {t u : τ} {i j : Nat} {x y : ω} {c : HandleCall ω}

omit [DecidableEq τ] [DecidableEq ω] in
/-- A handle has one owner and one object. -/
theorem HandleMachine.Valid.unique (h : m.Valid) (ht : (t, i, x) ∈ m.live)
    (hu : (u, i, y) ∈ m.live) : t = u ∧ x = y := by
  have heq := List.inj_on_of_nodup_map h.distinct ht hu rfl
  cases heq
  exact ⟨rfl, rfl⟩

omit [DecidableEq τ] [DecidableEq ω] in
/-- What the other threads know stays true if the entries that matter to them are left alone. -/
theorem HandleMachine.CallValid.frame (h : m.CallValid t c)
    (hhas : ∀ i x, c.taken = some i → m.Has i x → m'.Has i x)
    (hlive : ∀ i x, (t, i, x) ∈ m.live → (t, i, x) ∈ m'.live)
    (hnew : ∀ i, c.taken = some i → ∀ u y, (u, i, y) ∈ m'.live → ∃ v z, (v, i, z) ∈ m.live) :
    m'.CallValid t c := by
  cases c with
  | idle => trivial
  | exchange _ _ _ | inserted _ _ _ | lookedUp _ _ _ => exact h
  | exchanged x i _ | found x i _ =>
    refine ⟨hhas i x rfl h.1, fun u y hmem => ?_⟩
    obtain ⟨v, z, hold⟩ := hnew i rfl u y hmem
    exact h.2 v z hold
  | load i x | verify i x | store i x => exact hlive i x h

omit [DecidableEq ω] in
/-- What has been found is what was found before, when a thread goes on without finding an entry. -/
theorem HandleMachine.taken_of_update (htaken : ∀ i, c.taken = some i → (m.call t).taken = some i) {u : τ} {i : Nat}
    (hu : (Function.update m.call t c u).taken = some i) : (m.call u).taken = some i := by
  by_cases hut : u = t
  · subst hut
    rw [Function.update_self] at hu
    exact htaken i hu
  · rwa [Function.update_of_ne hut] at hu

omit [DecidableEq ω] in
/-- **A step that touches neither entries nor handles**, and finds no entry. -/
theorem HandleMachine.Valid.setCall (h : m.Valid) (hc : m.CallValid t c)
    (htaken : ∀ i, c.taken = some i → (m.call t).taken = some i) : (m.setCall t c).Valid := by
  have hcall : ∀ u, u ≠ t → (m.setCall t c).call u = m.call u := by
    intro u hu
    exact Function.update_of_ne hu c m.call
  have hself : (m.setCall t c).call t = c := by
    simp [HandleMachine.setCall]
  refine ⟨h.entry, h.distinct, fun u => ?_, fun u v i hu hv => ?_⟩
  · by_cases hut : u = t
    · subst hut
      rw [hself]
      exact hc
    · rw [hcall u hut]
      exact h.calls u
  · exact h.apart u v i (m.taken_of_update htaken hu) (m.taken_of_update htaken hv)

omit [DecidableEq ω] in
/-- **An exchange that finds a free entry.** -/
theorem HandleMachine.Valid.take (h : m.Valid) {changed : Bool}
    (hfree : loadEntry m.Handle i = .ok .invalid) :
    ({ m with Handle := storeEntry m.Handle i (.object x) }.setCall t
      (.exchanged x i changed)).Valid := by
  have hlt := lt_of_loadEntry hfree
  have hhas : ∀ j y, m.Has j y → loadEntry (storeEntry m.Handle i (.object x)) j = .ok (.object y) := by
    intro j y hj
    refine loadEntry_store_of_ne hj ?_
    rintro rfl
    have hval := hj.symm.trans hfree
    cases hval
  have hnot : ∀ u y, (u, i, y) ∉ m.live := by
    intro u y hmem
    have hval := (h.entry u i y hmem).symm.trans hfree
    cases hval
  have hself : loadEntry (storeEntry m.Handle i (.object x)) i = .ok (.object x) := by
    rw [loadEntry_storeEntry hlt, if_pos rfl]
  -- nobody else has found this entry, because it was free
  have hother : ∀ u, (m.call u).taken ≠ some i := by
    intro u hu
    have hcall := h.calls u
    cases hc : m.call u with
    | exchanged y j c | found y j c =>
      rw [hc] at hu hcall
      obtain rfl : j = i := Option.some.inj hu
      have hval := hcall.1.symm.trans hfree
      cases hval
    | idle | exchange _ _ _ | inserted _ _ _ | load _ _ | lookedUp _ _ _ | verify _ _ | store _ _ =>
      rw [hc] at hu
      cases hu
  refine ⟨fun u j y hmem => hhas j y (h.entry u j y hmem), h.distinct, fun u => ?_, ?_⟩
  · by_cases hut : u = t
    · subst hut
      show HandleMachine.CallValid _ u (Function.update m.call u _ u)
      rw [Function.update_self]
      exact ⟨hself, hnot⟩
    · show HandleMachine.CallValid _ u (Function.update m.call t _ u)
      rw [Function.update_of_ne hut]
      refine (h.calls u).frame (fun j y _ hj => hhas j y hj) (fun _ _ hmem => hmem) ?_
      exact fun j _ v y hmem => ⟨v, y, hmem⟩
  · intro u v j hu hv
    have hcase : ∀ w, (Function.update m.call t (.exchanged x i changed) w).taken = some j →
        w = t ∧ j = i ∨ w ≠ t ∧ (m.call w).taken = some j := by
      intro w hw
      by_cases hwt : w = t
      · subst hwt
        rw [Function.update_self] at hw
        exact Or.inl ⟨rfl, (Option.some.inj hw).symm⟩
      · rw [Function.update_of_ne hwt] at hw
        exact Or.inr ⟨hwt, hw⟩
    rcases hcase u hu with ⟨hut, hji⟩ | ⟨-, hold⟩
    · rcases hcase v hv with ⟨hvt, -⟩ | ⟨-, hold⟩
      · rw [hut, hvt]
      · exact absurd (hji ▸ hold) (hother v)
    · rcases hcase v hv with ⟨-, hji⟩ | ⟨-, hold'⟩
      · exact absurd (hji ▸ hold) (hother u)
      · exact h.apart u v j hold hold'

omit [DecidableEq ω] in
/-- **An insertion returns**: its entry becomes a live handle. -/
theorem HandleMachine.Valid.return (h : m.Valid) {changed : Bool}
    (hcall : m.call t = .found x i changed) :
    ({ m with live := (t, i, x) :: m.live }.setCall t
      (.inserted .STATUS_SUCCESS i changed)).Valid := by
  have hvalid := h.calls t
  rw [hcall] at hvalid
  obtain ⟨hhas, hnew⟩ := hvalid
  refine ⟨?_, ?_, fun u => ?_, ?_⟩
  · intro u j y hmem
    rcases List.mem_cons.mp hmem with heq | hmem
    · cases heq
      exact hhas
    · exact h.entry u j y hmem
  · refine List.nodup_cons.mpr ⟨?_, h.distinct⟩
    intro hmem
    obtain ⟨⟨u, j, y⟩, hlive, hj⟩ := List.mem_map.mp hmem
    obtain rfl : j = i := hj
    exact hnew u y hlive
  · by_cases hut : u = t
    · subst hut
      show HandleMachine.CallValid _ u (Function.update m.call u _ u)
      rw [Function.update_self]
      intro hstatus
      cases hstatus
    · show HandleMachine.CallValid _ u (Function.update m.call t _ u)
      rw [Function.update_of_ne hut]
      refine (h.calls u).frame (fun _ _ _ hj => hj) (fun _ _ => List.mem_cons_of_mem _) ?_
      intro j hj v y hmem
      rcases List.mem_cons.mp hmem with heq | hmem
      · cases heq
        exact absurd (h.apart u t i hj (by rw [hcall]; rfl)) hut
      · exact ⟨v, y, hmem⟩
  · intro u v j hu hv
    have hnone : ∀ k, (HandleCall.inserted .STATUS_SUCCESS i changed : HandleCall ω).taken = some k →
        (m.call t).taken = some k := by
      simp [HandleCall.taken]
    exact h.apart u v j (m.taken_of_update hnone hu) (m.taken_of_update hnone hv)

/-- **A removal stores the mark of a free entry**: the handle is no longer live. -/
theorem HandleMachine.Valid.remove (h : m.Valid) (hcall : m.call t = .store i x) :
    ({ m with Handle := storeEntry m.Handle i .invalid, live := m.live.erase (t, i, x) }.setCall t
      .idle).Valid := by
  have hmem : (t, i, x) ∈ m.live := by
    have hvalid := h.calls t
    rw [hcall] at hvalid
    exact hvalid
  have hne : ∀ u j y, (u, j, y) ∈ m.live.erase (t, i, x) → (u, j, y) ∈ m.live ∧ j ≠ i := by
    intro u j y hu
    have hold := List.mem_of_mem_erase hu
    refine ⟨hold, ?_⟩
    rintro rfl
    obtain ⟨rfl, rfl⟩ := h.unique hold hmem
    exact (h.distinct.of_map.not_mem_erase) hu
  refine ⟨?_, ?_, fun u => ?_, ?_⟩
  · intro u j y hu
    obtain ⟨hold, hji⟩ := hne u j y hu
    exact loadEntry_store_of_ne (h.entry u j y hold) hji
  · exact h.distinct.sublist ((List.erase_sublist).map _)
  · by_cases hut : u = t
    · subst hut
      show HandleMachine.CallValid _ u (Function.update m.call u _ u)
      rw [Function.update_self]
      trivial
    · show HandleMachine.CallValid _ u (Function.update m.call t _ u)
      rw [Function.update_of_ne hut]
      have hvalid := h.calls u
      refine hvalid.frame ?_ ?_ ?_
      · intro j y hj hhas
        refine loadEntry_store_of_ne hhas ?_
        rintro rfl
        cases hc : m.call u with
        | exchanged z k c | found z k c =>
          rw [hc] at hj hvalid
          obtain rfl : k = j := Option.some.inj hj
          exact hvalid.2 t x hmem
        | idle | exchange _ _ _ | inserted _ _ _ | load _ _ | lookedUp _ _ _ | verify _ _
        | store _ _ =>
          rw [hc] at hj
          cases hj
      · intro j y hu
        refine (List.mem_erase_of_ne ?_).mpr hu
        rintro ⟨⟩
        exact hut rfl
      · exact fun j _ v y hv => ⟨v, y, (hne v j y hv).1⟩
  · intro u v j hu hv
    have hnone : ∀ k, (HandleCall.idle : HandleCall ω).taken = some k → (m.call t).taken = some k := by
      simp [HandleCall.taken]
    exact h.apart u v j (m.taken_of_update hnone hu) (m.taken_of_update hnone hv)

/-- **A handle gets another owner.** -/
theorem HandleMachine.Valid.give (h : m.Valid) (hout : (m.call t).Outside) :
    HandleMachine.Valid { m with
      live := m.live.map fun e => if e = (t, i, x) then (u, i, x) else e } := by
  have hback : ∀ v j y, (v, j, y) ∈ m.live.map (fun e => if e = (t, i, x) then (u, i, x) else e) →
      ∃ w, (w, j, y) ∈ m.live := by
    intro v j y hmem
    obtain ⟨e, he, heq⟩ := List.mem_map.mp hmem
    split at heq
    · rename_i hte
      cases heq
      exact ⟨t, hte ▸ he⟩
    · cases heq
      exact ⟨v, he⟩
  refine ⟨?_, ?_, fun v => ?_, h.apart⟩
  · intro v j y hmem
    obtain ⟨w, hw⟩ := hback v j y hmem
    exact h.entry w j y hw
  · rw [List.map_map]
    have hsame : (fun e : τ × Nat × ω => e.2.1) ∘ (fun e => if e = (t, i, x) then (u, i, x) else e)
        = fun e => e.2.1 := by
      funext e
      simp only [Function.comp_apply]
      split
      · rename_i hte
        rw [hte]
      · rfl
    rw [hsame]
    exact h.distinct
  · have hvalid := h.calls v
    by_cases hvt : v = t
    · -- the thread itself is in none of the routines
      subst hvt
      show HandleMachine.CallValid _ v (m.call v)
      cases hc : m.call v with
      | idle => trivial
      | inserted _ _ _ | lookedUp _ _ _ =>
        rw [hc] at hvalid
        exact hvalid
      | exchange _ _ _ | exchanged _ _ _ | found _ _ _ | load _ _ | verify _ _ | store _ _ =>
        rw [hc] at hout
        exact absurd hout id
    · refine hvalid.frame (fun _ _ _ hj => hj) ?_ ?_
      · intro j y hmem
        refine List.mem_map.mpr ⟨_, hmem, if_neg ?_⟩
        rintro ⟨⟩
        exact hvt rfl
      · intro j _ w y hmem
        obtain ⟨w', hw'⟩ := hback w j y hmem
        exact ⟨w', y, hw'⟩

omit [DecidableEq τ] in
/-- An exchange at an entry that is not free leaves the table alone. -/
theorem storeEntry_exchange {page : HandlePage ω} (hi : i < EX_MAX_HANDLE)
    (hne : page ⟨i, hi⟩ ≠ .invalid) :
    storeEntry page i (interlockedCompareExchangePointer (page ⟨i, hi⟩) (.object x) .invalid)
      = page := by
  funext j
  unfold storeEntry interlockedCompareExchangePointer
  rw [if_neg hne]
  split
  · rename_i hj
    exact congrArg page (Fin.ext hj.symm)
  · rfl

/-- **A step inside a routine** goes through and keeps the invariant. -/
theorem HandleMachine.Valid.go (h : m.Valid) (hin : ¬ (m.call t).Outside) :
    ∃ m', m.go t = .ok m' ∧ m'.Valid := by
  have hvalid := h.calls t
  unfold HandleMachine.go
  cases hc : m.call t with
  | idle | inserted _ _ _ | lookedUp _ _ _ =>
    rw [hc] at hin
    exact absurd trivial hin
  | exchange x i changed =>
    rw [hc] at hvalid
    obtain rfl : changed = false := hvalid
    simp only
    by_cases hi : i < EX_MAX_HANDLE
    · rw [if_pos hi, loadEntry_of_lt hi, kernel_ok_bind]
      refine ⟨_, rfl, ?_⟩
      by_cases hfree : m.Handle ⟨i, hi⟩ = .invalid
      · rw [if_pos hfree, interlockedCompareExchangePointer, if_pos hfree]
        exact h.take (by rw [loadEntry_of_lt hi, hfree])
      · rw [if_neg hfree, storeEntry_exchange hi hfree]
        refine h.setCall ?_ (by simp [HandleCall.taken])
        simp [HandleMachine.CallValid, interlockedCompareExchangePointer, hfree]
    · rw [if_neg hi]
      exact ⟨_, rfl, h.setCall (fun _ => ⟨rfl, rfl⟩) (by simp [HandleCall.taken])⟩
  | exchanged x i changed =>
    rw [hc] at hvalid
    have hload : loadEntry m.Handle i = .ok (.object x) := hvalid.1
    simp only [hload, kernel_ok_bind]
    exact ⟨_, rfl, h.setCall hvalid (by rw [hc]; exact fun _ hj => hj)⟩
  | found x i changed =>
    rw [hc] at hvalid
    have hload : loadEntry m.Handle i = .ok (.object x) := hvalid.1
    simp only [hload, assert_of_true (lt_of_loadEntry hload), kernel_ok_bind]
    exact ⟨_, rfl, h.return hc⟩
  | load i x =>
    rw [hc] at hvalid
    have hload : loadEntry m.Handle i = .ok (.object x) := h.entry t i x hvalid
    simp only [hload, kernel_ok_bind]
    exact ⟨_, rfl, h.setCall rfl (by simp [HandleCall.taken])⟩
  | verify i x =>
    rw [hc] at hvalid
    have hload : loadEntry m.Handle i = .ok (.object x) := h.entry t i x hvalid
    simp only [hload, kernel_ok_bind]
    exact ⟨_, rfl, h.setCall hvalid (by simp [HandleCall.taken])⟩
  | store i x => exact ⟨_, rfl, h.remove hc⟩

omit [DecidableEq τ] [DecidableEq ω] in
/-- A live handle is the number of an entry. -/
theorem HandleMachine.Valid.handle_lt (h : m.Valid) (hmem : (t, i, x) ∈ m.live) :
    i < EX_MAX_HANDLE :=
  lt_of_loadEntry (h.entry t i x hmem)

/-- The number of an entry is not the mark of a failure. -/
theorem ne_OB_INVALID_HANDLE (h : i < EX_MAX_HANDLE) : i ≠ OB_INVALID_HANDLE := by
  unfold EX_MAX_HANDLE at h
  unfold OB_INVALID_HANDLE
  omega

/-- **Every step goes through and keeps the invariant.** -/
theorem HandleMachine.Valid.step (h : m.Valid) {a : HandleAction τ ω} (hen : m.Enabled t a) :
    ∃ m', m.step t a = .ok m' ∧ m'.Valid := by
  cases a with
  | insert x => exact ⟨_, rfl, h.setCall rfl (by simp [HandleCall.taken])⟩
  | lookup i x =>
    have hlt := h.handle_lt hen.2
    refine ⟨_, ?_, h.setCall (c := .load i x) hen.2 (by simp [HandleCall.taken])⟩
    rw [HandleMachine.step, assert_of_true hlt, kernel_ok_bind,
      assert_of_true (ne_OB_INVALID_HANDLE hlt)]
    rfl
  | remove i x =>
    have hlt := h.handle_lt hen.2
    refine ⟨_, ?_, h.setCall (c := .verify i x) hen.2 (by simp [HandleCall.taken])⟩
    rw [HandleMachine.step, assert_of_true hlt, kernel_ok_bind,
      assert_of_true (ne_OB_INVALID_HANDLE hlt)]
    rfl
  | give i x u => exact ⟨_, rfl, h.give hen.1⟩
  | go => exact h.go hen

end Steps

/-! ## Runs -/

section Runs

variable {m : HandleMachine τ ω} {tr : List (τ × HandleAction τ ω)}

/-- **The invariant holds in every run.** -/
theorem handleSystem_valid (h : (handleSystem τ ω).Run tr m) : m.Valid := by
  refine h.invariant (I := fun _ m => m.Valid) ?_ ?_
  · rintro m ⟨-, hidle, hlive⟩
    have hnone : ∀ t i, (m.call t).taken ≠ some i := by
      intro t i
      rw [hidle t]
      simp [HandleCall.taken]
    refine ⟨?_, ?_, fun t => ?_, fun t _ i ht => absurd ht (hnone t i)⟩
    · rw [hlive]
      exact fun _ _ _ hmem => absurd hmem List.not_mem_nil
    · rw [hlive]
      exact List.nodup_nil
    · rw [hidle t]
      trivial
  · rintro tr m ⟨t, a⟩ m' - hinv ⟨hen, hrun⟩
    obtain ⟨m₁, hstep, hvalid⟩ := hinv.step hen
    obtain rfl : m₁ = m' := Except.ok.inj (hstep.symm.trans hrun)
    exact hvalid

/-- A new table has only free entries. -/
theorem handleSystem_start (hinit : (handleSystem τ ω).init m) (i : Fin EX_MAX_HANDLE) :
    m.Handle i = .invalid := by
  obtain ⟨⟨s, s', page, halloc, hpage⟩, -⟩ := hinit
  obtain ⟨row, hloop, hrow⟩ :=
    invalid_loop (s := s) (p := ()) (List.finRange EX_MAX_HANDLE) page
  have hresult : s.setTable () row = s' := by
    rw [← hloop]
    exact congrArg Prod.snd (Except.ok.inj halloc)
  rw [hpage, ← hresult]
  have hentry := hrow i
  rw [if_pos (List.mem_finRange i)] at hentry
  simpa [Ob.setTable] using hentry

/-- **A lock-free handle table.** In every run the live handles are distinct and numbers of entries;
a lookup of a live handle has returned the object that the handle was inserted with; every call goes
through all of its assertions; and an insertion that fails has changed no entry and returned
`OB_INVALID_HANDLE`. -/
theorem handleTable_lockFree (h : (handleSystem τ ω).Run tr m) :
    (m.live.map fun e => e.2.1).Nodup
    ∧ (∀ t i x, (t, i, x) ∈ m.live → i < EX_MAX_HANDLE)
    ∧ (∀ t i x result, m.call t = .lookedUp i x result → result = .object x)
    ∧ (∀ t a, m.Enabled t a → ∃ m', m.step t a = .ok m')
    ∧ ∀ t handle changed, m.call t = .inserted .STATUS_TOO_MANY_OPENED_FILES handle changed →
      handle = OB_INVALID_HANDLE ∧ changed = false := by
  have hvalid := handleSystem_valid h
  refine ⟨hvalid.distinct, fun t i x => hvalid.handle_lt, ?_, ?_, ?_⟩
  · intro t i x result hc
    have hcall := hvalid.calls t
    rw [hc] at hcall
    exact hcall
  · intro t a hen
    obtain ⟨m', hstep, -⟩ := hvalid.step hen
    exact ⟨m', hstep⟩
  · intro t handle changed hc
    have hcall := hvalid.calls t
    rw [hc] at hcall
    exact hcall rfl

/-- One thread inserts an object into a new table, and gets the handle 0. -/
theorem handleTable_lockFree_insert : ∃ m, (handleSystem Bool Unit).Run
      [(false, .go), (false, .go), (false, .go), (false, .insert ())] m
    ∧ m.live = [(false, 0, ())] ∧ (m.live.map fun e => e.2.1).Nodup ∧ 0 < EX_MAX_HANDLE := by
  have hlt : 0 < EX_MAX_HANDLE := by
    unfold EX_MAX_HANDLE
    decide
  obtain ⟨m₀, hm₀⟩ : ∃ m₀ : HandleMachine Bool Unit, m₀ =
      ⟨((List.finRange EX_MAX_HANDLE).foldl (fun s i => s.setEntry () i .invalid)
        (emptyOb.setTable () fun _ => .null)).Handle (), fun _ => .idle, []⟩ := ⟨_, rfl⟩
  have hinit : (handleSystem Bool Unit).init m₀ := by
    subst hm₀
    exact ⟨⟨emptyOb, _, fun _ => .null, rfl, rfl⟩, fun _ => rfl, rfl⟩
  have hfree : loadEntry m₀.Handle 0 = .ok .invalid := by
    rw [loadEntry_of_lt hlt, handleSystem_start hinit]
  have hcall : ∀ t, m₀.call t = .idle := hinit.2.1
  have hlive : m₀.live = [] := hinit.2.2
  have h₁ := (System.Run.start hinit).step (e := (false, HandleAction.insert ()))
    (u := m₀.setCall false (.exchange () 0 false)) ⟨by rw [HandleMachine.Enabled, hcall]; trivial, rfl⟩
  obtain ⟨m₂, hm₂⟩ : ∃ m₂ : HandleMachine Bool Unit, m₂ =
      { m₀ with Handle := storeEntry m₀.Handle 0 (.object ()) }.setCall false
        (.exchanged () 0 true) := ⟨_, rfl⟩
  have h₂ := h₁.step (e := (false, HandleAction.go)) (u := m₂) ⟨by
    simp [HandleMachine.Enabled, HandleMachine.setCall, HandleCall.Outside], by
    subst hm₂
    simp [HandleMachine.step, HandleMachine.go, HandleMachine.setCall, hlt, hfree,
      interlockedCompareExchangePointer, pure, Except.pure]⟩
  have hload : loadEntry m₂.Handle 0 = .ok (.object ()) := by
    subst hm₂
    exact (loadEntry_storeEntry hlt).trans (if_pos rfl)
  have h₃ := h₂.step (e := (false, HandleAction.go)) (u := m₂.setCall false (.found () 0 true)) ⟨by
    subst hm₂
    simp [HandleMachine.Enabled, HandleMachine.setCall, HandleCall.Outside], by
    have hc : m₂.call false = .exchanged () 0 true := by
      subst hm₂
      simp [HandleMachine.setCall]
    simp [HandleMachine.step, HandleMachine.go, hc, hload, pure, Except.pure]⟩
  have h₄ := h₃.step (e := (false, HandleAction.go))
    (u := { m₂ with live := [(false, 0, ())] }.setCall false (.inserted .STATUS_SUCCESS 0 true)) ⟨by
    simp [HandleMachine.Enabled, HandleMachine.setCall, HandleCall.Outside], by
    have hl : m₂.live = [] := by
      subst hm₂
      exact hlive
    simp [HandleMachine.step, HandleMachine.go, HandleMachine.setCall, hload, hl, hlt, pure,
      Except.pure]⟩
  obtain ⟨hnodup, hentry, -⟩ := handleTable_lockFree h₄
  exact ⟨_, h₄, rfl, hnodup, hentry false 0 () (List.mem_singleton.mpr rfl)⟩

end Runs

end KaushOS
