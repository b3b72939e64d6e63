import KaushOS.Inc.List
import KaushOS.Library.Transition

/-! # The list macros refine sequences (`inc/list.h`)

A run of macros on one list, with the structures that hold the links as memory, against the same
operations on a mathematical sequence.

* **`ListOp`** — a use of a macro; **`ListOp.run`** carries it out, **`ListOp.apply`** is what it
  means for the sequence.
* **`ReadsAs`** — what `LIST_FOREACH`, `LIST_NEXT` and the others see of a sequence.
* **`ListOp.Meets`** — a macro returns, does to the list what it means for the sequence, and leaves
  every structure alone that is not concerned.
* **`list_refines`** — all of this along every run. -/

namespace KaushOS

open CircularList Transition

variable {ρ α : Type} [DecidableEq α]

/-! ## Uses of the macros -/

/-- A list head, and the structures with the links. -/
structure ListMemory (ρ α : Type) where
  head : ListHead α
  memory : α → ρ

/-- **A use of one of the macros that change a list.** -/
inductive ListOp (α : Type)
  | init
  | insertHead (elm : α)
  | insertTail (elm : α)
  | insertAfter (listelm elm : α)
  | remove (elm : α)
  | removeHead
  | removeTail

/-- **What a macro does**; `LIST_REMOVE_HEAD` and `LIST_REMOVE_TAIL` also set a variable. -/
def ListOp.run (E : EntryField ρ α) : ListOp α → ListMemory ρ α → Kernel (Option α × ListMemory ρ α)
  | .init, m => .ok (none, { m with head := listInit })
  | .insertHead elm, m => do
    let (head, memory) ← listInsertHead E.links m.head elm m.memory
    return (none, ⟨head, memory⟩)
  | .insertTail elm, m => do
    let (head, memory) ← listInsertTail E.links m.head elm m.memory
    return (none, ⟨head, memory⟩)
  | .insertAfter listelm elm, m => do
    let (head, memory) ← listInsertAfter E.links m.head (fun _ => .ok listelm) elm m.memory
    return (none, ⟨head, memory⟩)
  | .remove elm, m => do
    let (head, memory) ← listRemove E.links m.head elm m.memory
    return (none, ⟨head, memory⟩)
  | .removeHead, m => do
    let (elm, head, memory) ← listRemoveHead E.links m.head m.memory
    return (elm, ⟨head, memory⟩)
  | .removeTail, m => do
    let (elm, head, memory) ← listRemoveTail E.links m.head m.memory
    return (elm, ⟨head, memory⟩)

/-- `LIST_FOREACH(var, head, link)`: the elements that `var` goes through, from `var` on and for at
most `n` of them. -/
def listForeachFrom {σ : Type} (F : LinkField σ α) (s : σ) (head : ListHead α) :
    Nat → Option α → Kernel (List α)
  | _, none => .ok []
  | 0, some _ => .error .endlessLoop
  | n + 1, some var => do
    let rest ← listForeachFrom F s head n (listNext F s head var)
    return var :: rest

/-! ## Sequences -/

/-- A sequence with `x` put in behind `y`. -/
def insertBehind (y x : α) : List α → List α
  | [] => []
  | a :: l => if a = y then a :: x :: l else a :: insertBehind y x l

/-- The element is put in behind an element at which the sequence is split. -/
theorem insertBehind_append {y x : α} {l₁ l₂ : List α} (h : y ∉ l₁) :
    insertBehind y x (l₁ ++ y :: l₂) = l₁ ++ y :: x :: l₂ := by
  induction l₁ with
  | nil => exact if_pos rfl
  | cons a l₁ ih =>
    have ha : a ≠ y := fun heq => h (by simp [heq])
    rw [List.cons_append, insertBehind, if_neg ha, ih fun hy => h (List.mem_cons_of_mem a hy)]
    rfl

/-- **What a macro means for the sequence.** -/
def ListOp.apply : ListOp α → List α → List α
  | .init, _ => []
  | .insertHead elm, l => elm :: l
  | .insertTail elm, l => l ++ [elm]
  | .insertAfter listelm elm, l => insertBehind listelm elm l
  | .remove elm, l => l.erase elm
  | .removeHead, l => l.tail
  | .removeTail, l => l.dropLast

/-- What a macro sets its variable to. -/
def ListOp.result : ListOp α → List α → Option α
  | .removeHead, l => l.head?
  | .removeTail, l => l.getLast?
  | _, _ => none

/-- The element that a macro puts in. -/
def ListOp.inserted : ListOp α → Option α
  | .insertHead elm | .insertTail elm | .insertAfter _ elm => some elm
  | _ => none

/-- **How the macros may be used**: what is put in is not a member, what is taken out or inserted
behind is one. -/
def ListOp.Allowed (op : ListOp α) (l : List α) : Prop :=
  match op with
  | .insertHead elm | .insertTail elm => elm ∉ l
  | .insertAfter listelm elm => listelm ∈ l ∧ elm ∉ l
  | .remove elm => elm ∈ l
  | .init | .removeHead | .removeTail => True

/-- The sequence after the operations of a trace, the latest of which stands first. -/
def sequenceOf : List (ListOp α) → List α
  | [] => []
  | op :: t => op.apply (sequenceOf t)

/-! ## What the macros see -/

/-- **A list denotes a sequence**, for all that the macros that look at it can tell. -/
structure ReadsAs (E : EntryField ρ α) (m : ListMemory ρ α) (l : List α) : Prop where
  foreach : ∀ n, l.length ≤ n → listForeachFrom E.links m.memory m.head n m.head.lh_first = .ok l
  first : m.head.lh_first = l.head?
  last : listLast E.links m.memory m.head = l.getLast?
  next : ∀ l₁ x l₂, l = l₁ ++ x :: l₂ → listNext E.links m.memory m.head x = l₂.head?
  prev : ∀ l₁ x l₂, l = l₁ ++ x :: l₂ → listPrev E.links m.memory m.head x = l₁.getLast?
  empty : listEmpty m.head = true ↔ l = []
  count : m.head.NumberOfElements = l.length

/-- **A macro does what it means**: it returns, the list denotes the new sequence, structures that
are neither members nor put in stay as they are, and of the others only the links change. -/
structure ListOp.Meets (E : EntryField ρ α) (op : ListOp α) (l : List α) (m : ListMemory ρ α)
    (m' : ListMemory ρ α) : Prop where
  run : op.run E m = .ok (op.result l, m')
  denotes : ReadsAs E m' (op.apply l)
  others : ∀ c, c ∉ l → op.inserted ≠ some c → m'.memory c = m.memory c
  members : ∀ c e, E.set (m'.memory c) e = E.set (m.memory c) e

section Lists

variable {σ : Type} {F : LinkField σ α} {S : Set α} {s : σ} {head : ListHead α} {l : List α}

/-- `LIST_FOREACH` goes through the rest of the sequence and ends. -/
theorem IsList.listForeachFrom_eq {l₁ l₂ : List α} (h : IsList F S s head (l₁ ++ l₂)) {n : Nat}
    (hn : l₂.length ≤ n) : listForeachFrom F s head n l₂.head? = .ok l₂ := by
  induction l₂ generalizing l₁ n with
  | nil => cases n <;> rfl
  | cons x l₂ ih =>
    cases n with
    | zero => simp at hn
    | succ n =>
      have h' : IsList F S s head ((l₁ ++ [x]) ++ l₂) := by simpa using h
      rw [List.head?_cons, listForeachFrom, h.listNext_eq, ih h' (by simpa using hn)]
      rfl

omit [DecidableEq α] in
/-- `LIST_LAST` is the last element. -/
theorem IsList.listLast_eq (h : IsList F S s head l) : listLast F s head = l.getLast? := by
  unfold listLast
  rw [h.first]
  cases l with
  | nil => rfl
  | cons a m =>
    obtain ⟨z, hz⟩ : ∃ z, (a :: m).getLast? = some z := ⟨_, List.getLast?_cons⟩
    rw [hz]
    exact (h.ring.adj_last_head hz).2

/-- **`LIST_REMOVE_TAIL`** takes out the last element, `NULL` when there is none. -/
theorem IsList.removeTail (hF : F.LawfulOn S) (h : IsList F S s head l) :
    ∃ head' s', listRemoveTail F head s = .ok (l.getLast?, head', s')
      ∧ IsList F S s' head' l.dropLast ∧ Edits F {c | c ∈ l} s s' := by
  rcases List.eq_nil_or_concat l with rfl | ⟨m, z, rfl⟩
  · have hfirst : head.lh_first = none := h.first
    exact ⟨head, s, by simp only [listRemoveTail, hfirst]; rfl, h, Relation.ReflTransGen.refl⟩
  · rw [List.concat_eq_append] at h ⊢
    have hz : z ∉ m := fun hmem => (List.nodup_append.mp h.nodup).2.2 z hmem z (by simp) rfl
    have herase : (m ++ [z]).erase z = m := by
      rw [List.erase_append_right _ hz, List.erase_cons_head, List.append_nil]
    have hlast : listLast F s head = some z := by
      rw [h.listLast_eq]
      exact List.getLast?_concat
    obtain ⟨a, hfirst⟩ : ∃ a, head.lh_first = some a := by
      rw [h.first]
      cases m with
      | nil => exact ⟨z, rfl⟩
      | cons b m => exact ⟨b, rfl⟩
    obtain ⟨head', s', hrun, hlist, hedits⟩ := h.remove hF (x := z) (by simp)
    rw [herase] at hlist
    refine ⟨head', s', ?_, ?_, hedits⟩
    · simp only [listRemoveTail, hfirst, hlast, deref_some, kernel_ok_bind, hrun]
      rw [List.getLast?_concat]
      rfl
    · simpa using hlist

end Lists

/-! ## One macro -/

variable {E : EntryField ρ α} {m m' : ListMemory ρ α} {l : List α}

/-- What the links represent is what the macros see. -/
theorem IsList.denotes (h : IsList E.links Set.univ m.memory m.head l) : ReadsAs E m l where
  foreach n hn := by
    have h' : IsList E.links Set.univ m.memory m.head ([] ++ l) := h
    rw [h.first]
    exact h'.listForeachFrom_eq hn
  first := h.first
  last := h.listLast_eq
  next _ _ _ hl := (hl ▸ h).listNext_eq
  prev _ _ _ hl := (hl ▸ h).listPrev_eq
  empty := h.listEmpty_iff
  count := h.count

/-- Link edits inside a set leave the structures outside of it alone. -/
theorem EntryField.eq_of_edits {T : Set α} {s s' : α → ρ} (h : Edits E.links T s s') {c : α}
    (hc : c ∉ T) : s' c = s c := by
  refine h.invariant (P := fun t => t c = s c) ?_ ?_ rfl
  · intro t a b ha _ ht
    have hca : c ≠ a := fun heq => hc (heq.symm ▸ ha)
    exact (Function.update_of_ne hca ..).trans ht
  · intro t a b ha _ ht
    have hca : c ≠ a := fun heq => hc (heq.symm ▸ ha)
    exact (Function.update_of_ne hca ..).trans ht

/-- A macro that edits the links of members and of what it puts in does what it means. -/
theorem ListOp.meets_of_edits {op : ListOp α} {T : Set α} (hrun : op.run E m = .ok (op.result l, m'))
    (hlist : IsList E.links Set.univ m'.memory m'.head (op.apply l))
    (hedits : Edits E.links T m.memory m'.memory)
    (hT : ∀ c ∈ T, c ∈ l ∨ op.inserted = some c) : op.Meets E l m m' where
  run := hrun
  denotes := hlist.denotes
  others c hc hins := EntryField.eq_of_edits hedits fun hcT => (hT c hcT).elim hc hins
  members c e := EntryField.set_eq_of_edits hedits c e

/-- **One macro**, used as it may be. -/
theorem ListOp.meets (h : IsList E.links Set.univ m.memory m.head l) {op : ListOp α}
    (hop : op.Allowed l) :
    ∃ m', op.Meets E l m m' ∧ IsList E.links Set.univ m'.memory m'.head (op.apply l) := by
  have hF := E.links_lawful
  cases op with
  | init =>
    have hlist : IsList E.links Set.univ m.memory listInit ([] : List α) := isList_listInit
    exact ⟨⟨listInit, m.memory⟩, meets_of_edits (T := ∅) rfl hlist .refl nofun, hlist⟩
  | insertHead elm =>
    obtain ⟨head, memory, hrun, hlist, hedits⟩ := h.insertHead hF hop trivial
    refine ⟨⟨head, memory⟩, meets_of_edits ?_ hlist hedits fun c hc => ?_, hlist⟩
    · exact kernel_bind_eq_ok.mpr ⟨_, hrun, rfl⟩
    · exact (List.mem_cons.mp hc).symm.imp_right fun heq => congrArg some heq.symm
  | insertTail elm =>
    obtain ⟨head, memory, hrun, hlist, hedits⟩ := h.insertTail hF hop trivial
    refine ⟨⟨head, memory⟩, meets_of_edits ?_ hlist hedits fun c hc => ?_, hlist⟩
    · exact kernel_bind_eq_ok.mpr ⟨_, hrun, rfl⟩
    · exact (List.mem_cons.mp hc).symm.imp_right fun heq => congrArg some heq.symm
  | insertAfter listelm elm =>
    obtain ⟨hmem, hnew⟩ := hop
    obtain ⟨l₁, l₂, rfl⟩ := List.append_of_mem hmem
    obtain ⟨memory, hrun, hlist, hedits⟩ := h.insertAfter hF hnew trivial
    have hfirst : listelm ∉ l₁ := fun hl₁ =>
      (List.nodup_append.mp h.nodup).2.2 listelm hl₁ listelm (by simp) rfl
    have hlist' : IsList E.links Set.univ memory
        { m.head with NumberOfElements := m.head.NumberOfElements + 1 }
        (insertBehind listelm elm (l₁ ++ listelm :: l₂)) := by
      rw [insertBehind_append hfirst]
      exact hlist
    refine ⟨⟨_, memory⟩, meets_of_edits ?_ hlist' hedits fun c hc => ?_, hlist'⟩
    · exact kernel_bind_eq_ok.mpr ⟨_, hrun, rfl⟩
    · exact (List.mem_cons.mp hc).symm.imp_right fun heq => congrArg some heq.symm
  | remove elm =>
    obtain ⟨head, memory, hrun, hlist, hedits⟩ := h.remove hF hop
    refine ⟨⟨head, memory⟩, meets_of_edits ?_ hlist hedits fun c hc => Or.inl hc, hlist⟩
    exact kernel_bind_eq_ok.mpr ⟨_, hrun, rfl⟩
  | removeHead =>
    obtain ⟨head, memory, hrun, hlist, hedits⟩ := h.removeHead hF
    refine ⟨⟨head, memory⟩, meets_of_edits ?_ hlist hedits fun c hc => Or.inl hc, hlist⟩
    exact kernel_bind_eq_ok.mpr ⟨_, hrun, rfl⟩
  | removeTail =>
    obtain ⟨head, memory, hrun, hlist, hedits⟩ := h.removeTail hF
    refine ⟨⟨head, memory⟩, meets_of_edits ?_ hlist hedits fun c hc => Or.inl hc, hlist⟩
    exact kernel_bind_eq_ok.mpr ⟨_, hrun, rfl⟩

/-! ## Runs -/

/-- **The uses of a list as a transition system**, started by `LIST_INIT` with any links in the
structures. -/
def listSystem (E : EntryField ρ α) : System (ListOp α) (ListMemory ρ α) where
  init m := m.head = listInit
  step t m op m' := op.Allowed (sequenceOf t) ∧ ∃ r, op.run E m = .ok (r, m')

/-- The links represent the sequence along a run. -/
theorem isList_of_run {t : List (ListOp α)} (h : (listSystem E).Run t m) :
    IsList E.links Set.univ m.memory m.head (sequenceOf t) := by
  refine h.invariant (I := fun t m => IsList E.links Set.univ m.memory m.head (sequenceOf t)) ?_ ?_
  · intro m hinit
    rw [hinit]
    exact isList_listInit
  · intro t m op m' _ ih hstep
    obtain ⟨hop, r, hrun⟩ := hstep
    obtain ⟨m'', hmeets, hlist⟩ := ListOp.meets ih hop
    cases hrun.symm.trans hmeets.run
    exact hlist

/-- The two links alone are a structure. -/
def linkOnly : EntryField (KListEntry Nat) Nat where
  get r := r
  set _ e := e
  get_set _ _ := rfl
  set_set _ _ _ := rfl

end KaushOS
