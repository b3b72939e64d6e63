import KaushOS.Inc.Assert
import KaushOS.Library.CircularList

/-! # The intrusive lists of the kernel (`inc/list.h`)

`KLIST_ENTRY` puts two links into an element, `LIST_HEAD` keeps the first element and a count; the
elements form one ring. The macros are translated for any memory that has the two links (a
`LinkField`): an element keeps its links when it leaves a list, and a macro argument that is an
expression is evaluated again at each of its uses.

* **`listInsertHead`, `listInsertTail`, `listRemove`, `listRemoveHead`, …** — the macros.
* **`IsList F S s head l`** — the head and the links of memory `s` represent the sequence `l`.
* **`IsList.insertHead`, `IsList.insertTail`, `IsList.remove`, `IsList.removeHead`** — each macro
  returns, turns a representation of `l` into one of the expected sequence, and edits no link
  outside the list. -/

namespace KaushOS

open CircularList

variable {σ α : Type}

/-- `LIST_HEAD(name, type)`: the first element and the number of elements. -/
structure ListHead (α : Type) where
  /-- First element. -/
  lh_first : Option α
  /-- The element count. -/
  NumberOfElements : Nat
  deriving DecidableEq, Repr

/-- `KLIST_ENTRY(type)`: the two links inside an element. -/
structure KListEntry (α : Type) where
  /-- Next element. -/
  le_next : Option α
  /-- Previous element. -/
  le_prev : Option α
  deriving DecidableEq, Repr

/-- **A `KLIST_ENTRY` member of a structure `ρ`**, with the laws that make it a member. -/
structure EntryField (ρ α : Type) where
  /-- Read the member. -/
  get : ρ → KListEntry α
  /-- Overwrite the member. -/
  set : ρ → KListEntry α → ρ
  get_set : ∀ r e, get (set r e) = e
  set_set : ∀ r e e', set (set r e) e' = set r e'

/-- The link fields of a table of structures that are linked through the member `E`. -/
def EntryField.links [DecidableEq α] {ρ : Type} (E : EntryField ρ α) : LinkField (α → ρ) α where
  next s a := (E.get (s a)).le_next
  prev s a := (E.get (s a)).le_prev
  setNext s a v := Function.update s a (E.set (s a) { E.get (s a) with le_next := v })
  setPrev s a v := Function.update s a (E.set (s a) { E.get (s a) with le_prev := v })

/-- The links of distinct elements of a table are independent. -/
theorem EntryField.links_lawful [DecidableEq α] {ρ : Type} (E : EntryField ρ α) :
    E.links.LawfulOn Set.univ := by
  constructor <;> intro s a _ b _ c _ <;> by_cases h : c = a
  all_goals
    first
      | subst h
        simp [EntryField.links, E.get_set]
      | simp [EntryField.links, h]

/-- Link edits leave the other members of every structure of the table alone. -/
theorem EntryField.set_eq_of_edits [DecidableEq α] {ρ : Type} {E : EntryField ρ α} {T : Set α}
    {s s' : α → ρ} (h : Edits E.links T s s') (i : α) (e : KListEntry α) :
    E.set (s' i) e = E.set (s i) e := by
  refine h.invariant (P := fun t => E.set (t i) e = E.set (s i) e) ?_ ?_ rfl
  · intro t a b _ _ ht
    by_cases hi : i = a
    · subst hi
      simpa [EntryField.links, E.set_set] using ht
    · simpa [EntryField.links, hi] using ht
  · intro t a b _ _ ht
    by_cases hi : i = a
    · subst hi
      simpa [EntryField.links, E.set_set] using ht
    · simpa [EntryField.links, hi] using ht

/-! ## The macros -/

/-- `LIST_INIT(head)`. -/
def listInit : ListHead α := { lh_first := none, NumberOfElements := 0 }

/-- `LIST_EMPTY(head)`. -/
def listEmpty (head : ListHead α) : Bool := head.lh_first.isNone

/-- `LIST_LAST(head, link)`. -/
def listLast (F : LinkField σ α) (s : σ) (head : ListHead α) : Option α :=
  match head.lh_first with
  | none => none
  | some first => F.prev s first

/-- `LIST_INSERT_AFTER(head, listelm, elm, link)`; `listelm` is an expression. -/
def listInsertAfter (F : LinkField σ α) (head : ListHead α) (listelm : σ → Kernel α) (elm : α)
    (s : σ) : Kernel (ListHead α × σ) := do
  let p ← listelm s
  let s := F.setNext s elm (F.next s p)
  let p ← listelm s
  let s := F.setNext s p (some elm)
  let p ← listelm s
  let s := F.setPrev s elm (some p)
  let n ← deref (F.next s elm)
  let s := F.setPrev s n (some elm)
  return ({ head with NumberOfElements := head.NumberOfElements + 1 }, s)

/-- `LIST_INSERT_BEFORE(head, listelm, elm, link)`: insert after the predecessor of `listelm`,
which is read off the links each time it is needed. -/
def listInsertBefore (F : LinkField σ α) (head : ListHead α) (listelm elm : α) (s : σ) :
    Kernel (ListHead α × σ) :=
  listInsertAfter F head (fun s => deref (F.prev s listelm)) elm s

/-- `LIST_INSERT_HEAD(head, elm, link)`. -/
def listInsertHead (F : LinkField σ α) (head : ListHead α) (elm : α) (s : σ) :
    Kernel (ListHead α × σ) :=
  match head.lh_first with
  | none => do
    let s := F.setPrev s elm (some elm)
    let s := F.setNext s elm (some elm)
    assert (head.NumberOfElements = 0) "LIST_NUM_ELEMENTS(head) == 0"
    return ({ lh_first := some elm, NumberOfElements := head.NumberOfElements + 1 }, s)
  | some first => do
    let (head, s) ← listInsertBefore F head first elm s
    return ({ head with lh_first := some elm }, s)

/-- `LIST_INSERT_TAIL(head, elm, link)`. -/
def listInsertTail (F : LinkField σ α) (head : ListHead α) (elm : α) (s : σ) :
    Kernel (ListHead α × σ) :=
  match head.lh_first with
  | none => listInsertHead F head elm s
  | some first => listInsertBefore F head first elm s

variable [DecidableEq α]

/-- `LIST_NEXT(head, elm, link)`: `NULL` when the link leads back to the first element. -/
def listNext (F : LinkField σ α) (s : σ) (head : ListHead α) (elm : α) : Option α :=
  if F.next s elm = head.lh_first then none else F.next s elm

/-- `LIST_PREV(head, elm, link)`: `NULL` when the link leads back to the last element. -/
def listPrev (F : LinkField σ α) (s : σ) (head : ListHead α) (elm : α) : Option α :=
  if F.prev s elm = listLast F s head then none else F.prev s elm

/-- `LIST_REMOVE(head, elm, link)`. The links of `elm` itself stay as they are. -/
def listRemove (F : LinkField σ α) (head : ListHead α) (elm : α) (s : σ) :
    Kernel (ListHead α × σ) := do
  let first := if head.lh_first = some elm then listNext F s head elm else head.lh_first
  let p ← deref (F.prev s elm)
  let s := F.setNext s p (F.next s elm)
  let n ← deref (F.next s elm)
  let s := F.setPrev s n (F.prev s elm)
  return ({ lh_first := first, NumberOfElements := head.NumberOfElements - 1 }, s)

/-- `LIST_REMOVE_HEAD(head, elm, link)`; the first component is the new value of `elm`. -/
def listRemoveHead (F : LinkField σ α) (head : ListHead α) (s : σ) :
    Kernel (Option α × ListHead α × σ) :=
  match head.lh_first with
  | none => return (none, head, s)
  | some elm => do
    let (head, s) ← listRemove F head elm s
    return (some elm, head, s)

/-- `LIST_REMOVE_TAIL(head, elm, link)`. -/
def listRemoveTail (F : LinkField σ α) (head : ListHead α) (s : σ) :
    Kernel (Option α × ListHead α × σ) :=
  match head.lh_first with
  | none => return (none, head, s)
  | some _ => do
    let elm ← deref (listLast F s head)
    let (head, s) ← listRemove F head elm s
    return (some elm, head, s)

/-- `LIST_REMOVE` does not make an empty list nonempty. -/
theorem listRemove_empty {F : LinkField σ α} {head head' : ListHead α} {x : α} {s s' : σ}
    (h : listRemove F head x s = .ok (head', s')) (hempty : listEmpty head = true) :
    listEmpty head' = true := by
  obtain ⟨p, -, h⟩ := kernel_bind_eq_ok.mp h
  obtain ⟨n, -, h⟩ := kernel_bind_eq_ok.mp h
  cases h
  have hfirst : head.lh_first = none := Option.isNone_iff_eq_none.mp hempty
  simp [listEmpty, hfirst]

/-- The loop of `LIST_FOREACH` with a body that only tests the element and leaves the loop at the
first hit: the element it stops at, `none` when the loop runs to its end. -/
def listForeach (F : LinkField σ α) (s : σ) (head : ListHead α) (hit : α → Bool) :
    Nat → Option α → Kernel (Option α)
  | _, none => .ok none
  | 0, some _ => .error .endlessLoop
  | n + 1, some var =>
    if hit var then .ok (some var) else listForeach F s head hit n (listNext F s head var)

/-- `LIST_FOREACH(var, head, link)` from the first element on, see `listForeach`. -/
def listFind (F : LinkField σ α) (s : σ) (head : ListHead α) (hit : α → Bool) :
    Kernel (Option α) :=
  listForeach F s head hit head.NumberOfElements head.lh_first

/-- The elements that `LIST_FOREACH` visits from `var` on, at most `n` of them. -/
def listWalk (F : LinkField σ α) (s : σ) (head : ListHead α) : Nat → Option α → List α
  | 0, _ => []
  | _ + 1, none => []
  | n + 1, some var => var :: listWalk F s head n (listNext F s head var)

/-- **The sequence a list holds**, as `LIST_FOREACH` visits it. -/
def listElements (F : LinkField σ α) (s : σ) (head : ListHead α) : List α :=
  listWalk F s head head.NumberOfElements head.lh_first

/-! ## How the macros stop -/

section Outcomes

variable {F : LinkField σ α} {Q : BugCheck → Prop}

omit [DecidableEq α] in
/-- Link edits stop the machine only at a `NULL` link. -/
theorem listInsertAfter_meets (head : ListHead α) {listelm : σ → Kernel α} (elm : α) (s : σ)
    (hlistelm : ∀ s, Meets (listelm s) (fun _ => True) Q) (hnull : Q .nullPointer) :
    Meets (listInsertAfter F head listelm elm s) (fun _ => True) Q := by
  refine (hlistelm s).bind fun p _ => ?_
  refine (hlistelm _).bind fun p _ => ?_
  refine (hlistelm _).bind fun p _ => ?_
  exact (Meets.deref hnull).bind fun n _ => trivial

omit [DecidableEq α] in
/-- An insertion in front stops the machine at a `NULL` link or a wrong count. -/
theorem listInsertHead_meets (head : ListHead α) (elm : α) (s : σ) (hnull : Q .nullPointer)
    (hcount : Q (.assertion "LIST_NUM_ELEMENTS(head) == 0")) :
    Meets (listInsertHead F head elm s) (fun _ => True) Q := by
  unfold listInsertHead
  split
  · exact (Meets.assert hcount).bind fun _ _ => trivial
  · exact (listInsertAfter_meets head elm s (fun s => (Meets.deref hnull).mono fun _ _ => trivial)
      hnull).bind fun _ _ => trivial

omit [DecidableEq α] in
/-- An insertion at the end, likewise. -/
theorem listInsertTail_meets (head : ListHead α) (elm : α) (s : σ) (hnull : Q .nullPointer)
    (hcount : Q (.assertion "LIST_NUM_ELEMENTS(head) == 0")) :
    Meets (listInsertTail F head elm s) (fun _ => True) Q := by
  unfold listInsertTail
  split
  · exact listInsertHead_meets head elm s hnull hcount
  · exact listInsertAfter_meets head elm s (fun s => (Meets.deref hnull).mono fun _ _ => trivial)
      hnull

/-- A removal stops the machine only at a `NULL` link. -/
theorem listRemove_meets (head : ListHead α) (elm : α) (s : σ) (hnull : Q .nullPointer) :
    Meets (listRemove F head elm s) (fun _ => True) Q :=
  (Meets.deref hnull).bind fun _ _ => (Meets.deref hnull).bind fun _ _ => trivial

/-- A scan stops the machine only when it does not end. -/
theorem listForeach_meets (head : ListHead α) (s : σ) (hit : α → Bool) (hloop : Q .endlessLoop)
    (n : Nat) (var : Option α) :
    Meets (listForeach F s head hit n var) (fun _ => True) Q := by
  induction n generalizing var with
  | zero =>
    cases var with
    | none => exact trivial
    | some x => exact hloop
  | succ n ih =>
    cases var with
    | none => exact trivial
    | some x =>
      unfold listForeach
      split
      · exact trivial
      · exact ih _

end Outcomes

/-! ## What a head and its links represent -/

/-- **Representation.** The head and the links of `s` hold the sequence `l` of distinct elements
of `S`. -/
structure IsList (F : LinkField σ α) (S : Set α) (s : σ) (head : ListHead α) (l : List α) :
    Prop where
  ring : Ring F s l
  first : head.lh_first = l.head?
  count : head.NumberOfElements = l.length
  nodup : l.Nodup
  mem : ∀ c ∈ l, c ∈ S

variable {F : LinkField σ α} {S : Set α} {s : σ} {head : ListHead α} {l : List α}

omit [DecidableEq α] in
/-- A freshly initialised head holds the empty sequence. -/
theorem isList_listInit : IsList F S s listInit [] :=
  ⟨ring_nil, rfl, rfl, List.nodup_nil, fun _ h => absurd h List.not_mem_nil⟩

omit [DecidableEq α] in
/-- `LIST_EMPTY` tells whether the sequence is empty. -/
theorem IsList.listEmpty_iff (h : IsList F S s head l) : listEmpty head = true ↔ l = [] := by
  rw [listEmpty, h.first]
  cases l <;> simp

omit [DecidableEq α] in
/-- Every element of a list has a non-null forward link. -/
theorem IsList.next_ne_none (h : IsList F S s head l) {x : α} (hx : x ∈ l) :
    F.next s x ≠ none := by
  obtain ⟨l₁, l₂, rfl⟩ := List.append_of_mem hx
  have hr : Ring F s (x :: (l₂ ++ l₁)) := by simpa using Ring.rotate h.ring
  obtain ⟨_, _, n, _, _, hn⟩ := hr.exists_neighbours
  rw [hn.1]
  exact Option.some_ne_none n

/-- `LIST_NEXT` is the successor in the sequence. -/
theorem IsList.listNext_eq {l₁ l₂ : List α} {x : α} (h : IsList F S s head (l₁ ++ x :: l₂)) :
    listNext F s head x = l₂.head? := by
  obtain ⟨a, m, ha⟩ : ∃ a m, l₁ ++ x :: l₂ = a :: m := by
    cases l₁ with
    | nil => exact ⟨x, l₂, rfl⟩
    | cons a l₁ => exact ⟨a, l₁ ++ x :: l₂, rfl⟩
  have hfirst : head.lh_first = some a := by rw [h.first, ha]; rfl
  cases l₂ with
  | nil =>
    have hlast : Adj F s x a := (ha ▸ h.ring).adj_last_head (by rw [← ha]; simp)
    rw [listNext, hlast.1, hfirst, if_pos rfl]
    rfl
  | cons y l₂ =>
    have hadj : Adj F s x y := h.ring.adj_of_append
    have hya : y ≠ a := by
      rintro rfl
      cases l₁ with
      | nil =>
        obtain ⟨rfl, -⟩ := List.cons.inj ha
        exact (List.nodup_cons.mp h.nodup).1 (by simp)
      | cons b l₁ =>
        obtain ⟨rfl, -⟩ := List.cons.inj ha
        exact (List.nodup_cons.mp h.nodup).1 (by simp)
    rw [listNext, hadj.1, hfirst, if_neg (fun e => hya (Option.some.inj e))]
    rfl

/-- `LIST_PREV` is the predecessor in the sequence. -/
theorem IsList.listPrev_eq {l₁ l₂ : List α} {x : α} (h : IsList F S s head (l₁ ++ x :: l₂)) :
    listPrev F s head x = l₁.getLast? := by
  obtain ⟨a, m, ha⟩ : ∃ a m, l₁ ++ x :: l₂ = a :: m := by
    cases l₁ with
    | nil => exact ⟨x, l₂, rfl⟩
    | cons a l₁ => exact ⟨a, l₁ ++ x :: l₂, rfl⟩
  obtain ⟨z, hz⟩ : ∃ z, (x :: l₂).getLast? = some z := ⟨_, List.getLast?_cons⟩
  have hzall : (a :: m).getLast? = some z := by
    rw [← ha, List.getLast?_append, hz]
    rfl
  have hlast : listLast F s head = some z := by
    have hfirst : head.lh_first = some a := by rw [h.first, ha]; rfl
    rw [listLast, hfirst]
    exact ((ha ▸ h.ring).adj_last_head hzall).2
  rw [listPrev, hlast]
  rcases List.eq_nil_or_concat l₁ with rfl | ⟨l, y, rfl⟩
  · have hxa : x = a ∧ l₂ = m := List.cons.inj ha
    obtain ⟨rfl, rfl⟩ := hxa
    rw [if_pos ((ha ▸ h.ring).adj_last_head hzall).2]
    rfl
  · have h' : Ring F s (l ++ y :: x :: l₂) := by simpa using h.ring
    have hprev : F.prev s x = some y := h'.adj_of_append.2
    have hyz : y ≠ z := by
      rintro rfl
      have hnd := (List.nodup_append.mp h.nodup).2.2 y (by simp) y (List.mem_of_getLast? hz)
      exact hnd rfl
    rw [hprev, if_neg fun e => hyz (Option.some.inj e)]
    simp

/-- The walk of `LIST_FOREACH` from an element of the list on visits the rest of the sequence. -/
theorem IsList.listForeach_eq {l₁ l₂ : List α} (h : IsList F S s head (l₁ ++ l₂))
    (hit : α → Bool) {n : Nat} (hn : l₂.length ≤ n) :
    listForeach F s head hit n l₂.head? = .ok (l₂.find? hit) := by
  induction l₂ generalizing l₁ n with
  | nil => cases n <;> rfl
  | cons x l₂ ih =>
    cases n with
    | zero => simp at hn
    | succ n =>
      rw [List.head?_cons, listForeach, h.listNext_eq, List.find?_cons]
      cases hit x with
      | true => rfl
      | false =>
        have h' : IsList F S s head ((l₁ ++ [x]) ++ l₂) := by simpa using h
        exact ih h' (by simpa using hn)

/-- **`LIST_FOREACH` visits the sequence in order and comes to an end.** -/
theorem IsList.listFind_eq (h : IsList F S s head l) (hit : α → Bool) :
    listFind F s head hit = .ok (l.find? hit) := by
  have h' : IsList F S s head ([] ++ l) := by simpa using h
  rw [listFind, h.first]
  exact h'.listForeach_eq hit h.count.ge

/-- **The walk finds the represented sequence.** -/
theorem IsList.listElements_eq (h : IsList F S s head l) : listElements F s head = l := by
  have hwalk : ∀ l₁ l₂, l = l₁ ++ l₂ → listWalk F s head l₂.length l₂.head? = l₂ := by
    intro l₁ l₂
    induction l₂ generalizing l₁ with
    | nil => exact fun _ => rfl
    | cons x l₂ ih =>
      intro hl
      subst hl
      rw [List.head?_cons, List.length_cons, listWalk, h.listNext_eq, ih (l₁ ++ [x]) (by simp)]
  rw [listElements, h.first, h.count]
  exact hwalk [] l rfl

omit [DecidableEq α] in
/-- A list only depends on the links that the memory gives its elements. -/
theorem IsList.of_links_eq (h : IsList F S s head l) {s' : σ}
    (hnext : ∀ c, F.next s' c = F.next s c) (hprev : ∀ c, F.prev s' c = F.prev s c) :
    IsList F S s' head l :=
  ⟨h.ring.congr (fun c _ => hnext c) (fun c _ => hprev c), h.first, h.count, h.nodup, h.mem⟩

/-- A list is untouched by link writes to other elements. -/
theorem IsList.of_edits (hF : F.LawfulOn S) {T : Set α} (hTS : T ⊆ S) {s' : σ}
    (h : IsList F S s head l) (he : Edits F T s s') (hd : ∀ c ∈ l, c ∉ T) :
    IsList F S s' head l :=
  ⟨he.ring hF hTS h.mem hd h.ring, h.first, h.count, h.nodup, h.mem⟩

/-! ## What the macros do -/

/-- **`LIST_INSERT_BEFORE` the first element.** The element is spliced in between the last and the
first one; the head keeps its first element. -/
theorem IsList.insertBefore_first (hF : F.LawfulOn S) {a x : α} {m : List α}
    (h : IsList F S s head (a :: m)) (hx : x ∉ a :: m) (hxS : x ∈ S) :
    ∃ s', listInsertBefore F head a x s
        = .ok ({ head with NumberOfElements := head.NumberOfElements + 1 }, s')
      ∧ Ring F s' (a :: m ++ [x]) ∧ Edits F {c | c ∈ x :: a :: m} s s' := by
  obtain ⟨z, hz⟩ : ∃ z, (a :: m).getLast? = some z := ⟨_, List.getLast?_cons⟩
  obtain ⟨k, hk⟩ := List.getLast?_eq_some_iff.mp hz
  have hza : Adj F s z a := h.ring.adj_last_head hz
  have hzm : z ∈ a :: m := List.mem_of_getLast? hz
  have ham : a ∈ a :: m := List.mem_cons_self
  have hzS : z ∈ S := h.mem z hzm
  have haS : a ∈ S := h.mem a ham
  have hxa : x ≠ a := fun e => hx (e ▸ ham)
  have hxz : x ≠ z := fun e => hx (e ▸ hzm)
  refine ⟨linkAfter F s z a x, ?_, ?_, ?_⟩
  · -- the predecessor of the first element is read three times, and is `z` each time
    have h1 : F.prev (F.setNext s x (some a)) a = some z := by
      rw [hF.prev_setNext _ x hxS a haS a haS]; exact hza.2
    have h2 : F.prev (F.setNext (F.setNext s x (some a)) z (some x)) a = some z := by
      rw [hF.prev_setNext _ z hzS x hxS a haS]; exact h1
    have h3 : F.next (F.setPrev (F.setNext (F.setNext s x (some a)) z (some x)) x (some z)) x
        = some a := by
      rw [hF.next_setPrev _ x hxS z hzS x hxS, hF.next_setNext _ z hzS x hxS x hxS, if_neg hxz,
        hF.next_setNext _ x hxS a haS x hxS, if_pos rfl]
    simp only [listInsertBefore, listInsertAfter, hza.2, deref_some, kernel_ok_bind, hza.1, h1,
      h2, h3]
    rfl
  · have hring : Ring F s (z :: k) := Ring.rotate (hk ▸ h.ring)
    have hperm : (z :: k).Perm (a :: m) := by
      rw [hk]; exact (List.perm_append_singleton z k).symm
    have hgrow : Ring F (linkAfter F s z a x) (z :: x :: k) :=
      hring.linkAfter hF hza (hperm.nodup_iff.mpr h.nodup) (fun hc => hx (hperm.mem_iff.mp hc))
        (fun c hc => h.mem c (hperm.mem_iff.mp hc)) hxS
    -- read the grown ring from its old first element
    have hrot : Ring F (linkAfter F s z a x) (k ++ [z, x]) := Ring.rotate (l := [z, x]) hgrow
    rw [hk]
    simpa using hrot
  · exact Edits.linkAfter s (List.mem_cons_of_mem x hzm) (by simp) (by simp)

/-- **`LIST_INSERT_AFTER`** an element of the list. -/
theorem IsList.insertAfter (hF : F.LawfulOn S) {p x : α} {l₁ l₂ : List α}
    (h : IsList F S s head (l₁ ++ p :: l₂)) (hx : x ∉ l₁ ++ p :: l₂) (hxS : x ∈ S) :
    ∃ s', listInsertAfter F head (fun _ => .ok p) x s
        = .ok ({ head with NumberOfElements := head.NumberOfElements + 1 }, s')
      ∧ IsList F S s' { head with NumberOfElements := head.NumberOfElements + 1 }
        (l₁ ++ p :: x :: l₂)
      ∧ Edits F {c | c ∈ x :: (l₁ ++ p :: l₂)} s s' := by
  have hrot : Ring F s (p :: (l₂ ++ l₁)) := by simpa using Ring.rotate h.ring
  have hperm : (p :: (l₂ ++ l₁)).Perm (l₁ ++ p :: l₂) := by
    have hcomm := @List.perm_append_comm α (p :: l₂) l₁
    simpa using hcomm
  obtain ⟨-, -, q, hq, -, hpq⟩ := hrot.exists_neighbours
  rw [hperm.mem_iff] at hq
  have hp : p ∈ l₁ ++ p :: l₂ := by simp
  have hpS : p ∈ S := h.mem p hp
  have hqS : q ∈ S := h.mem q hq
  have hxp : x ≠ p := fun e => hx (e ▸ hp)
  refine ⟨linkAfter F s p q x, ?_, ⟨?_, ?_, ?_, ?_, ?_⟩, ?_⟩
  · -- the successor is read off the new element, which has it from `p`
    have hnext : F.next (F.setPrev (F.setNext (F.setNext s x (some q)) p (some x)) x (some p)) x
        = some q := by
      rw [hF.next_setPrev _ x hxS p hpS x hxS, hF.next_setNext _ p hpS x hxS x hxS, if_neg hxp,
        hF.next_setNext _ x hxS q hqS x hxS, if_pos rfl]
    simp only [listInsertAfter, kernel_ok_bind, hpq.1, hnext, deref_some]
    rfl
  · have hgrow : Ring F (linkAfter F s p q x) (p :: x :: (l₂ ++ l₁)) :=
      hrot.linkAfter hF hpq (hperm.nodup_iff.mpr h.nodup) (fun hc => hx (hperm.mem_iff.mp hc))
        (fun c hc => h.mem c (hperm.mem_iff.mp hc)) hxS
    exact Ring.rotate (l := p :: x :: l₂) (by simpa using hgrow)
  · show head.lh_first = _
    rw [h.first]
    cases l₁ <;> rfl
  · show head.NumberOfElements + 1 = _
    rw [h.count]
    simp only [List.length_append, List.length_cons]
    omega
  · have hmove : (l₁ ++ p :: x :: l₂).Perm (x :: (l₁ ++ p :: l₂)) := by
      have hmid := @List.perm_middle α x (l₁ ++ [p]) l₂
      simpa using hmid
    exact hmove.nodup_iff.mpr (List.nodup_cons.mpr ⟨hx, h.nodup⟩)
  · intro c hc
    have hcases : c = x ∨ c ∈ l₁ ++ p :: l₂ := by
      simp only [List.mem_append, List.mem_cons] at hc ⊢
      tauto
    rcases hcases with rfl | hc
    · exact hxS
    · exact h.mem c hc
  · exact Edits.linkAfter s (List.mem_cons_of_mem x hp) (List.mem_cons_of_mem x hq) (by simp)

/-- **`LIST_INSERT_HEAD`** puts a new element in front. -/
theorem IsList.insertHead (hF : F.LawfulOn S) {x : α} (h : IsList F S s head l) (hx : x ∉ l)
    (hxS : x ∈ S) : ∃ head' s', listInsertHead F head x s = .ok (head', s')
      ∧ IsList F S s' head' (x :: l) ∧ Edits F {c | c ∈ x :: l} s s' := by
  cases l with
  | nil =>
    have hfirst : head.lh_first = none := h.first
    have hcount : head.NumberOfElements = 0 := h.count
    refine ⟨⟨some x, 1⟩, F.setNext (F.setPrev s x (some x)) x (some x), ?_,
      ⟨?_, rfl, rfl, List.nodup_singleton x, by simpa using hxS⟩, ?_⟩
    · simp only [listInsertHead, hfirst, hcount, assert_of_true, kernel_ok_bind]
      rfl
    · refine ⟨?_, ?_⟩
      · rw [hF.next_setNext _ x hxS x hxS x hxS, if_pos rfl]
      · rw [hF.prev_setNext _ x hxS x hxS x hxS, hF.prev_setPrev _ x hxS x hxS x hxS, if_pos rfl]
    · exact (Edits.setPrev s (by simp) (by simp)).trans (Edits.setNext _ (by simp) (by simp))
  | cons a m =>
    have hfirst : head.lh_first = some a := h.first
    obtain ⟨s', hrun, hring, hedits⟩ := h.insertBefore_first hF hx hxS
    refine ⟨⟨some x, head.NumberOfElements + 1⟩, s', ?_, ⟨?_, rfl, ?_, List.nodup_cons.mpr ⟨hx, h.nodup⟩, ?_⟩, hedits⟩
    · simp only [listInsertHead, hfirst, hrun, kernel_ok_bind]
      rfl
    · exact Ring.rotate (m := [x]) hring
    · simp [h.count]
    · simpa using ⟨hxS, h.mem a (by simp), fun c hc => h.mem c (by simp [hc])⟩

/-- **`LIST_INSERT_TAIL`** puts a new element at the end. -/
theorem IsList.insertTail (hF : F.LawfulOn S) {x : α} (h : IsList F S s head l) (hx : x ∉ l)
    (hxS : x ∈ S) : ∃ head' s', listInsertTail F head x s = .ok (head', s')
      ∧ IsList F S s' head' (l ++ [x]) ∧ Edits F {c | c ∈ x :: l} s s' := by
  cases l with
  | nil =>
    have hfirst : head.lh_first = none := h.first
    simp only [listInsertTail, hfirst]
    exact h.insertHead hF hx hxS
  | cons a m =>
    have hfirst : head.lh_first = some a := h.first
    obtain ⟨s', hrun, hring, hedits⟩ := h.insertBefore_first hF hx hxS
    refine ⟨{ head with NumberOfElements := head.NumberOfElements + 1 }, s', ?_,
      ⟨hring, ?_, ?_, ?_, ?_⟩, hedits⟩
    · simp only [listInsertTail, hfirst, hrun]
    · simpa using hfirst
    · simp [h.count]
    · have hperm : (a :: m ++ [x]).Perm (x :: a :: m) := List.perm_append_singleton x (a :: m)
      exact hperm.nodup_iff.mpr (List.nodup_cons.mpr ⟨hx, h.nodup⟩)
    · intro c hc
      rcases List.mem_append.mp hc with hc | hc
      · exact h.mem c hc
      · rw [List.mem_singleton.mp hc]; exact hxS

/-- **`LIST_REMOVE`** takes an element out of the sequence. -/
theorem IsList.remove (hF : F.LawfulOn S) {x : α} (h : IsList F S s head l) (hx : x ∈ l) :
    ∃ head' s', listRemove F head x s = .ok (head', s')
      ∧ IsList F S s' head' (l.erase x) ∧ Edits F {c | c ∈ l} s s' := by
  obtain ⟨l₁, l₂, rfl⟩ := List.append_of_mem hx
  have hrot : Ring F s (x :: (l₂ ++ l₁)) := by simpa using Ring.rotate h.ring
  have hperm : (x :: (l₂ ++ l₁)).Perm (l₁ ++ x :: l₂) := by
    have hcomm := @List.perm_append_comm α (x :: l₂) l₁
    simpa using hcomm
  obtain ⟨p, hp, n, hn, hpx, hxn⟩ := hrot.exists_neighbours
  rw [hperm.mem_iff] at hp hn
  have hpS : p ∈ S := h.mem p hp
  have hnS : n ∈ S := h.mem n hn
  have hxS : x ∈ S := h.mem x hx
  have hx₁ : x ∉ l₁ := fun hc => by
    have := (List.nodup_append.mp h.nodup).2.2 x hc x (by simp)
    exact this rfl
  have herase : (l₁ ++ x :: l₂).erase x = l₁ ++ l₂ := by
    rw [List.erase_append_right _ hx₁, List.erase_cons_head]
  have hshrunk : Ring F (unlink F s p n) (l₁ ++ l₂) :=
    Ring.rotate (hrot.unlink hF hpx hxn (hperm.nodup_iff.mpr h.nodup)
      (fun c hc => h.mem c (hperm.mem_iff.mp hc)))
  let first := if head.lh_first = some x then listNext F s head x else head.lh_first
  refine ⟨⟨first, head.NumberOfElements - 1⟩, unlink F s p n, ?_, ⟨herase ▸ hshrunk, ?_, ?_, h.nodup.erase x, ?_⟩, ?_⟩
  · have h1 : F.next (F.setNext s p (some n)) x = some n := by
      rw [hF.next_setNext _ p hpS n hnS x hxS, hxn.1, ite_self]
    have h2 : F.prev (F.setNext s p (some n)) x = some p := by
      rw [hF.prev_setNext _ p hpS n hnS x hxS, hpx.2]
    simp only [listRemove, hpx.2, deref_some, kernel_ok_bind, hxn.1, h1, h2]
    rfl
  · rw [herase]
    cases l₁ with
    | nil =>
      have hfirst : head.lh_first = some x := h.first
      have hnext : listNext F s head x = l₂.head? := @IsList.listNext_eq _ _ _ _ _ _ _ [] l₂ x h
      simp [first, hfirst, hnext]
    | cons a l₁ =>
      have hfirst : head.lh_first = some a := h.first
      have hax : a ≠ x := fun e => hx₁ (by simp [e])
      simp [first, hfirst, hax]
  · rw [herase, h.count]
    simp only [List.length_append, List.length_cons]
    omega
  · exact fun c hc => h.mem c (List.mem_of_mem_erase hc)
  · exact Edits.unlink s hp hn

/-- **`LIST_REMOVE_HEAD`** takes out the first element, `NULL` when there is none. -/
theorem IsList.removeHead (hF : F.LawfulOn S) (h : IsList F S s head l) :
    ∃ head' s', listRemoveHead F head s = .ok (l.head?, head', s')
      ∧ IsList F S s' head' l.tail ∧ Edits F {c | c ∈ l} s s' := by
  cases l with
  | nil =>
    have hfirst : head.lh_first = none := h.first
    exact ⟨head, s, by simp only [listRemoveHead, hfirst]; rfl, h, Relation.ReflTransGen.refl⟩
  | cons a m =>
    have hfirst : head.lh_first = some a := h.first
    obtain ⟨head', s', hrun, hlist, hedits⟩ := h.remove hF (x := a) (by simp)
    refine ⟨head', s', ?_, ?_, hedits⟩
    · simp only [listRemoveHead, hfirst, hrun, kernel_ok_bind]
      rfl
    · simpa using hlist

/-! ## Families of lists through one link

Several lists may use the same link member as long as no element is on two of them: an operation
on one list then leaves all the others as they are. -/

/-- **A family of lists** in one memory, with the heads `heads` and the sequences `lists`. -/
structure IsFamily {κ : Type} (F : LinkField σ α) (S : Set α) (s : σ) (heads : κ → ListHead α)
    (lists : κ → List α) : Prop where
  each : ∀ k, IsList F S s (heads k) (lists k)
  disjoint : ∀ j k, j ≠ k → ∀ c ∈ lists j, c ∉ lists k

section Family

variable {κ : Type} [DecidableEq κ] {heads : κ → ListHead α} {lists : κ → List α}

/-- Replace one member of a family, after edits that touch only this member and new elements. -/
theorem IsFamily.replace (hF : F.LawfulOn S) (h : IsFamily F S s heads lists) {k : κ}
    {head' : ListHead α} {l' : List α} {s' : σ} {T : Set α} (hTS : T ⊆ S)
    (he : Edits F T s s') (hT : ∀ j, j ≠ k → ∀ c ∈ lists j, c ∉ T)
    (hl' : ∀ j, j ≠ k → ∀ c ∈ lists j, c ∉ l') (hk : IsList F S s' head' l') :
    IsFamily F S s' (Function.update heads k head') (Function.update lists k l') := by
  constructor
  · intro j
    by_cases hj : j = k
    · subst hj
      simpa using hk
    · simpa [hj] using (h.each j).of_edits hF hTS he (hT j hj)
  · intro i j hij c hc
    by_cases hi : i = k
    · subst hi
      have hj : j ≠ i := Ne.symm hij
      simp only [Function.update_self] at hc
      simp only [Function.update_of_ne hj]
      exact fun hcj => hl' j hj c hcj hc
    · rw [Function.update_of_ne hi] at hc
      by_cases hj : j = k
      · subst hj
        simpa using hl' i hi c hc
      · simpa [hj] using h.disjoint i j hij c hc

/-- `LIST_INSERT_TAIL` on one member of a family. -/
theorem IsFamily.insertTail (hF : F.LawfulOn S) (h : IsFamily F S s heads lists) (k : κ) {x : α}
    (hx : ∀ j, x ∉ lists j) (hxS : x ∈ S) :
    ∃ head' s', listInsertTail F (heads k) x s = .ok (head', s')
      ∧ IsFamily F S s' (Function.update heads k head')
          (Function.update lists k (lists k ++ [x]))
      ∧ Edits F S s s' := by
  obtain ⟨head', s', hrun, hlist, hedits⟩ := (h.each k).insertTail hF (hx k) hxS
  have hTS : ∀ c ∈ x :: lists k, c ∈ S := by
    intro c hc
    rcases List.mem_cons.mp hc with rfl | hc
    · exact hxS
    · exact (h.each k).mem c hc
  have hfar : ∀ j, j ≠ k → ∀ c ∈ lists j, c ≠ x ∧ c ∉ lists k := fun j hj c hc =>
    ⟨fun e => hx j (e ▸ hc), h.disjoint j k hj c hc⟩
  refine ⟨head', s', hrun, h.replace hF hTS hedits ?_ ?_ hlist, hedits.mono hTS⟩
  · intro j hj c hc hcT
    rcases List.mem_cons.mp hcT with hcx | hck
    · exact (hfar j hj c hc).1 hcx
    · exact (hfar j hj c hc).2 hck
  · intro j hj c hc hcl
    rcases List.mem_append.mp hcl with hck | hcx
    · exact (hfar j hj c hc).2 hck
    · exact (hfar j hj c hc).1 (List.mem_singleton.mp hcx)

/-- `LIST_REMOVE_HEAD` on one member of a family. -/
theorem IsFamily.removeHead (hF : F.LawfulOn S) (h : IsFamily F S s heads lists) (k : κ) :
    ∃ head' s', listRemoveHead F (heads k) s = .ok ((lists k).head?, head', s')
      ∧ IsFamily F S s' (Function.update heads k head') (Function.update lists k (lists k).tail)
      ∧ Edits F S s s' := by
  obtain ⟨head', s', hrun, hlist, hedits⟩ := (h.each k).removeHead hF
  have hTS : ∀ c ∈ lists k, c ∈ S := (h.each k).mem
  refine ⟨head', s', hrun, h.replace hF hTS hedits ?_ ?_ hlist, hedits.mono hTS⟩
  · exact fun j hj c hc => h.disjoint j k hj c hc
  · exact fun j hj c hc hcl => h.disjoint j k hj c hc (List.mem_of_mem_tail hcl)

end Family

/-! ## What link writes leave alone -/

section Keeps

variable {F : LinkField σ α} {P : σ → Prop} {head head' : ListHead α} {x : α} {s s' : σ}

omit [DecidableEq α] in
/-- What every link write keeps is kept by an insertion behind an element. -/
theorem listInsertAfter_keeps (hnext : ∀ s a o, P s → P (F.setNext s a o))
    (hprev : ∀ s a o, P s → P (F.setPrev s a o)) {listelm : σ → Kernel α}
    (h : listInsertAfter F head listelm x s = .ok (head', s')) (hs : P s) : P s' := by
  obtain ⟨p, -, h⟩ := kernel_bind_eq_ok.mp h
  obtain ⟨q, -, h⟩ := kernel_bind_eq_ok.mp h
  obtain ⟨r, -, h⟩ := kernel_bind_eq_ok.mp h
  obtain ⟨n, -, h⟩ := kernel_bind_eq_ok.mp h
  cases h
  apply hprev
  apply hprev
  apply hnext
  apply hnext
  exact hs

omit [DecidableEq α] in
/-- What every link write keeps is kept by an insertion in front. -/
theorem listInsertHead_keeps (hnext : ∀ s a o, P s → P (F.setNext s a o))
    (hprev : ∀ s a o, P s → P (F.setPrev s a o))
    (h : listInsertHead F head x s = .ok (head', s')) (hs : P s) : P s' := by
  unfold listInsertHead at h
  split at h
  · obtain ⟨u, -, h⟩ := kernel_bind_eq_ok.mp h
    cases h
    apply hnext
    apply hprev
    exact hs
  · obtain ⟨r, hinsert, h⟩ := kernel_bind_eq_ok.mp h
    cases h
    exact listInsertAfter_keeps hnext hprev hinsert hs

omit [DecidableEq α] in
/-- What every link write keeps is kept by an insertion at the end. -/
theorem listInsertTail_keeps (hnext : ∀ s a o, P s → P (F.setNext s a o))
    (hprev : ∀ s a o, P s → P (F.setPrev s a o))
    (h : listInsertTail F head x s = .ok (head', s')) (hs : P s) : P s' := by
  unfold listInsertTail at h
  split at h
  · exact listInsertHead_keeps hnext hprev h hs
  · exact listInsertAfter_keeps hnext hprev h hs

/-- What every link write keeps is kept by a removal. -/
theorem listRemove_keeps (hnext : ∀ s a o, P s → P (F.setNext s a o))
    (hprev : ∀ s a o, P s → P (F.setPrev s a o))
    (h : listRemove F head x s = .ok (head', s')) (hs : P s) : P s' := by
  obtain ⟨p, -, h⟩ := kernel_bind_eq_ok.mp h
  obtain ⟨n, -, h⟩ := kernel_bind_eq_ok.mp h
  cases h
  apply hprev
  apply hnext
  exact hs

/-- What every link write keeps is kept by the removal of the first element. -/
theorem listRemoveHead_keeps (hnext : ∀ s a o, P s → P (F.setNext s a o))
    (hprev : ∀ s a o, P s → P (F.setPrev s a o)) {y : Option α}
    (h : listRemoveHead F head s = .ok (y, head', s')) (hs : P s) : P s' := by
  unfold listRemoveHead at h
  split at h
  · cases h
    exact hs
  · obtain ⟨r, hremove, h⟩ := kernel_bind_eq_ok.mp h
    cases h
    exact listRemove_keeps hnext hprev hremove hs

end Keeps

end KaushOS
