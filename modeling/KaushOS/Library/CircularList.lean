import Mathlib.Data.List.Nodup
import Mathlib.Data.List.Rotate
import Mathlib.Logic.Relation
import Mathlib.Data.Set.Basic

/-! # Intrusive circular doubly linked lists

An intrusive list keeps its two links inside the nodes themselves, so a list is not a value of
its own but a *pattern* in some memory `σ`. This file develops that pattern once, for any memory
that offers two link fields per node:

* **`LinkField σ α`** — how to read and write the `next` and `prev` link of a node `α` in `σ`;
  `LawfulOn S` says that on the nodes of `S` the fields behave like independent variables.
* **`Adj`, `Path`, `Ring`** — two nodes joined in both directions, a chain of such joints, and a
  chain that closes on itself. `Ring F s l` is the circular list `l` read from its first node.
* **`linkAfter`, `unlink`** — the two splices, with `Ring.linkAfter` and `Ring.unlink` saying
  which circular list results.
* **`Edits T`** — the memories reachable by rewriting links of nodes in `T` only, with the frame
  rule `Edits.ring` for rings that share no node with `T`. -/

namespace CircularList

/-- **The link fields of a memory.** `next` and `prev` read the two links of a node (`none` is the
null pointer), `setNext` and `setPrev` overwrite one of them. -/
structure LinkField (σ α : Type*) where
  /-- The forward link of a node. -/
  next : σ → α → Option α
  /-- The backward link of a node. -/
  prev : σ → α → Option α
  /-- Overwrite the forward link of a node. -/
  setNext : σ → α → Option α → σ
  /-- Overwrite the backward link of a node. -/
  setPrev : σ → α → Option α → σ

variable {σ α : Type*} {F : LinkField σ α} {S T : Set α}

/-! ## Paths and rings -/

/-- `Adj F s a b`: node `b` follows node `a`, as seen from both of them. -/
def Adj (F : LinkField σ α) (s : σ) (a b : α) : Prop :=
  F.next s a = some b ∧ F.prev s b = some a

/-- **A path.** `Path F s a l b`: following the links from `a` visits exactly the nodes `l` and
then `b`. -/
def Path (F : LinkField σ α) (s : σ) : α → List α → α → Prop
  | a, [], b => Adj F s a b
  | a, c :: l, b => Adj F s a c ∧ Path F s c l b

/-- **A ring.** `Ring F s l`: the nodes `l` form one circular list, in this order. -/
def Ring (F : LinkField σ α) (s : σ) : List α → Prop
  | [] => True
  | a :: m => Path F s a m a

@[simp] theorem path_nil {s : σ} {a b : α} : Path F s a [] b ↔ Adj F s a b := Iff.rfl

@[simp] theorem path_cons {s : σ} {a b c : α} {l : List α} :
    Path F s a (c :: l) b ↔ Adj F s a c ∧ Path F s c l b := Iff.rfl

@[simp] theorem ring_nil {s : σ} : Ring F s [] := trivial

@[simp] theorem ring_cons {s : σ} {a : α} {m : List α} :
    Ring F s (a :: m) ↔ Path F s a m a := Iff.rfl

/-- A path splits at any node it visits. -/
theorem path_append_cons {s : σ} {a b c : α} {l m : List α} :
    Path F s a (l ++ c :: m) b ↔ Path F s a l c ∧ Path F s c m b := by
  induction l generalizing a with
  | nil => simp only [List.nil_append, path_cons, path_nil]
  | cons d l ih => simp only [List.cons_append, path_cons, ih, and_assoc]

/-- **Frame rule for paths.** A path only depends on the forward links of the nodes it leaves and
on the backward links of the nodes it enters. -/
theorem Path.congr {s s' : σ} {a b : α} {l : List α} (h : Path F s a l b)
    (hnext : ∀ c ∈ a :: l, F.next s' c = F.next s c)
    (hprev : ∀ c ∈ l ++ [b], F.prev s' c = F.prev s c) : Path F s' a l b := by
  induction l generalizing a with
  | nil =>
    exact ⟨(hnext a (by simp)).trans h.1, (hprev b (by simp)).trans h.2⟩
  | cons c l ih =>
    obtain ⟨hac, hcb⟩ := h
    refine ⟨⟨(hnext a (by simp)).trans hac.1, (hprev c (by simp)).trans hac.2⟩, ?_⟩
    exact ih hcb (fun d hd => hnext d (List.mem_cons_of_mem a hd))
      (fun d hd => hprev d (List.mem_cons_of_mem c hd))

/-- **Frame rule for rings.** A ring only depends on the links of its own nodes. -/
theorem Ring.congr {s s' : σ} {l : List α} (h : Ring F s l)
    (hnext : ∀ c ∈ l, F.next s' c = F.next s c) (hprev : ∀ c ∈ l, F.prev s' c = F.prev s c) :
    Ring F s' l := by
  cases l with
  | nil => exact ring_nil
  | cons a m =>
    refine Path.congr h hnext fun c hc => hprev c ?_
    simpa [or_comm] using hc

/-- **A ring has no distinguished start.** Reading it from another node rotates the list. -/
theorem Ring.rotate {s : σ} {l m : List α} (h : Ring F s (l ++ m)) : Ring F s (m ++ l) := by
  cases l with
  | nil => simpa using h
  | cons a l =>
    cases m with
    | nil => simpa using h
    | cons b m =>
      have h' : Path F s a (l ++ b :: m) a := h
      rw [path_append_cons] at h'
      exact path_append_cons.mpr ⟨h'.2, h'.1⟩

/-- Inside a ring the forward link of a node leads to the node listed after it. -/
theorem Ring.adj_of_append {s : σ} {l m : List α} {a b : α} (h : Ring F s (l ++ a :: b :: m)) :
    Adj F s a b := by
  have h' : Ring F s (a :: b :: (m ++ l)) := by simpa using Ring.rotate h
  exact h'.1

/-- The last node of a ring is followed by its first. -/
theorem Ring.adj_last_head {s : σ} {a z : α} {m : List α} (h : Ring F s (a :: m))
    (hz : (a :: m).getLast? = some z) : Adj F s z a := by
  obtain ⟨l, hl⟩ := List.getLast?_eq_some_iff.mp hz
  have h' : Ring F s (z :: l) := Ring.rotate (hl ▸ h)
  cases l with
  | nil =>
    obtain ⟨rfl, -⟩ : a = z ∧ m = [] := by simpa using hl
    exact h'
  | cons b l =>
    obtain ⟨rfl, -⟩ : a = b ∧ m = l ++ [z] := by simpa using hl
    exact h'.1

/-- Every node of a ring has a predecessor and a successor in it. -/
theorem Ring.exists_neighbours {s : σ} {x : α} {m : List α} (h : Ring F s (x :: m)) :
    ∃ p ∈ x :: m, ∃ n ∈ x :: m, Adj F s p x ∧ Adj F s x n := by
  obtain ⟨z, hz⟩ : ∃ z, (x :: m).getLast? = some z := ⟨_, List.getLast?_cons⟩
  refine ⟨z, List.mem_of_getLast? hz, ?_⟩
  cases m with
  | nil => exact ⟨x, by simp, h.adj_last_head hz, h⟩
  | cons n m => exact ⟨n, by simp, h.adj_last_head hz, h.1⟩

/-! ## Rewriting the links of a set of nodes -/

/-- One link write that stays inside `T`: a node of `T` is made to point at a node of `T`. -/
def Edit (F : LinkField σ α) (T : Set α) (s s' : σ) : Prop :=
  ∃ a ∈ T, ∃ b ∈ T, s' = F.setNext s a (some b) ∨ s' = F.setPrev s a (some b)

/-- **Any number of link writes inside `T`.** -/
def Edits (F : LinkField σ α) (T : Set α) : σ → σ → Prop :=
  Relation.ReflTransGen (Edit F T)

/-- A forward-link write inside `T` is an edit. -/
theorem Edits.setNext (s : σ) {a b : α} (ha : a ∈ T) (hb : b ∈ T) :
    Edits F T s (F.setNext s a (some b)) :=
  Relation.ReflTransGen.single ⟨a, ha, b, hb, Or.inl rfl⟩

/-- A backward-link write inside `T` is an edit. -/
theorem Edits.setPrev (s : σ) {a b : α} (ha : a ∈ T) (hb : b ∈ T) :
    Edits F T s (F.setPrev s a (some b)) :=
  Relation.ReflTransGen.single ⟨a, ha, b, hb, Or.inr rfl⟩

/-- **Invariant rule for edits.** What every single link write inside `T` keeps, edits keep. -/
theorem Edits.invariant {P : σ → Prop} {s s' : σ} (h : Edits F T s s')
    (hnext : ∀ s a b, a ∈ T → b ∈ T → P s → P (F.setNext s a (some b)))
    (hprev : ∀ s a b, a ∈ T → b ∈ T → P s → P (F.setPrev s a (some b))) (hs : P s) : P s' := by
  induction h with
  | refl => exact hs
  | tail _ hstep ih =>
    obtain ⟨a, ha, b, hb, rfl | rfl⟩ := hstep
    · exact hnext _ a b ha hb ih
    · exact hprev _ a b ha hb ih

/-- Edits inside a set are edits inside every larger set. -/
theorem Edits.mono {s s' : σ} (h : Edits F T s s') (hTS : T ⊆ S) : Edits F S s s' := by
  refine h.invariant (P := fun t => Edits F S s t) ?_ ?_ Relation.ReflTransGen.refl
  · intro t a b ha hb ht
    exact ht.trans (Edits.setNext t (hTS ha) (hTS hb))
  · intro t a b ha hb ht
    exact ht.trans (Edits.setPrev t (hTS ha) (hTS hb))

/-! ## Lawful link fields -/

variable [DecidableEq α]

/-- **The link fields are independent variables on `S`.** Writing a link of one node of `S` to
point at a node of `S` is seen by reading that link and by no other read in `S`. -/
structure LinkField.LawfulOn (F : LinkField σ α) (S : Set α) : Prop where
  next_setNext : ∀ s, ∀ a ∈ S, ∀ b ∈ S, ∀ c ∈ S,
    F.next (F.setNext s a (some b)) c = if c = a then some b else F.next s c
  prev_setPrev : ∀ s, ∀ a ∈ S, ∀ b ∈ S, ∀ c ∈ S,
    F.prev (F.setPrev s a (some b)) c = if c = a then some b else F.prev s c
  next_setPrev : ∀ s, ∀ a ∈ S, ∀ b ∈ S, ∀ c ∈ S, F.next (F.setPrev s a (some b)) c = F.next s c
  prev_setNext : ∀ s, ∀ a ∈ S, ∀ b ∈ S, ∀ c ∈ S, F.prev (F.setNext s a (some b)) c = F.prev s c

/-- Edits inside `T` leave the links of the other nodes alone. -/
theorem Edits.links_eq (hF : F.LawfulOn S) (hTS : T ⊆ S) {s s' : σ} (h : Edits F T s s') {c : α}
    (hc : c ∈ S) (hcT : c ∉ T) : F.next s' c = F.next s c ∧ F.prev s' c = F.prev s c := by
  refine h.invariant (P := fun t => F.next t c = F.next s c ∧ F.prev t c = F.prev s c)
    (fun t a b ha hb ht => ?_) (fun t a b ha hb ht => ?_) ⟨rfl, rfl⟩
  · have hca : c ≠ a := fun e => hcT (e ▸ ha)
    rw [hF.next_setNext t a (hTS ha) b (hTS hb) c hc, if_neg hca,
      hF.prev_setNext t a (hTS ha) b (hTS hb) c hc]
    exact ht
  · have hca : c ≠ a := fun e => hcT (e ▸ ha)
    rw [hF.prev_setPrev t a (hTS ha) b (hTS hb) c hc, if_neg hca,
      hF.next_setPrev t a (hTS ha) b (hTS hb) c hc]
    exact ht

/-- **Frame rule for edits.** A ring that shares no node with `T` survives edits inside `T`. -/
theorem Edits.ring (hF : F.LawfulOn S) (hTS : T ⊆ S) {s s' : σ} (h : Edits F T s s')
    {l : List α} (hl : ∀ c ∈ l, c ∈ S) (hlT : ∀ c ∈ l, c ∉ T) (hr : Ring F s l) :
    Ring F s' l :=
  hr.congr (fun c hc => (h.links_eq hF hTS (hl c hc) (hlT c hc)).1)
    (fun c hc => (h.links_eq hF hTS (hl c hc) (hlT c hc)).2)

/-! ## Splicing a node in -/

/-- **Splice `x` in between `p` and its successor `q`**, the four link writes in the usual order. -/
def linkAfter (F : LinkField σ α) (s : σ) (p q x : α) : σ :=
  let s := F.setNext s x (some q)
  let s := F.setNext s p (some x)
  let s := F.setPrev s x (some p)
  F.setPrev s q (some x)

/-- The forward links after a splice: `x` leads to `q`, `p` leads to `x`. -/
theorem next_linkAfter (hF : F.LawfulOn S) (s : σ) {p q x c : α} (hp : p ∈ S) (hq : q ∈ S)
    (hx : x ∈ S) (hc : c ∈ S) : F.next (linkAfter F s p q x) c
      = if c = p then some x else if c = x then some q else F.next s c := by
  unfold linkAfter
  rw [hF.next_setPrev _ q hq x hx c hc, hF.next_setPrev _ x hx p hp c hc,
    hF.next_setNext _ p hp x hx c hc, hF.next_setNext _ x hx q hq c hc]

/-- The backward links after a splice: `q` leads back to `x`, `x` leads back to `p`. -/
theorem prev_linkAfter (hF : F.LawfulOn S) (s : σ) {p q x c : α} (hp : p ∈ S) (hq : q ∈ S)
    (hx : x ∈ S) (hc : c ∈ S) : F.prev (linkAfter F s p q x) c
      = if c = q then some x else if c = x then some p else F.prev s c := by
  unfold linkAfter
  rw [hF.prev_setPrev _ q hq x hx c hc, hF.prev_setPrev _ x hx p hp c hc,
    hF.prev_setNext _ p hp x hx c hc, hF.prev_setNext _ x hx q hq c hc]

/-- **Splicing grows the ring by one node.** The new node comes right after `p`. -/
theorem Ring.linkAfter (hF : F.LawfulOn S) {s : σ} {p q x : α} {m : List α}
    (h : Ring F s (p :: m)) (hq : Adj F s p q) (hnd : (p :: m).Nodup) (hx : x ∉ p :: m)
    (hS : ∀ c ∈ p :: m, c ∈ S) (hxS : x ∈ S) :
    Ring F (linkAfter F s p q x) (p :: x :: m) := by
  have hp : p ∈ S := hS p (by simp)
  have hxp : x ≠ p := fun e => hx (by simp [e])
  cases m with
  | nil =>
    -- the ring of one node: its successor is itself
    have hqp : q = p := by
      have h1 : F.next s p = some p := h.1
      simpa [hq.1] using h1
    subst hqp
    refine ⟨⟨?_, ?_⟩, ?_, ?_⟩
    · rw [next_linkAfter hF s hp hp hxS hp, if_pos rfl]
    · rw [prev_linkAfter hF s hp hp hxS hxS, if_neg hxp, if_pos rfl]
    · rw [next_linkAfter hF s hp hp hxS hxS, if_neg hxp, if_pos rfl]
    · rw [prev_linkAfter hF s hp hp hxS hp, if_pos rfl]
  | cons r m =>
    obtain ⟨hpr, hrest⟩ := h
    have hqr : q = r := by simpa [hq.1] using hpr.1
    subst hqr
    have hqS : q ∈ S := hS q (by simp)
    have hxq : x ≠ q := fun e => hx (by simp [e])
    have hqm : q ∉ m := (List.nodup_cons.mp (List.nodup_cons.mp hnd).2).1
    have hpq : p ≠ q := fun e => (List.nodup_cons.mp hnd).1 (by simp [e])
    have hpm : p ∉ q :: m := (List.nodup_cons.mp hnd).1
    refine ⟨⟨?_, ?_⟩, ⟨?_, ?_⟩, ?_⟩
    · rw [next_linkAfter hF s hp hqS hxS hp, if_pos rfl]
    · rw [prev_linkAfter hF s hp hqS hxS hxS, if_neg hxq, if_pos rfl]
    · rw [next_linkAfter hF s hp hqS hxS hxS, if_neg hxp, if_pos rfl]
    · rw [prev_linkAfter hF s hp hqS hxS hqS, if_pos rfl]
    · -- from `q` on nothing changes: neither `p` nor `x` is left, neither `q` nor `x` entered
      refine hrest.congr (fun c hc => ?_) (fun c hc => ?_)
      · have hcS : c ∈ S := hS c (by simp_all)
        have hcp : c ≠ p := fun e => hpm (e ▸ hc)
        have hcx : c ≠ x := fun e => hx (by simp_all)
        rw [next_linkAfter hF s hp hqS hxS hcS, if_neg hcp, if_neg hcx]
      · have hcS : c ∈ S := hS c (by
          rcases List.mem_append.mp hc with hc | hc
          · simp [hc]
          · simp_all)
        have hcq : c ≠ q := by
          rcases List.mem_append.mp hc with hc | hc
          · exact fun e => hqm (e ▸ hc)
          · rw [List.mem_singleton.mp hc]; exact hpq
        have hcx : c ≠ x := by
          rcases List.mem_append.mp hc with hc | hc
          · exact fun e => hx (by simp [← e, hc])
          · rw [List.mem_singleton.mp hc]; exact hxp.symm
        rw [prev_linkAfter hF s hp hqS hxS hcS, if_neg hcq, if_neg hcx]

omit [DecidableEq α] in
/-- Splicing a node in only edits the three nodes involved. -/
theorem Edits.linkAfter (s : σ) {p q x : α} (hp : p ∈ T) (hq : q ∈ T) (hx : x ∈ T) :
    Edits F T s (linkAfter F s p q x) :=
  (((Edits.setNext s hx hq).trans (Edits.setNext _ hp hx)).trans (Edits.setPrev _ hx hp)).trans
    (Edits.setPrev _ hq hx)

/-! ## Splicing a node out -/

/-- **Splice out the node between `p` and `n`**: its two neighbours are joined. -/
def unlink (F : LinkField σ α) (s : σ) (p n : α) : σ :=
  F.setPrev (F.setNext s p (some n)) n (some p)

/-- The forward links after a node is spliced out. -/
theorem next_unlink (hF : F.LawfulOn S) (s : σ) {p n c : α} (hp : p ∈ S) (hn : n ∈ S)
    (hc : c ∈ S) : F.next (unlink F s p n) c = if c = p then some n else F.next s c := by
  unfold unlink
  rw [hF.next_setPrev _ n hn p hp c hc, hF.next_setNext _ p hp n hn c hc]

/-- The backward links after a node is spliced out. -/
theorem prev_unlink (hF : F.LawfulOn S) (s : σ) {p n c : α} (hp : p ∈ S) (hn : n ∈ S)
    (hc : c ∈ S) : F.prev (unlink F s p n) c = if c = n then some p else F.prev s c := by
  unfold unlink
  rw [hF.prev_setPrev _ n hn p hp c hc, hF.prev_setNext _ p hp n hn c hc]

/-- **Splicing out shrinks the ring by one node.** -/
theorem Ring.unlink (hF : F.LawfulOn S) {s : σ} {x p n : α} {m : List α}
    (h : Ring F s (x :: m)) (hp : Adj F s p x) (hn : Adj F s x n) (hnd : (x :: m).Nodup)
    (hS : ∀ c ∈ x :: m, c ∈ S) : Ring F (unlink F s p n) m := by
  cases m with
  | nil => exact ring_nil
  | cons q m =>
    obtain ⟨hxq, hrest⟩ := h
    have hnq : n = q := by simpa [hn.1] using hxq.1
    subst hnq
    have hnS : n ∈ S := hS n (by simp)
    have hnm : n ∉ m := (List.nodup_cons.mp (List.nodup_cons.mp hnd).2).1
    have hxm : x ∉ n :: m := (List.nodup_cons.mp hnd).1
    rcases List.eq_nil_or_concat m with rfl | ⟨m, z, rfl⟩
    · -- two nodes: the survivor becomes a ring of its own
      have hpn : p = n := by
        have h1 : F.prev s x = some n := hrest.2
        simpa [hp.2] using h1
      subst hpn
      refine ⟨?_, ?_⟩
      · rw [next_unlink hF s hnS hnS hnS, if_pos rfl]
      · rw [prev_unlink hF s hnS hnS hnS, if_pos rfl]
    · rw [List.concat_eq_append] at *
      obtain ⟨hnz, hzx⟩ := path_append_cons.mp hrest
      have hpz : p = z := by
        have h1 : F.prev s x = some z := hzx.2
        simpa [hp.2] using h1
      subst hpz
      have hpS : p ∈ S := hS p (by simp)
      have hpn : p ≠ n := fun e => hnm (by simp [e])
      have hpm : p ∉ n :: m := by
        have hnd' : (n :: m ++ [p]).Nodup := by simpa using (List.nodup_cons.mp hnd).2
        exact fun hc => (List.disjoint_of_nodup_append hnd') hc (by simp)
      have hnm' : n ∉ m ++ [p] := hnm
      refine path_append_cons.mpr ⟨?_, ?_, ?_⟩
      · refine hnz.congr (fun c hc => ?_) (fun c hc => ?_)
        · have hcS : c ∈ S := hS c (by
            rcases List.mem_cons.mp hc with hc | hc <;> simp [hc])
          rw [next_unlink hF s hpS hnS hcS, if_neg (ne_of_mem_of_not_mem hc hpm)]
        · have hcS : c ∈ S := hS c (by
            rcases List.mem_append.mp hc with hc | hc <;> simp_all)
          rw [prev_unlink hF s hpS hnS hcS, if_neg (ne_of_mem_of_not_mem hc hnm')]
      · rw [next_unlink hF s hpS hnS hpS, if_pos rfl]
      · rw [prev_unlink hF s hpS hnS hnS, if_pos rfl]

omit [DecidableEq α] in
/-- Splicing a node out only edits its two neighbours. -/
theorem Edits.unlink (s : σ) {p n : α} (hp : p ∈ T) (hn : n ∈ T) :
    Edits F T s (unlink F s p n) :=
  (Edits.setNext s hp hn).trans (Edits.setPrev _ hn hp)

end CircularList
