import Mathlib.Logic.Function.Basic
import Mathlib.Logic.Relation
import Mathlib.Data.List.Nodup

/-! # Chains in a table of links

A table gives each node the node that follows it, or none. From a node, the links lead through a chain
that ends somewhere or comes back to itself.

* **`Reach`** — the nodes that the links lead to; **`reach_cut`** takes off the first of them.
* **`Chain`** — a chain that ends, as the list of its nodes.
* **`Chain.extend`**, **`Chain.cut`**, **`Chain.congr`** — a chain grows at its end, is cut off behind a
  node, and stays as it is when other nodes change. -/

namespace LinkedChain

variable {κ : Type*}

/-- **The nodes that the links lead to.** -/
def Reach (next : κ → Option κ) : κ → κ → Prop := Relation.ReflTransGen fun a b => next a = some b

/-- **A chain that ends**: the nodes from the first to the last one. -/
inductive Chain (next : κ → Option κ) : κ → List κ → Prop
  | last {a : κ} (h : next a = none) : Chain next a [a]
  | link {a b : κ} {l : List κ} (h : next a = some b) (hrest : Chain next b l) : Chain next a (a :: l)

variable {next next' : κ → Option κ} {a b c d z : κ} {l l' l₁ l₂ : List κ}

/-! ## Reaching -/

/-- A node reaches itself, or something by its link. -/
theorem reach_iff (hnext : next a = some b) : Reach next a c ↔ c = a ∨ Reach next b c := by
  constructor
  · intro h
    rcases Relation.ReflTransGen.cases_head h with rfl | ⟨d, hd, hrest⟩
    · exact .inl rfl
    · rw [hnext] at hd
      cases hd
      exact .inr hrest
  · rintro (rfl | h)
    · exact .refl
    · exact .head hnext h

/-- A node without a link reaches only itself. -/
theorem reach_last (hnext : next a = none) : Reach next a c ↔ c = a := by
  constructor
  · intro h
    rcases Relation.ReflTransGen.cases_head h with rfl | ⟨d, hd, -⟩
    · rfl
    · rw [hnext] at hd
      cases hd
  · rintro rfl
    exact .refl

/-- Fewer links lead to fewer nodes. -/
theorem Reach.mono (h : Reach next a c) (hsub : ∀ x y, next x = some y → next' x = some y) : Reach next' a c :=
  Relation.ReflTransGen.mono hsub _ _ h

section Cut

variable [DecidableEq κ]

/-- **The first node is taken off**: what it reaches is itself, and what its successor reaches without it. -/
theorem reach_cut (hnext : next a = some b) :
    Reach next a c ↔ c = a ∨ Reach (Function.update next a none) b c := by
  have hsub : ∀ x y, Function.update next a none x = some y → next x = some y := fun x y h => by
    by_cases hx : x = a
    · rw [hx, Function.update_self] at h
      cases h
    · rwa [Function.update_of_ne hx] at h
  rw [reach_iff hnext]
  refine or_congr_right ⟨fun h => ?_, fun h => h.mono hsub⟩
  induction h with
  | refl => exact .refl
  | @tail y z _ hyz ih =>
    by_cases hy : y = a
    · -- the links lead back to the first node, and so again to its successor
      rw [hy, hnext] at hyz
      cases hyz
      exact .refl
    · exact .tail ih (by rwa [Function.update_of_ne hy])

end Cut

/-! ## Chains -/

/-- A chain begins with its first node. -/
theorem Chain.head_mem (h : Chain next a l) : a ∈ l := by
  cases h with
  | last _ => exact List.mem_singleton_self a
  | link _ _ => exact List.mem_cons_self

theorem Chain.ne_nil (h : Chain next a l) : l ≠ [] := List.ne_nil_of_mem h.head_mem

/-- The first node of a chain. -/
theorem Chain.head? (h : Chain next a l) : l.head? = some a := by
  cases h with
  | last _ => rfl
  | link _ _ => rfl

/-- **A chain is what its first node reaches.** -/
theorem Chain.mem_iff (h : Chain next a l) : c ∈ l ↔ Reach next a c := by
  induction h with
  | last hlast => rw [List.mem_singleton, reach_last hlast]
  | link hlink _ ih => rw [List.mem_cons, reach_iff hlink, ih]

/-- There is one chain from a node. -/
theorem Chain.unique (h : Chain next a l) (h' : Chain next a l') : l = l' := by
  induction h generalizing l' with
  | last hlast =>
    cases h' with
    | last _ => rfl
    | link hlink _ => rw [hlast] at hlink; cases hlink
  | link hlink _ ih =>
    cases h' with
    | last hlast => rw [hlast] at hlink; cases hlink
    | link hlink' hrest' =>
      rw [hlink] at hlink'
      cases hlink'
      rw [ih hrest']

/-- **A chain from each of its nodes.** -/
theorem Chain.suffix (h : Chain next a (l₁ ++ z :: l₂)) : Chain next z (z :: l₂) := by
  induction l₁ generalizing a with
  | nil =>
    cases h with
    | last hlast => exact .last hlast
    | link hlink hrest => exact .link hlink hrest
  | cons x l₁ ih =>
    generalize hl : l₁ ++ z :: l₂ = l at h
    rw [List.cons_append, hl] at h
    cases h with
    | last _ => exact absurd hl (by simp)
    | link _ hrest => exact ih (hl ▸ hrest)

/-- **A chain does not come back** to a node. -/
theorem Chain.nodup (h : Chain next a l) : l.Nodup := by
  induction h with
  | last _ => exact List.nodup_singleton _
  | @link a b l hlink hrest ih =>
    refine List.nodup_cons.mpr ⟨fun hmem => ?_, ih⟩
    obtain ⟨l₁, l₂, rfl⟩ := List.append_of_mem hmem
    have hlen := congrArg List.length (hrest.suffix.unique (.link hlink hrest))
    simp only [List.length_cons, List.length_append] at hlen
    omega

/-- **Other nodes may change.** -/
theorem Chain.congr (h : Chain next a l) (hsame : ∀ x ∈ l, next' x = next x) : Chain next' a l := by
  induction h with
  | @last a hlast => exact .last ((hsame a (List.mem_singleton_self a)).trans hlast)
  | @link a b l hlink _ ih =>
    exact .link ((hsame a List.mem_cons_self).trans hlink) (ih fun x hx => hsame x (List.mem_cons_of_mem a hx))

/-- The last node has no link. -/
theorem Chain.next_last (h : Chain next a (l ++ [z])) : next z = none := by
  have hsuffix := h.suffix
  cases hsuffix with
  | last hlast => exact hlast
  | link _ hrest => exact absurd rfl hrest.ne_nil

/-- **Each node has its successor in the chain as its link.** -/
theorem Chain.next_mem (h : Chain next a (l₁ ++ z :: d :: l₂)) : next z = some d := by
  have hsuffix := h.suffix
  cases hsuffix with
  | link hlink hrest =>
    have hhead := hrest.head?
    rw [List.head?_cons] at hhead
    rw [hlink, hhead]

/-- **A chain grows at its end.** -/
theorem Chain.extend (h : Chain next a (l ++ [z])) (hz : next' z = some d) (hd : next' d = none)
    (hsame : ∀ x ∈ l, next' x = next x) : Chain next' a (l ++ [z, d]) := by
  induction l generalizing a with
  | nil =>
    cases h with
    | last _ => exact .link hz (.last hd)
    | link _ hrest => exact absurd rfl hrest.ne_nil
  | cons x l ih =>
    generalize hl : l ++ [z] = r at h
    rw [List.cons_append, hl] at h
    cases h with
    | last _ => exact absurd hl (by simp)
    | link hlink hrest =>
      exact .link ((hsame _ List.mem_cons_self).trans hlink)
        (ih (hl ▸ hrest) fun y hy => hsame y (List.mem_cons_of_mem _ hy))

/-- **A chain is cut off** behind a node. -/
theorem Chain.cut (h : Chain next a (l₁ ++ z :: l₂)) (hz : next' z = none) (hsame : ∀ x ∈ l₁, next' x = next x) :
    Chain next' a (l₁ ++ [z]) := by
  induction l₁ generalizing a with
  | nil =>
    obtain rfl : z = a := by
      have hhead := h.head?
      exact Option.some.inj hhead
    exact .last hz
  | cons x l₁ ih =>
    generalize hl : l₁ ++ z :: l₂ = r at h
    rw [List.cons_append, hl] at h
    cases h with
    | last _ => exact absurd hl (by simp)
    | link hlink hrest =>
      exact .link ((hsame _ List.mem_cons_self).trans hlink)
        (ih (hl ▸ hrest) fun y hy => hsame y (List.mem_cons_of_mem _ hy))

end LinkedChain
