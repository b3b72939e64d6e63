import Mathlib.Data.List.TakeWhile

/-! # Paths through directories

A path is a list of characters in which separators part the components; separators may be
repeated, lead and trail. A graph of directories is given by which nodes are directories and what
child a directory has under a name.

* **`components`** — the components of a path, with the equations by which a scanner takes them
  off the front one at a time.
* **`Walk`**, **`Missing`** — a sequence of names leads to a node, or all but its last name do and
  the last one is not there. -/

namespace Paths

/-! ## Components -/

section Components

variable {α : Type*} {sep : α → Bool} {c l rest : List α} {a : α}

/-- **The components of a path**: what is left between the separators. -/
def components (sep : α → Bool) (l : List α) : List (List α) :=
  (l.splitOnP sep).filter fun c => !c.isEmpty

/-- Does a path end in a separator? -/
def Trailing (sep : α → Bool) (l : List α) : Prop := ∃ a, l.getLast? = some a ∧ sep a = true

@[simp] theorem components_nil : components sep [] = [] := by
  simp [components]

/-- A separator in front means nothing. -/
theorem components_cons_sep (ha : sep a = true) : components sep (a :: l) = components sep l := by
  have hsplit : ([] ++ a :: l).splitOnP sep = [] :: l.splitOnP sep :=
    List.splitOnP_append_cons_of_forall_mem (fun _ h => absurd h List.not_mem_nil) a ha l
  rw [List.nil_append] at hsplit
  simp [components, hsplit]

/-- Separators in front mean nothing. -/
theorem components_dropWhile (l : List α) : components sep (l.dropWhile sep) = components sep l := by
  induction l with
  | nil => rfl
  | cons a l ih =>
    by_cases ha : sep a = true
    · rw [List.dropWhile_cons_of_pos ha, ih, components_cons_sep ha]
    · rw [List.dropWhile_cons_of_neg ha]

/-- **The first component** ends at the first separator or at the end of the path. -/
theorem components_run (hc : c ≠ []) (hsep : ∀ a ∈ c, sep a = false)
    (hrest : ∀ a, rest.head? = some a → sep a = true) :
    components sep (c ++ rest) = c :: components sep rest := by
  have hne : c.isEmpty = false := by simpa using hc
  cases rest with
  | nil =>
    have hsplit := List.splitOnP_eq_singleton (p := sep) hsep
    simp [components, hsplit, hne]
  | cons a rest =>
    have ha := hrest a rfl
    have hsplit := List.splitOnP_append_cons_of_forall_mem hsep a ha rest
    rw [components_cons_sep ha]
    simp [components, hsplit, hne]

/-- A path without components has separators only. -/
theorem of_components_eq_nil (h : components sep l = []) : ∀ b ∈ l, sep b = true := by
  induction l with
  | nil => simp
  | cons a l ih =>
    by_cases ha : sep a = true
    · rw [components_cons_sep ha] at h
      intro b hb
      rcases List.mem_cons.mp hb with rfl | hb
      · exact ha
      · exact ih h b hb
    · -- the run that starts here would be a component
      have hrun : a :: l = (a :: l.takeWhile fun b => !sep b) ++ l.dropWhile fun b => !sep b := by
        rw [List.cons_append, List.takeWhile_append_dropWhile]
      have hcomp : components sep ((a :: l.takeWhile fun b => !sep b) ++ l.dropWhile fun b => !sep b)
          = (a :: l.takeWhile fun b => !sep b) :: components sep (l.dropWhile fun b => !sep b) :=
        components_run (by simp) ?_ ?_
      · rw [← hrun, h] at hcomp
        cases hcomp
      · intro b hb
        rcases List.mem_cons.mp hb with rfl | hb
        · simpa using ha
        · simpa using List.mem_takeWhile_imp hb
      · intro b hb
        have hhead := List.head?_dropWhile_not (fun b => !sep b) l
        rw [hb] at hhead
        simpa using hhead

/-- The last character of a path is that of its last part. -/
theorem last_append (h : rest ≠ []) : (l ++ rest).getLast? = rest.getLast? := by
  rw [List.getLast?_append]
  cases hlast : rest.getLast? with
  | none => exact absurd (List.getLast?_eq_none_iff.mp hlast) h
  | some b => rfl

/-- **The scanner**: skip separators, then take a component up to the next separator. -/
def scan (sep : α → Bool) (l : List α) : Option (List α × List α) :=
  match l.dropWhile sep with
  | [] => none
  | a :: r => some (a :: r.takeWhile fun b => !sep b, r.dropWhile fun b => !sep b)

/-- **A component between separators** is found. -/
theorem scan_run {front : List α} (hfront : ∀ a ∈ front, sep a = true) (hc : c ≠ [])
    (hsep : ∀ a ∈ c, sep a = false) (hrest : ∀ a, rest.head? = some a → sep a = true) :
    scan sep (front ++ (c ++ rest)) = some (c, rest) := by
  cases c with
  | nil => exact absurd rfl hc
  | cons a c =>
    have hdrop : (front ++ (a :: c ++ rest)).dropWhile sep = a :: (c ++ rest) := by
      rw [List.dropWhile_append_of_pos hfront, List.cons_append,
        List.dropWhile_cons_of_neg (by simp [hsep a List.mem_cons_self])]
    have hnosep : ∀ b ∈ c, (!sep b) = true := fun b hb => by simp [hsep b (List.mem_cons_of_mem a hb)]
    have hstop : rest.takeWhile (fun b => !sep b) = [] ∧ rest.dropWhile (fun b => !sep b) = rest := by
      cases rest with
      | nil => exact ⟨rfl, rfl⟩
      | cons b rest =>
        have hb : ¬ (!sep b) = true := by simp [hrest b rfl]
        exact ⟨List.takeWhile_cons_of_neg hb, List.dropWhile_cons_of_neg hb⟩
    rw [scan, hdrop]
    simp only [List.takeWhile_append_of_pos hnosep, List.dropWhile_append_of_pos hnosep, hstop.1, hstop.2,
      List.append_nil]

/-- Where nothing is found, there are separators only. -/
theorem dropWhile_of_scan_none (h : scan sep l = none) : l.dropWhile sep = [] := by
  unfold scan at h
  split at h
  · assumption
  · cases h

/-- **The parts of a list** in which something is found. -/
theorem dropWhile_of_scan (h : scan sep l = some (c, rest)) :
    ∃ a r, l.dropWhile sep = a :: r ∧ c = (a :: r.takeWhile fun b => !sep b) ∧ rest = r.dropWhile fun b => !sep b := by
  unfold scan at h
  split at h
  · cases h
  · rename_i a r hdrop
    obtain ⟨rfl, rfl⟩ := Prod.mk.inj (Option.some.inj h)
    exact ⟨a, r, hdrop, rfl, rfl⟩

/-- Nothing is found exactly in a path without components. -/
theorem scan_eq_none (h : scan sep l = none) : components sep l = [] := by
  rw [← components_dropWhile, dropWhile_of_scan_none h, components_nil]

/-- **What the scanner finds**: the first component; the others are those of the rest. -/
theorem scan_eq_some (h : scan sep l = some (c, rest)) :
    components sep l = c :: components sep rest ∧ c ≠ [] ∧ rest.length < l.length
      ∧ (∀ a ∈ c, a ∈ l) ∧ (∀ a ∈ rest, a ∈ l)
      ∧ (Trailing sep l ↔ rest ≠ [] ∧ Trailing sep rest) := by
  obtain ⟨a, r, hdrop, rfl, rfl⟩ := dropWhile_of_scan h
  have hrun : a :: r = (a :: r.takeWhile fun b => !sep b) ++ r.dropWhile fun b => !sep b := by
    rw [List.cons_append, List.takeWhile_append_dropWhile]
  have hwhole := List.takeWhile_append_dropWhile (p := sep) (l := l)
  rw [hdrop] at hwhole
  have ha : sep a = false := by
    have hhead := List.head?_dropWhile_not sep l
    rw [hdrop] at hhead
    exact hhead
  have hnosep : ∀ b ∈ a :: r.takeWhile fun b => !sep b, sep b = false := by
    intro b hb
    rcases List.mem_cons.mp hb with rfl | hb
    · exact ha
    · simpa using List.mem_takeWhile_imp hb
  have hmem : ∀ b ∈ a :: r, b ∈ l := by
    intro b hb
    rw [← hwhole]
    exact List.mem_append_right _ hb
  refine ⟨?_, by simp, ?_, fun b hb => ?_, fun b hb => ?_, ?_⟩
  · rw [← components_dropWhile, hdrop, hrun]
    refine components_run (by simp) hnosep fun b hb => ?_
    have hhead := List.head?_dropWhile_not (fun b => !sep b) r
    rw [hb] at hhead
    simpa using hhead
  · have hlen := congrArg List.length hwhole
    have hle := (List.dropWhile_sublist (l := r) fun b => !sep b).length_le
    simp only [List.length_append, List.length_cons] at hlen
    omega
  · refine hmem b (hrun ▸ List.mem_append_left _ hb)
  · refine hmem b (hrun ▸ List.mem_append_right _ hb)
  · have hlast : l.getLast? = (a :: r).getLast? := by
      rw [← hwhole, last_append (by simp)]
    rw [Trailing, Trailing, hlast]
    by_cases hnil : (r.dropWhile fun b => !sep b) = []
    · -- the path ends inside the component
      simp only [hnil, ne_eq, not_true_eq_false, false_and, iff_false]
      rintro ⟨b, hb, hsep⟩
      rw [hnil, List.append_nil] at hrun
      rw [hrun] at hb
      rw [hnosep b (List.mem_of_getLast? hb)] at hsep
      cases hsep
    · simp only [ne_eq, hnil, not_false_eq_true, true_and]
      rw [hrun, last_append hnil]

end Components

/-! ## Walks -/

section Walks

variable {ν κ : Type*} (isDir : ν → Prop) (child : ν → κ → Option ν)

/-- **A walk** from one node to another, through directories, by the names of children. -/
inductive Walk : ν → List κ → ν → Prop
  | nil (d : ν) : Walk d [] d
  | cons {d x y : ν} {c : κ} {cs : List κ} (hd : isDir d) (hc : child d c = some x)
      (h : Walk x cs y) : Walk d (c :: cs) y

/-- **All but the last name** lead from `d` to the directory `e`, which has no child of the last
name. -/
def Missing (d : ν) (cs : List κ) (e : ν) : Prop :=
  ∃ front c, cs = front ++ [c] ∧ Walk isDir child d front e ∧ isDir e ∧ child e c = none

variable {isDir child} {d e x y : ν} {c : κ} {cs : List κ}

@[simp] theorem walk_nil_iff : Walk isDir child d [] y ↔ y = d := by
  constructor
  · rintro ⟨⟩
    rfl
  · rintro rfl
    exact .nil y

theorem walk_cons_iff : Walk isDir child d (c :: cs) y
    ↔ isDir d ∧ ∃ x, child d c = some x ∧ Walk isDir child x cs y := by
  constructor
  · rintro ⟨⟩
    exact ⟨‹_›, _, ‹_›, ‹_›⟩
  · rintro ⟨hd, x, hc, h⟩
    exact .cons hd hc h

@[simp] theorem not_missing_nil : ¬ Missing isDir child d [] e := by
  rintro ⟨front, c, heq, -⟩
  simp at heq

theorem missing_cons_iff : Missing isDir child d (c :: cs) e
    ↔ isDir d ∧ ((cs = [] ∧ child d c = none ∧ e = d)
      ∨ ∃ x, child d c = some x ∧ Missing isDir child x cs e) := by
  constructor
  · rintro ⟨front, b, heq, hwalk, he, hb⟩
    cases front with
    | nil =>
      obtain ⟨rfl, rfl⟩ := List.cons.inj heq
      obtain rfl := walk_nil_iff.mp hwalk
      exact ⟨he, Or.inl ⟨rfl, hb, rfl⟩⟩
    | cons a front =>
      obtain ⟨rfl, rfl⟩ := List.cons.inj heq
      obtain ⟨hd, x, hx, hwalk⟩ := walk_cons_iff.mp hwalk
      exact ⟨hd, Or.inr ⟨x, hx, front, b, rfl, hwalk, he, hb⟩⟩
  · rintro ⟨hd, ⟨rfl, hc, rfl⟩ | ⟨x, hx, front, b, rfl, hwalk, he, hb⟩⟩
    · exact ⟨[], c, rfl, .nil e, hd, hc⟩
    · exact ⟨c :: front, b, rfl, .cons hd hx hwalk, he, hb⟩

/-- A walk has one end. -/
theorem Walk.unique (h : Walk isDir child d cs x) (h' : Walk isDir child d cs y) : x = y := by
  induction h with
  | nil d => exact (walk_nil_iff.mp h').symm
  | cons hd hc h ih =>
    obtain ⟨-, x', hx', h'⟩ := walk_cons_iff.mp h'
    rw [hc] at hx'
    obtain rfl := Option.some.inj hx'
    exact ih h'

/-- Where a name is missing there is no walk. -/
theorem Missing.not_walk (h : Missing isDir child d cs e) : ¬ Walk isDir child d cs y := by
  induction cs generalizing d with
  | nil => exact absurd h not_missing_nil
  | cons c cs ih =>
    intro hwalk
    obtain ⟨-, x, hx, hwalk⟩ := walk_cons_iff.mp hwalk
    obtain ⟨-, ⟨-, hnone, -⟩ | ⟨x', hx', h⟩⟩ := missing_cons_iff.mp h
    · rw [hx] at hnone
      cases hnone
    · rw [hx] at hx'
      obtain rfl := Option.some.inj hx'
      exact ih h hwalk

/-- A name is missing from one directory only. -/
theorem Missing.unique (h : Missing isDir child d cs x) (h' : Missing isDir child d cs y) :
    x = y := by
  obtain ⟨front, c, rfl, hwalk, -⟩ := h
  obtain ⟨front', c', heq, hwalk', -⟩ := h'
  obtain ⟨rfl, -⟩ := List.append_inj' heq rfl
  exact hwalk.unique hwalk'

/-- A walk that goes one name further. -/
theorem Walk.snoc (h : Walk isDir child d cs x) (hx : isDir x) (hc : child x c = some y) :
    Walk isDir child d (cs ++ [c]) y := by
  induction h with
  | nil d => exact .cons hx hc (.nil y)
  | cons hd hc' h ih => exact .cons hd hc' (ih hx hc)

/-- Where a walk comes to, the last name is missing. -/
theorem Missing.of_walk (h : Missing isDir child d (cs ++ [c]) e) (hwalk : Walk isDir child d cs x) :
    x = e ∧ child x c = none := by
  obtain ⟨front, b, heq, hfront, -, hnone⟩ := h
  obtain ⟨rfl, hlast⟩ := List.append_inj' heq rfl
  cases hlast
  obtain rfl := hwalk.unique hfront
  exact ⟨rfl, hnone⟩

section Growth

variable {isDir' : ν → Prop} {child' : ν → κ → Option ν} {P : ν → Prop}

/-- **A graph that grows keeps its walks**, as long as they stay among the nodes `P`. -/
theorem Walk.mono (h : Walk isDir child d cs x) (hd : P d)
    (hdir : ∀ d, P d → isDir d → isDir' d)
    (hchild : ∀ d c y, P d → child d c = some y → P y ∧ child' d c = some y) :
    Walk isDir' child' d cs x := by
  induction h with
  | nil d => exact .nil d
  | cons hdirectory hc h ih =>
    obtain ⟨hy, hc'⟩ := hchild _ _ _ hd hc
    exact .cons (hdir _ hd hdirectory) hc' (ih hy)

/-- The end of a walk is among the nodes. -/
theorem Walk.end_mem (h : Walk isDir child d cs x) (hd : P d)
    (hchild : ∀ d c y, P d → child d c = some y → P y) : P x := by
  induction h with
  | nil d => exact hd
  | cons hdirectory hc h ih => exact ih (hchild _ _ _ hd hc)

/-- **A graph that grows keeps a name missing** that is not added. -/
theorem Missing.mono (h : Missing isDir child d cs e) (hd : P d)
    (hdir : ∀ d, P d → isDir d → isDir' d)
    (hchild : ∀ d c y, P d → child d c = some y → P y ∧ child' d c = some y)
    (hlast : ∀ c, cs.getLast? = some c → P e → child e c = none → child' e c = none) :
    Missing isDir' child' d cs e := by
  obtain ⟨front, c, rfl, hwalk, he, hnone⟩ := h
  have hmem := hwalk.end_mem hd fun d c y hd hc => (hchild d c y hd hc).1
  exact ⟨front, c, rfl, hwalk.mono hd hdir hchild, hdir e hmem he,
    hlast c (List.getLast?_concat ..) hmem hnone⟩

end Growth

end Walks

end Paths
