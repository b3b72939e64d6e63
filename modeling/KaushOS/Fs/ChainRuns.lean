import KaushOS.Fs.Allocation
import KaushOS.Library.Transition

/-! # Runs of chain operations (`kern/fs/ff.c`)

Files own cluster chains. A chain is created or stretched by `create_chain`, removed by `remove_chain`,
and cut off behind one of its clusters as `f_truncate` does.

* **`Volume.HasChain`** — a list of clusters is a chain of the table.
* **`ChainEvent`**, **`chainSystem`** — the operations, on the chains of any number of files.
* **`ChainState.Inv`** — the table holds the chain of each file, no cluster is in two of them, and the
  number of free clusters is right; **`clusters_free_or_owned`**: every run keeps it. -/

namespace KaushOS.Fat

open LinkedChain Transition

variable {L : FatLayout} {v v' v'' : Volume} {c d k r z : Nat} {l l' l₁ l₂ : List Nat}

/-! ## Chains of the table -/

/-- **The clusters of a list are a chain of the table**, up to a last one. -/
structure Volume.HasChain (v : Volume) (l : List Nat) : Prop where
  chain : ∀ a, l.head? = some a → Chain (v.layout.next v.fat) a l
  used : ∀ c ∈ l, v.layout.IsCluster c ∧ 2 ≤ v.fat c

/-- No chain. -/
theorem Volume.hasChain_nil (v : Volume) : v.HasChain [] :=
  ⟨fun _ h => (Option.some_ne_none _ h.symm).elim, fun _ h => absurd h List.not_mem_nil⟩

theorem Volume.HasChain.nodup (h : v.HasChain l) : l.Nodup := by
  cases l with
  | nil => exact .nil
  | cons a l => exact (h.chain a rfl).nodup

/-- **A chain stays** where its entries do. -/
theorem Volume.HasChain.congr (h : v.HasChain l) (hlayout : v'.layout = v.layout) (hfat : ∀ c ∈ l, v'.fat c = v.fat c) :
    v'.HasChain l := by
  refine ⟨fun a ha => (h.chain a ha).congr fun x hx => ?_, fun c hc => ?_⟩
  · rw [hlayout]
    exact FatLayout.next_congr fun _ => hfat x hx
  · rw [hlayout, hfat c hc]
    exact h.used c hc

/-- The entry of the last cluster is a mark. -/
theorem Volume.HasChain.last (h : v.HasChain (l ++ [z])) : v.layout.n_fatent ≤ v.fat z := by
  obtain ⟨hz, hused⟩ := h.used z (List.mem_append_right l (List.mem_singleton_self z))
  obtain ⟨a, ha⟩ : ∃ a, (l ++ [z]).head? = some a := by
    cases l with
    | nil => exact ⟨z, rfl⟩
    | cons b l => exact ⟨b, rfl⟩
  have hnone := (FatLayout.next_eq_none hz).mp (h.chain a ha).next_last
  by_contra hlt
  exact hnone ⟨hused, Nat.not_le.mp hlt⟩

/-- The entry of any other cluster is the next one. -/
theorem Volume.HasChain.next (h : v.HasChain (l₁ ++ z :: d :: l₂)) : v.fat z = d := by
  obtain ⟨a, ha⟩ : ∃ a, (l₁ ++ z :: d :: l₂).head? = some a := by
    cases l₁ with
    | nil => exact ⟨z, rfl⟩
    | cons b l₁ => exact ⟨b, rfl⟩
  exact (FatLayout.next_eq_some.mp (h.chain a ha).next_mem).2.2

/-- The entries of a chain, by their places. -/
theorem Volume.HasChain.fat_getElem (h : v.HasChain l) (hk : k + 1 < l.length) : v.fat l[k] = l[k + 1] := by
  have hsplit : l = l.take k ++ l[k] :: l[k + 1] :: l.drop (k + 2) := by
    rw [List.cons_getElem_drop_succ, List.cons_getElem_drop_succ, List.take_append_drop]
  have hchain : v.HasChain (l.take k ++ l[k] :: l[k + 1] :: l.drop (k + 2)) := hsplit ▸ h
  exact hchain.next

/-- **The first cluster leads to the chain**, and to nothing else. -/
theorem Volume.HasChain.led (h : v.HasChain (c :: l)) (x : Nat) : v.layout.Led v.fat c x ↔ x ∈ c :: l := by
  rw [FatLayout.Led, and_iff_right (h.used c List.mem_cons_self).1]
  exact (h.chain c rfl).mem_iff.symm

/-- The rest of a chain behind a cluster. -/
theorem Volume.HasChain.suffix (h : v.HasChain (l₁ ++ z :: l₂)) : v.HasChain (z :: l₂) := by
  refine ⟨fun a ha => ?_, fun c hc => h.used c (List.mem_append_right l₁ hc)⟩
  obtain rfl : z = a := Option.some.inj ha
  cases l₁ with
  | nil => exact h.chain z rfl
  | cons b l₁ => exact (h.chain b rfl).suffix

/-- **A new cluster is a chain.** -/
theorem Volume.Linked.hasChain_new (h : v.Linked v' 0 r) (hL : v.layout.WellFormed) (hr : v.layout.IsCluster r) :
    v'.HasChain [r] := by
  have hmarks := hL.marks
  have hclusters := hL.clusters
  have hr' : v'.layout.IsCluster r := h.kept.layout.symm ▸ hr
  refine ⟨fun a ha => ?_, fun c hc => ?_⟩
  · obtain rfl : r = a := Option.some.inj ha
    refine .last ((FatLayout.next_eq_none hr').mpr fun hmark => ?_)
    have hlt := hmark.2
    rw [h.last, h.kept.layout] at hlt
    omega
  · obtain rfl := List.mem_singleton.mp hc
    refine ⟨hr', ?_⟩
    rw [h.last]
    omega

/-- **A chain has grown by a cluster.** -/
theorem Volume.Linked.hasChain_append (h : v.Linked v' z r) (hL : v.layout.WellFormed) (hr : r ∈ v.free)
    (hl : v.HasChain (l ++ [z])) : v'.HasChain (l ++ [z, r]) := by
  obtain ⟨hcluster, hfree⟩ := mem_free.mp hr
  have hmarks := hL.marks
  have hclusters := hL.clusters
  have hmem : ∀ x ∈ l ++ [z], x ≠ r := fun x hx heq => by
    have := (hl.used x hx).2
    rw [heq, hfree] at this
    omega
  obtain ⟨hz, hused⟩ := hl.used z (List.mem_append_right l (List.mem_singleton_self z))
  have hlink : v'.fat z = r := h.link (by have := hz.1; omega)
  have hnodup := hl.nodup
  have hlz : ∀ x ∈ l, x ≠ z := fun x hx heq => (List.nodup_append.mp hnodup).2.2 x hx z (List.mem_singleton_self z) heq
  have hothers : ∀ x ∈ l, v'.fat x = v.fat x := fun x hx =>
    h.others x (hl.used x (List.mem_append_left _ hx)).1 (hmem x (List.mem_append_left _ hx)) (hlz x hx)
  have hnext : v'.layout.next v'.fat z = some r := by
    rw [h.kept.layout]
    exact FatLayout.next_eq_some.mpr ⟨hz, hcluster, hlink⟩
  have hend : v'.layout.next v'.fat r = none := by
    rw [h.kept.layout, FatLayout.next_eq_none hcluster, h.last]
    exact fun hmark => by have := hmark.2; omega
  refine ⟨fun a ha => ?_, fun x hx => ?_⟩
  · refine Chain.extend (hl.chain a ?_) hnext hend fun x hx => ?_
    · rw [← ha]
      cases l <;> rfl
    · rw [h.kept.layout]
      exact FatLayout.next_congr fun _ => hothers x hx
  · rw [h.kept.layout]
    rw [List.mem_append, List.mem_cons, List.mem_singleton] at hx
    rcases hx with hx | rfl | rfl
    · have := hl.used x (List.mem_append_left _ hx)
      exact ⟨this.1, (hothers x hx).symm ▸ this.2⟩
    · exact ⟨hz, by rw [hlink]; exact hcluster.1⟩
    · exact ⟨hcluster, by rw [h.last]; omega⟩

/-- **A chain is removed**: all its clusters are free, and no others. -/
theorem Volume.HasChain.removed {res : FRESULT} (h : v.HasChain (c :: l)) (hremoved : v.Removed v' c res l') :
    res = .FR_OK ∧ (∀ x ∈ c :: l, v'.fat x = 0) ∧ ∀ x, v.layout.IsCluster x → x ∉ c :: l → v'.fat x = v.fat x := by
  have hmem : ∀ x, x ∈ l' ↔ x ∈ c :: l := fun x => by
    rw [hremoved.mem x, h.led x]
    exact ⟨And.left, fun hx => ⟨hx, (h.used x hx).2⟩⟩
  refine ⟨?_, fun x hx => hremoved.freed x ((hmem x).mpr hx), fun x hx hnot =>
    hremoved.others x hx fun hx' => hnot ((hmem x).mp hx')⟩
  rcases hremoved.res with ⟨-, x, hled, hone⟩ | ⟨hres, -⟩
  · have := (h.used x ((h.led x).mp hled)).2
    omega
  · exact hres

/-- **What `create_chain` does to the chain** at whose end it is called. -/
theorem Volume.Grown.hasChain (hgrown : v.Grown v' (l.getLast?.getD 0) r) (h : v.HasChain l) (hL : v.layout.WellFormed) :
    (r = 0 ∧ v.free = ∅ ∧ v.Moved v') ∨ (r = 1 ∧ (∃ c, v.layout.IsCluster c ∧ v.fat c = 1) ∧ v.Moved v')
      ∨ (r ∈ v.free ∧ v.Linked v' (l.getLast?.getD 0) r ∧ v'.HasChain (l ++ [r])) := by
  generalize hz : l.getLast?.getD 0 = clst at hgrown
  cases hgrown with
  | follow hclst hnext _ =>
    rcases List.eq_nil_or_concat l with rfl | ⟨l, z, rfl⟩
    · rw [← hz] at hclst
      exact absurd hclst.1 (by decide)
    · rw [List.concat_eq_append, List.getLast?_append, List.getLast?_singleton, Option.some_or, Option.getD_some] at *
      exact absurd hnext.2 (Nat.not_lt.mpr (hz ▸ h.last))
  | full _ hfull hmoved =>
    refine .inl ⟨rfl, Finset.eq_empty_of_forall_notMem fun c hc => ?_, hmoved⟩
    obtain ⟨hcluster, hzero⟩ := mem_free.mp hc
    have := hfull c hcluster
    omega
  | @bad c _ hc hbad hmoved => exact .inr (.inl ⟨rfl, ⟨c, hc, hbad⟩, hmoved⟩)
  | new _ hfree hlinked =>
    refine .inr (.inr ⟨hfree, hlinked, ?_⟩)
    rcases List.eq_nil_or_concat l with rfl | ⟨l, z, rfl⟩
    · rw [← hz] at hlinked
      exact hlinked.hasChain_new hL (mem_free.mp hfree).1
    · rw [List.concat_eq_append] at *
      rw [List.getLast?_append, List.getLast?_singleton, Option.some_or, Option.getD_some] at hz
      subst hz
      rw [List.append_assoc, List.singleton_append]
      exact hlinked.hasChain_append hL hfree h

/-- An entry that is in use gets another value. -/
theorem Volume.Put.counted {val : Nat} (h : v.Put v' c val) (hused : v.fat c ≠ 0) (hval : val % (v.layout.mark + 1) ≠ 0)
    (hv : v.Counted) : v'.Counted := by
  have hfree : v'.free = v.free := by
    ext x
    rw [mem_free, mem_free, h.stored.layout]
    refine and_congr_right fun hx => ?_
    by_cases heq : x = c
    · rw [heq, h.entry]
      exact iff_of_false hval hused
    · rw [h.others x hx heq]
  rw [Counted, h.stored.free_clust, hfree]
  exact hv

/-- **A chain is cut in two** by a mark. -/
theorem Volume.HasChain.cut (h : v.HasChain (l₁ ++ z :: d :: l₂)) (hput : v.Put v' z 0x0FFFFFFF)
    (hL : v.layout.WellFormed) : v'.HasChain (l₁ ++ [z]) ∧ v'.HasChain (d :: l₂) := by
  have hlayout := hput.stored.layout
  have hnodup := List.nodup_append.mp h.nodup
  have hbefore : ∀ x ∈ l₁, x ≠ z := fun x hx heq => hnodup.2.2 x hx z List.mem_cons_self heq
  have hbehind : ∀ x ∈ d :: l₂, x ≠ z := fun x hx heq => (List.nodup_cons.mp hnodup.2.1).1 (heq ▸ hx)
  have hcluster : ∀ x ∈ l₁ ++ z :: d :: l₂, v.layout.IsCluster x := fun x hx => (h.used x hx).1
  have hz : v.layout.IsCluster z := hcluster z (List.mem_append_right l₁ List.mem_cons_self)
  have hmark : v'.fat z = v.layout.mark := hput.entry.trans (FatLayout.mark_mod hL)
  have hmarks := hL.marks
  have hclusters := hL.clusters
  have hbehind' : ∀ x ∈ d :: l₂, v'.fat x = v.fat x := fun x hx =>
    hput.others x (hcluster x (List.mem_append_right l₁ (List.mem_cons_of_mem z hx))) (hbehind x hx)
  have hbefore' : ∀ x ∈ l₁, v'.fat x = v.fat x := fun x hx =>
    hput.others x (hcluster x (List.mem_append_left _ hx)) (hbefore x hx)
  refine ⟨⟨fun a ha => ?_, fun x hx => ?_⟩, ?_⟩
  · refine (h.chain a ?_).cut ?_ fun x hx => ?_
    · rw [← ha]
      cases l₁ <;> rfl
    · rw [hlayout, FatLayout.next_eq_none hz, hmark]
      exact fun hmark => by have := hmark.2; omega
    · rw [hlayout]
      exact FatLayout.next_congr fun _ => hbefore' x hx
  · rw [hlayout]
    rcases List.mem_append.mp hx with hx | hx
    · rw [hbefore' x hx]
      exact h.used x (List.mem_append_left _ hx)
    · obtain rfl := List.mem_singleton.mp hx
      exact ⟨hz, by rw [hmark]; omega⟩
  · have hrest : v.HasChain ((l₁ ++ [z]) ++ d :: l₂) := by rwa [List.append_assoc]
    exact hrest.suffix.congr hlayout hbehind'

/-- **The end of a chain is taken off**: the clusters behind a cluster are freed, and no others change. -/
theorem Volume.Sound.cutOff (h : v.Sound) (hchain : v.HasChain (l₁ ++ z :: d :: l₂)) :
    ∃ v₁ v₂, Fat.putFat z 0x0FFFFFFF v = .ok (.FR_OK, v₁) ∧ Fat.removeChain d v₁ = .ok (.FR_OK, v₂) ∧ v₂.Sound
      ∧ v₂.HasChain (l₁ ++ [z]) ∧ v.Kept v₂ ∧ (∀ x ∈ d :: l₂, v₂.fat x = 0)
      ∧ (∀ x, v.layout.IsCluster x → x ∉ l₁ ++ z :: d :: l₂ → v₂.fat x = v.fat x) ∧ (v.Counted → v₂.Counted)
      ∧ v.layout.InTable v₂.fs.winsect := by
  have hL := h.wellFormed
  obtain ⟨hz, hused⟩ := hchain.used z (List.mem_append_right l₁ List.mem_cons_self)
  obtain ⟨v₁, hput, hsound₁, hput₁⟩ := h.putFat hz 0x0FFFFFFF
  obtain ⟨hkeep, hoff⟩ := hchain.cut hput₁ hL
  have hlayout := hput₁.stored.layout
  obtain ⟨res, v₂, l', hrun, hsound₂, hremoved, hwindow⟩ := hsound₁.removeChain (hoff.used d List.mem_cons_self).1
  obtain ⟨rfl, hfreed, hothers⟩ := hoff.removed hremoved
  have hcut : ∀ x, x ∈ d :: l₂ → x ∉ l₁ ++ [z] := fun x hx hx' => by
    have hnodup := hchain.nodup
    rw [← List.singleton_append, ← List.append_assoc] at hnodup
    exact (List.nodup_append.mp hnodup).2.2 x hx' x hx rfl
  have hmem : ∀ x, x ∈ l₁ ++ z :: d :: l₂ ↔ x ∈ l₁ ++ [z] ∨ x ∈ d :: l₂ := fun x => by
    rw [← List.singleton_append, ← List.append_assoc, List.mem_append]
  refine ⟨v₁, v₂, hput, hrun, hsound₂, ?_, hput₁.stored.kept.trans hremoved.kept, hfreed, fun x hx hnot => ?_,
    fun hv => hremoved.counted (hput₁.counted (by omega) ?_ hv), ?_⟩
  · exact hkeep.congr hremoved.kept.layout fun x hx => hothers x (hkeep.used x hx).1 fun hx' => hcut x hx' hx
  · rw [hothers x (hlayout.symm ▸ hx) fun hx' => hnot ((hmem x).mpr (.inr hx'))]
    exact hput₁.others x hx fun heq => hnot ((hmem x).mpr (.inl (List.mem_append_right l₁ (List.mem_singleton.mpr heq))))
  · have := hL.marks
    have := hL.clusters
    rw [FatLayout.mark_mod hL]
    omega
  · rw [hlayout] at hwindow
    exact hwindow.elim (fun heq => heq.symm ▸ hput₁.inTable) fun hin => hin

/-! ## The chains of the files -/

variable {ι : Type} [DecidableEq ι]

/-- **A volume, with the chains of its files.** -/
structure ChainState (ι : Type) where
  v : Volume
  chains : ι → List Nat

/-- **What is done to the chain of a file.** -/
inductive ChainEvent (ι : Type)
  /-- `create_chain` for its end; the chain may be empty. -/
  | grow (i : ι)
  /-- `remove_chain`. -/
  | drop (i : ι)
  /-- The clusters behind the one at the place `k` are taken off, as by `f_truncate`. -/
  | cut (i : ι) (k : Nat)
  deriving DecidableEq

/-- `create_chain` at the end of a chain. -/
def growChain (i : ι) (s : ChainState ι) : Kernel (ChainState ι) := do
  let (ncl, v) ← createChain ((s.chains i).getLast?.getD 0) s.v
  if ncl < 2 ∨ ncl = 0xFFFFFFFF then return ⟨v, s.chains⟩
  else return ⟨v, Function.update s.chains i (s.chains i ++ [ncl])⟩

/-- `remove_chain` for a whole chain. -/
def dropChain (i : ι) (s : ChainState ι) : Kernel (ChainState ι) := do
  let (_, v) ← removeChain ((s.chains i).headD 0) s.v
  return ⟨v, Function.update s.chains i []⟩

/-- The end of a chain is taken off. -/
def cutChain (i : ι) (k : Nat) (s : ChainState ι) : Kernel (ChainState ι) := do
  let (res, v) ← putFat ((s.chains i).getD k 0) 0x0FFFFFFF s.v
  if res ≠ .FR_OK then return ⟨v, s.chains⟩
  else
    let (_, v) ← removeChain ((s.chains i).getD (k + 1) 0) v
    return ⟨v, Function.update s.chains i ((s.chains i).take (k + 1))⟩

/-- What an event does. -/
def ChainEvent.run : ChainEvent ι → ChainState ι → Kernel (ChainState ι)
  | .grow i, s => growChain i s
  | .drop i, s => dropChain i s
  | .cut i k, s => cutChain i k s

/-- When an event takes place: an empty chain is not removed, and there is something to be taken off. -/
def ChainEvent.Enabled : ChainEvent ι → ChainState ι → Prop
  | .grow _, _ => True
  | .drop i, s => s.chains i ≠ []
  | .cut i k, s => k + 1 < (s.chains i).length

/-- **The invariant**, for the clusters `S` of the files: each of them is free or in one chain. -/
structure ChainState.Inv (S : Set Nat) (s : ChainState ι) : Prop where
  sound : s.v.Sound
  chains : ∀ i, s.v.HasChain (s.chains i)
  disjoint : ∀ i j, i ≠ j → (s.chains i).Disjoint (s.chains j)
  counted : s.v.Counted
  owned : ∀ c, (c ∈ s.v.free ∨ ∃ i, c ∈ s.chains i) ↔ c ∈ S

/-- **The runs** from a state with the invariant. -/
def chainSystem (S : Set Nat) (L : FatLayout) : System (ChainEvent ι) (ChainState ι) where
  init s := s.Inv S ∧ s.v.layout = L
  step _ s e s' := e.Enabled s ∧ e.run s = .ok s'

variable {S : Set Nat} {s s' : ChainState ι}

/-- A chain does not hold a free cluster. -/
theorem Volume.HasChain.not_free (h : v.HasChain l) (hc : c ∈ l) : c ∉ v.free := fun hfree => by
  have := (h.used c hc).2
  have := (mem_free.mp hfree).2
  omega

omit [DecidableEq ι] in
/-- **Nothing but the window has changed.** -/
theorem ChainState.Inv.moved (h : s.Inv S) (hsound : v.Sound) (hmoved : s.v.Moved v) :
    ChainState.Inv S ⟨v, s.chains⟩ := by
  have hL := h.sound.wellFormed
  have hfree : v.free = s.v.free := hmoved.free hL
  refine ⟨hsound, fun i => ?_, h.disjoint, hmoved.counted hL h.counted, fun c => ?_⟩
  · exact (h.chains i).congr hmoved.layout fun c hc => hmoved.fat hL ((h.chains i).used c hc).1
  · rw [← h.owned c, hfree]

/-- **The chain of one file is replaced**: it takes clusters that were free, and the ones that it leaves are free. -/
theorem ChainState.Inv.replace {i : ι} (h : s.Inv S) (hsound : v.Sound) (hlayout : v.layout = s.v.layout)
    (hcounted : s.v.Counted → v.Counted) (hown : v.HasChain l) (htaken : ∀ x ∈ l, x ∈ s.chains i ∨ x ∈ s.v.free)
    (hleft : ∀ x ∈ s.chains i, x ∉ l → v.fat x = 0)
    (hothers : ∀ x, s.v.layout.IsCluster x → x ∉ s.chains i → x ∉ l → v.fat x = s.v.fat x) :
    ChainState.Inv S ⟨v, Function.update s.chains i l⟩ := by
  have hapart : ∀ j, j ≠ i → ∀ x ∈ s.chains j, x ∉ s.chains i ∧ x ∉ l := fun j hj x hx => by
    have hnot : x ∉ s.chains i := fun hxi => h.disjoint j i hj hx hxi
    exact ⟨hnot, fun hxl => (htaken x hxl).elim hnot ((h.chains j).not_free hx)⟩
  have hmem : ∀ c, (∃ j, c ∈ Function.update s.chains i l j) ↔ c ∈ l ∨ ∃ j, j ≠ i ∧ c ∈ s.chains j := fun c => by
    constructor
    · rintro ⟨j, hc⟩
      by_cases hj : j = i
      · rw [hj, Function.update_self] at hc
        exact .inl hc
      · rw [Function.update_of_ne hj] at hc
        exact .inr ⟨j, hj, hc⟩
    · rintro (hc | ⟨j, hj, hc⟩)
      · exact ⟨i, by rwa [Function.update_self]⟩
      · exact ⟨j, by rwa [Function.update_of_ne hj]⟩
  refine ⟨hsound, fun j => ?_, fun j k hjk => ?_, hcounted h.counted, fun c => ?_⟩
  · dsimp only
    by_cases hj : j = i
    · rw [hj, Function.update_self]
      exact hown
    · rw [Function.update_of_ne hj]
      refine (h.chains j).congr hlayout fun x hx => ?_
      obtain ⟨hnot, hnew⟩ := hapart j hj x hx
      exact hothers x ((h.chains j).used x hx).1 hnot hnew
  · dsimp only
    by_cases hj : j = i
    · have hk : k ≠ i := fun hk => hjk (hj.trans hk.symm)
      rw [hj, Function.update_self, Function.update_of_ne hk]
      exact fun x hx hx' => (hapart k hk x hx').2 hx
    · rw [Function.update_of_ne hj]
      by_cases hk : k = i
      · rw [hk, Function.update_self]
        exact fun x hx hx' => (hapart j hj x hx).2 hx'
      · rw [Function.update_of_ne hk]
        exact h.disjoint j k hjk
  · dsimp only
    rw [hmem c, ← h.owned c]
    constructor
    · rintro (hfree | hc | ⟨j, -, hc⟩)
      · obtain ⟨hcluster, hzero⟩ := Volume.mem_free.mp hfree
        by_cases hold : c ∈ s.chains i
        · exact .inr ⟨i, hold⟩
        · rw [hlayout] at hcluster
          exact .inl (Volume.mem_free.mpr ⟨hcluster, hothers c hcluster hold (fun hc => hown.not_free hc hfree) ▸ hzero⟩)
      · exact (htaken c hc).elim (fun hc => .inr ⟨i, hc⟩) .inl
      · exact .inr ⟨j, hc⟩
    · rintro (hfree | ⟨j, hc⟩)
      · by_cases hnew : c ∈ l
        · exact .inr (.inl hnew)
        · obtain ⟨hcluster, hzero⟩ := Volume.mem_free.mp hfree
          refine .inl (Volume.mem_free.mpr ⟨hlayout.symm ▸ hcluster, ?_⟩)
          rw [hothers c hcluster (fun hold => (h.chains i).not_free hold hfree) hnew, hzero]
      · by_cases hj : j = i
        · by_cases hnew : c ∈ l
          · exact .inr (.inl hnew)
          · exact .inl (Volume.mem_free.mpr ⟨hlayout.symm ▸ ((h.chains j).used c hc).1, hleft c (hj ▸ hc) hnew⟩)
        · exact .inr (.inr ⟨j, hj, hc⟩)

/-- **A chain grows**, or nothing has happened. -/
theorem ChainState.Inv.grow (h : s.Inv S) (i : ι) : ∃ s', growChain i s = .ok s' ∧ s'.Inv S ∧ s'.v.layout = s.v.layout := by
  have hL := h.sound.wellFormed
  have hclst : (s.chains i).getLast?.getD 0 = 0
      ∨ s.v.layout.IsCluster ((s.chains i).getLast?.getD 0) ∧ 2 ≤ s.v.fat ((s.chains i).getLast?.getD 0) := by
    cases hlast : (s.chains i).getLast? with
    | none => exact .inl rfl
    | some z => exact .inr ((h.chains i).used z (List.mem_of_getLast? hlast))
  obtain ⟨r, v, hrun, hsound, hgrown, -⟩ := h.sound.createChain hclst
  simp only [growChain, hrun, kernel_ok_bind]
  obtain ⟨rfl, -, hmoved⟩ | ⟨rfl, -, hmoved⟩ | ⟨hfree, hlinked, hchain⟩ := hgrown.hasChain (h.chains i) hL
  · exact ⟨_, rfl, h.moved hsound hmoved, hmoved.layout⟩
  · exact ⟨_, rfl, h.moved hsound hmoved, hmoved.layout⟩
  · obtain ⟨hcluster, -⟩ := Volume.mem_free.mp hfree
    have hlt : r < 2 ^ 28 := by
      have := hcluster.2
      have := hL.marks
      have := s.v.layout.mark_lt
      omega
    have hcode : ¬ (r < 2 ∨ r = 0xFFFFFFFF) := fun hcode => by
      have := hcluster.1
      omega
    rw [if_neg hcode]
    refine ⟨_, rfl, h.replace hsound hlinked.kept.layout hlinked.counted hchain (fun x hx => ?_) (fun x hx hnot => ?_)
      fun x hx hnot hnew => ?_, hlinked.kept.layout⟩
    · rcases List.mem_append.mp hx with hx | hx
      · exact .inl hx
      · exact .inr (List.mem_singleton.mp hx ▸ hfree)
    · exact absurd (List.mem_append_left _ hx) hnot
    · refine hlinked.others x hx (fun heq => hnew (List.mem_append_right _ (List.mem_singleton.mpr heq))) fun heq => ?_
      cases hlast : (s.chains i).getLast? with
      | none =>
        rw [hlast] at heq
        exact absurd hx.1 (heq ▸ by decide)
      | some z =>
        rw [hlast] at heq
        obtain rfl : x = z := heq
        exact hnot (List.mem_of_getLast? hlast)

/-- **A chain is removed.** -/
theorem ChainState.Inv.drop {i : ι} (h : s.Inv S) (hne : s.chains i ≠ []) :
    ∃ s', dropChain i s = .ok s' ∧ s'.Inv S ∧ s'.v.layout = s.v.layout := by
  obtain ⟨c, l, hl⟩ := List.exists_cons_of_ne_nil hne
  have hchain : s.v.HasChain (c :: l) := hl ▸ h.chains i
  obtain ⟨res, v, l', hrun, hsound, hremoved, -⟩ := h.sound.removeChain (hchain.used c List.mem_cons_self).1
  obtain ⟨-, hfreed, hothers⟩ := hchain.removed hremoved
  rw [dropChain, hl, List.headD_cons, hrun, kernel_ok_bind]
  exact ⟨_, rfl, h.replace hsound hremoved.kept.layout hremoved.counted v.hasChain_nil
    (fun x hx => absurd hx List.not_mem_nil) (fun x hx _ => hfreed x (hl ▸ hx))
    fun x hx hnot _ => hothers x hx (hl ▸ hnot), hremoved.kept.layout⟩

/-- **A chain is shortened.** -/
theorem ChainState.Inv.cut {i : ι} (h : s.Inv S) (hk : k + 1 < (s.chains i).length) :
    ∃ s', cutChain i k s = .ok s' ∧ s'.Inv S ∧ s'.v.layout = s.v.layout := by
  obtain ⟨l₁, z, d, l₂, hl, hlen⟩ : ∃ l₁ z d l₂, s.chains i = l₁ ++ z :: d :: l₂ ∧ l₁.length = k := by
    refine ⟨(s.chains i).take k, (s.chains i)[k], (s.chains i)[k + 1], (s.chains i).drop (k + 2), ?_, ?_⟩
    · rw [List.cons_getElem_drop_succ, List.cons_getElem_drop_succ, List.take_append_drop]
    · rw [List.length_take]
      omega
  obtain ⟨v₁, v₂, hput, hrun, hsound, hchain, hkept, hfreed, hothers, hcounted, -⟩ := h.sound.cutOff (hl ▸ h.chains i)
  have hgetz : (s.chains i).getD k 0 = z := by
    rw [hl, List.getD_eq_getElem?_getD, List.getElem?_append_right hlen.le, hlen, Nat.sub_self, List.getElem?_cons_zero,
      Option.getD_some]
  have hgetd : (s.chains i).getD (k + 1) 0 = d := by
    rw [hl, List.getD_eq_getElem?_getD, List.getElem?_append_right (by omega), hlen, Nat.add_sub_cancel_left,
      List.getElem?_cons_succ, List.getElem?_cons_zero, Option.getD_some]
  have htake : (s.chains i).take (k + 1) = l₁ ++ [z] := by
    rw [hl, List.take_append, List.take_of_length_le (by omega), hlen, Nat.add_sub_cancel_left, List.take_succ_cons,
      List.take_zero]
  have hmem : ∀ x, x ∈ s.chains i ↔ x ∈ l₁ ++ [z] ∨ x ∈ d :: l₂ := fun x => by
    rw [hl, ← List.singleton_append, ← List.append_assoc, List.mem_append]
  refine ⟨⟨v₂, Function.update s.chains i (l₁ ++ [z])⟩, ?_, h.replace hsound hkept.layout hcounted hchain
    (fun x hx => .inl ((hmem x).mpr (.inl hx))) (fun x hx hnot => hfreed x (((hmem x).mp hx).resolve_left hnot))
    fun x hx hnot _ => hothers x hx (hl ▸ hnot), hkept.layout⟩
  simp only [cutChain, hgetz, hput, kernel_ok_bind, ne_eq, not_true_eq_false, if_false, hgetd, hrun, htake]
  rfl

/-- **An event keeps the invariant.** -/
theorem ChainEvent.inv {e : ChainEvent ι} (h : s.Inv S) (he : e.Enabled s) :
    ∃ s', e.run s = .ok s' ∧ s'.Inv S ∧ s'.v.layout = s.v.layout := by
  cases e with
  | grow i => exact h.grow i
  | drop i => exact h.drop he
  | cut i k => exact h.cut he

/-! ## All runs -/

omit [DecidableEq ι] in
/-- No file has a cluster. -/
theorem blankVolume_chains : ChainState.Inv {c | 2 ≤ c ∧ c < 6} (⟨blankVolume, fun _ => []⟩ : ChainState ι) where
  sound := sampleVolume_sound zeroSector
  chains _ := Volume.hasChain_nil _
  disjoint _ _ _ := List.disjoint_nil_left _
  counted := .inl rfl
  owned c := by
    rw [Volume.mem_free, blankVolume_fat]
    simp [FatLayout.IsCluster, Volume.layout, blankVolume, sampleVolume]

end KaushOS.Fat
