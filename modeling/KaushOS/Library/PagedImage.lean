import KaushOS.Library.PagedSpace

/-! # Segments that stay intact

Segments are loaded into a space of pages one after the other. A segment whose page is mapped again
by a later one loses what it has in it, also when the later segment fills other bytes of the page. The
old frame can come back, with what was stored to it; but it comes back without what has been stored to
the page since.

* **`load_intact`** — when no page is mapped twice, everything that has been stored is there.
* **`Counted`** — in the frames no more bytes are known than have been stored.
* **`Wasted`** — one of them is of no use, and so one that was stored is lost; this stays so.
* **`card_le_of_load`, `disjoint_of_load`** — what is there has been stored, and when everything is
  there, no page was mapped twice. -/

namespace PagedSpace

variable {β : Type} {m m' m₁ : PagedSpace β} {use : Nat → FrameUse} {k n p q a c f g x : Nat} {b : β}
  {v : Nat → β} {ps as : List Nat} {s : Segment β} {ss : List (Segment β)} {U S R : Finset Nat}

/-! ## Sequences -/

/-- **Pages have been mapped.** -/
theorem mapAll_spec (h : m.Separated use) (hmap : m.mapAll k ps = some m') :
    (∃ use', m'.Separated use') ∧ m'.stored = m.stored ∧ (∀ q ∉ ps, m'.page q = m.page q)
      ∧ ∀ q, (q ∈ ps ∨ m.page q ≠ none) → m'.page q ≠ none := by
  induction ps generalizing m use with
  | nil =>
    cases hmap
    exact ⟨⟨use, h⟩, rfl, fun _ _ => rfl, fun q hq => hq.resolve_left List.not_mem_nil⟩
  | cons p ps ih =>
    obtain ⟨m₁, hfirst, hrest⟩ := Option.bind_eq_some_iff.mp hmap
    obtain ⟨use₁, h₁⟩ := h.mapPage hfirst
    obtain ⟨hstored, hpage, f, -, hf⟩ := mapPage_page hfirst
    obtain ⟨hsep, hstored', hpage', hmapped⟩ := ih h₁ hrest
    refine ⟨hsep, hstored'.trans hstored, fun q hq => ?_, fun q hq => hmapped q ?_⟩
    · obtain ⟨hne, hq⟩ := not_or.mp (fun hin => hq (List.mem_cons.mpr hin))
      exact (hpage' q hq).trans (hpage q hne)
    · by_cases hqp : q = p
      · subst hqp
        exact Or.inr (by simp [hf])
      · rw [hpage q hqp]
        exact hq.imp (fun hin => (List.mem_cons.mp hin).resolve_left hqp) id

/-- **Bytes have been stored.** -/
theorem storeAll_spec (h : m.Separated use) (hstore : m.storeAll n v as = some m') :
    m'.Separated use ∧ m'.page = m.page ∧ (∀ a ∈ as, m'.read n a = some (v a))
      ∧ ∀ c ∉ as, m'.read n c = m.read n c := by
  induction as generalizing m with
  | nil =>
    cases hstore
    exact ⟨h, rfl, fun _ ha => absurd ha List.not_mem_nil, fun _ _ => rfl⟩
  | cons a as ih =>
    obtain ⟨m₁, hfirst, hrest⟩ := Option.bind_eq_some_iff.mp hstore
    obtain ⟨hpage, hread, hother⟩ := read_store h hfirst
    obtain ⟨hsep, hpage', hread', hother'⟩ := ih (h.store hfirst) hrest
    refine ⟨hsep, hpage'.trans hpage, fun c hc => ?_, fun c hc => ?_⟩
    · by_cases hin : c ∈ as
      · exact hread' c hin
      · obtain rfl := (List.mem_cons.mp hc).resolve_right hin
        rw [hother' c hin, hread]
    · obtain ⟨hne, hc⟩ := not_or.mp (fun hin => hc (List.mem_cons.mpr hin))
      rw [hother' c hc, hother c hne]

/-- What is filled is in the pages of the segment. -/
def Fits (n : Nat) (s : Segment β) : Prop := ∀ a ∈ s.addresses, a / n ∈ s.pages

/-- **A segment has been loaded.** -/
theorem loadSegment_spec (h : m.Separated use) (hfits : Fits n s)
    (hload : m.loadSegment k n s = some m') :
    (∃ use', m'.Separated use') ∧ (∀ a ∈ s.addresses, m'.read n a = some (s.value a))
      ∧ ∀ c, c / n ∉ s.pages → m'.read n c = m.read n c := by
  obtain ⟨m₁, hmap, hstore⟩ := Option.bind_eq_some_iff.mp hload
  obtain ⟨⟨use₁, h₁⟩, hstored, hpage, -⟩ := mapAll_spec h hmap
  obtain ⟨hsep, -, hread, hother⟩ := storeAll_spec h₁ hstore
  refine ⟨⟨use₁, hsep⟩, hread, fun c hc => ?_⟩
  rw [hother c fun hin => hc (hfits c hin), read, read, hpage _ hc, hstored]

/-- **Everything that has been stored is there**, when no later segment maps its page. -/
theorem load_intact (h : m.Separated use) (hfits : ∀ s ∈ ss, Fits n s)
    (hpages : ss.Pairwise fun s s' => ∀ a ∈ s.addresses, a / n ∉ s'.pages)
    (hload : m.load k n ss = some m') :
    (∀ s ∈ ss, ∀ a ∈ s.addresses, m'.read n a = some (s.value a))
      ∧ ∀ c, (∀ s ∈ ss, c / n ∉ s.pages) → m'.read n c = m.read n c := by
  induction ss generalizing m use with
  | nil =>
    cases hload
    exact ⟨fun _ hs => absurd hs List.not_mem_nil, fun _ _ => rfl⟩
  | cons s ss ih =>
    obtain ⟨m₁, hfirst, hrest⟩ := Option.bind_eq_some_iff.mp hload
    obtain ⟨hlater, hpages⟩ := List.pairwise_cons.mp hpages
    obtain ⟨hfit, hfits⟩ := List.forall_mem_cons.mp hfits
    obtain ⟨⟨use₁, h₁⟩, hread, hother⟩ := loadSegment_spec h hfit hfirst
    obtain ⟨hread', hother'⟩ := ih h₁ hfits hpages hrest
    refine ⟨?_, fun c hc => ?_⟩
    · refine List.forall_mem_cons.mpr ⟨fun a ha => ?_, hread'⟩
      rw [hother' a fun s' hs' => hlater s' hs' a ha, hread a ha]
    · obtain ⟨hc, hcs⟩ := List.forall_mem_cons.mp hc
      rw [hother' c hcs, hother c hc]

/-! ## What is known -/

/-- **The bytes that are known**, in the frames `U`. -/
def known (U : Finset Nat) (n : Nat) (m : PagedSpace β) : Finset (Nat × Nat) :=
  (U ×ˢ Finset.range n).filter fun x => (m.stored x.1 x.2).isSome

/-- **No more bytes are known than have been stored**; the addresses `S` have been stored. -/
structure Counted (U : Finset Nat) (n : Nat) (S : Finset Nat) (m : PagedSpace β) : Prop where
  separated : ∃ use, m.Separated use
  free : ∀ f ∈ m.free, f ∈ U
  page : ∀ p f, m.page p = some f → f ∈ U
  mapped : ∀ a ∈ S, m.page (a / n) ≠ none
  card : (known U n m).card ≤ S.card

/-- A byte is known. -/
theorem mem_known : (f, x) ∈ known U n m ↔ (f ∈ U ∧ x < n) ∧ (m.stored f x).isSome = true := by
  simp only [known, Finset.mem_filter, Finset.mem_product, Finset.mem_range]

/-- What is known about addresses is known in different places. -/
theorem card_le_of_maps {T : Finset (Nat × Nat)} (h : m.Separated use)
    (hR : ∀ a ∈ R, ∃ f, m.page (a / n) = some f ∧ (f, a % n) ∈ T) : R.card ≤ T.card := by
  refine Finset.card_le_card_of_injOn (fun a => ((m.page (a / n)).getD 0, a % n)) ?_ ?_
  · intro a ha
    obtain ⟨f, hf, hin⟩ := hR a ha
    simpa [hf] using hin
  · intro a ha c hc heq
    obtain ⟨f, hf, -⟩ := hR a ha
    obtain ⟨g, hg, -⟩ := hR c hc
    simp only [hf, hg, Option.getD_some, Prod.mk.injEq] at heq
    have hdiv : a / n = c / n := h.page_inj hf (heq.1 ▸ hg)
    rw [← Nat.div_add_mod a n, ← Nat.div_add_mod c n, hdiv, heq.2]

/-- Where an address is known. -/
theorem Counted.known_read (h : Counted U n S m) (hn : 0 < n) (ha : (m.read n a).isSome = true) :
    ∃ f, m.page (a / n) = some f ∧ (f, a % n) ∈ known U n m := by
  rw [read] at ha
  cases hf : m.page (a / n) with
  | none =>
    rw [hf] at ha
    cases ha
  | some f =>
    rw [hf] at ha
    exact ⟨f, rfl, mem_known.mpr ⟨⟨h.page _ f hf, Nat.mod_lt a hn⟩, ha⟩⟩

/-- **Mapping a page** makes nothing known. -/
theorem Counted.mapPage (h : Counted U n S m) (hmap : m.mapPage k p = some m') :
    Counted U n S m' := by
  obtain ⟨use, hsep⟩ := h.separated
  obtain ⟨hstored, hpage, f, hf, hfirst⟩ := mapPage_page hmap
  refine ⟨hsep.mapPage hmap, fun g hg => ?_, fun q g hg => ?_, fun a ha => ?_, ?_⟩
  · have hold : m.page p = some g ∨ g ∈ m.free := by
      rcases mapPage_eq_some.mp hmap with ⟨f, rest, hfree, -, rfl⟩ | ⟨f, t, rest, hfree, -, rfl⟩
      · rw [hfree]
        exact (List.mem_append.mp hg).imp Option.mem_toList.mp (List.mem_cons_of_mem f)
      · rw [hfree]
        exact (List.mem_append.mp hg).imp Option.mem_toList.mp
          fun hin => List.mem_cons_of_mem f (List.mem_cons_of_mem t hin)
    exact hold.elim (h.page p g) (h.free g)
  · by_cases hq : q = p
    · subst hq
      obtain rfl := Option.some.inj (hfirst.symm.trans hg)
      exact h.free f hf
    · exact h.page q g ((hpage q hq).symm.trans hg)
  · by_cases hq : a / n = p
    · rw [hq, hfirst]
      simp
    · rw [hpage _ hq]
      exact h.mapped a ha
  · rw [known, hstored]
    exact h.card

/-- What is known after a byte has been stored. -/
theorem mem_known_put (hf : f ∈ U) (hx : x < n) {y : Nat × Nat} :
    y ∈ known U n (m.put f x b) ↔ y = (f, x) ∨ y ∈ known U n m := by
  obtain ⟨g, z⟩ := y
  rw [mem_known, mem_known, put_stored, Prod.mk.injEq]
  by_cases hy : g = f ∧ z = x
  · obtain ⟨rfl, rfl⟩ := hy
    simp [hf, hx]
  · simp [hy]

/-- One more byte is known, if it was not. -/
theorem known_put (hf : f ∈ U) (hx : x < n) :
    known U n (m.put f x b) = insert (f, x) (known U n m) := by
  ext y
  rw [mem_known_put hf hx, Finset.mem_insert]

/-- **Storing a byte** makes that byte known, unless it was. -/
theorem Counted.store (h : Counted U n S m) (hn : 0 < n)
    (ha : a ∈ S → (m.read n a).isSome = true) (hstore : m.store n a b = some m') :
    Counted U n (insert a S) m' := by
  obtain ⟨use, hsep⟩ := h.separated
  have hsep' := hsep.store hstore
  obtain ⟨f, hf, rfl⟩ := store_eq_some.mp hstore
  refine ⟨⟨use, hsep'⟩, h.free, h.page, ?_, ?_⟩
  · refine Finset.forall_mem_insert .. |>.mpr ⟨?_, h.mapped⟩
    show m.page (a / n) ≠ none
    simp [hf]
  · rw [known_put (h.page _ f hf) (Nat.mod_lt a hn)]
    by_cases hin : a ∈ S
    · obtain ⟨g, hg, hknown⟩ := h.known_read hn (ha hin)
      obtain rfl := Option.some.inj (hf.symm.trans hg)
      rw [Finset.insert_eq_of_mem hknown, Finset.insert_eq_of_mem hin]
      exact h.card
    · rw [Finset.card_insert_of_notMem hin]
      exact (Finset.card_insert_le ..).trans (Nat.add_le_add_right h.card 1)

/-- Mapping pages. -/
theorem Counted.mapAll (h : Counted U n S m) (hmap : m.mapAll k ps = some m') :
    Counted U n S m' := by
  induction ps generalizing m with
  | nil =>
    cases hmap
    exact h
  | cons p ps ih =>
    obtain ⟨m₁, hfirst, hrest⟩ := Option.bind_eq_some_iff.mp hmap
    exact ih (h.mapPage hfirst) hrest

/-- Storing bytes. -/
theorem Counted.storeAll (h : Counted U n S m) (hn : 0 < n)
    (hS : ∀ a ∈ as, a ∈ S → (m.read n a).isSome = true) (hstore : m.storeAll n v as = some m') :
    Counted U n (S ∪ as.toFinset) m' := by
  induction as generalizing m S with
  | nil =>
    cases hstore
    simpa using h
  | cons a as ih =>
    obtain ⟨m₁, hfirst, hrest⟩ := Option.bind_eq_some_iff.mp hstore
    obtain ⟨use, hsep⟩ := h.separated
    obtain ⟨-, hread, hother⟩ := read_store hsep hfirst
    obtain ⟨ha, hS⟩ := List.forall_mem_cons.mp hS
    have hnext := ih (h.store hn ha hfirst) (fun c hc hin => by
      by_cases hca : c = a
      · rw [hca, hread]
        rfl
      · rw [hother c hca]
        exact hS c hc ((Finset.mem_insert.mp hin).resolve_left hca)) hrest
    rw [List.toFinset_cons, Finset.union_insert, ← Finset.insert_union]
    exact hnext

/-- The addresses of segments. -/
def addresses (ss : List (Segment β)) : Finset Nat := (ss.flatMap Segment.addresses).toFinset

/-- Different segments fill different addresses. -/
def Disjointed (ss : List (Segment β)) : Prop :=
  ss.Pairwise fun s s' => ∀ a ∈ s.addresses, a ∉ s'.addresses

/-- The addresses of a segment, and of those after it. -/
theorem mem_addresses : a ∈ addresses ss ↔ ∃ s ∈ ss, a ∈ s.addresses := by
  simp [addresses]

theorem addresses_cons : S ∪ addresses (s :: ss) = S ∪ s.addresses.toFinset ∪ addresses ss := by
  simp [addresses, Finset.union_assoc]

/-- A segment is loaded. -/
theorem Counted.loadSegment (h : Counted U n S m) (hn : 0 < n) (hS : ∀ a ∈ s.addresses, a ∉ S)
    (hload : m.loadSegment k n s = some m') : Counted U n (S ∪ s.addresses.toFinset) m' := by
  obtain ⟨m₁, hmap, hstore⟩ := Option.bind_eq_some_iff.mp hload
  exact (h.mapAll hmap).storeAll hn (fun a ha hin => absurd hin (hS a ha)) hstore

/-- The segments after the first one. -/
theorem Disjointed.tail (h : Disjointed (s :: ss)) (hS : ∀ s' ∈ s :: ss, ∀ a ∈ s'.addresses, a ∉ S) :
    Disjointed ss ∧ ∀ s' ∈ ss, ∀ a ∈ s'.addresses, a ∉ S ∪ s.addresses.toFinset := by
  obtain ⟨hfirst, hrest⟩ := List.pairwise_cons.mp h
  refine ⟨hrest, fun s' hs' a ha hin => ?_⟩
  rcases Finset.mem_union.mp hin with hin | hin
  · exact hS s' (List.mem_cons_of_mem _ hs') a ha hin
  · exact hfirst s' hs' a (List.mem_toFinset.mp hin) ha

/-- **Segments are loaded.** -/
theorem Counted.load (h : Counted U n S m) (hn : 0 < n) (hdisj : Disjointed ss)
    (hS : ∀ s ∈ ss, ∀ a ∈ s.addresses, a ∉ S) (hload : m.load k n ss = some m') :
    Counted U n (S ∪ addresses ss) m' := by
  induction ss generalizing m S with
  | nil =>
    cases hload
    simpa [addresses] using h
  | cons s ss ih =>
    obtain ⟨m₁, hfirst, hrest⟩ := Option.bind_eq_some_iff.mp hload
    obtain ⟨hdisj', hS'⟩ := hdisj.tail hS
    rw [addresses_cons]
    exact ih (h.loadSegment hn (hS s (List.mem_cons_self ..)) hfirst) hdisj' hS' hrest

/-- **What is there has been stored**: no more addresses are known than have been filled. -/
theorem card_le_of_load (h : Counted U n ∅ m) (hn : 0 < n) (hdisj : Disjointed ss)
    (hload : m.load k n ss = some m') (hR : ∀ a ∈ R, (m'.read n a).isSome = true) :
    R.card ≤ (addresses ss).card := by
  have hcounted := h.load hn hdisj (fun _ _ _ _ => Finset.notMem_empty _) hload
  rw [Finset.empty_union] at hcounted
  obtain ⟨use, hsep⟩ := hcounted.separated
  exact (card_le_of_maps hsep fun a ha => hcounted.known_read hn (hR a ha)).trans hcounted.card

/-! ## What is wasted -/

/-- **A byte that is known is of no use**, or a byte has been stored where it was known. -/
def Wasted (U : Finset Nat) (n : Nat) (S : Finset Nat) (m : PagedSpace β) : Prop :=
  (known U n m).card < S.card
    ∨ ∃ f x, (f, x) ∈ known U n m ∧ ∀ a ∈ S, m.page (a / n) = some f → a % n ≠ x

/-- **Then a byte that has been stored is lost.** -/
theorem Wasted.lost (hw : Wasted U n S m) (h : Counted U n S m) (hn : 0 < n) :
    ¬ ∀ a ∈ S, (m.read n a).isSome = true := by
  intro hall
  obtain ⟨use, hsep⟩ := h.separated
  rcases hw with hlt | ⟨f, x, hin, huseless⟩
  · have hle := card_le_of_maps hsep fun a ha => h.known_read hn (hall a ha)
    omega
  · have hle := card_le_of_maps (T := (known U n m).erase (f, x)) hsep fun a ha => by
      obtain ⟨g, hg, hknown⟩ := h.known_read hn (hall a ha)
      refine ⟨g, hg, Finset.mem_erase.mpr ⟨fun heq => ?_, hknown⟩⟩
      rw [Prod.mk.injEq] at heq
      exact huseless a ha (heq.1 ▸ hg) heq.2
    have hpos := Finset.card_pos.mpr ⟨_, hin⟩
    have hcard := Finset.card_erase_of_mem hin
    have hcounted := h.card
    omega

/-- **Mapping a page that has been mapped and filled wastes its bytes**, and mapping another page makes
no byte useful. -/
theorem Wasted.mapPage (hw : Wasted U n S m ∨ m.page p ≠ none) (h : Counted U n S m)
    (hfilled : ∀ f, m.page p = some f → ∃ x, (f, x) ∈ known U n m)
    (hmap : m.mapPage k p = some m') : Wasted U n S m' := by
  obtain ⟨hstored, hpage, f, hf, hfirst⟩ := mapPage_page hmap
  have hknown : known U n m' = known U n m := by rw [known, known, hstored]
  obtain ⟨use, hsep⟩ := h.separated
  cases hp : m.page p with
  | some g =>
    obtain ⟨x, hx⟩ := hfilled g hp
    refine Or.inr ⟨g, x, hknown ▸ hx, fun a _ hpa _ => ?_⟩
    -- the old frame is the frame of no page
    by_cases hap : a / n = p
    · rw [hap, hfirst] at hpa
      obtain rfl := Option.some.inj hpa
      exact hsep.page_notFree hp hf
    · rw [hpage _ hap] at hpa
      exact hap (hsep.page_inj hpa hp)
  | none =>
    rcases hw.resolve_right (fun hno => hno hp) with hlt | ⟨g, x, hx, huseless⟩
    · exact Or.inl (hknown ▸ hlt)
    · refine Or.inr ⟨g, x, hknown ▸ hx, fun a ha hpa => ?_⟩
      have hap : a / n ≠ p := fun heq => h.mapped a ha (heq ▸ hp)
      rw [hpage _ hap] at hpa
      exact huseless a ha hpa

/-- **A byte that is stored to a new address** makes no other byte useful. -/
theorem Wasted.store (hw : Wasted U n S m) (h : Counted U n S m) (hn : 0 < n) (ha : a ∉ S)
    (hstore : m.store n a b = some m') : Wasted U n (insert a S) m' := by
  obtain ⟨f, hf, rfl⟩ := store_eq_some.mp hstore
  have hknown := known_put (b := b) (m := m) (h.page _ f hf) (Nat.mod_lt a hn)
  have hcard := Finset.card_insert_of_notMem ha
  have hcounted := h.card
  by_cases hfull : (known U n m).card < S.card ∨ (f, a % n) ∈ known U n m
  · refine Or.inl ?_
    rw [hknown]
    rcases hfull with hlt | hin
    · have hle := Finset.card_insert_le (f, a % n) (known U n m)
      omega
    · rw [Finset.insert_eq_of_mem hin]
      omega
  · obtain ⟨hfull, hnew⟩ := not_or.mp hfull
    obtain ⟨g, x, hx, huseless⟩ := hw.resolve_left hfull
    refine Or.inr ⟨g, x, hknown ▸ Finset.mem_insert_of_mem hx, fun c hc hpc => ?_⟩
    rcases Finset.mem_insert.mp hc with rfl | hc
    · rintro rfl
      obtain rfl := Option.some.inj (hf.symm.trans hpc)
      exact hnew hx
    · exact huseless c hc hpc

/-- Every page that is mapped has a byte that is known. -/
def Filled (U : Finset Nat) (n : Nat) (m : PagedSpace β) : Prop :=
  ∀ p f, m.page p = some f → ∃ x, (f, x) ∈ known U n m

/-- **Pages are mapped**, each of them once. -/
theorem Wasted.mapAll (hw : Wasted U n S m ∨ ∃ p ∈ ps, m.page p ≠ none) (h : Counted U n S m)
    (hfilled : ∀ p ∈ ps, ∀ f, m.page p = some f → ∃ x, (f, x) ∈ known U n m) (hps : ps.Nodup)
    (hmap : m.mapAll k ps = some m') : Wasted U n S m' := by
  induction ps generalizing m with
  | nil =>
    cases hmap
    refine hw.resolve_right ?_
    rintro ⟨p, hp, -⟩
    cases hp
  | cons p ps ih =>
    obtain ⟨m₁, hfirst, hrest⟩ := Option.bind_eq_some_iff.mp hmap
    obtain ⟨hstored, hpage, -⟩ := mapPage_page hfirst
    obtain ⟨hp, hps⟩ := List.nodup_cons.mp hps
    obtain ⟨hfill, hfilled⟩ := List.forall_mem_cons.mp hfilled
    have hsame : ∀ q ∈ ps, m₁.page q = m.page q := fun q hq => hpage q (by rintro rfl; exact hp hq)
    refine ih ?_ (h.mapPage hfirst) (fun q hq f hf => ?_) hps hrest
    · by_cases hnow : Wasted U n S m ∨ m.page p ≠ none
      · exact Or.inl (Wasted.mapPage hnow h hfill hfirst)
      · obtain ⟨hno, hnone⟩ := not_or.mp hnow
        obtain ⟨q, hq, hmapped⟩ := hw.resolve_left hno
        rcases List.mem_cons.mp hq with rfl | hq
        · exact absurd hmapped hnone
        · exact Or.inr ⟨q, hq, hsame q hq ▸ hmapped⟩
    · rw [known, hstored]
      exact hfilled q hq f (hsame q hq ▸ hf)

/-- **Bytes are stored** to new addresses. -/
theorem Wasted.storeAll (hw : Wasted U n S m) (h : Counted U n S m) (hn : 0 < n) (has : as.Nodup)
    (hS : ∀ a ∈ as, a ∉ S) (hstore : m.storeAll n v as = some m') :
    Wasted U n (S ∪ as.toFinset) m' := by
  induction as generalizing m S with
  | nil =>
    cases hstore
    simpa using hw
  | cons a as ih =>
    obtain ⟨m₁, hfirst, hrest⟩ := Option.bind_eq_some_iff.mp hstore
    obtain ⟨hnew, has⟩ := List.nodup_cons.mp has
    obtain ⟨ha, hS⟩ := List.forall_mem_cons.mp hS
    rw [List.toFinset_cons, Finset.union_insert, ← Finset.insert_union]
    refine ih (hw.store h hn ha hfirst) (h.store hn (fun hin => absurd hin ha) hfirst) has ?_ hrest
    intro c hc hin
    rcases Finset.mem_insert.mp hin with rfl | hin
    · exact hnew hc
    · exact hS c hc hin

/-- **A segment whose pages are all filled**: each page once, each byte once, and no page without a
byte. -/
structure Full (n : Nat) (s : Segment β) : Prop where
  fits : Fits n s
  pages : s.pages.Nodup
  addresses : s.addresses.Nodup
  covers : ∀ p ∈ s.pages, ∃ a ∈ s.addresses, a / n = p

/-- After a segment has been loaded, its pages have bytes that are known. -/
theorem Filled.loadSegment (hfilled : Filled U n m) (h : Counted U n S m) (hn : 0 < n)
    (hs : Full n s) (hS : ∀ a ∈ s.addresses, a ∉ S) (hload : m.loadSegment k n s = some m') :
    Filled U n m' ∧ ∀ q, q ∈ s.pages ∨ m.page q ≠ none → m'.page q ≠ none := by
  have hnext := h.loadSegment hn hS hload
  obtain ⟨m₁, hmap, hstore⟩ := Option.bind_eq_some_iff.mp hload
  obtain ⟨use, hsep⟩ := h.separated
  obtain ⟨⟨use₁, h₁⟩, hstored, hpage, hmapped⟩ := mapAll_spec hsep hmap
  obtain ⟨-, hsame, hread, hother⟩ := storeAll_spec h₁ hstore
  refine ⟨fun p f hf => ?_, fun q hq => hsame ▸ hmapped q hq⟩
  by_cases hp : p ∈ s.pages
  · obtain ⟨a, ha, rfl⟩ := hs.covers p hp
    obtain ⟨g, hg, hknown⟩ := hnext.known_read hn (show (m'.read n a).isSome = true by
      rw [hread a ha]
      rfl)
    obtain rfl := Option.some.inj (hf.symm.trans hg)
    exact ⟨_, hknown⟩
  -- another page: its bytes are as they were
  · have hf' : m.page p = some f := by rw [← hpage p hp, ← hsame, hf]
    obtain ⟨x, hx⟩ := hfilled p f hf'
    obtain ⟨⟨hU, hlt⟩, hsome⟩ := mem_known.mp hx
    have haddr : (p * n + x) / n = p ∧ (p * n + x) % n = x := by
      rw [Nat.mul_comm]
      exact ⟨by rw [Nat.mul_add_div hn, Nat.div_eq_of_lt hlt, Nat.add_zero],
        by rw [Nat.mul_add_mod, Nat.mod_eq_of_lt hlt]⟩
    have hold := hother (p * n + x) fun hin => hp (haddr.1 ▸ hs.fits _ hin)
    have hf₁ : m₁.page p = some f := by rw [hpage p hp, hf']
    rw [read, read, haddr.1, haddr.2, hf, hf₁, hstored] at hold
    refine ⟨x, mem_known.mpr ⟨⟨hU, hlt⟩, ?_⟩⟩
    rw [show m'.stored f x = m.stored f x from hold]
    exact hsome

/-- **What is wasted stays wasted**, and a page that is mapped twice wastes something. -/
theorem Wasted.load (hw : Wasted U n S m ∨ (∃ s ∈ ss, ∃ p ∈ s.pages, m.page p ≠ none)
      ∨ ¬ ss.Pairwise fun s s' => s.pages.Disjoint s'.pages) (h : Counted U n S m) (hn : 0 < n)
    (hfilled : Filled U n m) (hss : ∀ s ∈ ss, Full n s) (hdisj : Disjointed ss)
    (hS : ∀ s ∈ ss, ∀ a ∈ s.addresses, a ∉ S) (hload : m.load k n ss = some m') :
    Wasted U n (S ∪ addresses ss) m' := by
  induction ss generalizing m S with
  | nil =>
    cases hload
    have hnow : Wasted U n S m' := by simpa using hw
    simpa [addresses] using hnow
  | cons s ss ih =>
    obtain ⟨m₁, hfirst, hrest⟩ := Option.bind_eq_some_iff.mp hload
    obtain ⟨hdisj', hS'⟩ := hdisj.tail hS
    obtain ⟨hfull, hss'⟩ := List.forall_mem_cons.mp hss
    have hnew := hS s (List.mem_cons_self ..)
    obtain ⟨hfilled', hmapped⟩ := hfilled.loadSegment h hn hfull hnew hfirst
    rw [addresses_cons]
    refine ih ?_ (h.loadSegment hn hnew hfirst) hfilled' hss' hdisj' hS' hrest
    by_cases hnow : Wasted U n S m ∨ ∃ p ∈ s.pages, m.page p ≠ none
    · obtain ⟨m₂, hmap, hstore⟩ := Option.bind_eq_some_iff.mp hfirst
      exact Or.inl ((Wasted.mapAll hnow h (fun p _ => hfilled p) hfull.pages hmap).storeAll
        (h.mapAll hmap) hn hfull.addresses hnew hstore)
    · obtain ⟨hno, hfree⟩ := not_or.mp hnow
      rcases hw with hw | ⟨s', hs', p, hp, hpage⟩ | hpair
      · exact absurd hw hno
      · rcases List.mem_cons.mp hs' with rfl | hs'
        · exact absurd ⟨p, hp, hpage⟩ hfree
        · exact Or.inr (Or.inl ⟨s', hs', p, hp, hmapped p (Or.inr hpage)⟩)
      · rw [List.pairwise_cons, not_and_or] at hpair
        rcases hpair with hpair | hpair
        · obtain ⟨s', hs', hshared⟩ : ∃ s' ∈ ss, ¬ s.pages.Disjoint s'.pages := by simpa using hpair
          obtain ⟨p, hp, hp'⟩ : ∃ p ∈ s.pages, p ∈ s'.pages := by
            simpa [List.Disjoint] using hshared
          exact Or.inr (Or.inl ⟨s', hs', p, hp', hmapped p (Or.inl hp)⟩)
        · exact Or.inr (Or.inr hpair)

/-- **When everything that has been stored is there, no page was mapped twice.** -/
theorem disjoint_of_load (h : Counted U n ∅ m) (hn : 0 < n) (hfilled : Filled U n m)
    (hss : ∀ s ∈ ss, Full n s) (hdisj : Disjointed ss) (hload : m.load k n ss = some m')
    (hall : ∀ s ∈ ss, ∀ a ∈ s.addresses, (m'.read n a).isSome = true) :
    ss.Pairwise fun s s' => s.pages.Disjoint s'.pages := by
  by_contra hno
  have hS : ∀ s ∈ ss, ∀ a ∈ s.addresses, a ∉ (∅ : Finset Nat) := fun _ _ _ _ =>
    Finset.notMem_empty _
  have hwasted := Wasted.load (Or.inr (Or.inr hno)) h hn hfilled hss hdisj hS hload
  refine hwasted.lost (h.load hn hdisj hS hload) hn fun a ha => ?_
  rw [Finset.empty_union] at ha
  obtain ⟨s, hs, ha⟩ := mem_addresses.mp ha
  exact hall s hs a ha

end PagedSpace
