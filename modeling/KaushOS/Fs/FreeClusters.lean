import KaushOS.Fs.Chains

/-! # Counting free clusters (`kern/fs/ff.c`)

`f_getfree` returns `free_clust` where it can be right, and else goes over the whole table: by `get_fat` where entries
have 12 bits, and sector by sector through the window otherwise.

* **`countClusters`**, **`countEntries`**, **`fGetfree`** — the function and its loops.
* **`Volume.Sound.countClusters`**, **`Volume.Sound.countEntries`** — what the loops count.
* **`getfree_iff`** — when the number is the one of the free clusters; **`getfree_left`**: what an error leaves. -/

namespace KaushOS.Fat

open WriteBack

/-! ## The function -/

/-- The loop over a table of 12 bits, with the number of clusters that are left. -/
def countClusters : Nat → Nat → Nat → Volume → Kernel (FRESULT × Nat × Volume)
  | 0, _, n, v => .ok (.FR_OK, n, v)
  | rest + 1, clst, n, v => do
    let (stat, v) ← getFat clst v
    if stat = 0xFFFFFFFF then return (.FR_DISK_ERR, n, v)
    else if stat = 1 then return (.FR_INT_ERR, n, v)
    else countClusters rest (clst + 1) (if stat = 0 then n + 1 else n) v

/-- The bytes of an entry of 16 or 32 bits. -/
def entryBytes (fat : FsType) : Nat := if fat = .FS_FAT16 then 2 else 4

/-- The entry at an offset of the window. -/
def entryAt (fat : FsType) (win : Sector) (p : Nat) : Nat :=
  if fat = .FS_FAT16 then ldWord win p else ldDword win p &&& 0x0FFFFFFF

/-- The next sector of the table is taken into the window when `i` is 0. -/
def nextSector (sect i : Nat) (v : Volume) : Kernel (FRESULT × Nat × Nat × Volume) :=
  if i = 0 then do
    let (res, v) ← moveWindow sect v
    return (res, dword (sect + 1), 512, v)
  else .ok (.FR_OK, sect, i, v)

/-- The loop over the other tables, with the number of entries that are left; `p` is `512 - i`. -/
def countEntries (fat : FsType) : Nat → Nat → Nat → Nat → Volume → Kernel (FRESULT × Nat × Volume)
  | 0, _, _, n, v => .ok (.FR_OK, n, v)
  | clst + 1, sect, i, n, v => do
    let (res, sect, i, v) ← nextSector sect i v
    if res ≠ .FR_OK then return (res, n, v)
    else
      countEntries fat clst sect (i - entryBytes fat) (if entryAt fat v.fs.win (512 - i) = 0 then n + 1 else n) v

/-- The loops. -/
def countFree (v : Volume) : Kernel (FRESULT × Nat × Volume) :=
  if v.fs.fs_type = .FS_FAT12 then countClusters (max 1 (v.fs.n_fatent - 2)) 2 0 v
  else countEntries v.fs.fs_type v.fs.n_fatent v.fs.fatbase 0 0 v

/-- **`f_getfree(path, nclst, fatfs)`** for a volume that has been mounted: the code, and `*nclst`. What has been counted
is stored also where the loop has been left by an error. -/
def fGetfree (v : Volume) : Kernel (FRESULT × Nat × Volume) := do
  if v.fs.free_clust ≤ v.fs.n_fatent - 2 then return (.FR_OK, v.fs.free_clust, v)
  else
    let fat := v.fs.fs_type
    let (res, n, v) ← countFree v
    return (res, n,
      { v with fs := { v.fs with free_clust := n, fsi_flag := if fat = .FS_FAT32 then true else v.fs.fsi_flag } })

variable {v v' v₁ : Volume} {c n i k x sect rest : Nat}

/-! ## Counting -/

/-- The entries with the value 0 among `m` of them, from `k` on. -/
def zeros (T : Nat → Nat) (k m : Nat) : Nat := (List.range' k m).countP fun c => T c = 0

theorem zeros_succ (T : Nat → Nat) (k m : Nat) :
    zeros T k (m + 1) = (if T k = 0 then 1 else 0) + zeros T (k + 1) m := by
  rw [zeros, List.range'_succ, List.countP_cons, Nat.add_comm]
  simp only [decide_eq_true_eq, zeros]

/-- The next entry is counted in front of the others. -/
theorem add_zeros_succ (T : Nat → Nat) (n k m : Nat) :
    (if T k = 0 then n + 1 else n) + zeros T (k + 1) m = n + zeros T k (m + 1) := by
  rw [zeros_succ]
  by_cases hzero : T k = 0
  · rw [if_pos hzero, if_pos hzero, Nat.add_assoc]
  · rw [if_neg hzero, if_neg hzero, Nat.zero_add]

/-- **The free clusters** are the entries with the value 0 from the third one on. -/
theorem Volume.card_free (v : Volume) (hn : 2 ≤ v.fs.n_fatent) : v.free.card = zeros v.fat 2 (v.fs.n_fatent - 2) := by
  have hlist : v.free.card = (List.range v.fs.n_fatent).countP fun c => 2 ≤ c ∧ v.fat c = 0 := by
    rw [List.countP_eq_length_filter]
    rfl
  have hsplit : List.range v.fs.n_fatent = [0, 1] ++ List.range' 2 (v.fs.n_fatent - 2) := by
    obtain ⟨m, hm⟩ : ∃ m, v.fs.n_fatent = m + 2 := ⟨v.fs.n_fatent - 2, by omega⟩
    rw [hm, Nat.add_sub_cancel, List.range_eq_range']
    rfl
  rw [hlist, hsplit, List.countP_append, zeros]
  refine (Nat.zero_add _).trans (List.countP_congr fun c hc => ?_)
  have htwo := (List.mem_range'_1.mp hc).1
  simp [htwo]

/-- **The loop over clusters** counts the free ones. -/
theorem Volume.Sound.countClusters (h : v.Sound) (hgood : ∀ c, v.layout.IsCluster c → v.fat c ≠ 1) (hk : 2 ≤ k)
    (hrest : k + rest = v.fs.n_fatent) :
    ∃ v', Fat.countClusters rest k n v = .ok (.FR_OK, n + zeros v.fat k rest, v') ∧ v'.Sound ∧ v.Moved v' := by
  induction rest generalizing k n v with
  | zero => exact ⟨v, rfl, h, .refl v⟩
  | succ rest ih =>
    have hL := h.wellFormed
    have hc : v.layout.IsCluster k := ⟨hk, show k < v.fs.n_fatent by omega⟩
    obtain ⟨v₁, hget, hsound, hmoved, -⟩ := h.getFat hc
    have hfat : ∀ c, v.layout.IsCluster c → v₁.fat c = v.fat c := fun c hc => hmoved.fat hL hc
    have hn : v₁.fs.n_fatent = v.fs.n_fatent := congrArg FatLayout.n_fatent hmoved.layout
    have hle : v.fat k ≤ v.layout.mark := FatLayout.entry_le_mark _ _ _
    have hlt := v.layout.mark_lt
    have hsame : zeros v₁.fat (k + 1) rest = zeros v.fat (k + 1) rest := List.countP_congr fun c hc => by
      obtain ⟨hlo, hhi⟩ := List.mem_range'_1.mp hc
      rw [hfat c ⟨by omega, show c < v.fs.n_fatent by omega⟩]
    obtain ⟨v', hrun, hsound', hmoved'⟩ := ih (n := if v.fat k = 0 then n + 1 else n) (k := k + 1) hsound
      (fun c hc => by
        rw [hmoved.layout] at hc
        rw [hfat c hc]
        exact hgood c hc) (by omega) (by omega)
    refine ⟨v', ?_, hsound', hmoved.trans hmoved'⟩
    rw [Fat.countClusters, hget, kernel_ok_bind]
    dsimp only
    -- No entry is 0xFFFFFFFF: a mark has at most 28 bits.
    rw [if_neg (by omega), if_neg (hgood k hc), hrun, hsame, add_zeros_succ]

/-- **The entry in the window.** -/
theorem Volume.AtByte.entryAt (hat : v.AtByte (entryBytes v.fs.fs_type * c) v₁) (hmounted : v.fs.fs_type ≠ .unmounted)
    (hnot : v.fs.fs_type ≠ .FS_FAT12) :
    Fat.entryAt v.fs.fs_type v₁.fs.win (entryBytes v.fs.fs_type * c % 512) = v.fat c := by
  have hmask : ∀ x, x &&& 0x0FFFFFFF = x % 2 ^ 28 := fun x => Nat.and_two_pow_sub_one_eq_mod x 28
  have hbytes : ∀ j, j / 512 = entryBytes v.fs.fs_type * c / 512 →
      (v₁.fs.win (j % 512)).toNat = v.layout.tableByte v.view j := fun j hj => hat.tableByte hj
  cases htype : v.fs.fs_type with
  | unmounted => exact absurd htype hmounted
  | FS_FAT12 => exact absurd htype hnot
  | FS_FAT16 =>
    rw [htype] at hbytes
    simp only [entryBytes, if_true] at hbytes ⊢
    rw [Volume.fat, FatLayout.entry, show v.layout.fs_type = .FS_FAT16 from htype, Fat.entryAt, if_pos rfl, ldWord_eq]
    dsimp only
    rw [← hbytes (2 * c) rfl, ← hbytes (2 * c + 1) (by omega), show (2 * c + 1) % 512 = 2 * c % 512 + 1 by omega]
  | FS_FAT32 =>
    rw [htype] at hbytes
    have hfour : entryBytes .FS_FAT32 = 4 := rfl
    rw [hfour] at hbytes ⊢
    rw [Volume.fat, FatLayout.entry, show v.layout.fs_type = .FS_FAT32 from htype, Fat.entryAt, if_neg (by decide), hmask,
      ldDword_eq]
    dsimp only
    rw [← hbytes (4 * c) rfl, ← hbytes (4 * c + 1) (by omega), ← hbytes (4 * c + 2) (by omega),
      ← hbytes (4 * c + 3) (by omega), show (4 * c + 1) % 512 = 4 * c % 512 + 1 by omega,
      show (4 * c + 2) % 512 = 4 * c % 512 + 2 by omega, show (4 * c + 3) % 512 = 4 * c % 512 + 3 by omega]

/-- **The state of the loop over entries** at the byte `x` of the table: a sector has been used up, or the window is at
the byte. -/
structure Volume.Scanning (v v₁ : Volume) (x sect i : Nat) : Prop where
  sound : v₁.Sound
  moved : v.Moved v₁
  place : (i = 0 ∧ x % 512 = 0 ∧ sect = v.fs.fatbase + x / 512)
    ∨ (i = 512 - x % 512 ∧ x % 512 ≠ 0 ∧ sect = v.fs.fatbase + x / 512 + 1 ∧ v.AtByte x v₁)

/-- **The window is at the next entry** after the sector has been taken. -/
theorem Volume.Scanning.nextSector (h : v.Scanning v₁ x sect i) (hL : v.layout.WellFormed) (hx : x < v.layout.tableBytes) :
    ∃ v', Fat.nextSector sect i v₁ = .ok (.FR_OK, v.fs.fatbase + x / 512 + 1, 512 - x % 512, v') ∧ v.AtByte x v' := by
  unfold Fat.nextSector
  obtain ⟨rfl, hmod, rfl⟩ | ⟨rfl, hmod, rfl, hat⟩ := h.place
  · have hbase : v₁.fs.fatbase = v.fs.fatbase := congrArg FatLayout.fatbase h.moved.layout
    obtain ⟨v', hrun, hat⟩ := h.sound.moveTable (h.moved.layout.symm ▸ hx)
    have hwindowed := (hL.inTable hx).windowed hL
    have hlimit := h.sound.limit_le
    rw [h.moved.layout] at hlimit
    have hlt : v.fs.fatbase + x / 512 < 2 ^ 28 := hwindowed.2.1.trans_le hlimit
    rw [hbase, dword_of_lt (by omega)] at hrun
    rw [if_pos rfl, hrun, kernel_ok_bind, hmod]
    refine ⟨v', by rw [dword_of_lt (by omega)]; rfl, hat.sound, h.moved.trans hat.moved, hat.sect.trans (by rw [hbase]), ?_⟩
    rw [hat.win, hbase]
    exact h.moved.view _ hwindowed.1 hwindowed.2.2
  · rw [if_neg (by omega)]
    exact ⟨v₁, rfl, hat⟩

/-- No entry is in two sectors. -/
theorem next_entry {w : Nat} (k : Nat) (hw : w = 2 ∨ w = 4) :
    (512 - w * k % 512 - w = 0 ∧ w * (k + 1) % 512 = 0 ∧ w * (k + 1) / 512 = w * k / 512 + 1)
      ∨ (512 - w * k % 512 - w = 512 - w * (k + 1) % 512 ∧ w * (k + 1) % 512 ≠ 0 ∧ w * (k + 1) / 512 = w * k / 512) := by
  obtain rfl | rfl := hw
  · omega
  · omega

/-- **The loop over entries** counts all that are 0, those of the clusters 0 and 1 among them. -/
theorem Volume.Scanning.countEntries (hL : v.layout.WellFormed) (hnot : v.fs.fs_type ≠ .FS_FAT12)
    (hrest : k + rest = v.fs.n_fatent) (h : v.Scanning v₁ (entryBytes v.fs.fs_type * k) sect i) :
    ∃ v', Fat.countEntries v.fs.fs_type rest sect i n v₁ = .ok (.FR_OK, n + zeros v.fat k rest, v') ∧ v'.Sound
      ∧ v.Moved v' := by
  have hmounted : v.fs.fs_type ≠ .unmounted := hL.mounted
  have hwidth : (entryBytes v.fs.fs_type = 2 ∧ v.layout.tableBytes = 2 * v.fs.n_fatent)
      ∨ (entryBytes v.fs.fs_type = 4 ∧ v.layout.tableBytes = 4 * v.fs.n_fatent) := by
    rw [FatLayout.tableBytes, show v.layout.fs_type = v.fs.fs_type from rfl]
    cases htype : v.fs.fs_type with
    | unmounted => exact absurd htype hmounted
    | FS_FAT12 => exact absurd htype hnot
    | FS_FAT16 => exact .inl ⟨rfl, rfl⟩
    | FS_FAT32 => exact .inr ⟨rfl, rfl⟩
  -- On the entries that are left: `Scanning` holds in front of each of them.
  induction rest generalizing k n v₁ sect i with
  | zero => exact ⟨v₁, rfl, h.sound, h.moved⟩
  | succ rest ih =>
    have hx : entryBytes v.fs.fs_type * k < v.layout.tableBytes := by
      obtain ⟨hw, hbytes⟩ | ⟨hw, hbytes⟩ := hwidth <;> rw [hw, hbytes] <;> omega
    obtain ⟨v₂, hnext, hat⟩ := h.nextSector hL hx
    have hentry := hat.entryAt hmounted hnot
    have hscan : v.Scanning v₂ (entryBytes v.fs.fs_type * (k + 1))
        (v.fs.fatbase + entryBytes v.fs.fs_type * k / 512 + 1)
        (512 - entryBytes v.fs.fs_type * k % 512 - entryBytes v.fs.fs_type) := by
      refine ⟨hat.sound, hat.moved, ?_⟩
      obtain ⟨hi, hmod, hdiv⟩ | ⟨hi, hmod, hdiv⟩ := next_entry k (hwidth.imp And.left And.left)
      -- The sector has been used up, or the window stays where it is.
      · exact .inl ⟨hi, hmod, by rw [hdiv, Nat.add_assoc]⟩
      · exact .inr ⟨hi, hmod, by rw [hdiv], hat.sound, hat.moved, hat.sect.trans (by rw [hdiv]),
          hat.win.trans (by rw [hdiv])⟩
    obtain ⟨v', hrun, hsound, hmoved⟩ := ih (n := if v.fat k = 0 then n + 1 else n) (by omega) hscan
    refine ⟨v', ?_, hsound, hmoved⟩
    have hback : 512 - (512 - entryBytes v.fs.fs_type * k % 512) = entryBytes v.fs.fs_type * k % 512 := by omega
    rw [Fat.countEntries, hnext, kernel_ok_bind]
    dsimp only
    rw [if_neg (not_not.mpr rfl), hback, hentry, hrun, add_zeros_succ]

/-- **The loops** count the free clusters, and in a table of 16 or 32 bits the entries 0 and 1 if they are 0. -/
theorem Volume.Sound.countFree (h : v.Sound) (hgood : ∀ c, v.layout.IsCluster c → v.fat c ≠ 1) :
    ∃ v', Fat.countFree v = .ok (.FR_OK, v.free.card + (if v.fs.fs_type = .FS_FAT12 then 0 else zeros v.fat 0 2), v')
      ∧ v'.Sound ∧ v.Moved v' := by
  have hn : 2 < v.fs.n_fatent := h.wellFormed.clusters
  unfold Fat.countFree
  rw [v.card_free (by omega)]
  by_cases htype : v.fs.fs_type = .FS_FAT12
  · rw [if_pos htype, if_pos htype, max_eq_right (by omega), Nat.add_zero]
    obtain ⟨v', hrun, hsound, hmoved⟩ :=
      h.countClusters (n := 0) hgood le_rfl (Nat.add_sub_of_le (show 2 ≤ v.fs.n_fatent by omega))
    exact ⟨v', by rw [hrun, Nat.zero_add], hsound, hmoved⟩
  -- This loop starts at the entry 0, and not at the first cluster.
  · rw [if_neg htype, if_neg htype]
    have hscan : v.Scanning v (entryBytes v.fs.fs_type * 0) v.fs.fatbase 0 :=
      ⟨h, .refl v, .inl ⟨rfl, by rw [Nat.mul_zero], by rw [Nat.mul_zero]; rfl⟩⟩
    obtain ⟨v', hrun, hsound, hmoved⟩ := hscan.countEntries (n := 0) h.wellFormed htype (Nat.zero_add _)
    have hsplit : zeros v.fat 0 v.fs.n_fatent = zeros v.fat 2 (v.fs.n_fatent - 2) + zeros v.fat 0 2 := by
      obtain ⟨m, hm⟩ : ∃ m, v.fs.n_fatent = m + 2 := ⟨v.fs.n_fatent - 2, by omega⟩
      rw [hm, Nat.add_sub_cancel, zeros_succ, zeros_succ, zeros_succ, zeros_succ]
      show _ + (_ + zeros v.fat 2 m) = zeros v.fat 2 m + (_ + (_ + 0))
      omega
    exact ⟨v', by rw [hrun, Nat.zero_add, hsplit], hsound, hmoved⟩

/-- What is stored about free clusters does not matter to the window. -/
theorem Volume.Sound.setFree (h : v.Sound) (free_clust : Nat) (fsi_flag : Bool) :
    Volume.Sound { v with fs := { v.fs with free_clust, fsi_flag } } :=
  ⟨h.wellFormed, h.is_ata, h.answers, h.window, h.dirty, h.coherent⟩

/-- **`f_getfree` gives the number of free clusters** exactly when it is already known, or the table has entries of 12
bits, or its first two entries are not 0. -/
theorem getfree_iff (h : v.Sound) (hgood : ∀ c, v.layout.IsCluster c → v.fat c ≠ 1) (hcounted : v.Counted) :
    ∃ n v', fGetfree v = .ok (.FR_OK, n, v') ∧ v'.Sound
      ∧ (n = v.free.card ↔ v.fs.free_clust ≤ v.fs.n_fatent - 2 ∨ v.fs.fs_type = .FS_FAT12 ∨ v.fat 0 ≠ 0 ∧ v.fat 1 ≠ 0) := by
  have hn : 2 < v.fs.n_fatent := h.wellFormed.clusters
  unfold fGetfree
  by_cases hknown : v.fs.free_clust ≤ v.fs.n_fatent - 2
  · have hlimit : v.fs.n_fatent ≤ v.layout.mark := h.wellFormed.marks
    have hmark := v.layout.mark_lt
    rw [if_pos hknown]
    -- The value for "unknown" is above every number of clusters.
    refine ⟨_, v, rfl, h, fun _ => .inl hknown, fun _ => hcounted.resolve_left fun hnone => ?_⟩
    omega
  · obtain ⟨v', hrun, hsound, -⟩ := h.countFree hgood
    rw [if_neg hknown, hrun, kernel_ok_bind]
    refine ⟨_, _, rfl, hsound.setFree _ _, ?_⟩
    by_cases htype : v.fs.fs_type = .FS_FAT12
    · rw [if_pos htype]
      exact ⟨fun _ => .inr (.inl htype), fun _ => rfl⟩
    · have htwo : zeros v.fat 0 2 = 0 ↔ v.fat 0 ≠ 0 ∧ v.fat 1 ≠ 0 := by
        rw [zeros_succ, zeros_succ]
        show (if v.fat 0 = 0 then 1 else 0) + ((if v.fat 1 = 0 then 1 else 0) + 0) = 0 ↔ _
        split <;> split <;> simp [*]
      rw [if_neg htype, Nat.add_eq_left, htwo]
      exact ⟨fun hfirst => .inr (.inr hfirst), fun hcase => (hcase.resolve_left hknown).resolve_left htype⟩

theorem getfree_iff_blank : ∃ v', fGetfree blankVolume = .ok (.FR_OK, 4, v') := by
  have hgood : ∀ c, blankVolume.layout.IsCluster c → blankVolume.fat c ≠ 1 := fun c _ => by
    rw [blankVolume_fat]
    decide
  obtain ⟨n, v', hrun, -, hn⟩ := getfree_iff (sampleVolume_sound zeroSector) hgood (.inl rfl)
  have hcard : blankVolume.free.card = 4 := by
    rw [blankVolume.card_free (show 2 ≤ 6 by decide), zeros]
    simp only [blankVolume_fat]
    rfl
  obtain rfl : n = 4 := (hn.mpr (.inr (.inl rfl))).trans hcard
  exact ⟨v', hrun⟩

/-! ## A count that is left -/

/-- **The loop is left** at an entry with the value 1. -/
theorem Volume.Sound.countClusters_left (h : v.Sound) (hk : 2 ≤ k) (hrest : k + rest ≤ v.fs.n_fatent)
    (hbad : ∃ c, k ≤ c ∧ c < k + rest ∧ v.fat c = 1) :
    ∃ m v', Fat.countClusters rest k n v = .ok (.FR_INT_ERR, n + m, v') ∧ m < rest ∧ v.Moved v' := by
  induction rest generalizing k n v with
  | zero =>
    obtain ⟨c, hlo, hhi, -⟩ := hbad
    omega
  | succ rest ih =>
    have hc : v.layout.IsCluster k := ⟨hk, show k < v.fs.n_fatent by omega⟩
    obtain ⟨v₁, hget, hsound, hmoved, -⟩ := h.getFat hc
    have hle : v.fat k ≤ v.layout.mark := FatLayout.entry_le_mark _ _ _
    have hlt := v.layout.mark_lt
    have hn : v₁.fs.n_fatent = v.fs.n_fatent := congrArg FatLayout.n_fatent hmoved.layout
    rw [Fat.countClusters, hget, kernel_ok_bind]
    dsimp only
    rw [if_neg (by omega)]
    by_cases hone : v.fat k = 1
    · rw [if_pos hone]
      exact ⟨0, v₁, rfl, Nat.succ_pos rest, hmoved⟩
    · obtain ⟨c, hlo, hhi, hval⟩ := hbad
      have hne : c ≠ k := fun heq => hone (heq ▸ hval)
      have hfat : v₁.fat c = v.fat c := hmoved.fat h.wellFormed ⟨by omega, show c < v.fs.n_fatent by omega⟩
      obtain ⟨m, v', hrun, hm, hmoved'⟩ := ih (n := if v.fat k = 0 then n + 1 else n) (k := k + 1) hsound (by omega)
        (by omega) ⟨c, by omega, by omega, hfat.trans hval⟩
      rw [if_neg hone, hrun]
      by_cases hzero : v.fat k = 0
      · rw [if_pos hzero]
        exact ⟨m + 1, v', by rw [Nat.add_assoc, Nat.add_comm 1 m], by omega, hmoved.trans hmoved'⟩
      · rw [if_neg hzero]
        exact ⟨m, v', rfl, by omega, hmoved.trans hmoved'⟩

/-- **A count that has been left is taken for the number of free clusters**: `f_getfree` fails on a table of 12 bits with
an entry of the value 1, and the next call succeeds with what had been counted until then. -/
theorem getfree_left (h : v.Sound) (htype : v.fs.fs_type = .FS_FAT12) (hunknown : v.fs.n_fatent - 2 < v.fs.free_clust)
    (hc : v.layout.IsCluster c) (hbad : v.fat c = 1) :
    ∃ n v', fGetfree v = .ok (.FR_INT_ERR, n, v') ∧ n < v.fs.n_fatent - 2 ∧ fGetfree v' = .ok (.FR_OK, n, v') := by
  have hn : 2 < v.fs.n_fatent := h.wellFormed.clusters
  have hlt : c < v.fs.n_fatent := hc.2
  obtain ⟨n, v', hrun, hlow, hmoved⟩ := h.countClusters_left (n := 0) (k := 2) le_rfl
    (show 2 + (v.fs.n_fatent - 2) ≤ v.fs.n_fatent by omega) ⟨c, hc.1, by omega, hbad⟩
  have hentries : v'.fs.n_fatent = v.fs.n_fatent := congrArg FatLayout.n_fatent hmoved.layout
  rw [Nat.zero_add] at hrun
  refine ⟨n, { v' with fs := { v'.fs with free_clust := n, fsi_flag := v'.fs.fsi_flag } }, ?_, hlow, ?_⟩
  · rw [fGetfree, if_neg (Nat.not_le.mpr hunknown), countFree, if_pos htype, max_eq_right (by omega), hrun, kernel_ok_bind]
    dsimp only
    rw [if_neg (by rw [htype]; decide)]
    rfl
  · rw [fGetfree]
    exact if_pos (show n ≤ v'.fs.n_fatent - 2 by omega)

theorem getfree_left_sample : ∃ n v', fGetfree (sampleVolume (Function.update zeroSector 3 1)) = .ok (.FR_INT_ERR, n, v')
    ∧ fGetfree v' = .ok (.FR_OK, n, v') := by
  have hc : (sampleVolume (Function.update zeroSector 3 1)).layout.IsCluster 2 := ⟨le_rfl, show 2 < 6 by decide⟩
  obtain ⟨n, v', hrun, -, hagain⟩ :=
    getfree_left (sampleVolume_sound _) rfl (show 4 < 0xFFFFFFFF by decide) hc (by decide)
  exact ⟨n, v', hrun, hagain⟩

end KaushOS.Fat
