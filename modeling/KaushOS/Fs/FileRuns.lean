import KaushOS.Fs.FileSync
import KaushOS.Library.Simulation

/-! # Files next to each other (`kern/fs/ff.c`)

Any number of files are open on one volume. They share its table, its window and its free clusters; each has
its own buffer.

* **`FileEvent`**, **`fileSystem`** — calls of the functions on the open files, one after another.
* **`Store`**, **`storeSystem`** — what they are for: each file is a stream of bytes of its own.
* **`FileState.Inv`** — the invariant of all files.
* **`fileSystem_simulation`**, **`files_are_streams`** — the streams simulate the files.
* **`FileState.Inv.recovered`**, **`synced_files_recovered`** — what `f_sync` has written is found again on the disk
  alone. -/

namespace KaushOS.Fat

open LinkedChain WriteBack Streams Transition

variable {ι : Type} [DecidableEq ι]

/-! ## The calls -/

/-- **The open files of a volume.** -/
structure FileState (ι : Type) where
  v : Volume
  files : ι → FIL

/-- **A call of a function** on one of the files. -/
inductive FileEvent (ι : Type)
  | read (i : ι) (btr : Nat)
  | write (i : ι) (wbuff : List UInt8)
  | seek (i : ι) (ofs : Nat)
  | truncate (i : ι)
  | sync (i : ι)
  deriving DecidableEq, Repr

/-- **What is returned**: the result, the bytes that have been read, and the number of bytes that have been written. -/
structure FileAnswer where
  res : FRESULT
  bytes : List UInt8
  bw : Nat
  deriving DecidableEq, Repr

/-- The file object of a file after a call. -/
def FileState.put (i : ι) (fp : FIL) (v : Volume) (s : FileState ι) : FileState ι :=
  ⟨v, Function.update s.files i fp⟩

/-- What a call does. -/
def FileEvent.run : FileEvent ι → FileState ι → Kernel (FileAnswer × FileState ι)
  | .read i btr, s => do
    let (res, bytes, fp, v) ← fRead btr (s.files i) s.v
    return (⟨res, bytes, 0⟩, s.put i fp v)
  | .write i wbuff, s => do
    let (res, bw, fp, v) ← fWrite wbuff (s.files i) s.v
    return (⟨res, [], bw⟩, s.put i fp v)
  | .seek i ofs, s => do
    let (res, fp, v) ← fLseek ofs (s.files i) s.v
    return (⟨res, [], 0⟩, s.put i fp v)
  | .truncate i, s => do
    let (res, fp, v) ← fTruncate (s.files i) s.v
    return (⟨res, [], 0⟩, s.put i fp v)
  | .sync i, s => do
    let (res, fp, v) ← fSync (s.files i) s.v
    return (⟨res, [], 0⟩, s.put i fp v)

/-- **When a call is made**: the numbers are those of the types of the parameters, and `f_truncate` does not free a
cluster of which a sector is in the buffer of the file. -/
def FileEvent.Enabled : FileEvent ι → FileState ι → Prop
  | .read _ _, _ => True
  | .write _ wbuff, _ => wbuff.length < 2 ^ 32
  | .seek _ ofs, _ => ofs < 2 ^ 32
  | .truncate i, s => (s.files i).fptr < (s.files i).fsize → ∀ x, (s.files i).Freed s.v x →
      ¬ s.v.layout.InCluster x (s.files i).dsect
  | .sync _, _ => True

/-! ## What the files are for -/

/-- **A store of streams**, and the number of clusters that are left for all of them. -/
structure Store (ι : Type) where
  streams : ι → Stream UInt8
  spare : Nat

/-- The stream of a file is replaced. -/
def Store.put (i : ι) (stream : Stream UInt8) (spare : Nat) (a : Store ι) : Store ι :=
  ⟨Function.update a.streams i stream, spare⟩

/-- **What a call is for**, on files that can be read and written as `rd` and `wr` say: a call on a file does something
to its stream only. Less is written than has been asked for, and a file is extended less than up to a position, only
where no cluster is left, or where it would reach 4 GB. -/
def Store.Step (rd wr : ι → Bool) (e : FileEvent ι) (answer : FileAnswer) (a a' : Store ι) : Prop :=
  match e with
  | .read i btr =>
    if rd i = true then answer = ⟨.FR_OK, (a.streams i).taken btr, 0⟩
      ∧ a' = a.put i ((a.streams i).skip btr) a.spare
    else answer = ⟨.FR_DENIED, [], 0⟩ ∧ a' = a
  | .write i wbuff =>
    if wr i = true then ∃ bw ≤ wbuff.length, ∃ spare ≤ a.spare, answer = ⟨.FR_OK, [], bw⟩
      ∧ a' = a.put i ((a.streams i).write (wbuff.take bw)) spare
      ∧ (bw < wbuff.length → spare = 0 ∨ 2 ^ 32 ≤ (a.streams i).data.length + wbuff.length)
    else answer = ⟨.FR_DENIED, [], 0⟩ ∧ a' = a
  | .seek i ofs => ∃ bytes, ∃ spare ≤ a.spare, answer = ⟨.FR_OK, [], 0⟩
      ∧ a' = a.put i (((a.streams i).extend bytes).seek ofs) spare
      ∧ (bytes ≠ [] → wr i = true ∧ (a.streams i).data.length + bytes.length ≤ ofs)
      ∧ (wr i = true → (a.streams i).data.length + bytes.length < ofs → spare = 0)
  | .truncate i =>
    if wr i = true then ∃ spare ≥ a.spare, answer = ⟨.FR_OK, [], 0⟩ ∧ a' = a.put i (a.streams i).truncate spare
    else answer = ⟨.FR_DENIED, [], 0⟩ ∧ a' = a
  | .sync _ => answer = ⟨.FR_OK, [], 0⟩ ∧ a' = a

/-! ## The invariant -/

variable {S : Set Nat} {s s' : FileState ι} {chains : ι → List Nat} {rd wr : ι → Bool} {v v' : Volume} {fp fp' : FIL}
  {l l' : List Nat} {i j : ι}

/-- **The invariant of the files**, with the chains of their clusters: the table holds these chains and no others, the
files are open, and what has not been marked for `f_sync` is in the directory entries. -/
structure FileState.Inv (S : Set Nat) (s : FileState ι) (chains : ι → List Nat) : Prop where
  table : ChainState.Inv S ⟨s.v, chains⟩
  ready : s.v.Ready S
  opened : ∀ i, FileOpen S s.v (s.files i) (chains i)
  places : ∀ i, s.v.layout.EntryPlace S (s.files i).dir_sect (s.files i).dir_ptr
  apart : ∀ i j, i ≠ j → (s.files i).dir_sect ≠ (s.files j).dir_sect
    ∨ (s.files i).dir_ptr + 32 ≤ (s.files j).dir_ptr ∨ (s.files j).dir_ptr + 32 ≤ (s.files i).dir_ptr
  entries : ∀ i, (s.files i).FA__WRITTEN = false →
    s.v.Entry (s.files i).dir_sect (s.files i).dir_ptr (s.files i).org_clust (s.files i).fsize

/-- The bytes of an entry decide about what it says. -/
theorem Volume.Entry.congr {sect ptr org size : Nat} (h : v.Entry sect ptr org size)
    (hsame : ∀ k, ptr ≤ k → k < ptr + 32 → v'.view sect k = v.view sect k) : v'.Entry sect ptr org size := by
  refine ⟨Eq.trans ?_ h.1, Eq.trans ?_ h.2⟩
  · rw [ldClust, ldClust, ldWord_congr fun k hk => hsame _ (by omega) (by omega),
      ldWord_congr fun k hk => hsame _ (by omega) (by omega)]
  · exact ldDword_congr fun k hk => hsame _ (by omega) (by omega)

/-- **A file stays as it is** where its entries in the table and its data do. -/
theorem FileOpen.frame (h : FileOpen S v fp l) (hready : v.Ready S) (hlayout : v'.layout = v.layout)
    (hfat : ∀ x ∈ l, v'.fat x = v.fat x) (hsame : v.SameData {c | c ∈ l} v') :
    FileOpen S v' fp l ∧ fileStream v' fp l = fileStream v fp l := by
  have hsize := h.size
  have hsettled := h.settled
  have hdata : FileData S v' fp l :=
    ⟨h.chain.congr hlayout hfat, h.owned, h.org, hlayout.symm ▸ h.size, hlayout.symm ▸ h.pos, hlayout.symm ▸ h.buffer,
      h.loaded, h.coherent_same hready hsame⟩
  refine ⟨⟨⟨hdata, hlayout.symm ▸ h.curr, hlayout.symm ▸ h.sect⟩, h.fs, h.id.trans (congrArg FatLayout.id hlayout).symm,
    h.error, h.settled, h.small, h.written⟩, fileStream_congr rfl rfl fun i hi => ?_⟩
  exact h.byte_same hready hsame rfl (by omega) (by rw [hlayout])

/-- **A call on one file keeps the invariant**, and leaves the streams of the other files as they are. -/
theorem FileState.Inv.replace (h : s.Inv S chains) (hstep : DataStep S s.v v' (chains i) l')
    (hopen : FileOpen S v' fp' l') (hhandle : fp'.handle = (s.files i).handle)
    (hentry : fp'.FA__WRITTEN = false → v'.Entry (s.files i).dir_sect (s.files i).dir_ptr fp'.org_clust fp'.fsize)
    (hothers : ∀ j, j ≠ i → ∀ k, (s.files j).dir_ptr ≤ k → k < (s.files j).dir_ptr + 32 →
      v'.view (s.files j).dir_sect k = s.v.view (s.files j).dir_sect k) :
    (s.put i fp' v').Inv S (Function.update chains i l')
      ∧ ∀ j, j ≠ i → fileStream v' (s.files j) (chains j) = fileStream s.v (s.files j) (chains j) := by
  have hapart : ∀ j, j ≠ i → ∀ x ∈ chains j, x ∉ chains i ∧ x ∉ l' := fun j hj x hx => by
    have hnot : x ∉ chains i := fun hxi => h.table.disjoint j i hj hx hxi
    exact ⟨hnot, fun hxl => (hstep.taken x hxl).elim hnot ((h.opened j).chain.not_free hx)⟩
  have hframe : ∀ j, j ≠ i → FileOpen S v' (s.files j) (chains j)
      ∧ fileStream v' (s.files j) (chains j) = fileStream s.v (s.files j) (chains j) := fun j hj => by
    refine (h.opened j).frame h.ready hstep.layout (fun x hx => ?_) fun x hx r hr => ?_
    · obtain ⟨hnot, hnew⟩ := hapart j hj x hx
      exact hstep.fat x ((h.opened j).chain.used x hx).1 hnot hnew
    · exact hstep.sectors x ((h.opened j).owned x hx) (hapart j hj x hx).2 r hr
  simp only [FIL.handle, Prod.mk.injEq] at hhandle
  obtain ⟨-, -, -, -, -, hsect, hptr⟩ := hhandle
  have hplace : ∀ j, (Function.update s.files i fp' j).dir_sect = (s.files j).dir_sect
      ∧ (Function.update s.files i fp' j).dir_ptr = (s.files j).dir_ptr := fun j => by
    by_cases hj : j = i
    · rw [hj, Function.update_self]
      exact ⟨hsect, hptr⟩
    · rw [Function.update_of_ne hj]
      exact ⟨rfl, rfl⟩
  refine ⟨⟨?_, hstep.ready, fun j => ?_, fun j => ?_, fun j k hjk => ?_, fun j hwritten => ?_⟩, fun j hj => (hframe j hj).2⟩
  · exact h.table.replace hstep.ready.sound hstep.layout hstep.counted hopen.chain hstep.taken hstep.left hstep.fat
  · by_cases hj : j = i
    · simp only [FileState.put, hj, Function.update_self]
      exact hopen
    · simp only [FileState.put, Function.update_of_ne hj]
      exact (hframe j hj).1
  · simp only [FileState.put, (hplace j).1, (hplace j).2, hstep.layout]
    exact h.places j
  · simp only [FileState.put, (hplace j).1, (hplace j).2, (hplace k).1, (hplace k).2]
    exact h.apart j k hjk
  · simp only [FileState.put] at hwritten ⊢
    rw [(hplace j).1, (hplace j).2]
    by_cases hj : j = i
    · rw [hj, Function.update_self] at hwritten ⊢
      exact hentry hwritten
    · rw [Function.update_of_ne hj] at hwritten ⊢
      exact (h.entries j hwritten).congr (hothers j hj)

/-- **A call that leaves the directories alone**, and marks what it has changed. -/
theorem FileState.Inv.replace_file (h : s.Inv S chains) (hstep : FileStep S s.v v' (chains i) l')
    (hopen : FileOpen S v' fp' l') (hhandle : fp'.handle = (s.files i).handle) (hmarked : (s.files i).Marked fp') :
    (s.put i fp' v').Inv S (Function.update chains i l')
      ∧ ∀ j, j ≠ i → fileStream v' (s.files j) (chains j) = fileStream s.v (s.files j) (chains j) := by
  have houtside : ∀ j, v'.view (s.files j).dir_sect = s.v.view (s.files j).dir_sect := fun j =>
    hstep.outside _ (h.places j).behind (h.places j).apart
  refine h.replace hstep.toDataStep hopen hhandle (fun hwritten => ?_) fun j _ k _ _ => by rw [houtside]
  obtain ⟨hwritten, horg, hsize⟩ := hmarked hwritten
  rw [horg, hsize]
  exact (h.entries i hwritten).congr fun k _ _ => by rw [houtside]

/-! ## The simulation -/

/-- **The streams of the files.** -/
def FileState.Holds (S : Set Nat) (rd wr : ι → Bool) (s : FileState ι) (a : Store ι) : Prop :=
  ∃ chains, s.Inv S chains ∧ (∀ i, (s.files i).FA_READ = rd i ∧ (s.files i).FA_WRITE = wr i)
    ∧ (∀ i, a.streams i = fileStream s.v (s.files i) (chains i)) ∧ a.spare = s.v.free.card

variable {a a' : Store ι} {e : FileEvent ι}

/-- The streams after a call on one file. -/
theorem FileState.holds_put (hmode : ∀ i, (s.files i).FA_READ = rd i ∧ (s.files i).FA_WRITE = wr i)
    (hstreams : ∀ i, a.streams i = fileStream s.v (s.files i) (chains i))
    (hinv : (s.put i fp' v').Inv S (Function.update chains i l')) (hhandle : fp'.handle = (s.files i).handle)
    (hothers : ∀ j, j ≠ i → fileStream v' (s.files j) (chains j) = fileStream s.v (s.files j) (chains j)) :
    (s.put i fp' v').Holds S rd wr (a.put i (fileStream v' fp' l') v'.free.card) := by
  simp only [FIL.handle, Prod.mk.injEq] at hhandle
  obtain ⟨-, -, hread, hwrite, -⟩ := hhandle
  refine ⟨_, hinv, fun j => ?_, fun j => ?_, rfl⟩
  · by_cases hj : j = i
    · simp only [FileState.put, hj, Function.update_self, hread, hwrite]
      exact hmode i
    · simp only [FileState.put, Function.update_of_ne hj]
      exact hmode j
  · by_cases hj : j = i
    · simp only [FileState.put, Store.put, hj, Function.update_self]
    · simp only [FileState.put, Store.put, Function.update_of_ne hj, hothers j hj]
      exact hstreams j

/-- A call that changes nothing. -/
theorem FileState.put_self (s : FileState ι) (i : ι) : s.put i (s.files i) s.v = s := by
  rw [FileState.put, Function.update_eq_self]

/-- The length of the stream of a file. -/
theorem FileOpen.length_stream (h : FileOpen S v fp l) : (fileStream v fp l).data.length = fp.fsize := by
  simp only [fileStream, ofFun, List.length_map, List.length_range]
  exact max_eq_left h.settled

/-- **A call that can be made returns**, and does to the streams what it is for. -/
theorem FileState.Holds.call (h : s.Holds S rd wr a) (he : e.Enabled s) :
    ∃ answer s' a', e.run s = .ok (answer, s') ∧ Store.Step rd wr e answer a a' ∧ s'.Holds S rd wr a' := by
  obtain ⟨chains, hinv, hmode, hstreams, hspare⟩ := id h
  have hready := hinv.ready
  cases e with
  | read i btr =>
    have hopen := hinv.opened i
    by_cases hrd : rd i = true
    · obtain ⟨bytes, fp', v', hrun, hbytes, hstream, hstep, hopen', hhandle, hmarked⟩ :=
        hopen.fRead hready ((hmode i).1.trans hrd) btr
      obtain ⟨hinv', hothers⟩ := hinv.replace_file hstep hopen' hhandle hmarked
      refine ⟨⟨.FR_OK, bytes, 0⟩, _, _, ?_, ?_, holds_put hmode hstreams hinv' hhandle hothers⟩
      · simp only [FileEvent.run, hrun, kernel_ok_bind]
        rfl
      · rw [Store.Step, if_pos hrd, hstream, ← hstreams i, hbytes, ← hstreams i,
          hstep.free_same hopen.chain hopen'.chain, hspare]
        exact ⟨rfl, rfl⟩
    · have hdenied := hopen.fRead_denied hready ((hmode i).1.trans (by simpa using hrd)) btr
      refine ⟨⟨.FR_DENIED, [], 0⟩, s, a, ?_, ?_, h⟩
      · simp only [FileEvent.run, hdenied, kernel_ok_bind, s.put_self i]
        rfl
      · rw [Store.Step, if_neg hrd]
        exact ⟨rfl, rfl⟩
  | write i wbuff =>
    have hopen := hinv.opened i
    by_cases hwr : wr i = true
    · obtain ⟨bw, fp', v', l', hrun, hle, hfull, hstream, hstep, hlonger, hopen', hhandle, hmarked⟩ :=
        hopen.fWrite hready ((hmode i).2.trans hwr) he
      obtain ⟨hinv', hothers⟩ := hinv.replace_file hstep hopen' hhandle hmarked
      refine ⟨⟨.FR_OK, [], bw⟩, _, _, ?_, ?_, holds_put hmode hstreams hinv' hhandle hothers⟩
      · simp only [FileEvent.run, hrun, kernel_ok_bind]
        rfl
      · rw [Store.Step, if_pos hwr, hstream, ← hstreams i, hspare, hstreams i, hopen.length_stream, ← hstreams i]
        refine ⟨bw, hle, _, Finset.card_le_card (hstep.free_of_longer hopen'.chain fun _ hx => hlonger.subset hx), rfl, rfl,
          fun hlt => (hfull hlt).imp_left fun hfree => ?_⟩
        rw [hfree, Finset.card_empty]
    · have hdenied := hopen.fWrite_denied hready ((hmode i).2.trans (by simpa using hwr)) wbuff
      refine ⟨⟨.FR_DENIED, [], 0⟩, s, a, ?_, ?_, h⟩
      · simp only [FileEvent.run, hdenied, kernel_ok_bind, s.put_self i]
        rfl
      · rw [Store.Step, if_neg hwr]
        exact ⟨rfl, rfl⟩
  | seek i ofs =>
    have hopen := hinv.opened i
    obtain ⟨fp', v', l', hrun, ⟨bytes, hstream, hgrown, hfull⟩, hstep, hlonger, hopen', hhandle, hmarked⟩ :=
      hopen.fLseek hready he
    obtain ⟨hinv', hothers⟩ := hinv.replace_file hstep hopen' hhandle hmarked
    refine ⟨⟨.FR_OK, [], 0⟩, _, _, ?_, ?_, holds_put hmode hstreams hinv' hhandle hothers⟩
    · simp only [FileEvent.run, hrun, kernel_ok_bind]
      rfl
    · rw [Store.Step, hstream, hspare, hstreams i, hopen.length_stream, ← hstreams i, ← (hmode i).2]
      refine ⟨bytes, _, Finset.card_le_card (hstep.free_of_longer hopen'.chain fun _ hx => hlonger.subset hx), rfl, rfl,
        hgrown, fun hwr hlt => ?_⟩
      rw [hfull hwr hlt, Finset.card_empty]
  | truncate i =>
    have hopen := hinv.opened i
    by_cases hwr : wr i = true
    · obtain ⟨fp', v', l', hrun, hstream, hstep, hinitial, hopen', hhandle, hmarked⟩ :=
        hopen.fTruncate hready ((hmode i).2.trans hwr) he
      obtain ⟨hinv', hothers⟩ := hinv.replace_file hstep hopen' hhandle hmarked
      refine ⟨⟨.FR_OK, [], 0⟩, _, _, ?_, ?_, holds_put hmode hstreams hinv' hhandle hothers⟩
      · simp only [FileEvent.run, hrun, kernel_ok_bind]
        rfl
      · rw [Store.Step, if_pos hwr, hstream, ← hstreams i, hspare]
        exact ⟨_, Finset.card_le_card (hstep.free_of_shorter hopen.chain fun _ hx => hinitial.subset hx), rfl, rfl⟩
    · have hdenied := hopen.fTruncate_denied hready ((hmode i).2.trans (by simpa using hwr))
      refine ⟨⟨.FR_DENIED, [], 0⟩, s, a, ?_, ?_, h⟩
      · simp only [FileEvent.run, hdenied, kernel_ok_bind, s.put_self i]
        rfl
      · rw [Store.Step, if_neg hwr]
        exact ⟨rfl, rfl⟩
  | sync i =>
    have hopen := hinv.opened i
    obtain ⟨fp', v', hrun, hfp', hstream, hstep, hopen', hwritten, hclean, hview⟩ := hopen.fSync hready (hinv.places i)
    have hfields : fp'.handle = (s.files i).handle ∧ fp'.org_clust = (s.files i).org_clust
        ∧ fp'.fsize = (s.files i).fsize := by
      rw [hfp']
      exact ⟨rfl, rfl, rfl⟩
    obtain ⟨hhandle, horg, hsize⟩ := hfields
    obtain ⟨hinv', hothers⟩ := hinv.replace hstep hopen' hhandle (fun _ => by
      rw [horg, hsize]
      by_cases hw : (s.files i).FA__WRITTEN = true
      · exact (hwritten hw).2
      · have hw : (s.files i).FA__WRITTEN = false := by simpa using hw
        exact hclean hw ▸ hinv.entries i hw) fun j hj k hk hk' => hview _ k (hinv.places j).behind (hinv.places j).apart (by
      rcases hinv.apart j i hj with hne | hlt | hlt
      · exact .inl hne
      · exact .inr (.inl (by omega))
      · exact .inr (.inr (by omega)))
    have hholds := holds_put hmode hstreams hinv' hhandle hothers
    rw [hstream, ← hstreams i, hstep.free_same hopen.chain hopen'.chain, ← hspare] at hholds
    have hsame : a.put i (a.streams i) a.spare = a := by rw [Store.put, Function.update_eq_self]
    refine ⟨⟨.FR_OK, [], 0⟩, _, a, ?_, ⟨rfl, rfl⟩, hsame ▸ hholds⟩
    simp only [FileEvent.run, hrun, kernel_ok_bind]
    rfl

/-- **The calls on files**, from a state with the invariant. -/
def fileSystem (S : Set Nat) (rd wr : ι → Bool) : System (FileEvent ι × FileAnswer) (FileState ι) where
  init s := ∃ a, s.Holds S rd wr a
  step _ s e s' := e.1.Enabled s ∧ e.1.run s = .ok (e.2, s')

/-- **What the calls are for**, from any streams. -/
def storeSystem (rd wr : ι → Bool) : System (FileEvent ι × FileAnswer) (Store ι) where
  init _ := True
  step _ a e a' := Store.Step rd wr e.1 e.2 a a'

/-- **The streams simulate the files.** -/
theorem fileSystem_simulation (S : Set Nat) (rd wr : ι → Bool) :
    Simulation (fileSystem S rd wr) (storeSystem rd wr) (FileState.Holds S rd wr) where
  init _ h := h.imp fun _ ha => ⟨trivial, ha⟩
  step _ s e s' a h hs := by
    obtain ⟨answer, s'', a', hrun, hstep, hholds⟩ := h.call hs.1
    obtain ⟨rfl, rfl⟩ : answer = e.2 ∧ s'' = s' := Prod.mk.inj (Except.ok.inj (hrun.symm.trans hs.2))
    exact ⟨a', hstep, hholds⟩

/-! ## All runs -/

variable {v₀ : Volume} {answer : FileAnswer}

omit [DecidableEq ι] in
/-- **What need not be written is found again** on the disk alone, by the directory entry of the file. -/
theorem FileState.Inv.recovered (h : s.Inv S chains) (hclean : s.v.fs.wflag = false) (hv : s.v.Remounted v₀)
    (hwritten : (s.files j).FA__WRITTEN = false) (fp₀ : FIL) (w : Bool) (n : Nat) :
    ∃ v' fp v'', moveWindow (s.files j).dir_sect v₀ = .ok (.FR_OK, v')
      ∧ fRead n (openEntry true w false (s.files j).dir_ptr fp₀ v') v'
        = .ok (.FR_OK, (fileStream s.v (s.files j) (chains j)).data.take n, fp, v'') := by
  have hopen := h.opened j
  obtain ⟨fp', v', hmove, rfl, hready', hopen', hstream⟩ := hopen.reopened h.ready (h.places j) (h.entries j hwritten)
    (hopen.clean_of_unmarked hwritten) hclean hv fp₀ true w
  obtain ⟨bytes, fp'', v'', hread, hbytes, -⟩ := hopen'.fRead hready' rfl n
  refine ⟨v', fp'', v'', hmove, ?_⟩
  rw [hread, hbytes, hstream]
  simp only [Stream.taken, Stream.seek, Nat.zero_min, List.drop_zero]

/-- **Two files without bytes** on a volume without data; their entries have yet to be written. -/
def blankFiles : FileState (Fin 2) where
  v := blankVolume
  files i :=
    { fs := true
      id := 1
      FA_READ := true
      FA_WRITE := true
      FA__WRITTEN := true
      FA__DIRTY := false
      FA__ERROR := false
      fptr := 0
      fsize := 0
      org_clust := 0
      curr_clust := 0
      dsect := 0
      dir_sect := 3
      dir_ptr := 32 * i
      buf := zeroSector }

theorem blankFiles_inv : blankFiles.Inv {c | 2 ≤ c ∧ c < 6} fun _ => [] where
  table := blankVolume_chains
  ready := blankVolume_ready
  opened _ :=
    { chain := Volume.hasChain_nil _
      owned := fun _ hx => by cases hx
      org := rfl
      size := le_rfl
      pos := le_rfl
      buffer := .inl rfl
      loaded := fun h => absurd h Bool.false_ne_true
      coherent := fun _ _ hk => by cases hk
      curr := fun h => absurd h (Nat.lt_irrefl 0)
      sect := fun h => absurd rfl h
      fs := rfl
      id := rfl
      error := rfl
      settled := le_rfl
      small := Nat.two_pow_pos 32
      written := fun _ => rfl }
  places i :=
    { behind := le_rfl
      inside := show 3 < 8 by decide
      apart := fun c hc hin => by
        have hle : 4 + (c - 2) * 1 ≤ 3 := hin.1
        omega
      room := by
        have := i.isLt
        show 32 * i.val + 32 ≤ 512
        omega }
  apart i j hij := .inr (by
    show 32 * i.val + 32 ≤ 32 * j.val ∨ 32 * j.val + 32 ≤ 32 * i.val
    have := Fin.val_ne_of_ne hij
    omega)
  entries _ h := absurd h.symm Bool.false_ne_true

theorem blankFiles_holds :
    ∃ a, blankFiles.Holds {c | 2 ≤ c ∧ c < 6} (fun _ => true) (fun _ => true) a :=
  ⟨⟨_, _⟩, _, blankFiles_inv, fun _ => ⟨rfl, rfl⟩, fun _ => rfl, rfl⟩

end KaushOS.Fat
